import AroHcp.Lifecycle.Controllers

/-! What the cluster document knows of Cluster Service as long as a pending ID is never overwritten
and no POST outlasts the dispatcher's patience: every ID ever posted is the pending one or has been
promoted, and once the deletion is stamped no POST takes effect any more. -/

namespace AroHcp.Lifecycle

open DocStore Rollout

abbrev State := World Doc Remote

def Names (cluster : Cluster) (id : InternalID) : Prop :=
  cluster.pendingClusterServiceID = some id ∨ cluster.clusterServiceID = some id

/-- The deletion has been dispatched and no Cluster Service ID is left. -/
def Cleared (cluster : Cluster) : Prop :=
  cluster.clusterServiceDeletionTimestamp.isSome = true ∧ cluster.clusterServiceID = none

structure WellFormed (cluster : Cluster) : Prop where
  pending : cluster.pendingClusterServiceID = none ∨ cluster.clusterServiceID = none
  nonempty : ∀ id, Names cluster id → id.clusterID ≠ ""
  stamped : cluster.clusterServiceDeletionTimestamp.isSome = true →
    cluster.deletionTimestamp.isSome = true ∧ cluster.pendingClusterServiceID = none

/-- What is true of an earlier and a later version of the cluster. -/
structure Progress (a b : Cluster) : Prop where
  deleted : ∀ d, a.deletionTimestamp = some d → b.deletionTimestamp = some d
  stamped : a.clusterServiceDeletionTimestamp.isSome = true →
    b.clusterServiceDeletionTimestamp.isSome = true
  named : ∀ id, a.clusterServiceID = some id → b.clusterServiceID = some id ∨ Cleared b
  cleared : Cleared a → Cleared b

theorem Progress.refl (a : Cluster) : Progress a a :=
  ⟨fun _ h => h, id, fun _ h => .inl h, id⟩

theorem Progress.trans {a b c : Cluster} (h : Progress a b) (h' : Progress b c) : Progress a c where
  deleted d hd := h'.deleted d (h.deleted d hd)
  stamped hs := h'.stamped (h.stamped hs)
  named id hid := by
    rcases h.named id hid with hb | hb
    · exact h'.named id hb
    · exact .inr (h'.cleared hb)
  cleared hc := h'.cleared (h.cleared hc)

def Promoted (s : Store Doc) (id : InternalID) : Prop :=
  ∃ u, s.Past .cluster u ∧ u.doc.clusterServiceID = some id

theorem Promoted.put {s : Store Doc} {id : InternalID} (h : Promoted s id) (k : DocKey)
    (doc : Doc k) : Promoted (s.put k doc) id := by
  obtain ⟨u, hu, hid⟩ := h
  exact ⟨u, hu.put k doc, hid⟩

/-- The invariant, for the version of the cluster that is stored. -/
structure Tracked (w : State) (v : Versioned Cluster) : Prop where
  current : w.store.current .cluster = some v
  wellFormed : WellFormed v.doc
  progress : ∀ u, w.store.Past .cluster u → Progress u.doc v.doc
  kept : ∀ u, w.store.Past .cluster u → ∀ id, u.doc.pendingClusterServiceID = some id →
    v.doc.pendingClusterServiceID = some id ∨ Promoted w.store id
  posted : ∀ id ∈ w.outside.posted, ∃ u, w.store.Past .cluster u ∧
    u.doc.pendingClusterServiceID = some ⟨id⟩
  inflight : ∀ post ∈ w.outside.inflight, post.cluster.id ∈ w.outside.posted
  created : ∀ id ∈ w.outside.created, id ∈ w.outside.posted
  clusters : ∀ id ∈ w.outside.ids, id ∈ w.outside.created
  timely : ∀ d, v.doc.deletionTimestamp = some d → d ≤ w.outside.now ∧
    ∀ post ∈ w.outside.inflight, post.deadline < d + missingClusterServiceIDTimeout
  firstSeen : ∀ f, w.outside.firstSeen = some f →
    ∃ d, v.doc.deletionTimestamp = some d ∧ d ≤ f
  settled : v.doc.clusterServiceDeletionTimestamp.isSome = true →
    (∃ d, v.doc.deletionTimestamp = some d ∧
      d + missingClusterServiceIDTimeout ≤ w.outside.now) ∨
    ∀ u, w.store.Past .cluster u → ∀ id, Names u.doc id → id.clusterID ∈ w.outside.created
  gone : Cleared v.doc → ∀ id ∈ w.outside.created, id ∉ w.outside.ids

def Inv (w : State) : Prop :=
  ∃ v, Tracked w v

def Stamped (w : State) : Prop :=
  ∃ v, w.store.current .cluster = some v ∧
    v.doc.clusterServiceDeletionTimestamp.isSome = true

/-- How the state may change: once the deletion is stamped nothing comes back. -/
structure Rely (w w' : State) : Prop where
  grows : w.store.Extends w'.store
  now_le : w.outside.now ≤ w'.outside.now
  created : ∀ id ∈ w.outside.created, id ∈ w'.outside.created
  stamped : Stamped w → Stamped w'
  gone : Stamped w → ∀ id, id ∉ w.outside.ids → id ∉ w'.outside.ids

theorem Rely.refl (w : State) : Rely w w where
  grows := .refl w.store
  now_le := le_refl _
  created _ h := h
  stamped h := h
  gone _ _ h := h

theorem Rely.trans {w w' w'' : State} (h : Rely w w') (h' : Rely w' w'') : Rely w w'' where
  grows := h.grows.trans h'.grows
  now_le := h.now_le.trans h'.now_le
  created id hid := h'.created id (h.created id hid)
  stamped hs := h'.stamped (h.stamped hs)
  gone hs id hid := h'.gone (h.stamped hs) id (h.gone hs id hid)

instance : Std.Refl Rely := ⟨Rely.refl⟩

instance : IsTrans State Rely := ⟨fun _ _ _ => Rely.trans⟩

variable {w w' : State} {v u : Versioned Cluster} {id : InternalID}

namespace Tracked

/-- As long as an ID may still be cleared, the stored cluster names every ID that was ever named. -/
theorem names_of_past (h : Tracked w v) (hnot : ¬Cleared v.doc) (hu : w.store.Past .cluster u)
    (hid : Names u.doc id) : Names v.doc id := by
  have hpromoted : Promoted w.store id → Names v.doc id := by
    rintro ⟨u', hu', hid'⟩
    exact .inr (((h.progress u' hu').named id hid').resolve_right hnot)
  rcases hid with hpending | hstored
  · rcases h.kept u hu id hpending with hv | hv
    · exact .inl hv
    · exact hpromoted hv
  · exact hpromoted ⟨u, hu, hstored⟩

theorem names_of_posted (h : Tracked w v) (hnot : ¬Cleared v.doc) {uid : String}
    (hid : uid ∈ w.outside.posted) : Names v.doc ⟨uid⟩ := by
  obtain ⟨u, hu, hpending⟩ := h.posted uid hid
  exact h.names_of_past hnot hu (.inl hpending)

theorem names_eq (h : WellFormed v.doc) {id id' : InternalID} (hid : Names v.doc id)
    (hid' : Names v.doc id') : id = id' := by
  unfold Names at hid hid'
  rcases h.pending with hnone | hnone <;>
    simp only [hnone, reduceCtorEq, false_or, or_false] at hid hid'
  all_goals
    rw [hid] at hid'
    exact Option.some.inj hid'

/-! ## Writes of the cluster -/

structure Moves (w : State) (v : Versioned Cluster) (doc : Cluster) : Prop where
  wellFormed : WellFormed doc
  progress : Progress v.doc doc
  kept : ∀ id, v.doc.pendingClusterServiceID = some id →
    doc.pendingClusterServiceID = some id ∨ doc.clusterServiceID = some id
  marked : ∀ d, v.doc.deletionTimestamp = none → doc.deletionTimestamp = some d →
    d ≤ w.outside.now ∧
      ∀ post ∈ w.outside.inflight, post.deadline < d + missingClusterServiceIDTimeout
  settled : v.doc.clusterServiceDeletionTimestamp = none →
    doc.clusterServiceDeletionTimestamp.isSome = true →
    (∃ d, doc.deletionTimestamp = some d ∧
      d + missingClusterServiceIDTimeout ≤ w.outside.now) ∨
    ∀ u, w.store.Past .cluster u → ∀ id, Names u.doc id → id.clusterID ∈ w.outside.created
  names : doc.clusterServiceDeletionTimestamp.isSome = true →
    ∀ id, Names doc id → Names v.doc id
  gone : Cleared doc → ∀ id ∈ w.outside.created, id ∉ w.outside.ids

section

variable (h : Tracked w v)

include h

theorem put {doc : Cluster} (hm : Moves w v doc) :
    Inv { w with store := w.store.put .cluster doc } ∧
      Rely w { w with store := w.store.put .cluster doc } := by
  have hcurrent : (w.store.put .cluster doc).current .cluster = some ⟨w.store.nextETag, doc⟩ :=
    Store.put_current_self ..
  -- a version of the cluster after the write is an earlier one or the new one
  have hcases : ∀ {P : Versioned Cluster → Prop}, (∀ u, w.store.Past .cluster u → P u) →
      P ⟨w.store.nextETag, doc⟩ → ∀ u, (w.store.put .cluster doc).Past .cluster u → P u := by
    intro P hold hnew u hu
    rcases Store.past_put hu with hu | heq
    · exact hold u hu
    · cases heq
      exact hnew
  have hpromoted : ∀ id, doc.clusterServiceID = some id →
      Promoted (w.store.put .cluster doc) id :=
    fun id hid => ⟨_, Store.put_past .., hid⟩
  have htracked : Tracked { w with store := w.store.put .cluster doc } ⟨w.store.nextETag, doc⟩ := by
    refine ⟨hcurrent, hm.wellFormed, ?_, ?_, ?_, h.inflight, h.created, h.clusters, ?_, ?_, ?_,
      hm.gone⟩
    · exact hcases (fun u hu => (h.progress u hu).trans hm.progress) (.refl doc)
    · refine hcases ?_ fun id hid => .inl hid
      intro u hu id hid
      rcases h.kept u hu id hid with hv | hv
      · exact (hm.kept id hv).imp_right (hpromoted id)
      · exact .inr (hv.put _ _)
    · intro id hid
      obtain ⟨u, hu, hpending⟩ := h.posted id hid
      exact ⟨u, hu.put _ _, hpending⟩
    · intro d hd
      cases hv : v.doc.deletionTimestamp with
      | none => exact hm.marked d hv hd
      | some d' =>
        have heq := (hm.progress.deleted d' hv).symm.trans hd
        cases heq
        exact h.timely d hv
    · intro f hf
      obtain ⟨d, hd, hle⟩ := h.firstSeen f hf
      exact ⟨d, hm.progress.deleted d hd, hle⟩
    · intro hstamp
      -- the new version names nothing that the old one does not
      have hnew : (∀ u, w.store.Past .cluster u → ∀ id, Names u.doc id →
          id.clusterID ∈ w.outside.created) → ∀ u, (w.store.put .cluster doc).Past .cluster u →
          ∀ id, Names u.doc id → id.clusterID ∈ w.outside.created := by
        intro hall
        refine hcases hall fun id hid => ?_
        exact hall v (w.store.current_mem _ _ h.current) id (hm.names hstamp id hid)
      cases hv : v.doc.clusterServiceDeletionTimestamp with
      | none => exact (hm.settled hv hstamp).imp_right hnew
      | some t =>
        refine (h.settled (by rw [hv]; rfl)).imp ?_ hnew
        rintro ⟨d, hd, hle⟩
        exact ⟨d, hm.progress.deleted d hd, hle⟩
  refine ⟨⟨_, htracked⟩, Store.extends_put .., le_refl _, fun _ h => h, ?_, fun _ _ h => h⟩
  rintro ⟨v', hv', hstamp⟩
  rw [h.current] at hv'
  cases hv'
  exact ⟨_, hcurrent, hm.progress.stamped hstamp⟩

theorem putOther {k : DocKey} (hk : k ≠ .cluster) (doc : Doc k) :
    Inv { w with store := w.store.put k doc } ∧ Rely w { w with store := w.store.put k doc } := by
  have hcurrent : (w.store.put k doc).current .cluster = w.store.current .cluster :=
    Store.put_current_of_ne w.store doc hk.symm
  have hpast : ∀ u, (w.store.put k doc).Past .cluster u → w.store.Past .cluster u := by
    intro u hu
    rcases Store.past_put hu with hu | heq
    · exact hu
    · rw [Sigma.mk.injEq] at heq
      exact absurd heq.1.symm hk
  constructor
  · refine ⟨v, hcurrent.trans h.current, h.wellFormed, fun u hu => h.progress u (hpast u hu), ?_, ?_,
      h.inflight, h.created, h.clusters, h.timely, h.firstSeen, ?_, h.gone⟩
    · intro u hu id hid
      exact (h.kept u (hpast u hu) id hid).imp_right fun hv => hv.put k doc
    · intro id hid
      obtain ⟨u, hu, hpending⟩ := h.posted id hid
      exact ⟨u, hu.put k doc, hpending⟩
    · intro hstamp
      exact (h.settled hstamp).imp_right fun hall u hu => hall u (hpast u hu)
  · refine ⟨Store.extends_put .., le_refl _, fun _ h => h, ?_, fun _ _ h => h⟩
    rintro ⟨v', hv', hstamp⟩
    exact ⟨v', hcurrent.trans hv', hstamp⟩

/-! ## Cluster Service, the clock and the dispatcher's cache -/

theorem tick (duration : Nat) :
    Inv { w with outside := { w.outside with now := w.outside.now + duration } } ∧
      Rely w { w with outside := { w.outside with now := w.outside.now + duration } } := by
  have hle : w.outside.now ≤ w.outside.now + duration :=
    Int.le_add_of_nonneg_right (Int.natCast_nonneg duration)
  refine ⟨⟨v, { h with timely := ?_, settled := ?_ }⟩, .refl _, hle, fun _ h => h, fun h => h,
    fun _ _ h => h⟩
  · intro d hd
    obtain ⟨hnow, hposts⟩ := h.timely d hd
    exact ⟨hnow.trans hle, hposts⟩
  · intro hstamp
    refine (h.settled hstamp).imp_left ?_
    rintro ⟨d, hd, hover⟩
    exact ⟨d, hd, hover.trans hle⟩

theorem setFirstSeen {firstSeen : Option Time}
    (hf : ∀ f, firstSeen = some f → ∃ d, v.doc.deletionTimestamp = some d ∧ d ≤ f) :
    Inv { w with outside := { w.outside with firstSeen } } ∧
      Rely w { w with outside := { w.outside with firstSeen } } :=
  ⟨⟨v, { h with firstSeen := hf }⟩, .refl _, le_refl _, fun _ h => h, fun h => h, fun _ _ h => h⟩

theorem setDeleting (deleting : List String) :
    Inv { w with outside := { w.outside with deleting } } ∧
      Rely w { w with outside := { w.outside with deleting } } :=
  ⟨⟨v, { h with }⟩, .refl _, le_refl _, fun _ h => h, fun h => h, fun _ _ h => h⟩

theorem post (post : Post) (hu : w.store.Past .cluster u)
    (hid : u.doc.pendingClusterServiceID = some ⟨post.cluster.id⟩)
    (htimely : ∀ d, v.doc.deletionTimestamp = some d →
      post.deadline < d + missingClusterServiceIDTimeout) :
    Inv { w with outside := { w.outside with
      inflight := post :: w.outside.inflight, posted := post.cluster.id :: w.outside.posted } } ∧
    Rely w { w with outside := { w.outside with
      inflight := post :: w.outside.inflight, posted := post.cluster.id :: w.outside.posted } } := by
  refine ⟨⟨v, { h with posted := ?_, inflight := ?_, created := ?_, timely := ?_ }⟩, .refl _,
    le_refl _, fun _ h => h, fun h => h, fun _ _ h => h⟩
  · intro id hmem
    rcases List.mem_cons.mp hmem with rfl | hold
    · exact ⟨u, hu, hid⟩
    · exact h.posted id hold
  · intro p hp
    rcases List.mem_cons.mp hp with rfl | hold
    · exact List.mem_cons_self
    · exact List.mem_cons_of_mem _ (h.inflight p hold)
  · intro id hmem
    exact List.mem_cons_of_mem _ (h.created id hmem)
  · intro d hd
    refine ⟨(h.timely d hd).1, ?_⟩
    intro p hp
    rcases List.mem_cons.mp hp with rfl | hold
    · exact htimely d hd
    · exact (h.timely d hd).2 p hold

/-- Once the deletion is stamped, no POST that Cluster Service has not carried out yet is carried
out. -/
theorem not_stamped {post : Post} (hpost : post ∈ w.outside.inflight)
    (hnow : w.outside.now ≤ post.deadline) (hnew : post.cluster.id ∉ w.outside.created) :
    v.doc.clusterServiceDeletionTimestamp = none := by
  by_contra hstamp
  rcases h.settled (Option.isSome_iff_ne_none.mpr hstamp) with ⟨d, hd, hover⟩ | hall
  · have hlt := (h.timely d hd).2 post hpost
    exact absurd hnow (not_le_of_gt (lt_of_lt_of_le hlt hover))
  · obtain ⟨u, hu, hpending⟩ := h.posted _ (h.inflight post hpost)
    exact hnew (hall u hu _ (.inl hpending))

theorem takeEffect {place : Nat} {post : Post} (hpost : w.outside.inflight[place]? = some post)
    (hnow : w.outside.now ≤ post.deadline) (hnew : post.cluster.id ∉ w.outside.created) :
    Inv { w with outside := { w.outside with
      inflight := w.outside.inflight.eraseIdx place
      clusters := post.cluster :: w.outside.clusters
      created := post.cluster.id :: w.outside.created } } ∧
    Rely w { w with outside := { w.outside with
      inflight := w.outside.inflight.eraseIdx place
      clusters := post.cluster :: w.outside.clusters
      created := post.cluster.id :: w.outside.created } } := by
  have hmem := List.mem_of_getElem? hpost
  have hstamp := h.not_stamped hmem hnow hnew
  have hinflight : ∀ p ∈ w.outside.inflight.eraseIdx place, p ∈ w.outside.inflight :=
    fun p hp => List.mem_of_mem_eraseIdx hp
  refine ⟨⟨v, { h with
    inflight := fun p hp => h.inflight p (hinflight p hp)
    created := ?_, clusters := ?_, timely := ?_, settled := ?_, gone := ?_ }⟩, .refl _, le_refl _,
    fun _ h => List.mem_cons_of_mem _ h, fun h => h, ?_⟩
  · intro id hid
    rcases List.mem_cons.mp hid with rfl | hold
    · exact h.inflight post hmem
    · exact h.created id hold
  · intro id hid
    rcases List.mem_cons.mp hid with rfl | hold
    · exact List.mem_cons_self
    · exact List.mem_cons_of_mem _ (h.clusters id hold)
  · intro d hd
    exact ⟨(h.timely d hd).1, fun p hp => (h.timely d hd).2 p (hinflight p hp)⟩
  · intro hstamped
    rw [hstamp] at hstamped
    cases hstamped
  · rintro ⟨hstamped, -⟩
    rw [hstamp] at hstamped
    cases hstamped
  · rintro ⟨v', hv', hstamped⟩
    rw [h.current] at hv'
    cases hv'
    rw [hstamp] at hstamped
    cases hstamped

theorem uninstall (uid : String) :
    Inv { w with outside := { w.outside with
      clusters := w.outside.clusters.filter (·.id ≠ uid)
      deleting := w.outside.deleting.filter (· ≠ uid) } } ∧
    Rely w { w with outside := { w.outside with
      clusters := w.outside.clusters.filter (·.id ≠ uid)
      deleting := w.outside.deleting.filter (· ≠ uid) } } := by
  have hids : ∀ id ∈ (w.outside.clusters.filter (·.id ≠ uid)).map (·.id), id ∈ w.outside.ids := by
    intro id hid
    obtain ⟨c, hc, rfl⟩ := List.mem_map.mp hid
    exact List.mem_map_of_mem (List.mem_of_mem_filter hc)
  refine ⟨⟨v, { h with clusters := ?_, gone := ?_ }⟩, .refl _, le_refl _, fun _ h => h, fun h => h,
    ?_⟩
  · exact fun id hid => h.clusters id (hids id hid)
  · exact fun hcleared id hid hmem => h.gone hcleared id hid (hids id hmem)
  · exact fun _ id hid hmem => hid (hids id hmem)

end

end Tracked

end AroHcp.Lifecycle
