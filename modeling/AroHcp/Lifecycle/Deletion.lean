import AroHcp.Lib.ExceptLoop
import AroHcp.Lifecycle.Tracking

/-! When a deleted cluster leaves nothing behind in Cluster Service. -/

namespace AroHcp.Lifecycle

open DocStore Program Relation Rollout

/-- The deadline is over before the dispatcher gives up on a cluster deleted at `d`. -/
def inTime (deadline d : Time) : Bool :=
  deadline < d + missingClusterServiceIDTimeout

/-- A new pending ID is written only over a cluster that still needs one, and the deletion is marked
with a timestamp that leaves every POST on its way enough time. -/
def carefulWrite (w : State) : Write Doc → Bool
  | .replace .cluster _ doc => (w.store.current .cluster).all fun v =>
    (doc.pendingClusterServiceID.isNone ||
      doc.pendingClusterServiceID = v.doc.pendingClusterServiceID || assignNeedsWork v.doc) &&
    doc.deletionTimestamp.all fun d => w.outside.inflight.all fun post => inTime post.deadline d
  | _ => true

/-- Beside the writes, a POST for a deleted cluster is sent only if it ends in time, and Cluster
Service does not make a cluster anew that it has deleted. -/
def careful : WorldCall Doc Call → State → Bool
  | .doc (.commit writes), w => writes.all (carefulWrite w)
  | .out (.postCluster _ deadline), w =>
    deadline < w.outside.now || (w.store.current .cluster).all fun v =>
      v.doc.deletionTimestamp.all (inTime deadline)
  | .out (.takeEffect place), w =>
    w.outside.inflight[place]?.all fun post =>
      post.cluster.id ∉ w.outside.created || post.cluster.id ∈ w.outside.ids
  | _, _ => true

variable {β : Type} {w w' : State} {v u : Versioned Cluster} {Q : β → State → Prop}

/-- The program keeps the invariant in every careful run. -/
abbrev Safe (p : Prog β) (Q : β → State → Prop) (w : State) : Prop :=
  wp (WorldCall.sem Call.sem) (fun c w => careful c w = true) Inv Rely p Q w

theorem careful_replace {etag : Nat} {doc : Cluster}
    (hcareful : careful (.doc (.commit [.replace DocKey.cluster etag doc])) w = true)
    (hcurrent : w.store.current .cluster = some v) :
    (doc.pendingClusterServiceID = none ∨
      doc.pendingClusterServiceID = v.doc.pendingClusterServiceID ∨
      assignNeedsWork v.doc = true) ∧
    ∀ d, doc.deletionTimestamp = some d → ∀ post ∈ w.outside.inflight,
      post.deadline < d + missingClusterServiceIDTimeout := by
  simp only [careful, carefulWrite, inTime, List.all_cons, List.all_nil, Bool.and_true, hcurrent,
    Option.all_some, Bool.and_eq_true, Bool.or_eq_true, Option.isNone_iff_eq_none,
    decide_eq_true_eq, or_assoc] at hcareful
  refine ⟨hcareful.1, ?_⟩
  intro d hd post hpost
  have hall := hcareful.2
  rw [hd, Option.all_some, List.all_eq_true] at hall
  exact of_decide_eq_true (hall post hpost)

theorem hasClusterServiceID_eq_false (hv : WellFormed v.doc)
    (h : v.doc.hasClusterServiceID = false) : v.doc.clusterServiceID = none := by
  cases hid : v.doc.clusterServiceID with
  | none => rfl
  | some id =>
    have hne := hv.nonempty id (.inr hid)
    simp [Cluster.hasClusterServiceID, hid, hne] at h

/-! ## What each write does to the cluster -/

namespace Tracked

section

variable (h : Tracked w v)

include h

theorem not_cleared_of_pending {id : InternalID} (hid : v.doc.pendingClusterServiceID = some id) :
    v.doc.clusterServiceDeletionTimestamp = none := by
  by_contra hstamp
  have hnone := (h.wellFormed.stamped (Option.isSome_iff_ne_none.mpr hstamp)).2
  rw [hid] at hnone
  cases hnone

theorem moves_of_same {doc : Cluster} (hdeleted : doc.deletionTimestamp = v.doc.deletionTimestamp)
    (hstamp : doc.clusterServiceDeletionTimestamp = v.doc.clusterServiceDeletionTimestamp)
    (hpending : doc.pendingClusterServiceID = v.doc.pendingClusterServiceID)
    (hid : doc.clusterServiceID = v.doc.clusterServiceID) : Moves w v doc := by
  have hnames : ∀ id, Names doc id ↔ Names v.doc id := by
    intro id
    rw [Names, Names, hpending, hid]
  have hcleared : Cleared doc ↔ Cleared v.doc := by
    rw [Cleared, Cleared, hstamp, hid]
  refine ⟨⟨?_, ?_, ?_⟩, ⟨?_, ?_, ?_, hcleared.mpr⟩, ?_, ?_, ?_, fun _ id => (hnames id).mp,
    fun hc => h.gone (hcleared.mp hc)⟩
  · rw [hpending, hid]
    exact h.wellFormed.pending
  · exact fun id hn => h.wellFormed.nonempty id ((hnames id).mp hn)
  · rw [hstamp, hdeleted, hpending]
    exact h.wellFormed.stamped
  · rw [hdeleted]
    exact fun d hd => hd
  · rw [hstamp]
    exact fun hs => hs
  · rw [hid]
    exact fun id hn => .inl hn
  · rw [hpending]
    exact fun id hn => .inl hn
  · intro d hnone hd
    rw [hdeleted, hnone] at hd
    cases hd
  · intro hnone hs
    rw [hstamp, hnone] at hs
    cases hs

theorem moves_assign {uid : String} (huid : uid ≠ "") (hwork : assignNeedsWork v.doc = true) :
    Moves w v { v.doc with pendingClusterServiceID := some ⟨uid⟩ } := by
  simp only [assignNeedsWork, Bool.and_eq_true, Option.isNone_iff_eq_none, Bool.not_eq_true'] at hwork
  obtain ⟨⟨hdeleted, hpending⟩, hhas⟩ := hwork
  have hid := hasClusterServiceID_eq_false h.wellFormed hhas
  have hstamp : v.doc.clusterServiceDeletionTimestamp = none := by
    by_contra hstamp
    have hsome := (h.wellFormed.stamped (Option.isSome_iff_ne_none.mpr hstamp)).1
    rw [hdeleted] at hsome
    cases hsome
  refine ⟨⟨.inr hid, ?_, ?_⟩, ⟨fun _ hd => hd, fun hs => hs, ?_, fun hc => hc⟩, ?_, ?_, ?_, ?_, ?_⟩
  · rintro id (hn | hn)
    · cases hn
      exact huid
    · exact h.wellFormed.nonempty id (.inr hn)
  · intro hs
    rw [hstamp] at hs
    cases hs
  · exact fun id hn => .inl hn
  · intro id hn
    rw [hpending] at hn
    cases hn
  · intro d hnone hd
    rw [hnone] at hd
    cases hd
  · intro hnone hs
    rw [hnone] at hs
    cases hs
  · intro hs
    rw [hstamp] at hs
    cases hs
  · exact h.gone

/-- The pending ID becomes the Cluster Service ID, found in Cluster Service or not. -/
theorem moves_promote {id : InternalID} (hid : v.doc.pendingClusterServiceID = some id) :
    Moves w v { v.doc with pendingClusterServiceID := none, clusterServiceID := some id } := by
  have hstamp := h.not_cleared_of_pending hid
  have hnone : v.doc.clusterServiceID = none := by
    rcases h.wellFormed.pending with hp | hp
    · rw [hid] at hp
      cases hp
    · exact hp
  refine ⟨⟨.inl rfl, ?_, ?_⟩, ⟨fun _ hd => hd, fun hs => hs, ?_, ?_⟩, ?_, ?_, ?_, ?_, ?_⟩
  · rintro id' (hn | hn)
    · cases hn
    · cases hn
      exact h.wellFormed.nonempty id (.inl hid)
  · intro hs
    exact ⟨(h.wellFormed.stamped hs).1, rfl⟩
  · intro id' hn
    rw [hnone] at hn
    cases hn
  · rintro ⟨hs, -⟩
    rw [hstamp] at hs
    cases hs
  · intro id' hn
    rw [hid] at hn
    exact .inr hn
  · intro d hd hd'
    rw [hd] at hd'
    cases hd'
  · intro hs hs'
    rw [hs] at hs'
    cases hs'
  · intro hs
    rw [hstamp] at hs
    cases hs
  · rintro ⟨-, hcs⟩
    cases hcs

theorem moves_mark {now : Time} (hnow : now ≤ w.outside.now)
    (htimely : ∀ d, v.doc.deletionTimestamp.or (some now) = some d → ∀ post ∈ w.outside.inflight,
      post.deadline < d + missingClusterServiceIDTimeout) :
    Moves w v { v.doc with
      deletionTimestamp := v.doc.deletionTimestamp.or (some now) } := by
  refine ⟨⟨h.wellFormed.pending, h.wellFormed.nonempty, ?_⟩,
    ⟨?_, fun hs => hs, fun id hn => .inl hn, fun hc => hc⟩, fun id hn => .inl hn, ?_, ?_,
    fun _ id hn => hn, h.gone⟩
  · intro hs
    obtain ⟨hdeleted, hpending⟩ := h.wellFormed.stamped hs
    exact ⟨by simp, hpending⟩
  · intro d hd
    simp [hd]
  · intro d hnone hd
    refine ⟨?_, htimely d hd⟩
    rw [hnone, Option.none_or, Option.some.injEq] at hd
    exact hd ▸ hnow
  · intro hnone hs
    rw [hnone] at hs
    cases hs

theorem moves_stamp {t : Time} (hdeleted : v.doc.deletionTimestamp.isSome = true)
    (hstamp : v.doc.clusterServiceDeletionTimestamp = none)
    (hpending : v.doc.pendingClusterServiceID = none)
    (hsettled : (∃ d, v.doc.deletionTimestamp = some d ∧
        d + missingClusterServiceIDTimeout ≤ w.outside.now) ∨
      ∃ id, v.doc.clusterServiceID = some id ∧ id.clusterID ∈ w.outside.created) :
    Moves w v { v.doc with clusterServiceDeletionTimestamp := some t } := by
  have hnot : ¬Cleared v.doc := by
    rintro ⟨hs, -⟩
    rw [hstamp] at hs
    cases hs
  refine ⟨⟨h.wellFormed.pending, h.wellFormed.nonempty, fun _ => ⟨hdeleted, hpending⟩⟩,
    ⟨fun _ hd => hd, fun _ => rfl, fun id hn => .inl hn, fun hc => absurd hc hnot⟩,
    fun id hn => .inl hn, ?_, ?_, fun _ id hn => hn, ?_⟩
  · intro d hnone hd
    rw [hnone] at hd
    cases hd
  · intro _ _
    refine hsettled.imp_right ?_
    rintro ⟨id, hid, hcreated⟩ u hu id' hn
    rw [← names_eq h.wellFormed (.inr hid) (h.names_of_past hnot hu hn)]
    exact hcreated
  · -- the cluster names no ID, so that no POST was ever sent
    rintro ⟨-, hnone⟩ uid huid
    rcases h.names_of_posted hnot (h.created uid huid) with hn | hn
    · rw [hpending] at hn
      cases hn
    · rw [hnone] at hn
      cases hn

theorem moves_clear {id : InternalID} (hid : v.doc.clusterServiceID = some id)
    (hstamp : v.doc.clusterServiceDeletionTimestamp.isSome = true)
    (hgone : id.clusterID ∉ w.outside.ids) :
    Moves w v { v.doc with clusterServiceID := none } := by
  obtain ⟨hdeleted, hpending⟩ := h.wellFormed.stamped hstamp
  have hnot : ¬Cleared v.doc := by
    rintro ⟨-, hnone⟩
    rw [hid] at hnone
    cases hnone
  refine ⟨⟨.inr rfl, ?_, fun _ => ⟨hdeleted, hpending⟩⟩,
    ⟨fun _ hd => hd, fun hs => hs, fun _ _ => .inr ⟨hstamp, rfl⟩, fun _ => ⟨hstamp, rfl⟩⟩, ?_, ?_, ?_,
    ?_, ?_⟩
  · rintro id' (hn | hn)
    · exact h.wellFormed.nonempty id' (.inl hn)
    · cases hn
  · intro id' hn
    rw [hpending] at hn
    cases hn
  · intro d hnone hd
    rw [hnone] at hd
    cases hd
  · intro hnone
    rw [hnone] at hstamp
    cases hstamp
  · rintro _ id' (hn | hn)
    · exact .inl hn
    · cases hn
  · intro _ uid huid
    have hn := h.names_of_posted hnot (h.created uid huid)
    rw [names_eq h.wellFormed (.inr hid) hn] at hgone
    exact hgone

end

end Tracked

/-! ## Rules for the calls -/

/-- A replacement of the copy that was read, if it is accepted, is one of the moves. -/
theorem wp_replaceCluster {doc : Cluster} {f : Bool → Prog β} (hw : Inv w)
    (hpast : w.store.Past .cluster u)
    (hmoves : Tracked w u →
      careful (.doc (.commit [.replace DocKey.cluster u.etag doc])) w = true →
      Tracked.Moves w u doc)
    (hnext : ∀ accepted w', Inv w' → Safe (f accepted) Q w') :
    Safe (Sys.replace DocKey.cluster u.etag doc >>= f) Q w := by
  refine Sys.wp_replace hw hpast ?_ fun w' _ hw' => hnext false w' hw'
  intro hcareful hcurrent
  obtain ⟨v, hv⟩ := hw
  have heq := hv.current
  rw [hcurrent] at heq
  cases heq
  exact ⟨hv.put (hmoves hv hcareful), fun w' _ hw' => hnext true w' hw'⟩

theorem wp_now {f : Time → Prog β} (hw : Inv w)
    (h : ∀ w', Rely w w' → Inv w' → Safe (f w.outside.now) Q w') :
    Safe (Sys.out Call.now >>= f) Q w := by
  refine Sys.wp_ask hw ?_ ?_
  · rintro r o' ⟨outcome, hanswer⟩
    cases hanswer
    rfl
  · rintro r ⟨outcome, hanswer⟩
    cases hanswer
    exact h

variable {deadline : Time}

section

variable (hw : Inv w)

include hw

theorem wp_listClusters {f : Option (List CSCluster) → Prog β}
    (h : ∀ r, (∀ clusters, r = some clusters → clusters = w.outside.clusters) →
      ∀ w', Rely w w' → Inv w' → Safe (f r) Q w') :
    Safe (Sys.out (Call.listClusters deadline) >>= f) Q w := by
  refine Sys.wp_out ?_
  rintro r o' ⟨outcome, hanswer⟩ _
  dsimp only [Call.answer] at hanswer
  split_ifs at hanswer <;> cases hanswer
  · refine ⟨⟨hw, Rely.refl w⟩, h none ?_⟩
    rintro clusters ⟨⟩
  · refine ⟨⟨hw, Rely.refl w⟩, h _ ?_⟩
    rintro clusters ⟨⟩
    rfl

theorem wp_postReply {cluster : CSCluster} {f : Option CSCluster → Prog β}
    (h : ∀ r, (∀ c, r = some c → c.id ∈ w.outside.created) → ∀ w', Rely w w' → Inv w' →
      Safe (f r) Q w') :
    Safe (Sys.out (Call.postReply cluster deadline) >>= f) Q w := by
  refine Sys.wp_out ?_
  rintro r o' ⟨outcome, hanswer⟩ _
  dsimp only [Call.answer] at hanswer
  split_ifs at hanswer with hfailed hcreated <;> cases hanswer
  · refine ⟨⟨hw, Rely.refl w⟩, h none ?_⟩
    rintro c ⟨⟩
  · refine ⟨⟨hw, Rely.refl w⟩, h _ ?_⟩
    rintro c ⟨⟩
    exact hcreated.2

/-- A POST is sent with an ID that was pending in some version of the cluster. -/
theorem wp_postCluster {cluster : CSCluster} {f : Unit → Prog β} (hpast : w.store.Past .cluster u)
    (hid : u.doc.pendingClusterServiceID = some ⟨cluster.id⟩)
    (h : ∀ w', Rely w w' → Inv w' → Safe (f ()) Q w') :
    Safe (Sys.out (Call.postCluster cluster deadline) >>= f) Q w := by
  refine Sys.wp_out ?_
  rintro r o' ⟨outcome, hanswer⟩ hcareful
  obtain ⟨v, hv⟩ := hw
  dsimp only [Call.answer] at hanswer
  split_ifs at hanswer with hnow <;> cases hanswer
  · have hstep := hv.post ⟨cluster, deadline⟩ hpast hid (by
      intro d hd
      simpa [careful, inTime, hv.current, hd, not_lt.mpr hnow] using hcareful)
    exact ⟨hstep, fun w' hw' => h w' (hstep.2.trans hw')⟩
  · exact ⟨⟨⟨v, hv⟩, Rely.refl w⟩, h⟩

theorem wp_deleteCluster {id : InternalID} {f : Status → Prog β}
    (h : ∀ r w', (r = .ok → id.clusterID ∈ w'.outside.created) → Rely w w' → Inv w' →
      Safe (f r) Q w') :
    Safe (Sys.out (Call.deleteCluster id deadline) >>= f) Q w := by
  refine Sys.wp_out ?_
  rintro r o' ⟨outcome, hanswer⟩ _
  have hsame : ∀ r, r ≠ Status.ok → (Inv w ∧ Rely w w) ∧ ∀ w', Rely w w' → Inv w' →
      Safe (f r) Q w' := by
    intro r hr
    refine ⟨⟨hw, Rely.refl w⟩, fun w' hw' => h r w' ?_ hw'⟩
    intro hok
    exact absurd hok hr
  obtain ⟨v, hv⟩ := hw
  dsimp only [Call.answer] at hanswer
  split_ifs at hanswer with hfailed hnow hpresent hlost <;> cases hanswer
  · exact hsame .failed (by decide)
  · have hstep := hv.setDeleting (id.clusterID :: w.outside.deleting)
    refine ⟨hstep, fun w' hw' => h .failed w' ?_ (hstep.2.trans hw')⟩
    rintro ⟨⟩
  · have hstep := hv.setDeleting (id.clusterID :: w.outside.deleting)
    refine ⟨hstep, fun w' hw' => h .ok w' ?_ (hstep.2.trans hw')⟩
    intro _
    exact (hstep.2.trans hw').created _ (hv.clusters _ hpresent)
  · exact hsame .notFound (by decide)

theorem wp_getClusterStatus {id : InternalID} {f : Status → Prog β}
    (h : ∀ r, (r = .notFound → id.clusterID ∉ w.outside.ids) → ∀ w', Rely w w' → Inv w' →
      Safe (f r) Q w') :
    Safe (Sys.out (Call.getClusterStatus id deadline) >>= f) Q w := by
  refine Sys.wp_out ?_
  rintro r o' ⟨outcome, hanswer⟩ _
  dsimp only [Call.answer] at hanswer
  split_ifs at hanswer with hfailed hnow hpresent <;> cases hanswer
  · exact ⟨⟨hw, Rely.refl w⟩, h .failed (by rintro ⟨⟩)⟩
  · exact ⟨⟨hw, Rely.refl w⟩, h .ok (by rintro ⟨⟩)⟩
  · exact ⟨⟨hw, Rely.refl w⟩, h .notFound fun _ => hpresent⟩

theorem wp_getCluster {f : Option (Versioned (Doc .cluster)) → Prog β}
    (hnone : ∀ w', Safe (f none) Q w')
    (h : ∀ v w', w'.store.Past .cluster v → Inv w' → Safe (f (some v)) Q w') :
    Safe (Sys.get .cluster >>= f) Q w := by
  refine Sys.wp_get hw ?_
  intro w' hr hw'
  cases hcluster : w.store.current .cluster with
  | none => exact hnone w'
  | some v => exact h v w' (hr.grows.past _ _ (w.store.current_mem _ _ hcluster)) hw'

/-! ## The pending ID and the creation -/

theorem assignPendingClusterServiceID_safe {uid : String} (huid : uid ≠ "") :
    Safe (assignPendingClusterServiceID uid) (fun _ _ => True) w := by
  refine Sys.wp_cached hw ?_
  intro cached _ w1 _ hw1
  rcases cached with _ | cached
  · trivial
  dsimp only
  split_ifs with hwork
  · trivial
  refine wp_getCluster hw1 (fun _ => trivial) ?_
  intro cluster w2 hpast hw2
  refine wp_replaceCluster hw2 hpast ?_ fun _ _ _ => trivial
  intro hv hcareful
  rcases (careful_replace hcareful hv.current).1 with hnone | hsame | hneeds
  · cases hnone
  · exact hv.moves_of_same rfl rfl hsame rfl
  · exact hv.moves_assign huid hneeds

theorem storeClusterServiceID_safe {id : InternalID} {csCluster : CSCluster}
    (hpast : w.store.Past .cluster u) (hid : u.doc.pendingClusterServiceID = some id)
    (hcreated : csCluster.id ∈ w.outside.created) :
    Safe (storeClusterServiceID u csCluster) (fun _ _ => True) w := by
  refine wp_replaceCluster hw hpast ?_ fun _ _ _ => trivial
  intro hv _
  have hnot : ¬Cleared u.doc := by
    rintro ⟨hs, -⟩
    rw [hv.not_cleared_of_pending hid] at hs
    cases hs
  -- Cluster Service has no cluster for another ID
  have hnames := hv.names_of_posted hnot (hv.created _ hcreated)
  rw [← Tracked.names_eq hv.wellFormed (.inl hid) hnames]
  exact hv.moves_promote hid

theorem provisionShardID_safe (serviceProviderCluster : ServiceProviderCluster) :
    Safe (provisionShardID serviceProviderCluster) (fun _ _ => True) w := by
  unfold provisionShardID
  split
  · trivial
  · split
    · trivial
    · refine Sys.wp_cached hw ?_
      intro managementCluster _ w1 _ hw1
      cases managementCluster with
      | none => trivial
      | some managementCluster =>
        dsimp only
        split <;> trivial

variable {cluster : Cluster}

omit hw in
theorem mem_of_findClusterByAzureInfo {want : AzureInfo} {clusters : List CSCluster}
    {csCluster : CSCluster} (h : findClusterByAzureInfo want clusters = .ok (some csCluster)) :
    csCluster ∈ clusters := by
  refine ExceptLoop.of_foldlM (P := fun found => ∀ c, found = some c → c ∈ clusters) h
    (by simp) ?_ _ rfl
  intro cluster hmem found found' hfound hstep
  split_ifs at hstep
  · cases hstep
    exact hfound
  · cases hstep
    rintro c ⟨⟩
    exact hmem

section

variable {key : HCPClusterKey} {pending : InternalID}
  {serviceProviderCluster : ServiceProviderCluster} {tenantID : String}
  (hpast : w.store.Past .cluster u) (hid : u.doc.pendingClusterServiceID = some pending)

include hpast hid

theorem createClusterServiceCluster_safe :
    Safe (createClusterServiceCluster key deadline cluster pending serviceProviderCluster tenantID)
      (fun r w => ∀ c, r = .ok c → c.id ∈ w.outside.created) w := by
  refine wp_seq hw (provisionShardID_safe hw serviceProviderCluster) ?_
  intro shard w1 _ hr1 hw1
  have hpast := hr1.grows.past _ _ hpast
  cases shard with
  | error err => rintro c ⟨⟩
  | ok shard =>
    refine wp_postCluster hw1 hpast hid ?_
    intro w2 _ hw2
    refine wp_postReply hw2 ?_
    intro result hresult w3 hr3 _
    cases result with
    | none => rintro c ⟨⟩
    | some result =>
      dsimp only
      split_ifs with hother
      · rintro c ⟨⟩
      · rintro c ⟨⟩
        exact hr3.created _ (hresult result rfl)

theorem findOrCreate_safe :
    Safe (findOrCreate key u pending serviceProviderCluster tenantID) (fun _ _ => True) w := by
  refine wp_now hw ?_
  intro w1 hr1 hw1
  refine wp_listClusters hw1 ?_
  intro listed hlisted w2 hr2 hw2
  have hpast := (hr1.trans hr2).grows.past _ _ hpast
  rcases listed with _ | clusters
  · trivial
  dsimp only
  split
  · trivial
  · rename_i csCluster hfound
    refine storeClusterServiceID_safe hw2 hpast hid (hr2.created _ ?_)
    obtain ⟨v, hv⟩ := hw1
    have hmem := mem_of_findClusterByAzureInfo hfound
    rw [hlisted clusters rfl] at hmem
    exact hv.clusters _ (List.mem_map_of_mem hmem)
  · split_ifs with hdns
    · trivial
    refine wp_seq hw2 (createClusterServiceCluster_safe hw2 hpast hid) ?_
    intro result w3 hcreated hr3 hw3
    cases result with
    | error err => trivial
    | ok csCluster =>
      exact storeClusterServiceID_safe hw3 (hr3.grows.past _ _ hpast) hid (hcreated _ rfl)

theorem createFrom_safe {enabled : Bool} :
    Safe (createFrom key enabled u pending) (fun _ _ => True) w := by
  refine Sys.wp_cached hw ?_
  intro existing _ w1 hr1 hw1
  rcases existing with _ | existing
  · trivial
  dsimp only
  split_ifs with hversion hdeny
  · trivial
  · trivial
  refine Sys.wp_cached hw1 ?_
  intro subscription _ w2 hr2 hw2
  cases subscription with
  | none => trivial
  | some subscription =>
    dsimp only
    split
    · trivial
    · exact findOrCreate_safe hw2 ((hr1.trans hr2).grows.past _ _ hpast) hid

end

theorem placementResolved_safe : Safe placementResolved (fun _ _ => True) w := by
  refine Sys.wp_cached hw ?_
  intro serviceProviderCluster _ w1 _ _
  cases serviceProviderCluster <;> trivial

theorem createInClusterService_safe (key : HCPClusterKey) (enabled : Bool) :
    Safe (createInClusterService key enabled) (fun _ _ => True) w := by
  refine Sys.wp_cached hw ?_
  intro cached _ w1 _ hw1
  rcases cached with _ | cached
  · trivial
  dsimp only
  split_ifs with hwork
  · trivial
  refine wp_seq hw1 (placementResolved_safe hw1) ?_
  intro resolved w2 _ _ hw2
  split_ifs with hresolved
  · trivial
  refine wp_getCluster hw2 (fun _ => trivial) ?_
  intro cluster w3 hpast hw3
  dsimp only
  split_ifs with hlive
  · trivial
  refine wp_seq hw3 (placementResolved_safe hw3) ?_
  intro resolved' w4 _ hr4 hw4
  split_ifs with hresolved'
  · trivial
  split
  · trivial
  · rename_i pending hid
    exact createFrom_safe hw4 (hr4.grows.past _ _ hpast) hid

/-! ## The deletion -/

theorem deleteCluster_safe : Safe deleteCluster (fun _ _ => True) w := by
  refine wp_getCluster hw (fun _ => trivial) ?_
  intro cluster w1 hpast hw1
  refine wp_now hw1 ?_
  intro w2 hr2 hw2
  refine wp_replaceCluster hw2 (hr2.grows.past _ _ hpast) ?_ fun _ _ _ => trivial
  intro hv hcareful
  exact hv.moves_mark hr2.now_le (careful_replace hcareful hv.current).2

omit hw in
/-- What the dispatcher knows of the cluster it has read: it is deleted, and not yet stamped. -/
theorem dispatchNeedsWork_eq_true (h : ¬dispatchNeedsWork cluster = false) :
    (∃ d, cluster.deletionTimestamp = some d) ∧ cluster.clusterServiceDeletionTimestamp = none := by
  rw [Bool.not_eq_false, dispatchNeedsWork, Bool.and_eq_true, Option.isSome_iff_exists,
    Option.isNone_iff_eq_none] at h
  exact h

section

variable {d : Time} (hpast : w.store.Past .cluster u) (hd : u.doc.deletionTimestamp = some d)

include hpast hd

/-- The dispatcher's clock starts when the deletion has been marked. -/
theorem firstSeenDeletionTimestamp_safe :
    Safe firstSeenDeletionTimestamp (fun f _ => d ≤ f) w := by
  refine Sys.wp_out ?_
  rintro r o' ⟨outcome, hanswer⟩ _
  cases hanswer
  refine ⟨⟨hw, Rely.refl w⟩, ?_⟩
  intro w1 hr1 hw1
  obtain ⟨v, hv⟩ := hw
  have hmark := (hv.progress u hpast).deleted d hd
  cases hseen : w.outside.firstSeen with
  | some f =>
    obtain ⟨d', hd', hle⟩ := hv.firstSeen f hseen
    rw [hmark] at hd'
    cases hd'
    exact hle
  | none =>
    have hle := (hv.timely d hmark).1.trans hr1.now_le
    refine wp_now hw1 ?_
    intro w2 hr2 hw2
    refine Sys.wp_out ?_
    rintro r o' ⟨outcome, hanswer⟩ _
    cases hanswer
    obtain ⟨v2, hv2⟩ := hw2
    refine ⟨hv2.setFirstSeen ?_, fun _ _ _ => hle⟩
    rintro f ⟨⟩
    have hpast2 := (hr1.trans hr2).grows.past _ _ hpast
    exact ⟨d, (hv2.progress u hpast2).deleted d hd, hle⟩

variable (hstamp : u.doc.clusterServiceDeletionTimestamp = none)

include hstamp

theorem stampClusterServiceDeletion_safe
    (hpending : WellFormed u.doc → u.doc.pendingClusterServiceID = none)
    (hsettled : d + missingClusterServiceIDTimeout ≤ w.outside.now ∨
      ∃ id, u.doc.clusterServiceID = some id ∧ id.clusterID ∈ w.outside.created) :
    Safe (stampClusterServiceDeletion u) (fun _ _ => True) w := by
  refine wp_now hw ?_
  intro w1 hr1 hw1
  refine wp_replaceCluster hw1 (hr1.grows.past _ _ hpast) ?_ ?_
  · intro hv _
    refine hv.moves_stamp (by rw [hd]; rfl) hstamp (hpending hv.wellFormed) ?_
    refine hsettled.imp ?_ ?_
    · intro hover
      exact ⟨d, hd, hover.trans hr1.now_le⟩
    · rintro ⟨id, hid, hcreated⟩
      exact ⟨id, hid, hr1.created _ hcreated⟩
  · intro accepted w2 hw2
    split_ifs with haccepted
    · trivial
    refine Sys.wp_out ?_
    rintro r o' ⟨outcome, hanswer⟩ _
    cases hanswer
    obtain ⟨v, hv⟩ := hw2
    refine ⟨hv.setFirstSeen ?_, fun _ _ _ => trivial⟩
    rintro f ⟨⟩

theorem stampAfterWaiting_safe {firstSeen : Time}
    (hpending : WellFormed u.doc → u.doc.pendingClusterServiceID = none) (hseen : d ≤ firstSeen) :
    Safe (stampAfterWaiting u firstSeen) (fun _ _ => True) w := by
  refine wp_now hw ?_
  intro w1 hr1 hw1
  split_ifs with hwait
  · trivial
  refine stampClusterServiceDeletion_safe hw1 (hr1.grows.past _ _ hpast) hd hstamp hpending (.inl ?_)
  calc d + missingClusterServiceIDTimeout
      ≤ firstSeen + missingClusterServiceIDTimeout := Int.add_le_add_right hseen _
    _ ≤ w.outside.now := Int.add_le_of_le_sub_left (not_lt.mp hwait)
    _ ≤ w1.outside.now := hr1.now_le

omit hw hpast hd hstamp in
theorem recoverPendingDeletionTarget_eq_some {replacement : Cluster}
    (h : recoverPendingDeletionTarget cluster = some replacement) :
    ∃ id, cluster.pendingClusterServiceID = some id ∧ replacement =
      { cluster with pendingClusterServiceID := none, clusterServiceID := some id } := by
  unfold recoverPendingDeletionTarget at h
  split_ifs at h
  split at h
  · cases h
  · rename_i id hid
    split_ifs at h
    cases h
    exact ⟨id, hid, rfl⟩

omit hw hpast hd hstamp in
/-- A deleted cluster without a Cluster Service ID that is not recovered has no pending one. -/
theorem pending_of_recoverPendingDeletionTarget (hwf : WellFormed cluster)
    (hd : cluster.deletionTimestamp.isSome = true)
    (hstamp : cluster.clusterServiceDeletionTimestamp = none)
    (h : recoverPendingDeletionTarget cluster = none) :
    cluster.pendingClusterServiceID = none := by
  rcases hwf.pending with hnone | hnone
  · exact hnone
  · cases hid : cluster.pendingClusterServiceID with
    | none => rfl
    | some id =>
      have hne := hwf.nonempty id (.inl hid)
      obtain ⟨d, hd⟩ := Option.isSome_iff_exists.mp hd
      simp [recoverPendingDeletionTarget, Cluster.hasClusterServiceID, hnone, hid, hd, hstamp, hne]
        at h

theorem dispatchFrom_safe : Safe (dispatchFrom u) (fun _ _ => True) w := by
  refine wp_seq hw (firstSeenDeletionTimestamp_safe hw hpast hd) ?_
  intro firstSeen w1 hseen hr1 hw1
  have hpast := hr1.grows.past _ _ hpast
  cases hrecover : recoverPendingDeletionTarget u.doc with
  | some replacement =>
    obtain ⟨id, hid, rfl⟩ := recoverPendingDeletionTarget_eq_some hrecover
    refine wp_replaceCluster hw1 hpast (fun hv _ => hv.moves_promote hid) ?_
    intro accepted w2 _
    cases accepted <;> trivial
  | none =>
    have hpending : WellFormed u.doc → u.doc.pendingClusterServiceID = none := fun hwf =>
      pending_of_recoverPendingDeletionTarget hwf (by rw [hd]; rfl) hstamp hrecover
    refine wp_now hw1 ?_
    intro w2 hr2 hw2
    have hpast := hr2.grows.past _ _ hpast
    split
    · exact stampAfterWaiting_safe hw2 hpast hd hstamp hpending hseen
    · rename_i csID hcsID
      have hid := (Option.filter_eq_some_iff.mp hcsID).1
      refine wp_deleteCluster hw2 ?_
      intro status w3 hok hr3 hw3
      have hpast := hr3.grows.past _ _ hpast
      cases status with
      | ok =>
        exact stampClusterServiceDeletion_safe hw3 hpast hd hstamp hpending
          (.inr ⟨csID, hid, hok rfl⟩)
      | notFound => exact stampAfterWaiting_safe hw3 hpast hd hstamp hpending hseen
      | failed => trivial

end

theorem dispatchDelete_safe : Safe dispatchDelete (fun _ _ => True) w := by
  refine Sys.wp_cached hw ?_
  intro cached _ w1 _ hw1
  rcases cached with _ | cached
  · trivial
  dsimp only
  split_ifs with hwork
  · trivial
  refine wp_getCluster hw1 (fun _ => trivial) ?_
  intro cluster w2 hpast hw2
  dsimp only
  split_ifs with hlive
  · trivial
  obtain ⟨⟨d, hd⟩, hstamp⟩ := dispatchNeedsWork_eq_true hlive
  exact dispatchFrom_safe hw2 hpast hd hstamp

theorem clearClusterServiceID_safe : Safe clearClusterServiceID (fun _ _ => True) w := by
  refine Sys.wp_cached hw ?_
  intro cached _ w1 _ hw1
  rcases cached with _ | cached
  · trivial
  dsimp only
  split_ifs with hwork
  · trivial
  refine wp_getCluster hw1 (fun _ => trivial) ?_
  intro cluster w2 hpast hw2
  dsimp only
  split_ifs with hlive
  · trivial
  rw [Bool.not_eq_false, clearNeedsWork, Bool.and_eq_true, Bool.and_eq_true] at hlive
  have hstamp := hlive.1.2
  split
  · trivial
  rename_i csID hid
  refine wp_now hw2 ?_
  intro w3 hr3 hw3
  refine wp_getClusterStatus hw3 ?_
  intro status hgone w4 hr4 hw4
  have hpast3 := hr3.grows.past _ _ hpast
  cases status with
  | failed => trivial
  | ok => trivial
  | notFound =>
    refine wp_replaceCluster hw4 (hr4.grows.past _ _ hpast3) ?_ fun _ _ _ => trivial
    intro hv _
    -- the cluster was stamped when Cluster Service did not find it, so it does not come back
    have hstamped : Stamped w3 := by
      obtain ⟨v, hv⟩ := hw3
      exact ⟨v, hv.current, (hv.progress cluster hpast3).stamped hstamp⟩
    exact hv.moves_clear hid hstamp (hr4.gone hstamped _ (hgone rfl))

/-! ## Every run -/

theorem allocateDNS_safe (baseDomain baseDomainPrefix : String) :
    Safe (allocateDNS baseDomain baseDomainPrefix) (fun _ _ => True) w := by
  refine wp_getCluster hw (fun _ => trivial) ?_
  intro cluster w1 hpast hw1
  refine wp_replaceCluster hw1 hpast ?_ fun _ _ _ => trivial
  intro hv _
  exact hv.moves_of_same rfl rfl rfl rfl

theorem store_safe {k : DocKey} (hk : k ≠ .cluster) (doc : Doc k) :
    Safe (store k doc) (fun _ _ => True) w := by
  refine Sys.wp_get hw ?_
  intro w1 hr1 hw1
  obtain ⟨v, hv⟩ := id hw1
  have hput := hv.putOther hk doc
  cases hcurrent : w.store.current k with
  | none =>
    refine Sys.wp_create hw1 ?_ fun _ _ _ => trivial
    exact fun _ _ => ⟨hput, fun _ _ _ => trivial⟩
  | some old =>
    have hpast := hr1.grows.past _ _ (w.store.current_mem _ _ hcurrent)
    refine Sys.wp_replace hw1 hpast ?_ fun _ _ _ => trivial
    exact fun _ _ => ⟨hput, fun _ _ _ => trivial⟩

omit hw in
theorem happen_safe {c : Call}
    (h : ∀ r o', Call.sem c w.outside r o' → careful (.out c) w = true →
      Inv { w with outside := o' } ∧ Rely w { w with outside := o' }) :
    Safe (happen c) (fun _ _ => True) w :=
  Sys.wp_out fun r o' hsem hcareful => ⟨h r o' hsem hcareful, fun _ _ _ => trivial⟩

theorem takeEffect_safe (place : Nat) :
    Safe (happen (.takeEffect place)) (fun _ _ => True) w := by
  obtain ⟨v, hv⟩ := hw
  apply happen_safe
  rintro r o' ⟨outcome, hanswer⟩ hcareful
  dsimp only [Call.answer] at hanswer
  split at hanswer
  · rename_i post hpost
    split_ifs at hanswer with hdone
    cases hanswer
    refine hv.takeEffect hpost hdone.1 ?_
    simpa [careful, hpost, hdone.2] using hcareful
  · cases hanswer

end

theorem Task.safe (key : HCPClusterKey) (task : Task) (w : State) (hw : Inv w) :
    Safe (task.program key) (fun _ _ => True) w := by
  obtain ⟨v, hv⟩ := id hw
  cases task with
  | assignPendingClusterServiceID uid huid => exact assignPendingClusterServiceID_safe hw huid
  | createInClusterService enabled => exact createInClusterService_safe hw key enabled
  | deleteCluster => exact deleteCluster_safe hw
  | dispatchDelete => exact dispatchDelete_safe hw
  | clearClusterServiceID => exact clearClusterServiceID_safe hw
  | allocateDNS baseDomain baseDomainPrefix => exact allocateDNS_safe hw baseDomain baseDomainPrefix
  | store k hk doc => exact store_safe hw hk doc
  | tick duration =>
    apply happen_safe
    rintro r o' ⟨outcome, hanswer⟩ _
    cases hanswer
    exact hv.tick duration
  | takeEffect place => exact takeEffect_safe hw place
  | uninstall uid =>
    apply happen_safe
    rintro r o' ⟨outcome, hanswer⟩ _
    dsimp only [Call.answer] at hanswer
    split_ifs at hanswer
    cases hanswer
    exact hv.uninstall uid
  | forget =>
    apply happen_safe
    rintro r o' ⟨outcome, hanswer⟩ _
    cases hanswer
    refine hv.setFirstSeen ?_
    rintro f ⟨⟩

/-- The cluster as the frontend created it, which Cluster Service has never heard of. -/
structure Initial (w : State) : Prop where
  stored : ∃ v, w.store.current .cluster = some v
  fresh : ∀ u, w.store.Past .cluster u → u.doc.deletionTimestamp = none ∧
    u.doc.clusterServiceDeletionTimestamp = none ∧ u.doc.pendingClusterServiceID = none ∧
    u.doc.clusterServiceID = none
  outside : ∃ now, w.outside = { now }

theorem Initial.inv (h : Initial w) : Inv w := by
  obtain ⟨v, hv⟩ := h.stored
  obtain ⟨now, hnow⟩ := h.outside
  obtain ⟨hdeleted, hstamp, hpending, hid⟩ := h.fresh v (w.store.current_mem _ _ hv)
  have hnames : ∀ u, w.store.Past .cluster u → ∀ id, ¬Names u.doc id := by
    rintro u hu id (hn | hn)
    · rw [(h.fresh u hu).2.2.1] at hn
      cases hn
    · rw [(h.fresh u hu).2.2.2] at hn
      cases hn
  have hcleared : ∀ cluster : Cluster, cluster.clusterServiceDeletionTimestamp = none →
      ¬Cleared cluster := by
    rintro cluster hnone ⟨hs, -⟩
    rw [hnone] at hs
    cases hs
  refine ⟨v, hv, ⟨.inl hpending, ?_, ?_⟩, ?_, ?_, ?_, ?_, ?_, ?_, ?_, ?_, ?_,
    fun hc => absurd hc (hcleared _ hstamp)⟩
  · exact fun id hn => absurd hn (hnames v (w.store.current_mem _ _ hv) id)
  · simp [hstamp]
  · intro u hu
    obtain ⟨hdeleted', hstamp', -, hid'⟩ := h.fresh u hu
    refine ⟨?_, ?_, ?_, fun hc => absurd hc (hcleared _ hstamp')⟩
    · simp [hdeleted']
    · simp [hstamp']
    · simp [hid']
  · exact fun u hu id hn => absurd (.inl hn) (hnames u hu id)
  · simp [hnow]
  · simp [hnow]
  · simp [hnow]
  · simp [hnow, Remote.ids]
  · simp [hdeleted]
  · simp [hnow]
  · simp [hstamp]

abbrev LifecyclePool := Pool State (WorldCall Doc Call) (WorldCall.Reply Call.Reply) (Option String)

/-- A step of one of the controllers, of the frontend, of Cluster Service or of the clock. -/
abbrev LifecycleStep (key : HCPClusterKey) (allowed : WorldCall Doc Call → State → Prop) :
    LifecyclePool → LifecyclePool → Prop :=
  Step (WorldCall.sem Call.sem) (Task.program key) (fun _ _ => False) allowed

/-- In every run of careful steps, a cluster whose deletion is dispatched and whose Cluster Service
ID is cleared has left nothing behind, and the ID of a POST stays pending until it is promoted. -/
theorem deletion_leaves_nothing_of_careful {key : HCPClusterKey} {w₀ : State} {pool : LifecyclePool}
    {v : Versioned Cluster} (hinit : Initial w₀)
    (hrun : ReflTransGen (LifecycleStep key fun c w => careful c w = true) ⟨w₀, []⟩ pool)
    (hv : pool.state.store.current .cluster = some v) :
    (v.doc.deletionTimestamp.isSome = true →
      v.doc.clusterServiceDeletionTimestamp.isSome = true → v.doc.clusterServiceID = none →
      ∀ uid ∈ pool.state.outside.created, uid ∉ pool.state.outside.ids) ∧
    ∀ uid ∈ pool.state.outside.posted, v.doc.pendingClusterServiceID = some ⟨uid⟩ ∨
      Promoted pool.state.store ⟨uid⟩ := by
  have hready : Ready (WorldCall.sem Call.sem) (fun c w => careful c w = true) Inv Rely pool :=
    (Ready.run (Task.safe key) (fun _ _ _ henv => henv.elim)
      (.initial hinit.inv) hrun).1
  obtain ⟨v', htracked⟩ := hready.1
  have heq := htracked.current
  rw [hv] at heq
  cases heq
  constructor
  · intro _ hstamp hnone
    exact htracked.gone ⟨hstamp, hnone⟩
  · intro uid huid
    obtain ⟨u, hu, hpending⟩ := htracked.posted uid huid
    exact htracked.kept u hu _ hpending

/-! ## Two runs -/

def readyState : State where
  store := (((Store.empty.put .cluster { baseDomain := "example", baseDomainPrefix := "c" }).put
    .serviceProviderCluster ⟨some ⟨some "stamp"⟩, some "4.20.0", {}⟩).put
    .subscription ⟨some "tenant"⟩).put
    (.managementCluster "stamp") ⟨some "shard"⟩
  outside := { now := 0 }

theorem initial_readyState : Initial readyState where
  stored := ⟨_, rfl⟩
  fresh u hu := by
    simp only [Store.Past, readyState, Store.put, Store.empty, List.mem_cons, Sigma.mk.injEq,
      reduceCtorEq, false_and, false_or, List.not_mem_nil, or_false, heq_eq_eq, true_and] at hu
    subst hu
    exact ⟨rfl, rfl, rfl, rfl⟩
  outside := ⟨0, rfl⟩

/-- The place in the history where the cache of a reader stands. -/
abbrev seen (place : Nat) : Hint Outcome := .store (some place)

abbrev live : Hint Outcome := .store none

abbrev answered : Hint Outcome := .out .answered

def postSchedule : List (Choice Task (Hint Outcome)) :=
  Choice.program 0 (.assignPendingClusterServiceID "p1" (by decide)) [seen 3, live, live] ++
  Choice.program 1 (.createInClusterService false)
    [seen 0, seen 3, live, seen 3, seen 3, seen 2, answered, answered, seen 1, answered,
      .out .lost] ++
  Choice.program 2 (.takeEffect 0) [answered]

/-- The assign controller still sees the cluster without a pending ID and gives it "p2". The
deletion then follows "p2", which Cluster Service does not know. -/
def overwriteSchedule : List (Choice Task (Hint Outcome)) :=
  postSchedule ++
  Choice.program 3 (.assignPendingClusterServiceID "p2" (by decide)) [seen 4, live, live] ++
  Choice.program 4 .deleteCluster [live, answered, live] ++
  Choice.program 5 .dispatchDelete [seen 0, live, answered, answered, answered, live] ++
  Choice.program 6 (.tick (120 * 10 ^ 9)) [answered] ++
  Choice.program 7 .dispatchDelete
    [seen 0, live, answered, answered, answered, answered, answered, live, answered] ++
  Choice.program 8 .clearClusterServiceID [seen 0, live, answered, answered, live]

/-- The cluster "p1" is left in Cluster Service when its deletion is over. -/
theorem deletion_leaks_overwritten_cluster :
    ∃ (pool : LifecyclePool) (v : Versioned Cluster),
      ReflTransGen (LifecycleStep ⟨"sub", "group", "cluster"⟩ fun _ _ => True)
        ⟨readyState, []⟩ pool ∧
      pool.state.store.current .cluster = some v ∧
      v.doc.deletionTimestamp.isSome = true ∧
      v.doc.clusterServiceDeletionTimestamp.isSome = true ∧ v.doc.clusterServiceID = none ∧
      "p1" ∈ pool.state.outside.created ∧ "p1" ∈ pool.state.outside.ids ∧
      "p1" ∈ pool.state.outside.posted ∧ v.doc.pendingClusterServiceID ≠ some ⟨"p1"⟩ := by
  have hexecute : (execute (WorldCall.answer Call.answer)
      (Task.program ⟨"sub", "group", "cluster"⟩) (fun _ _ => true) ⟨readyState, []⟩
      overwriteSchedule).any (fun pool => (pool.state.store.current .cluster).any fun v =>
        v.doc.deletionTimestamp.isSome && (v.doc.clusterServiceDeletionTimestamp.isSome &&
          (decide (v.doc.clusterServiceID = none) && (decide ("p1" ∈ pool.state.outside.created) &&
            (decide ("p1" ∈ pool.state.outside.ids) && (decide ("p1" ∈ pool.state.outside.posted) &&
              decide (v.doc.pendingClusterServiceID ≠ some ⟨"p1"⟩))))))) = true := by
    decide +kernel
  obtain ⟨pool, hpool, hcheck⟩ := (Option.any_eq_true _ _).mp hexecute
  obtain ⟨v, hv, hcheck⟩ := (Option.any_eq_true _ _).mp hcheck
  simp only [Bool.and_eq_true, decide_eq_true_eq] at hcheck
  have hrun := run_of_execute (fun _ _ => False)
    (fun _ _ _ _ _ => WorldCall.sem_of_answer Call.sem_of_answer) hpool
  exact ⟨pool, v, run_mono (fun _ _ _ => trivial) hrun, hv, hcheck⟩

/-- The deletion of the cluster "p1", whose answer was lost, while its pending ID stays. -/
def recoverSchedule : List (Choice Task (Hint Outcome)) :=
  postSchedule ++
  Choice.program 3 .deleteCluster [live, answered, live] ++
  Choice.program 4 .dispatchDelete [seen 0, live, answered, answered, answered, live] ++
  Choice.program 5 .dispatchDelete
    [seen 0, live, answered, answered, answered, answered, live, answered] ++
  Choice.program 6 (.uninstall "p1") [answered] ++
  Choice.program 7 .clearClusterServiceID [seen 0, live, answered, answered, live]

theorem deletion_leaves_nothing_of_careful_recovered :
    ∃ (pool : LifecyclePool) (v : Versioned Cluster),
      pool.state.store.current .cluster = some v ∧
      v.doc.deletionTimestamp.isSome = true ∧
      v.doc.clusterServiceDeletionTimestamp.isSome = true ∧ v.doc.clusterServiceID = none ∧
      "p1" ∈ pool.state.outside.created ∧
      ∀ uid ∈ pool.state.outside.created, uid ∉ pool.state.outside.ids := by
  have hexecute : (execute (WorldCall.answer Call.answer)
      (Task.program ⟨"sub", "group", "cluster"⟩) careful ⟨readyState, []⟩
      recoverSchedule).any (fun pool => (pool.state.store.current .cluster).any fun v =>
        v.doc.deletionTimestamp.isSome && (v.doc.clusterServiceDeletionTimestamp.isSome &&
          (decide (v.doc.clusterServiceID = none) &&
            decide ("p1" ∈ pool.state.outside.created)))) = true := by
    decide +kernel
  obtain ⟨pool, hpool, hcheck⟩ := (Option.any_eq_true _ _).mp hexecute
  obtain ⟨v, hv, hcheck⟩ := (Option.any_eq_true _ _).mp hcheck
  simp only [Bool.and_eq_true, decide_eq_true_eq] at hcheck
  obtain ⟨hdeleted, hstamp, hnone, hcreated⟩ := hcheck
  have hrun := run_of_execute (fun _ _ => False)
    (fun _ _ _ _ _ => WorldCall.sem_of_answer Call.sem_of_answer) hpool
  exact ⟨pool, v, hv, hdeleted, hstamp, hnone, hcreated,
    (deletion_leaves_nothing_of_careful initial_readyState hrun hv).1 hdeleted hstamp hnone⟩

end AroHcp.Lifecycle
