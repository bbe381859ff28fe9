import AroHcp.Placement.System

/-! Placed clusters stay accounted for: no reservation takes a management cluster above its ceiling,
and none is lost before the cluster shows up in a report. -/

namespace AroHcp.Placement

open DocStore GoFmt Operations Program Quantity Relation

/-! ## The invariant -/

def Gone (s : System) (id : String) : Prop :=
  (∃ v, s.store.Past (.serviceProviderCluster id) v) ∧
    s.store.current (.serviceProviderCluster id) = none

/-- A reservation that may be dropped: its cluster is gone, is to be elsewhere, has come to an end
or has been reported. -/
def Released (s : System) (stamp id : String) : Prop :=
  Gone s id ∨
    (∃ u m, s.store.Past (.serviceProviderCluster id) u ∧ u.doc.intended = some m ∧
      toLower m ≠ stamp) ∨
    (∃ v, s.store.Past (.cluster id) v ∧ v.doc.isEnded = true) ∨
    (stamp, id) ∈ s.reported

structure Inv (regime : Regime) (profile : String → Option Cluster) (s : System) : Prop where
  fixed : ∀ id v, s.store.Past (.cluster id) v → swiftNICsForCluster (some v.doc) = need profile id
  whole : regime.whole = true → ∀ stamp v, s.store.Past (.scheduling stamp) v → WholeNICs v.doc
  booked : regime.whole = true → ∀ e ∈ s.placed, load profile e.1 ≤ ceiling e.1 →
    load profile e.2 ≤ ceiling e.2
  agree : ∀ id u v m, s.store.Past (.serviceProviderCluster id) u → u.doc.intended = some m →
    s.store.current (.serviceProviderCluster id) = some v → v.doc.intended = some m
  seen : regime.complete = true → ∀ id u m, s.store.Past (.serviceProviderCluster id) u →
    u.doc.observed = some m → u.doc.intended = some m
  known : ∀ stamp u id, s.store.Past (.scheduling stamp) u → HasPending u.doc id →
    ∃ v, s.store.Past (.serviceProviderCluster id) v
  reserved : ∀ id u m, s.store.Past (.serviceProviderCluster id) u → u.doc.intended = some m →
    ∃ w, s.store.Past (.scheduling (toLower m)) w ∧ HasPending w.doc id
  kept : regime.complete = true → ∀ stamp id u, s.store.Past (.scheduling stamp) u →
    HasPending u.doc id → Released s stamp id ∨
      ∃ v, s.store.current (.scheduling stamp) = some v ∧ HasPending v.doc id

/-- What is never undone. -/
structure Later (s s' : System) : Prop where
  past : ∀ k v, s.store.Past k v → s'.store.Past k v
  reported : ∀ e, e ∈ s.reported → e ∈ s'.reported
  gone : ∀ id, Gone s id → Gone s' id

section

variable {regime : Regime} {profile : String → Option Cluster} {s s' s'' : System}

theorem Later.refl (s : System) : Later s s :=
  ⟨fun _ _ h => h, fun _ h => h, fun _ h => h⟩

theorem Later.trans (h : Later s s') (h' : Later s' s'') : Later s s'' :=
  ⟨fun k v hv => h'.past k v (h.past k v hv), fun e he => h'.reported e (h.reported e he),
    fun id hid => h'.gone id (h.gone id hid)⟩

instance : Std.Refl Later := ⟨Later.refl⟩

instance : IsTrans System Later := ⟨fun _ _ _ => Later.trans⟩

theorem Released.later {stamp id : String} (h : Released s stamp id) (hlater : Later s s') :
    Released s' stamp id := by
  rcases h with h | ⟨u, m, hu, hm, hne⟩ | ⟨v, hv, hended⟩ | h
  · exact .inl (hlater.gone id h)
  · exact .inr (.inl ⟨u, m, hlater.past _ u hu, hm, hne⟩)
  · exact .inr (.inr (.inl ⟨v, hlater.past _ v hv, hended⟩))
  · exact .inr (.inr (.inr (hlater.reported _ h)))

theorem Inv.empty : Inv regime profile System.empty where
  fixed _ _ hv := by cases hv
  whole _ _ _ hv := by cases hv
  booked _ _ he := by cases he
  agree _ _ _ _ hu := by cases hu
  seen _ _ _ _ hu := by cases hu
  known _ _ _ hu := by cases hu
  reserved _ _ _ hu := by cases hu
  kept _ _ _ _ hu := by cases hu

/-- The invariant has every placed cluster accounted for, if sweeps find what is stored. -/
theorem Inv.accounted (h : Inv regime profile s) (hcomplete : regime.complete = true) :
    Accounted s := by
  intro id v stamp hv hstamp halive hunreported
  obtain ⟨w, hw, hpending⟩ := h.reserved id v stamp (s.store.current_mem _ v hv) hstamp
  rcases h.kept hcomplete _ id w hw hpending with hreleased | hkept
  · rcases hreleased with ⟨-, hnone⟩ | ⟨u, m, hu, hm, hne⟩ | ⟨u, hu, hended⟩ | hreported
    · rw [hnone] at hv
      cases hv
    · have heq := h.agree id u v m hu hm hv
      rw [hstamp] at heq
      cases heq
      exact absurd rfl hne
    · rw [halive u hu] at hended
      cases hended
    · exact absurd hreported hunreported
  · exact hkept

/-! ## Changes of the documents -/

theorem later_remove (s : System) (k : Key) : Later s { s with store := s.store.remove k } := by
  refine ⟨fun _ _ hv => hv.remove k, fun _ he => he, ?_⟩
  rintro id ⟨⟨v, hv⟩, hnone⟩
  refine ⟨⟨v, hv⟩, ?_⟩
  by_cases hne : Key.serviceProviderCluster id = k
  · subst hne
    exact Store.remove_current_self ..
  · exact (Store.remove_current_of_ne _ hne).trans hnone

theorem later_reported (s : System) (more : List (String × String)) :
    Later s { s with reported := more ++ s.reported } :=
  ⟨fun _ _ hv => hv, fun _ he => List.mem_append_right _ he, fun _ hid => hid⟩

variable (regime profile s) in
/-- The document may be written. -/
def MayPut : (k : Key) → Doc k → Prop
  | .cluster id, cluster => swiftNICsForCluster (some cluster) = need profile id
  -- a placement stays once there is one, and is only made with a reservation
  | .serviceProviderCluster id, doc => ¬Gone s id ∧
    (∀ u m, s.store.Past (.serviceProviderCluster id) u → u.doc.intended = some m →
      doc.intended = some m) ∧
    (regime.complete = true → ∀ m, doc.observed = some m → doc.intended = some m) ∧
    ∀ m, doc.intended = some m → ∃ w, s.store.Past (.scheduling (toLower m)) w ∧ HasPending w.doc id
  -- reservations may go when they are released, and be made for clusters that are known
  | .scheduling stamp, doc => (regime.whole = true → WholeNICs doc) ∧
    (∀ id, HasPending doc id → ∃ v, s.store.Past (.serviceProviderCluster id) v) ∧
    (regime.complete = true → ∀ v id, s.store.current (.scheduling stamp) = some v →
      HasPending v.doc id → Released s stamp id ∨ HasPending doc id)

section

variable (h : Inv regime profile s)

include h

/-- Every write that may be made keeps the invariant. -/
theorem Inv.put {k : Key} {doc : Doc k}
    {placed : List (ManagementClusterScheduling × ManagementClusterScheduling)}
    (hput : MayPut regime profile s k doc)
    (hbooked : regime.whole = true → ∀ e ∈ placed, load profile e.1 ≤ ceiling e.1 →
      load profile e.2 ≤ ceiling e.2) :
    Inv regime profile { s with store := s.store.put k doc, placed } ∧
      Later s { s with store := s.store.put k doc, placed } := by
  have hlater : Later s { s with store := s.store.put k doc, placed } := by
    refine ⟨fun _ _ hv => hv.put k doc, fun _ he => he, ?_⟩
    rintro id ⟨⟨v, hv⟩, hnone⟩
    refine ⟨⟨v, hv.put k doc⟩, ?_⟩
    have hne : Key.serviceProviderCluster id ≠ k := by
      rintro rfl
      exact hput.1 ⟨⟨v, hv⟩, hnone⟩
    exact (Store.put_current_of_ne _ _ hne).trans hnone
  refine ⟨⟨?_, ?_, hbooked, ?_, ?_, ?_, ?_, ?_⟩, hlater⟩
  · intro id v hv
    rcases Store.past_put hv with hold | hnew
    · exact h.fixed id v hold
    · cases hnew
      exact hput
  · intro hwhole stamp v hv
    rcases Store.past_put hv with hold | hnew
    · exact h.whole hwhole stamp v hold
    · cases hnew
      exact hput.1 hwhole
  · intro id u v m hu hm hv
    by_cases hid : Key.serviceProviderCluster id = k
    · subst hid
      rw [Store.put_current_self] at hv
      cases hv
      rcases Store.past_put hu with hold | hnew
      · exact hput.2.1 u m hold hm
      · cases hnew
        exact hm
    · rw [Store.put_current_of_ne _ _ hid] at hv
      exact h.agree id u v m (Store.past_put_of_ne hid hu) hm hv
  · intro hcomplete id u m hu hm
    rcases Store.past_put hu with hold | hnew
    · exact h.seen hcomplete id u m hold hm
    · cases hnew
      exact hput.2.2.1 hcomplete m hm
  · intro stamp u id hu hpending
    have hfound : ∃ v, s.store.Past (.serviceProviderCluster id) v := by
      rcases Store.past_put hu with hold | hnew
      · exact h.known stamp u id hold hpending
      · cases hnew
        exact hput.2.1 id hpending
    obtain ⟨v, hv⟩ := hfound
    exact ⟨v, hlater.past _ v hv⟩
  · intro id u m hu hm
    have hfound : ∃ w, s.store.Past (.scheduling (toLower m)) w ∧ HasPending w.doc id := by
      rcases Store.past_put hu with hold | hnew
      · exact h.reserved id u m hold hm
      · cases hnew
        exact hput.2.2.2 m hm
    obtain ⟨w, hw, hpending⟩ := hfound
    exact ⟨w, hlater.past _ w hw, hpending⟩
  · intro hcomplete stamp id u hu hpending
    by_cases hstamp : Key.scheduling stamp = k
    · subst hstamp
      rcases Store.past_put hu with hold | hnew
      · rcases h.kept hcomplete stamp id u hold hpending with hr | ⟨v, hv, hpending'⟩
        · exact .inl (hr.later hlater)
        · rcases hput.2.2 hcomplete v id hv hpending' with hr | hnow
          · exact .inl (hr.later hlater)
          · exact .inr ⟨_, Store.put_current_self .., hnow⟩
      · cases hnew
        exact .inr ⟨_, Store.put_current_self .., hpending⟩
    · rcases h.kept hcomplete stamp id u
        (Store.past_put_of_ne hstamp hu) hpending with hr | ⟨v, hv, hp⟩
      · exact .inl (hr.later hlater)
      · exact .inr ⟨v, (Store.put_current_of_ne _ _ hstamp).trans hv, hp⟩

theorem Inv.report (more : List (String × String)) :
    Inv regime profile { s with reported := more ++ s.reported } := by
  refine ⟨h.fixed, h.whole, h.booked, h.agree, h.seen, h.known, h.reserved, ?_⟩
  intro hcomplete stamp id u hu hpending
  rcases h.kept hcomplete stamp id u hu hpending with hr | hkept
  · exact .inl (hr.later (later_reported s more))
  · exact .inr hkept

theorem Inv.remove {k : Key} (hk : ∀ stamp, k ≠ .scheduling stamp) :
    Inv regime profile { s with store := s.store.remove k } := by
  refine ⟨h.fixed, h.whole, h.booked, ?_, h.seen, h.known, h.reserved, ?_⟩
  · intro id u v m hu hm hv
    by_cases hid : Key.serviceProviderCluster id = k
    · subst hid
      rw [Store.remove_current_self] at hv
      cases hv
    · rw [Store.remove_current_of_ne _ hid] at hv
      exact h.agree id u v m hu hm hv
  · intro hcomplete stamp id u hu hpending
    rcases h.kept hcomplete stamp id u hu hpending with hr | ⟨v, hv, hp⟩
    · exact .inl (hr.later (later_remove s k))
    · exact .inr ⟨v, (Store.remove_current_of_ne _ (hk stamp).symm).trans hv, hp⟩

theorem Inv.lifecycle (hstep : Lifecycle profile s s') :
    Inv regime profile s' ∧ Later s s' := by
  cases hstep with
  | createCluster id cluster _ hneed => exact h.put (k := .cluster id) hneed h.booked
  | updateCluster id v cluster _ hneed => exact h.put (k := .cluster id) hneed h.booked
  | deleteCluster id => exact ⟨h.remove (by simp), later_remove s _⟩
  | createServiceProviderCluster id hnew =>
    refine h.put (k := .serviceProviderCluster id) ⟨?_, ?_, fun _ => nofun, nofun⟩ h.booked
    · rintro ⟨⟨v, hv⟩, -⟩
      exact hnew v hv
    · intro u m hu
      exact absurd hu (hnew u)
  | deleteServiceProviderCluster id => exact ⟨h.remove (by simp), later_remove s _⟩

end

end

/-! ## The calls -/

section Calls

variable {regime : Regime} {profile : String → Option Cluster} {s s' : System} {β : Type}
  {Q : β → System → Prop}

variable (regime profile) in
/-- The program keeps the invariant and what is never undone, and ends as `Q` says. -/
abbrev safe (p : Prog β) (Q : β → System → Prop) (s : System) : Prop :=
  wp (sem regime) (fun _ _ => True) (Inv regime profile) Later p Q s

theorem safe_replaceServiceProviderCluster {id : String} {v : Versioned ServiceProviderCluster}
    {doc : ServiceProviderCluster} {f : Option String → Prog β} (hinv : Inv regime profile s)
    (hpast : s.store.Past (.serviceProviderCluster id) v)
    (hkeeps : ∀ m, v.doc.intended = some m → doc.intended = some m)
    (hobserved : regime.complete = true → s.store.current (.serviceProviderCluster id) = some v →
      ∀ m, doc.observed = some m → doc.intended = some m)
    (hreserved : ∀ m, doc.intended = some m →
      ∃ w, s.store.Past (.scheduling (toLower m)) w ∧ HasPending w.doc id)
    (h : ∀ r s', Inv regime profile s' → safe regime profile (f r) Q s') :
    safe regime profile (perform (Call.replaceServiceProviderCluster id v.etag doc) >>= f) Q s := by
  refine wp_perform_bind ?_
  rintro r s' (⟨store, hreplace, rfl⟩ | ⟨-, rfl⟩) -
  · obtain ⟨hcurrent, rfl⟩ := hpast.replace_eq_some hreplace
    have hgone : ¬Gone s id := by
      rintro ⟨-, hnone⟩
      rw [hnone] at hcurrent
      cases hcurrent
    refine ⟨hinv.put (k := .serviceProviderCluster id)
      ⟨hgone, ?_, fun hcomplete => hobserved hcomplete hcurrent, hreserved⟩ hinv.booked,
      fun s'' _ hinv'' => h r s'' hinv''⟩
    intro u m hu hm
    exact hkeeps m (hinv.agree id u v m hu hm hcurrent)
  · exact ⟨⟨hinv, Later.refl s'⟩, fun s'' _ hinv'' => h r s'' hinv''⟩

theorem safe_replaceScheduling {writer : Actor} {stamp : String}
    {v : Versioned ManagementClusterScheduling} {doc : ManagementClusterScheduling}
    {f : Option String → Prog β} (hinv : Inv regime profile s)
    (hpast : s.store.Past (.scheduling stamp) v)
    (hwhole : writer ≠ .reporting → WholeNICs v.doc → WholeNICs doc)
    (hbooked : writer = .placement → WholeNICs v.doc → load profile v.doc ≤ ceiling v.doc →
      load profile doc ≤ ceiling doc)
    (hknown : ∀ id, HasPending doc id →
      HasPending v.doc id ∨ ∃ u, s.store.Past (.serviceProviderCluster id) u)
    (hkept : regime.complete = true → ∀ id, HasPending v.doc id →
      Released s stamp id ∨ HasPending doc id)
    (h : ∀ r s', Later s s' → Inv regime profile s' →
      (r = none → ∃ w, s'.store.Past (.scheduling stamp) w ∧ w.doc = doc) →
      safe regime profile (f r) Q s') :
    safe regime profile (perform (Call.replaceScheduling writer stamp v.etag doc) >>= f) Q s := by
  refine wp_perform_bind ?_
  rintro r s' (⟨store, before, hreplace, hbefore, hregime, rfl⟩ | ⟨⟨err, rfl⟩, rfl⟩) -
  · obtain ⟨hcurrent, rfl⟩ := hpast.replace_eq_some hreplace
    cases hcurrent.symm.trans hbefore
    have hput : MayPut regime profile s (.scheduling stamp) doc := by
      refine ⟨?_, ?_, ?_⟩
      · intro hr
        by_cases hwriter : writer = .reporting
        · exact hregime hr hwriter
        · exact hwhole hwriter (hinv.whole hr stamp v hpast)
      · intro id hpending
        rcases hknown id hpending with hold | hu
        · exact hinv.known stamp v id hpast hold
        · exact hu
      · intro hr v' id hv' hpending
        cases hcurrent.symm.trans hv'
        exact hkept hr id hpending
    have hplaced : regime.whole = true → ∀ e ∈ placements writer v.doc doc ++ s.placed,
        load profile e.1 ≤ ceiling e.1 → load profile e.2 ≤ ceiling e.2 := by
      intro hr e he
      rcases List.mem_append.mp he with hnew | hold
      · unfold placements at hnew
        split_ifs at hnew with hwriter
        · rw [List.mem_singleton.mp hnew]
          exact hbooked hwriter (hinv.whole hr stamp v hpast)
        · cases hnew
      · exact hinv.booked hr e hold
    refine ⟨hinv.put hput hplaced, fun s'' hlater hinv'' => ?_⟩
    refine h r s'' ((hinv.put hput hplaced).2.trans hlater) hinv'' fun _ =>
      ⟨⟨s.store.nextETag, doc⟩, hlater.past (.scheduling stamp) _ (Store.put_past ..), rfl⟩
  · refine ⟨⟨hinv, Later.refl s'⟩, fun s'' hlater hinv'' => h _ s'' hlater hinv'' ?_⟩
    intro hr
    cases hr

end Calls

/-! ## The placement controller -/

section Scheduler

variable {regime : Regime} {profile : String → Option Cluster} {s s' : System}

theorem need_le (id : String) : need profile id ≤ swiftNICsPerHCP :=
  (swiftNICsForCluster_bounds (profile id)).2

variable {id : String}

section

variable (hinv : Inv regime profile s)

include hinv

/-- What is reserved is never less than what the clusters need: a cluster that is not found counts
for the most. -/
theorem swiftNICsForResourceID_safe :
    safe regime profile (swiftNICsForResourceID id) (fun r _ => need profile (toLower id) ≤ r) s := by
  refine wp_read_bind hinv (fun _ _ hsem => hsem.2) ?_
  intro r s' hsem _ _
  rcases r with err | (_ | v)
  · exact need_le _
  · exact need_le _
  · exact (hinv.fixed _ v (hsem.1 v rfl)).ge

theorem swiftNICReservation_safe {ids : List (Option String)} :
    safe regime profile (swiftNICReservation ids) (fun r _ => nics profile ids ≤ r) s := by
  induction ids generalizing s with
  | nil => exact le_refl _
  | cons entry rest ih =>
    cases entry with
    | none => exact ih hinv
    | some id =>
      refine wp_seq hinv (swiftNICsForResourceID_safe hinv) ?_
      intro r s' hr _ hinv'
      refine wp_seq hinv' (ih hinv') ?_
      intro total s'' htotal _ _
      exact Int.add_le_add hr htotal

/-- The evaluation is that of a scheduling document of some time, with no less reserved than its
clusters need. -/
def Sound (profile : String → Option Cluster) (s : System) (e : Evaluation) : Prop :=
  ∀ v, e.scheduling = some v → s.store.Past (.scheduling (toLower e.stamp)) v ∧
    ∃ reservation, nics profile v.doc.notReadyResourceIDs +
      nics profile v.doc.pendingAssignedClusters ≤ reservation ∧
      e.availableSwiftNICs = availableSwiftNICs v.doc reservation

omit hinv in
theorem Sound.later {e : Evaluation} (h : Sound profile s e) (hlater : Later s s') :
    Sound profile s' e := by
  intro v hv
  obtain ⟨hpast, hrest⟩ := h v hv
  exact ⟨hlater.past (.scheduling _) v hpast, hrest⟩

variable {floats : Floats} {now : Time}

theorem evaluate_safe {mc : ManagementCluster}
    {scheduling : Option (Versioned ManagementClusterScheduling)}
    (hpast : ∀ v, scheduling = some v →
      s.store.Past (.scheduling (toLower mc.stampIdentifier)) v) :
    safe regime profile (evaluate floats now mc scheduling)
      (fun e s' => Sound profile s' e) s := by
  cases scheduling with
  | none =>
    intro v hv
    cases hv
  | some v =>
    refine wp_bind (wp_seq hinv (swiftNICReservation_safe hinv) ?_)
    intro notReady s' hnotReady hlater hinv'
    refine wp_seq hinv' (swiftNICReservation_safe hinv') ?_
    intro pending s'' hpending hlater' _ v' hv'
    cases hv'
    exact ⟨(hlater.trans hlater').past (.scheduling _) v (hpast v rfl), notReady + pending,
      Int.add_le_add hnotReady hpending, rfl⟩

theorem evaluateEach_safe {managementClusters : List (Option ManagementCluster)} :
    safe regime profile (evaluateEach floats now managementClusters)
      (fun r s' => ∀ evaluations, r = .ok evaluations → ∀ e ∈ evaluations, Sound profile s' e) s := by
  induction managementClusters generalizing s with
  | nil =>
    intro evaluations hr e he
    cases hr
    cases he
  | cons entry rest ih =>
    rcases entry with _ | mc
    · exact ih hinv
    -- what follows the read, with the end of the loop as `f`
    have hrest {s' : System} {scheduling : Option (Versioned ManagementClusterScheduling)}
        {f : Evaluation → Except String (List Evaluation) → Prog (Except String (List Evaluation))}
        (herror : ∀ e err, f e (.error err) = return .error err)
        (hok : ∀ e evaluations, f e (.ok evaluations) = return .ok (e :: evaluations))
        (hinv' : Inv regime profile s') (hpast : ∀ v, scheduling = some v →
          s'.store.Past (.scheduling (toLower mc.stampIdentifier)) v) :
        safe regime profile (evaluate floats now mc scheduling >>= fun e =>
          evaluateEach floats now rest >>= f e)
          (fun r s'' => ∀ evaluations, r = .ok evaluations →
            ∀ e ∈ evaluations, Sound profile s'' e) s' := by
      refine wp_seq hinv' (evaluate_safe hinv' hpast) ?_
      intro evaluation t hsound _ hinvt
      refine wp_seq hinvt (ih hinvt) ?_
      intro r t' hall hlater _
      cases r with
      | error err =>
        rw [herror]
        intro evaluations heq
        cases heq
      | ok evaluations =>
        rw [hok]
        intro evaluations' heq
        cases heq
        exact List.forall_mem_cons.mpr ⟨hsound.later hlater, hall evaluations rfl⟩
    unfold evaluateEach
    dsimp only
    split_ifs
    · exact hrest (fun _ _ => rfl) (fun _ _ => rfl) hinv (by simp)
    · refine wp_read_bind hinv (fun _ _ hsem => hsem.2) ?_
      intro r s' hsem hlater hinv'
      cases r with
      | error err =>
        intro evaluations heq
        cases heq
      | ok scheduling =>
        refine hrest (fun _ _ => rfl) (fun _ _ => rfl) hinv' ?_
        rintro v rfl
        exact hlater.past (.scheduling _) v (hsem.1 v rfl)

end

theorem foldl_selectStep {required : Int} {evaluations : List Evaluation}
    {init chosen : Option Evaluation} {P : Evaluation → Prop} (hinit : ∀ e, init = some e → P e)
    (hall : ∀ e ∈ evaluations, e.eligibility = .eligible →
      required ≤ swiftNICCount e.availableSwiftNICs → P e)
    (h : evaluations.foldl (selectStep required) init = chosen) : ∀ e, chosen = some e → P e := by
  induction evaluations generalizing init with
  | nil =>
    cases h
    exact hinit
  | cons evaluation rest ih =>
    refine ih ?_ (fun e he => hall e (List.mem_cons_of_mem _ he)) h
    intro e he
    unfold selectStep at he
    split_ifs at he with heligible hroom
    · exact hinit e he
    · exact hinit e he
    · have hnew := hall evaluation List.mem_cons_self (not_not.mp heligible) (not_lt.mp hroom)
      split at he
      · cases he
        exact hnew
      · split_ifs at he
        · cases he
          exact hnew
        · exact hinit e he

theorem selectByCapacity_chosen {required : Int} {evaluations : List Evaluation} {e : Evaluation}
    (h : (selectByCapacity evaluations required).1 = some e) :
    e ∈ evaluations ∧ e.eligibility = .eligible ∧ required ≤ swiftNICCount e.availableSwiftNICs := by
  unfold selectByCapacity at h
  cases hfold : evaluations.foldl (selectStep required) none with
  | none =>
    rw [hfold] at h
    cases h
  | some chosen =>
    rw [hfold] at h
    cases h
    exact foldl_selectStep (P := fun e => e ∈ evaluations ∧ e.eligibility = .eligible ∧
      required ≤ swiftNICCount e.availableSwiftNICs) (by simp)
      (fun e he heligible hroom => ⟨he, heligible, hroom⟩) hfold e rfl

/-! ### Room for the reservation -/

theorem consumedSwiftNICs_getD (observed : ObservedResources) :
    (consumedSwiftNICs observed).getD 0 =
      max (observed.usage.swiftNIC.getD 0) (observed.requests.swiftNIC.getD 0) := by
  unfold consumedSwiftNICs
  cases observed.usage.swiftNIC <;> cases observed.requests.swiftNIC <;> simp

theorem availableSwiftNICs_getD (scheduling : ManagementClusterScheduling) (reservation : Int) :
    (availableSwiftNICs scheduling reservation).getD 0 = ceiling scheduling -
      max (scheduling.observedResources.usage.swiftNIC.getD 0)
        (scheduling.observedResources.requests.swiftNIC.getD 0) - ofInt reservation := by
  rw [← consumedSwiftNICs_getD]
  unfold availableSwiftNICs ceiling
  cases consumedSwiftNICs scheduling.observedResources with
  | none =>
    split_ifs with hzero
    · simp [hzero, ofInt]
    · simp
  | some consumed =>
    split_ifs with hzero
    · simp [hzero, ofInt]
    · simp

theorem swiftNICCount_eq (available : Option Int) :
    swiftNICCount available = value (available.getD 0) := by
  cases available with
  | none => rfl
  | some quantity => rfl

theorem nics_append (ids : List (Option String)) (id : String) :
    nics profile (ids ++ [some id]) = nics profile ids + need profile (toLower id) := by
  induction ids with
  | nil => simp [nics]
  | cons entry rest ih =>
    cases entry with
    | none => exact ih
    | some other =>
      show need profile (toLower other) + nics profile (rest ++ [some id]) = _
      rw [ih, ← Int.add_assoc]
      rfl

abbrev withPending (scheduling : ManagementClusterScheduling) (id : String) :
    ManagementClusterScheduling :=
  { scheduling with
    pendingAssignedClusters := scheduling.pendingAssignedClusters ++ [some id] }

variable {scheduling : ManagementClusterScheduling}

/-- If the NICs that are reported are whole numbers, a cluster that finds room fits. -/
theorem load_withPending_le {reservation : Int} (hwhole : WholeNICs scheduling)
    (hreservation : nics profile scheduling.notReadyResourceIDs +
      nics profile scheduling.pendingAssignedClusters ≤ reservation)
    (hroom : need profile (toLower id) ≤
      swiftNICCount (availableSwiftNICs scheduling reservation)) :
    load profile (withPending scheduling id) ≤ ceiling scheduling := by
  obtain ⟨hceiling, husage, hrequests⟩ := hwhole
  have havailable := availableSwiftNICs_getD scheduling reservation
  have hexact := ofInt_value (isWhole_sub (isWhole_sub hceiling (isWhole_max husage hrequests))
    (isWhole_ofInt reservation))
  rw [swiftNICCount_eq, havailable] at hroom
  unfold load
  dsimp only
  rw [nics_append]
  unfold ofInt one at *
  unfold ceiling at *
  omega

/-! ### The decision -/

theorem isPending_iff :
    isPending scheduling id = true ↔ HasPending scheduling (toLower id) := by
  unfold isPending HasPending
  simp

theorem hasPending_withPending (scheduling : ManagementClusterScheduling) (id : String) :
    HasPending (withPending scheduling id) (toLower id) :=
  ⟨some id, List.mem_append_right _ List.mem_cons_self, rfl⟩

theorem HasPending.withPending {id' : String} (h : HasPending scheduling id') :
    HasPending (withPending scheduling id) id' := by
  obtain ⟨entry, hentry, heq⟩ := h
  exact ⟨entry, List.mem_append_left _ hentry, heq⟩

theorem hasPending_of_withPending {id' : String} (h : HasPending (withPending scheduling id) id') :
    HasPending scheduling id' ∨ id' = toLower id := by
  obtain ⟨entry, hentry, heq⟩ := h
  rcases List.mem_append.mp hentry with hold | hnew
  · exact .inl ⟨entry, hold, heq⟩
  · rw [List.mem_singleton.mp hnew, Option.map_some, Option.some.injEq] at heq
    exact .inr heq.symm

/-- A reservation was made for the cluster at some time. -/
def Reserved (s : System) (stamp id : String) : Prop :=
  ∃ w, s.store.Past (.scheduling (toLower stamp)) w ∧ HasPending w.doc (toLower id)

theorem reservePendingAssignment_safe {e : Evaluation} {v : Versioned ManagementClusterScheduling}
    (hinv : Inv regime profile s) (hsound : Sound profile s e) (hv : e.scheduling = some v)
    (hroom : need profile (toLower id) ≤ swiftNICCount e.availableSwiftNICs)
    (hknown : ∃ u, s.store.Past (.serviceProviderCluster (toLower id)) u) :
    safe regime profile (reservePendingAssignment e.stamp id v)
      (fun r s' => r = none → Reserved s' e.stamp id) s := by
  obtain ⟨hpast, reservation, hreservation, havailable⟩ := hsound v hv
  unfold reservePendingAssignment
  split_ifs with hpending
  · exact fun _ => ⟨v, hpast, isPending_iff.mp hpending⟩
  · refine safe_replaceScheduling hinv hpast (fun _ hwhole => hwhole) ?_ ?_ ?_ ?_
    · intro _ hwhole _
      rw [havailable] at hroom
      exact load_withPending_le hwhole hreservation hroom
    · intro id' hid'
      rcases hasPending_of_withPending hid' with hold | rfl
      · exact .inl hold
      · exact .inr hknown
    · intro _ id' hid'
      exact .inr hid'.withPending
    · intro r s' _ _ hwritten
      cases r with
      | some err =>
        intro hr
        cases hr
      | none =>
        obtain ⟨w, hw, hdoc⟩ := hwritten rfl
        refine fun _ => ⟨w, hw, ?_⟩
        rw [hdoc]
        exact hasPending_withPending v.doc id

theorem recordPlacementDecision_safe {v : Versioned ServiceProviderCluster} {chosen : Option String}
    {condition : CapacityCondition} (hinv : Inv regime profile s)
    (hpast : s.store.Past (.serviceProviderCluster (toLower id)) v)
    (hunplaced : v.doc.intended = none)
    (hchosen : ∀ stamp, chosen = some stamp → Reserved s stamp id) :
    safe regime profile (recordPlacementDecision id v chosen condition) (fun _ _ => True) s := by
  unfold recordPlacementDecision
  dsimp only
  split_ifs
  · trivial
  · have hnone : ∀ m, v.doc.intended ≠ some m := by simp [hunplaced]
    refine safe_replaceServiceProviderCluster hinv hpast (fun m hm => absurd hm (hnone m)) ?_ ?_ ?_
    · intro hcomplete _ m hm
      exact absurd (hinv.seen hcomplete _ v m hpast hm) (hnone m)
    · intro m hm
      rw [hunplaced, Option.or_none] at hm
      exact hchosen m hm
    · intro r s' _
      cases r <;> trivial

theorem placementSyncOnce_safe {floats : Floats} {now : Time} (hinv : Inv regime profile s) :
    safe regime profile (placementSyncOnce floats now id) (fun _ _ => True) s := by
  refine wp_read_bind hinv (fun _ _ hsem => hsem.2.2) ?_
  intro r s1 hsem hlater1 hinv1
  rcases r with err | (_ | v)
  · trivial
  · trivial
  have hpast := hlater1.past (.serviceProviderCluster (toLower id)) v (hsem.1 v rfl)
  refine wp_read_bind hinv1 (fun _ _ hsem => hsem.2) ?_
  intro r s2 hsem2 hlater2 hinv2
  rcases r with err | (_ | cluster)
  · trivial
  · trivial
  have hneed := hinv1.fixed _ cluster (hsem2.1 cluster rfl)
  have hpast2 := hlater2.past (.serviceProviderCluster (toLower id)) v hpast
  dsimp only
  split_ifs with hwork
  · trivial
  have hunplaced : v.doc.intended = none := by
    rw [Bool.not_eq_false, needsWork, Bool.and_eq_true] at hwork
    exact Option.isNone_iff_eq_none.mp hwork.1
  refine wp_bind (wp_read_bind hinv2 (fun _ _ hsem => hsem) ?_)
  intro r s3 _ hlater3 hinv3
  rcases r with err | managementClusters
  · trivial
  refine wp_mono ?_ (wp_frame hinv3 (Later.refl s3)
    (evaluateEach_safe hinv3))
  rintro r s4 ⟨hsound, hinv4, hlater4⟩
  rcases r with err | evaluations
  · trivial
  have hpast4 := (hlater3.trans hlater4).past (.serviceProviderCluster (toLower id)) v hpast2
  dsimp only
  rw [hneed]
  unfold reserveAndRecord
  cases hchosen : (selectByCapacity evaluations (need profile (toLower id))).1 with
  | none => exact recordPlacementDecision_safe hinv4 hpast4 hunplaced (by simp)
  | some e =>
    obtain ⟨he, -, hroom⟩ := selectByCapacity_chosen hchosen
    dsimp only
    rcases hscheduling : e.scheduling with _ | scheduling
    · trivial
    refine wp_seq hinv4 (reservePendingAssignment_safe hinv4 (hsound _ rfl e he) hscheduling
      hroom ⟨v, hpast4⟩) ?_
    intro r s5 hreserved hlater5 hinv5
    cases r with
    | some err => trivial
    | none =>
      have hpast5 := hlater5.past (.serviceProviderCluster (toLower id)) v hpast4
      refine recordPlacementDecision_safe hinv5 hpast5 hunplaced ?_
      rintro stamp heq
      cases heq
      exact hreserved rfl

end Scheduler

/-! ## The other writers -/

section Reporting

variable {regime : Regime} {profile : String → Option Cluster} {s s' : System}

/-- Where Cluster Service has the cluster is recorded only on what was read before: by then the
cluster is to be there, or its ServiceProviderCluster is gone and the write is refused. -/
theorem managementClusterPlacementSyncOnce_safe {id : String} (hinv : Inv regime profile s) :
    safe regime profile (managementClusterPlacementSyncOnce id) (fun _ _ => True) s := by
  refine wp_read_bind hinv (fun _ _ hsem => hsem.2.2) ?_
  intro r s1 _ _ hinv1
  rcases r with err | (_ | cached)
  · trivial
  · trivial
  dsimp only
  split_ifs
  · trivial
  refine wp_read_bind hinv1 (fun _ _ hsem => hsem.2) ?_
  intro r s2 _ _ hinv2
  rcases r with err | (_ | cluster)
  · trivial
  · trivial
  dsimp only
  split_ifs
  · trivial
  refine wp_read_bind hinv2 (fun _ _ hsem => hsem.2) ?_
  intro r s3 hsem3 hlater3 hinv3
  rcases r with err | (_ | existing)
  · trivial
  · trivial
  have hpast := hlater3.past (.serviceProviderCluster (toLower id)) existing
    (s2.store.current_mem _ _ (hsem3.1 _ rfl))
  dsimp only
  split_ifs
  · trivial
  refine wp_read_bind hinv3 (fun _ _ hsem => hsem.2) ?_
  intro r s4 hsem4 hlater4 hinv4
  rcases r with err | (_ | stamp)
  · trivial
  · trivial
  have hpast4 := hlater4.past (.serviceProviderCluster (toLower id)) existing hpast
  refine safe_replaceServiceProviderCluster hinv4 hpast4 (fun _ hm => hm) ?_
    (fun m hm => hinv4.reserved _ existing m hpast4 hm) ?_
  · intro hcomplete hcurrent m hm
    cases hm
    cases hthen : s3.store.current (.serviceProviderCluster (toLower id)) with
    | none =>
      have hgone := (hlater4.gone _ ⟨⟨existing, hpast⟩, hthen⟩).2
      rw [hgone] at hcurrent
      cases hcurrent
    | some v =>
      have hv := hlater4.past (.serviceProviderCluster (toLower id)) v
        (s3.store.current_mem _ _ hthen)
      exact hinv4.agree _ v existing stamp hv (hsem4.1 hcomplete stamp v rfl hthen) hcurrent
  · intro r s' _
    cases r <;> trivial

/-- The entry, if it is one, may be dropped. -/
def MayDrop (regime : Regime) (s : System) (stamp : String) (entry : Option String) : Prop :=
  regime.complete = true → ∀ id, entry.map toLower = some id → Released s stamp id

variable {stamp : String}

theorem MayDrop.later {entry : Option String} (h : MayDrop regime s stamp entry)
    (hlater : Later s s') : MayDrop regime s' stamp entry :=
  fun hcomplete id hid => (h hcomplete id hid).later hlater

section

variable (hinv : Inv regime profile s)

include hinv

/-- A sweep gives up only what is released: a ServiceProviderCluster that its complete cache does
not have is gone, since it was there when the reservation was made. -/
theorem shouldKeepPending_safe {entry : Option String} (hknown : ∀ id, entry.map toLower = some id →
      ∃ u, s.store.Past (.serviceProviderCluster id) u) :
    safe regime profile (shouldKeepPending stamp entry)
      (fun r s' => r = .ok false → MayDrop regime s' (toLower stamp) entry) s := by
  cases entry with
  | none =>
    intro _ _ id hid
    cases hid
  | some id =>
    have hmay {t : System} (h : regime.complete = true → Released t (toLower stamp) (toLower id)) :
        MayDrop regime t (toLower stamp) (some id) := by
      intro hcomplete id' hid'
      cases hid'
      exact h hcomplete
    refine wp_read_bind hinv (fun _ _ hsem => hsem.2.2) ?_
    intro r s1 hsem hlater1 hinv1
    rcases r with err | (_ | v)
    · intro hkeep
      cases hkeep
    · refine fun _ => hmay fun hcomplete => ?_
      obtain ⟨u, hu⟩ := hknown (toLower id) rfl
      exact .inl (hlater1.gone _ ⟨⟨u, hu⟩, hsem.2.1 hcomplete rfl rfl⟩)
    have hpast := hsem.1 v rfl
    dsimp only
    cases hplacement : v.doc.observed.or v.doc.intended with
    | some placement =>
      intro hkeep
      have hpast1 := hlater1.past (.serviceProviderCluster (toLower id)) v hpast
      refine hmay fun hcomplete => .inr (.inl ⟨v, placement, hpast1, ?_, ?_⟩)
      · rcases Option.or_eq_some_iff.mp hplacement with hobserved | ⟨-, hintended⟩
        · exact hinv.seen hcomplete _ v placement hpast hobserved
        · exact hintended
      · simpa using hkeep
    | none =>
      refine wp_read_bind hinv1 (fun _ _ hsem => hsem.2) ?_
      intro r s2 hsem2 hlater2 _
      rcases r with err | (_ | cluster) <;> intro hkeep
      · cases hkeep
      · cases hkeep
      · refine hmay fun _ => .inr (.inr (.inl ⟨cluster, ?_, ?_⟩))
        · exact hlater2.past (.cluster (toLower id)) cluster (hsem2.1 cluster rfl)
        · simpa using hkeep

theorem keepPending_safe {entries : List (Option String)}
    (hknown : ∀ entry ∈ entries, ∀ id, entry.map toLower = some id →
      ∃ u, s.store.Past (.serviceProviderCluster id) u) :
    safe regime profile (keepPending stamp entries)
      (fun r s' => ∀ kept, r = .ok kept → (∀ entry ∈ kept, entry ∈ entries) ∧
        ∀ entry ∈ entries, entry ∈ kept ∨ MayDrop regime s' (toLower stamp) entry) s := by
  induction entries generalizing s with
  | nil =>
    intro kept hr
    cases hr
    exact ⟨by simp, by simp⟩
  | cons entry rest ih =>
    refine wp_seq hinv (shouldKeepPending_safe hinv (hknown entry List.mem_cons_self)) ?_
    intro r s1 hdrop hlater1 hinv1
    cases r with
    | error err =>
      intro kept hr
      cases hr
    | ok keep =>
      have hknown1 : ∀ entry ∈ rest, ∀ id, entry.map toLower = some id →
          ∃ u, s1.store.Past (.serviceProviderCluster id) u := by
        intro entry' hentry' id hid
        obtain ⟨u, hu⟩ := hknown entry' (List.mem_cons_of_mem _ hentry') id hid
        exact ⟨u, hlater1.past _ u hu⟩
      refine wp_seq hinv1 (ih hinv1 hknown1) ?_
      intro r s2 hkept hlater2 _
      cases r with
      | error err =>
        intro kept hr
        cases hr
      | ok kept =>
        obtain ⟨hsub, hall⟩ := hkept kept rfl
        intro kept' hr
        cases hr
        cases keep with
        | false =>
          refine ⟨fun e he => List.mem_cons_of_mem _ (hsub e he), ?_⟩
          exact List.forall_mem_cons.mpr ⟨.inr ((hdrop rfl).later hlater2), hall⟩
        | true =>
          refine ⟨List.forall_mem_cons.mpr ⟨List.mem_cons_self, ?_⟩,
            List.forall_mem_cons.mpr ⟨.inl List.mem_cons_self, ?_⟩⟩
          · exact fun e he => List.mem_cons_of_mem _ (hsub e he)
          · exact fun e he => (hall e he).imp_left (List.mem_cons_of_mem _)

theorem pendingCleanupSyncOnce_safe :
    safe regime profile (pendingCleanupSyncOnce stamp) (fun _ _ => True) s := by
  refine wp_read_bind hinv (fun _ _ hsem => hsem.2) ?_
  intro r s1 hsem hlater1 hinv1
  rcases r with err | (_ | v)
  · trivial
  · trivial
  have hpast := hlater1.past (.scheduling (toLower stamp)) v (hsem.1 v rfl)
  dsimp only
  split_ifs
  · trivial
  have hknown : ∀ entry ∈ v.doc.pendingAssignedClusters, ∀ id, entry.map toLower = some id →
      ∃ u, s1.store.Past (.serviceProviderCluster id) u :=
    fun entry hentry id hid => hinv1.known _ v id hpast ⟨entry, hentry, hid⟩
  refine wp_seq hinv1 (keepPending_safe hinv1 hknown) ?_
  intro r s2 hkept hlater2 hinv2
  rcases r with _ | kept
  · trivial
  obtain ⟨hsub, hall⟩ := hkept kept rfl
  dsimp only
  split_ifs
  · trivial
  have hpast2 := hlater2.past (.scheduling (toLower stamp)) v hpast
  refine safe_replaceScheduling hinv2 hpast2 (fun _ hwhole => hwhole) (fun heq => by cases heq)
    ?_ ?_ ?_
  · rintro id ⟨entry, hentry, heq⟩
    exact .inl ⟨entry, hsub entry hentry, heq⟩
  · rintro hcomplete id ⟨entry, hentry, heq⟩
    rcases hall entry hentry with hkeep | hdrop
    · exact .inr ⟨entry, hkeep, heq⟩
    · exact .inl (hdrop hcomplete id heq)
  · intro r s3 _ _ _
    cases r <;> trivial

theorem getOrCreateScheduling_safe :
    safe regime profile (getOrCreateScheduling stamp)
      (fun r s' => ∀ v, r = .ok v → s'.store.Past (.scheduling stamp) v) s := by
  -- the end of the function with an error, and with a document that was read
  have herror {t : System} {err : String} : ∀ v : Versioned ManagementClusterScheduling,
      (.error err : Except String _) = .ok v → t.store.Past (.scheduling stamp) v := by
    intro v hv
    cases hv
  have hread {t t' : System} {v : Versioned ManagementClusterScheduling}
      (hcurrent : t.store.current (.scheduling stamp) = some v) (hlater : Later t t') :
      ∀ v', (.ok v : Except String _) = .ok v' → t'.store.Past (.scheduling stamp) v' := by
    intro v' hv'
    cases hv'
    exact hlater.past (.scheduling stamp) v (t.store.current_mem (.scheduling stamp) v hcurrent)
  -- what follows a create that found the document of another, with the end of the function as `f`
  have hagain {t : System} (hinvt : Inv regime profile t)
      {f : Read ManagementClusterScheduling →
        Prog (Except String (Versioned ManagementClusterScheduling))}
      (hnone : ∀ err, f (.error err) = return .error err)
      (hnone' : f (.ok none) = return .error "not found")
      (hsome : ∀ v, f (.ok (some v)) = return .ok v) :
      safe regime profile (perform (Call.getScheduling stamp) >>= f)
        (fun r s' => ∀ v, r = .ok v → s'.store.Past (.scheduling stamp) v) t := by
    refine wp_read_bind hinvt (fun _ _ hsem => hsem.2) ?_
    intro r t' hsem hlater _
    rcases r with err | (_ | v)
    · rw [hnone]
      exact herror
    · rw [hnone']
      exact herror
    · rw [hsome]
      exact hread (hsem.1 _ rfl) hlater
  refine wp_read_bind hinv (fun _ _ hsem => hsem.2) ?_
  intro r s1 hsem hlater1 hinv1
  rcases r with err | (_ | v)
  · exact herror
  · refine wp_perform_bind ?_
    rintro r s2 (⟨store, hcreate, hr, rfl⟩ | ⟨hr, rfl⟩) -
    · obtain ⟨hnone, rfl⟩ := Store.create_eq_some hcreate
      have hput : MayPut regime profile s1 (.scheduling stamp) {} := by
        refine ⟨fun _ => ⟨rfl, rfl, rfl⟩, ?_, ?_⟩
        · rintro id ⟨entry, hentry, -⟩
          cases hentry
        · intro _ v id hv
          rw [hnone] at hv
          cases hv
      refine ⟨hinv1.put hput hinv1.booked, ?_⟩
      intro s3 hlater3 hinv3
      rcases r with err | (_ | v)
      · exact herror
      · exact hagain hinv3 (fun _ => rfl) rfl fun _ => rfl
      · exact hread (hr (some v) rfl).symm hlater3
    · refine ⟨⟨hinv1, Later.refl s2⟩, ?_⟩
      intro s3 _ hinv3
      rcases r with err | (_ | v)
      · exact herror
      · exact hagain hinv3 (fun _ => rfl) rfl fun _ => rfl
      · exact absurd rfl (hr v)
  · exact hread (hsem.1 _ rfl) hlater1

/-- An update of a scheduling document that adds no reservation and drops only reported ones. -/
theorem persist_safe {update : ManagementClusterScheduling → ManagementClusterScheduling}
    (hsub : ∀ doc id, HasPending (update doc) id → HasPending doc id)
    (hkept : ∀ doc id, HasPending doc id → HasPending (update doc) id ∨ (stamp, id) ∈ s.reported) :
    safe regime profile (persist stamp update) (fun _ _ => True) s := by
  refine wp_seq hinv (getOrCreateScheduling_safe hinv) ?_
  intro r s1 hpast hlater1 hinv1
  cases r with
  | error err => trivial
  | ok v =>
    dsimp only
    split_ifs
    · trivial
    refine safe_replaceScheduling (f := pure) hinv1 (hpast v rfl) (fun hne => absurd rfl hne)
      (fun heq => by cases heq) ?_ ?_ ?_
    · exact fun id hid => .inl (hsub v.doc id hid)
    · intro _ id hid
      rcases hkept v.doc id hid with hnow | hreported
      · exact .inr hnow
      · exact .inl (.inr (.inr (.inr (hlater1.reported _ hreported))))
    · intro _ _ _ _ _
      trivial

end

/-- A report takes from the pending list exactly the clusters that it lists. -/
theorem hasPending_observedUpdate {parses : String → Bool} {report : CapacityReport}
    {doc : ManagementClusterScheduling} {id : String} :
    HasPending (observedUpdate parses report doc) id ↔
      HasPending doc id ∧ id ∉ report.listed.map toLower := by
  constructor
  · rintro ⟨entry, hentry, heq⟩
    obtain ⟨hmem, hunlisted⟩ := List.mem_filter.mp hentry
    obtain ⟨text, rfl, rfl⟩ := Option.map_eq_some_iff.mp heq
    exact ⟨⟨some text, hmem, rfl⟩, of_decide_eq_true hunlisted⟩
  · rintro ⟨⟨entry, hmem, heq⟩, hunlisted⟩
    obtain ⟨text, rfl, rfl⟩ := Option.map_eq_some_iff.mp heq
    exact ⟨some text, List.mem_filter.mpr ⟨hmem, decide_eq_true hunlisted⟩, rfl⟩

theorem ceilingUpdate_pending (max : Option Int) (now : Time) (doc : ManagementClusterScheduling) :
    (ceilingUpdate max now doc).pendingAssignedClusters = doc.pendingAssignedClusters := by
  unfold ceilingUpdate
  dsimp only
  split_ifs <;> rfl

section

variable (hinv : Inv regime profile s)

include hinv

theorem safe_capacityReport {β : Type} {Q : β → System → Prop}
    {f : Except String (Option (Option CapacityReport)) → Prog β}
    (h : ∀ r s', Inv regime profile s' → (∀ e ∈ listedBy stamp r, e ∈ s'.reported) →
      safe regime profile (f r) Q s') :
    safe regime profile (perform (Call.capacityReport stamp) >>= f) Q s := by
  refine wp_perform_bind ?_
  rintro r s' rfl -
  refine ⟨⟨hinv.report _, later_reported s _⟩, ?_⟩
  intro s'' hlater hinv''
  exact h r s'' hinv'' fun e he => hlater.reported e (List.mem_append_left _ he)

theorem capacityReportingSyncOnce_safe {parses : String → Bool} :
    safe regime profile (capacityReportingSyncOnce parses stamp) (fun _ _ => True) s := by
  refine safe_capacityReport hinv ?_
  intro r s1 hinv1 hlisted
  rcases r with err | (_ | (_ | report))
  · trivial
  · trivial
  · trivial
  · refine persist_safe hinv1 (fun doc id h => (hasPending_observedUpdate.mp h).1) ?_
    intro doc id hid
    by_cases hreport : id ∈ report.listed.map toLower
    · obtain ⟨text, htext, rfl⟩ := List.mem_map.mp hreport
      exact .inr (hlisted _ (List.mem_map.mpr ⟨text, htext, rfl⟩))
    · exact .inl (hasPending_observedUpdate.mpr ⟨hid, hreport⟩)

theorem scaleCeilingSyncOnce_safe {now : Time} :
    safe regime profile (scaleCeilingSyncOnce now stamp) (fun _ _ => True) s := by
  refine wp_read_bind hinv (fun _ _ hsem => hsem) ?_
  intro r s1 _ _ hinv1
  rcases r with err | (_ | _)
  · trivial
  · trivial
  refine safe_capacityReport hinv1 ?_
  intro r s2 hinv2 _
  rcases r with err | (_ | report)
  · trivial
  · trivial
  refine wp_read_bind hinv2 (fun _ _ hsem => hsem) ?_
  intro r s3 _ _ hinv3
  rcases r with err | pools
  · trivial
  refine persist_safe hinv3 ?_ ?_
  · rintro doc id ⟨entry, hentry, heq⟩
    rw [ceilingUpdate_pending] at hentry
    exact ⟨entry, hentry, heq⟩
  · rintro doc id ⟨entry, hentry, heq⟩
    refine .inl ⟨entry, ?_, heq⟩
    rwa [ceilingUpdate_pending]

end

end Reporting

/-! ## Every run -/

theorem program_safe {regime : Regime} {profile : String → Option Cluster} {s : System}
    {floats : Floats} {parses : String → Bool} (task : Task) (hinv : Inv regime profile s) :
    safe regime profile (program floats parses task) (fun _ _ => True) s := by
  cases task with
  | placement now id => exact placementSyncOnce_safe hinv
  | managementClusterPlacementSync id => exact managementClusterPlacementSyncOnce_safe hinv
  | pendingCleanup stamp => exact pendingCleanupSyncOnce_safe hinv
  | capacityReporting stamp => exact capacityReportingSyncOnce_safe hinv
  | scaleCeiling now stamp => exact scaleCeilingSyncOnce_safe hinv

/-- In every run in which only whole numbers of NICs are reported, no placement write takes a
management cluster above its ceiling; in every run in which the caches of the sweeps have every
ServiceProviderCluster that is stored, every placed cluster is accounted for. -/
theorem placement_accounts (regime : Regime) (profile : String → Option Cluster) (floats : Floats)
    (parses : String → Bool) {pool : Pool System Call Call.Reply (Option String)}
    (hrun : ReflTransGen (Step (sem regime) (program floats parses) (Lifecycle profile)
      fun _ _ => True) ⟨System.empty, []⟩ pool) :
    (regime.whole = true → ∀ e ∈ pool.state.placed, load profile e.1 ≤ ceiling e.1 →
      load profile e.2 ≤ ceiling e.2) ∧
    (regime.complete = true → Accounted pool.state) := by
  have hready := Ready.run
    (fun task _ hinv => program_safe task hinv) (fun _ _ hinv => hinv.lifecycle)
    (Ready.initial Inv.empty) hrun
  exact ⟨hready.1.1.booked, hready.1.1.accounted⟩

/-! ## Runs of a small system -/

section Examples

/-- How a call of an execution is answered. -/
inductive Hint where
  | fresh
  | miss
  | managementClusters (l : List ManagementCluster)
  | shard (stamp : String)
  | report (r : CapacityReport)
  | pools (l : List AgentPool)

/-- Caches are up to date unless the hint is a miss, and every write is accepted. -/
def answer (regime : Regime) : (c : Call) → Hint → System → Option (c.Reply × System)
  | .cachedCluster id, .fresh, s => some (.ok (s.store.current (.cluster id)), s)
  | .cachedServiceProviderCluster _ id, .fresh, s =>
    some (.ok (s.store.current (.serviceProviderCluster id)), s)
  | .cachedServiceProviderCluster _ _, .miss, s =>
    if regime.complete then none else some (.ok none, s)
  | .cachedScheduling stamp, .fresh, s => some (.ok (s.store.current (.scheduling stamp)), s)
  | .managementClusters, .managementClusters l, s => some (.ok (l.map some), s)
  | .capacityReport stamp, .report report, s =>
    some (.ok (some (some report)),
      { s with reported := listedBy stamp (.ok (some (some report))) ++ s.reported })
  | .aksResourceID _, .fresh, s => some (.ok true, s)
  | .agentPools _, .pools l, s => some (.ok l, s)
  | .getScheduling stamp, .fresh, s => some (.ok (s.store.current (.scheduling stamp)), s)
  | .getServiceProviderCluster id, .fresh, s =>
    some (.ok (s.store.current (.serviceProviderCluster id)), s)
  | .provisionShard _, .shard stamp, s =>
    if regime.complete then none else some (.ok (some stamp), s)
  | .createScheduling stamp, .fresh, s =>
    (s.store.create (.scheduling stamp) {}).map fun store =>
      (.ok (store.current (.scheduling stamp)), { s with store })
  | .replaceServiceProviderCluster id etag doc, .fresh, s =>
    (s.store.replace (.serviceProviderCluster id) etag doc).map fun store => (none, { s with store })
  | .replaceScheduling writer stamp etag doc, .fresh, s =>
    match s.store.replace (.scheduling stamp) etag doc, s.store.current (.scheduling stamp) with
    | some store, some before =>
      if regime.whole = true → WholeNICs doc then
        some (none, { s with store, placed := placements writer before.doc doc ++ s.placed })
      else none
    | _, _ => none
  | _, _, _ => none

theorem sem_of_answer {regime : Regime} {c : Call} {hint : Hint} {s : System} {r : c.Reply}
    {s' : System} (h : answer regime c hint s = some (r, s')) : sem regime c s r s' := by
  cases c <;> cases hint <;> simp only [answer, reduceCtorEq] at h
  case cachedCluster.fresh | cachedScheduling.fresh =>
    cases h
    exact ⟨s.store.cacheRead_current _, rfl⟩
  case cachedServiceProviderCluster.fresh reader id =>
    cases h
    refine ⟨s.store.cacheRead_current (.serviceProviderCluster id), ?_, rfl⟩
    intro _ _ hnone
    rwa [Except.ok.injEq] at hnone
  case cachedServiceProviderCluster.miss reader id =>
    split_ifs at h with hregime
    cases h
    refine ⟨?_, fun hcomplete => absurd hcomplete hregime, rfl⟩
    intro v hv
    cases hv
  case getScheduling.fresh stamp =>
    cases h
    exact ⟨s.store.liveRead_current (.scheduling stamp), rfl⟩
  case getServiceProviderCluster.fresh id =>
    cases h
    exact ⟨s.store.liveRead_current (.serviceProviderCluster id), rfl⟩
  case provisionShard.shard id stamp =>
    split_ifs at h with hregime
    cases h
    exact ⟨fun hcomplete => absurd hcomplete hregime, rfl⟩
  case createScheduling.fresh stamp =>
    obtain ⟨store, hcreate, heq⟩ := Option.map_eq_some_iff.mp h
    cases heq
    refine .inl ⟨store, hcreate, ?_, rfl⟩
    rintro o ho
    rw [Except.ok.injEq] at ho
    exact ho.symm
  case replaceServiceProviderCluster.fresh id etag doc =>
    obtain ⟨store, hreplace, heq⟩ := Option.map_eq_some_iff.mp h
    cases heq
    exact .inl ⟨store, hreplace, rfl⟩
  case replaceScheduling.fresh writer stamp etag doc =>
    split at h
    · rename_i store before hreplace hbefore
      split_ifs at h with hwhole
      cases h
      exact .inl ⟨store, before, hreplace, hbefore, fun hregime _ => hwhole hregime, rfl⟩
    · cases h
  all_goals
    cases h
    rfl

/-- A cluster that needs three NICs and is being created. -/
def exampleCluster : Cluster := ⟨some "subnet", .other "", none, .provisioning, some "cs"⟩

def exampleProfile : String → Option Cluster := fun _ => some exampleCluster

/-- The cluster and its ServiceProviderCluster have just been created. -/
def exampleSystem : System :=
  ⟨(Store.empty.put (.cluster "c") exampleCluster).put (.serviceProviderCluster "c") {}, [], []⟩

/-- Eight NICs on as many ready nodes, five of them requested. -/
def exampleReport (ready : Int) : CapacityReport where
  isReportCurrent := true
  lastReportedAt := none
  nodes := [⟨"D", ready, { swiftNIC := some (ofInt 8) }⟩]
  usage := {}
  requested := { swiftNIC := some (ofInt 5) }
  readyResourceIDs := []
  notReadyResourceIDs := []

def exampleChoices (ready : Int) : List (Choice Task Hint) :=
  Choice.program 0 (.capacityReporting "m") [.report (exampleReport ready), .fresh, .fresh, .fresh] ++
  Choice.program 1 (.scaleCeiling 1 "m")
    [.fresh, .report (exampleReport ready), .pools [⟨some "D", some ready, true, ready, none⟩],
      .fresh,
      .fresh] ++
  Choice.program 2 (.placement 1 "c")
    [.fresh, .fresh, .managementClusters [⟨"m", .schedulable, some .isTrue⟩], .fresh, .fresh, .fresh]

def exampleFloats : Floats := ⟨fun _ => none, fun _ _ => none⟩

abbrev exampleProgram : Task → Prog (Option String) := program exampleFloats fun _ => true

abbrev ExampleRun (regime : Regime) (pool : Pool System Call Call.Reply (Option String)) : Prop :=
  ReflTransGen (Step (sem regime) exampleProgram (Lifecycle exampleProfile) fun _ _ => True)
    ⟨System.empty, []⟩ pool

theorem exists_run {α : Type} (regime : Regime) (choices : List (Choice Task Hint)) (f : System → α)
    (result : α)
    (h : (execute (answer regime) exampleProgram (fun _ _ => true) ⟨exampleSystem, []⟩ choices).map
      (fun pool => f pool.state) = some result) :
    ∃ pool, ExampleRun regime pool ∧ f pool.state = result := by
  obtain ⟨pool, hpool, hresult⟩ := Option.map_eq_some_iff.mp h
  refine ⟨pool, .head (.env _ _ _ (.createCluster _ "c" exampleCluster ?_ rfl))
    (.head (.env _ _ _ (.createServiceProviderCluster _ "c" ?_)) ?_), hresult⟩
  · intro v hv
    cases hv
  · intro v hv
    rcases Store.past_put hv with hold | hnew
    · cases hold
    · cases hnew
  · have hanswer : ∀ c hint s r s', answer regime c hint s = some (r, s') → sem regime c s r s' :=
      fun _ _ _ _ _ h => sem_of_answer h
    exact run_mono (fun _ _ _ => trivial) (run_of_execute (Lifecycle exampleProfile) hanswer hpool)

/-- The load and the ceiling before and after each placement write. -/
def bookings (s : System) : List ((Int × Int) × (Int × Int)) :=
  s.placed.map fun e =>
    ((load exampleProfile e.1, ceiling e.1), (load exampleProfile e.2, ceiling e.2))

def placementOf (s : System) : Option (Option String) × Option (List (Option String)) :=
  ((s.store.current (.serviceProviderCluster "c")).map (·.doc.intended),
    (s.store.current (.scheduling "m")).map (·.doc.pendingAssignedClusters))

/-- With two nodes of four NICs each the cluster takes the last three, and is accounted for. -/
theorem placement_accounts_lastNICs :
    ∃ pool, ExampleRun ⟨true, true⟩ pool ∧
      bookings pool.state = [((ofInt 5, ofInt 8), (ofInt 8, ofInt 8))] ∧
      placementOf pool.state = (some (some "m"), some [some "c"]) ∧
      (∀ e ∈ pool.state.placed, load exampleProfile e.1 ≤ ceiling e.1 →
        load exampleProfile e.2 ≤ ceiling e.2) ∧ Accounted pool.state := by
  obtain ⟨pool, hrun, hresult⟩ := exists_run ⟨true, true⟩ (exampleChoices 2)
    (fun s => (bookings s, placementOf s))
    ([((ofInt 5, ofInt 8), (ofInt 8, ofInt 8))], some (some "m"), some [some "c"])
    (by decide +kernel)
  rw [Prod.mk.injEq] at hresult
  have haccounts := placement_accounts ⟨true, true⟩ exampleProfile _ _ hrun
  exact ⟨pool, hrun, hresult.1, hresult.2, haccounts.1 rfl, haccounts.2 rfl⟩

/-- No cluster has ever been deleting or at the end of an operation. -/
def neverEnded (s : System) : Bool :=
  s.store.history.all fun
    | ⟨.cluster _, v⟩ => !v.doc.isEnded
    | _ => true

/-- The placement of the cluster, followed by a sweep that does not find it. -/
def sweptChoices : List (Choice Task Hint) :=
  exampleChoices 2 ++ Choice.program 3 (.pendingCleanup "m") [.fresh, .miss, .fresh]

/-- The placement of the cluster, followed by a sweep after Cluster Service has put it elsewhere. -/
def movedChoices : List (Choice Task Hint) :=
  exampleChoices 2 ++
  Choice.program 3 (.managementClusterPlacementSync "c")
    [.fresh, .fresh, .fresh, .shard "other", .fresh] ++
  Choice.program 4 (.pendingCleanup "m") [.fresh, .fresh, .fresh]

def observedOf (s : System) : Option (Option String) :=
  (s.store.current (.serviceProviderCluster "c")).map (·.doc.observed)

theorem not_accounted_of_dropped {choices : List (Choice Task Hint)} {observed : Option String}
    (h : (execute (answer ⟨true, false⟩) exampleProgram (fun _ _ => true) ⟨exampleSystem, []⟩
      choices).map (fun pool => (observedOf pool.state, placementOf pool.state,
        neverEnded pool.state && pool.state.reported.isEmpty)) =
      some (some observed, (some (some "m"), some []), true)) :
    ∃ pool, ExampleRun ⟨true, false⟩ pool ∧ observedOf pool.state = some observed ∧
      ¬Accounted pool.state := by
  obtain ⟨pool, hrun, hresult⟩ := exists_run ⟨true, false⟩ choices
    (fun s => (observedOf s, placementOf s, neverEnded s && s.reported.isEmpty)) _ h
  rw [Prod.mk.injEq, Prod.mk.injEq, placementOf, Prod.mk.injEq, Bool.and_eq_true,
    List.isEmpty_iff] at hresult
  obtain ⟨hobserved, ⟨hintended, hpending⟩, halive, hreported⟩ := hresult
  refine ⟨pool, hrun, hobserved, ?_⟩
  intro haccounted
  obtain ⟨v, hv, hstamp⟩ := Option.map_eq_some_iff.mp hintended
  have hnever : ∀ u, pool.state.store.Past (.cluster "c") u → u.doc.isEnded = false := by
    intro u hu
    have hended := List.all_eq_true.mp halive _ hu
    rwa [Bool.not_eq_true'] at hended
  obtain ⟨w, hw, entry, hentry, -⟩ := haccounted "c" v "m" hv hstamp hnever (by simp [hreported])
  rw [show toLower "m" = "m" by decide +kernel] at hw
  rw [hw, Option.map_some, Option.some.injEq] at hpending
  rw [hpending] at hentry
  cases hentry

/-- With three nodes that have eight NICs the ceiling is 7.998, and the cluster takes the load from
5 to 8. A sweep whose cache does not have the ServiceProviderCluster yet drops the reservation of a
cluster that is to be on the management cluster, is not ended and has not been reported; so does a
sweep that finds the cluster put elsewhere by Cluster Service. -/
theorem placement_overbooks :
    (∃ pool, ExampleRun ⟨false, true⟩ pool ∧ ∃ e ∈ pool.state.placed,
      load exampleProfile e.1 ≤ ceiling e.1 ∧ ceiling e.2 < load exampleProfile e.2) ∧
    (∃ pool, ExampleRun ⟨true, false⟩ pool ∧ observedOf pool.state = some none ∧
      ¬Accounted pool.state) ∧
    ∃ pool, ExampleRun ⟨true, false⟩ pool ∧ observedOf pool.state = some (some "other") ∧
      ¬Accounted pool.state := by
  refine ⟨?_, @not_accounted_of_dropped sweptChoices none (by decide +kernel),
    @not_accounted_of_dropped movedChoices (some "other") (by decide +kernel)⟩
  · obtain ⟨pool, hrun, hresult⟩ := exists_run ⟨false, true⟩ (exampleChoices 3) bookings
      [((ofInt 5, 7998000000), (ofInt 8, 7998000000))] (by decide +kernel)
    refine ⟨pool, hrun, ?_⟩
    have hmem : ((ofInt 5, (7998000000 : Int)), (ofInt 8, (7998000000 : Int))) ∈
        bookings pool.state := by
      rw [hresult]
      exact List.mem_cons_self
    obtain ⟨e, he, heq⟩ := List.mem_map.mp hmem
    rw [Prod.mk.injEq, Prod.mk.injEq, Prod.mk.injEq] at heq
    obtain ⟨⟨hload, hceiling⟩, hload', hceiling'⟩ := heq
    refine ⟨e, he, ?_, ?_⟩
    · rw [hload, hceiling]
      decide
    · rw [hload', hceiling']
      decide

end Examples

end AroHcp.Placement
