import AroHcp.ClusterResources.TeardownSystem

/-! The order of the teardown, for every interleaving of the passes of the backend with the workers
of the kube-applier. -/

namespace AroHcp.ClusterResources

open Conditions Desires DocStore GoFmt KubeApplier Program Relation Workers

/-! ## The names of the chain -/

theorem hasName_toLower (names : List DesireName) (name : String) :
    hasName names (toLower name) = hasName names name := by
  unfold hasName
  rw [toLower_toLower]

/-- No name is claimed by two steps, nor by the controller of the serving certificate. -/
theorem names_disjoint :
    applyDesireRemovalChain.Pairwise
        (fun a b => ∀ x ∈ a.names, ∀ y ∈ b.names, toLower x.text ≠ toLower y.text) ∧
      ∀ x ∈ claimedDesireNames, managedByKubeAPIServerServingCertificate x.text = false := by
  decide +kernel

theorem hasName_iff {names : List DesireName} {name : String} :
    hasName names name = true ↔ ∃ x ∈ names, toLower x.text = toLower name := by
  unfold hasName
  simp

section Chain

variable {name : String} {done rest : List RemovalStep} {step : RemovalStep}

theorem chainStep_of_split (hsplit : applyDesireRemovalChain = done ++ step :: rest)
    (hname : hasName step.names name = true) : chainStep name = some done.length := by
  have hnone : done.findIdx? (fun step => hasName step.names name) = none := by
    rw [List.findIdx?_eq_none_iff]
    intro other hother
    rw [Bool.eq_false_iff]
    intro hother'
    obtain ⟨x, hx, heq⟩ := hasName_iff.mp hother'
    obtain ⟨y, hy, heq'⟩ := hasName_iff.mp hname
    have hdisjoint := names_disjoint.1
    rw [hsplit, List.pairwise_append] at hdisjoint
    exact hdisjoint.2.2 other hother step List.mem_cons_self x hx y hy (heq.trans heq'.symm)
  unfold chainStep
  rw [hsplit, List.findIdx?_append, hnone, List.findIdx?_cons, if_pos hname]
  simp

/-- A name of a place before the rest of the chain belongs to one of the steps that are done. -/
theorem exists_done_of_chainStep (hsplit : applyDesireRemovalChain = done ++ rest) {m : Nat}
    (h : chainStep name = some m) (hm : m < done.length) :
    ∃ step ∈ done, hasName step.names name = true := by
  obtain ⟨hlt, hname, -⟩ := List.findIdx?_eq_some_iff_getElem.mp h
  have hget : applyDesireRemovalChain[m]? = some done[m] := by
    rw [hsplit, List.getElem?_append_left hm, List.getElem?_eq_getElem hm]
  rw [List.getElem?_eq_getElem hlt, Option.some.injEq] at hget
  rw [hget] at hname
  exact ⟨done[m], List.getElem_mem hm, hname⟩

/-- A desire that the chain waits for is not one of a step that only drops documents. -/
theorem not_waited_of_drop {s₀ : TeardownState} {k : DesireKey}
    (hsplit : applyDesireRemovalChain = done ++ step :: rest) (hwaits : step.waits = false)
    (hname : hasName step.names k.name = true) : ¬Waited s₀ k := by
  rintro ⟨-, other, hother, hwaits', hname'⟩
  obtain ⟨done', rest', hsplit'⟩ := List.append_of_mem hother
  have hplace := chainStep_of_split hsplit hname
  rw [chainStep_of_split hsplit' hname', Option.some.injEq] at hplace
  have hsteps := List.append_inj (hsplit'.symm.trans hsplit) hplace
  rw [List.cons.injEq] at hsteps
  rw [hsteps.2.1, hwaits] at hwaits'
  cases hwaits'

theorem not_managed_of_claimed (hstep : step ∈ applyDesireRemovalChain)
    (hname : hasName step.names name = true) :
    managedByKubeAPIServerServingCertificate name = false := by
  obtain ⟨x, hx, heq⟩ := hasName_iff.mp hname
  have hclaimed : x ∈ claimedDesireNames := List.mem_flatMap.mpr ⟨step, hstep, hx⟩
  have hother := names_disjoint.2 x hclaimed
  unfold managedByKubeAPIServerServingCertificate at hother ⊢
  rwa [← hasName_toLower, heq, hasName_toLower] at hother

end Chain

/-! ## The calls of the workers -/

section Calls

variable {s₀ s s' : TeardownState} {before : DesireKey → Bool} {w : Worker} {k : DesireKey}
  {β : Type} {Q : β → TeardownState → Prop}

variable (s₀ before w) in
/-- The program keeps the invariant and what the worker guarantees, and ends as `Q` says. -/
abbrev safe (p : Prog β) (Q : β → TeardownState → Prop) (s : TeardownState) : Prop :=
  wpg sem (Inv s₀ before) (guar before w) (rely before w) p Q s

section

variable (hinv : Inv s₀ before s)

include hinv

theorem safe_getApplyDesire {f : Except String (Option (Versioned ApplyDesire)) → Prog β}
    (herr : ∀ err s', rely before w s s' → Inv s₀ before s' → safe s₀ before w (f (.error err)) Q s')
    (hnone : s.store.current k = none → ∀ s', rely before w s s' → Inv s₀ before s' →
      safe s₀ before w (f (.ok none)) Q s')
    (hsome : ∀ v, s.store.current k = some v → ∀ s', rely before w s s' → Inv s₀ before s' →
      safe s₀ before w (f (.ok (some v))) Q s') :
    safe s₀ before w (perform (Call.getApplyDesire k) >>= f) Q s := by
  refine wpg_read_bind hinv (guar_refl w s) (fun r s' hsem => hsem.2) ?_
  rintro r ⟨hr | ⟨err, rfl⟩, -⟩ s' hrely hinv'
  · subst hr
    cases hcurrent : s.store.current k with
    | none => exact hnone hcurrent s' hrely hinv'
    | some v => exact hsome v hcurrent s' hrely hinv'
  · exact herr err s' hrely hinv'

/-- The rule of a call that neither the store nor the management cluster notices. -/
theorem safe_unnoticed {c : Call} {f : c.Reply → Prog β} (hread : ∀ s r s', sem c s r s' → s' = s)
    (h : ∀ r s', sem c s r s → Grows s s' → Inv s₀ before s' → safe s₀ before w (f r) Q s') :
    safe s₀ before w (perform c >>= f) Q s :=
  wpg_read_bind hinv (guar_refl w s) (hread s)
    fun r hsem s' hrely hinv' => h r s' hsem hrely.1 hinv'

theorem safe_replaceApplyDesire {v : Versioned ApplyDesire} {d : ApplyDesire} {f : Outcome → Prog β}
    (hpast : s.store.Past k v) (hid : d.resourceID = v.doc.resourceID) (htags : d.tags = v.doc.tags)
    (htarget : d.spec.targetItem = v.doc.spec.targetItem)
    (hstays : v.doc.spec.type = .delete → d.spec.type = .delete)
    (hdue : d.spec.type = .delete → Untouched s₀ k →
      ∀ k', Waited s₀ k' → Earlier k' k → Confirmed s k')
    (hdone : isDone d → w = .applier k ∧ seenAbsent before s.log k = true)
    (h : ∀ r s', Grows s s' → Inv s₀ before s' → safe s₀ before w (f r) Q s') :
    safe s₀ before w (perform (Call.replaceApplyDesire v.etag d) >>= f) Q s := by
  refine wpg_perform_bind ?_
  rintro r s' (⟨-, store, hreplace, rfl⟩ | ⟨-, rfl⟩)
  · rw [hid, hinv.keyed k v hpast] at hreplace
    obtain ⟨hcurrent, rfl⟩ := hpast.replace_eq_some hreplace
    have hgrows := grows_put hcurrent d
    refine ⟨⟨hinv.put hcurrent hid htags htarget hstays hdue fun hd => (hdone hd).2, hgrows, ?_⟩, ?_⟩
    · intro k' hk'
      refine ⟨fun habsent => habsent, confirmed_put ?_⟩
      rintro ⟨rfl, hd⟩
      exact hk' (hdone hd).1
    · intro s'' hrely hinv''
      exact h r s'' (hgrows.trans hrely.1) hinv''
  · refine ⟨⟨hinv, guar_refl w s'⟩, ?_⟩
    intro s'' hrely hinv''
    exact h r s'' hrely.1 hinv''

theorem safe_deleteApplyDesire {f : Outcome → Prog β} (hk : Waited s₀ k → Confirmed s k)
    (h : ∀ r s', Grows s s' → Inv s₀ before s' → safe s₀ before w (f r) Q s') :
    safe s₀ before w (perform (Call.deleteApplyDesire k) >>= f) Q s := by
  refine wpg_perform_bind ?_
  rintro r s' (⟨-, -, rfl⟩ | ⟨-, -, rfl⟩)
  · have hgrows := grows_remove s k
    refine ⟨⟨hinv.remove hk, hgrows, fun k' _ => ⟨fun habsent => habsent, fun hc => hc⟩⟩, ?_⟩
    intro s'' hrely hinv''
    exact h r s'' (hgrows.trans hrely.1) hinv''
  · refine ⟨⟨hinv, guar_refl w s'⟩, ?_⟩
    intro s'' hrely hinv''
    exact h r s'' hrely.1 hinv''

end

end Calls

/-! ## The passes of the backend -/

section Backend

variable {s₀ s s' : TeardownState} {before : DesireKey → Bool} {w : Worker}
  {done rest : List RemovalStep} {step : RemovalStep}

/-- A desire is turned into a delete when it is due, and its document goes when its delete is
reported as done. -/
theorem ensureApplyDesireRemoved_safe {k : DesireKey} (hinv : Inv s₀ before s)
    (hdue : Untouched s₀ k.toLower →
      ∀ k', Waited s₀ k' → Earlier k' k.toLower → Confirmed s k') :
    safe s₀ before w (ensureApplyDesireRemoved k.scope k.name)
      (fun r s' => Inv s₀ before s' ∧ Grows s s' ∧
        (r = .ok true → Waited s₀ k.toLower → Confirmed s' k.toLower)) s := by
  refine safe_getApplyDesire (k := k.toLower) hinv ?_ ?_ ?_
  · intro err s' hrely hinv'
    exact wpg_ret ⟨hinv', hrely.1, by simp⟩
  · intro hnone s' hrely hinv'
    refine wpg_ret ⟨hinv', hrely.1, ?_⟩
    intro _ hk
    exact hinv'.gone _ hk (hrely.1.none _ hnone)
  · intro v hv s' hrely hinv'
    have hpast := hrely.1.past _ v (s.store.current_mem _ v hv)
    dsimp only
    split_ifs with htype hdeleted
    · refine safe_replaceApplyDesire hinv' hpast rfl rfl rfl (fun _ => rfl) ?_ ?_ ?_
      · intro _ huntouched k' hk' hearlier
        exact (hdue huntouched k' hk' hearlier).grow hrely.1
      · rintro ⟨-, hconditions⟩
        cases hconditions
      · intro r s'' hgrows hinv''
        have hend := hrely.1.trans hgrows
        cases r <;> exact wpg_ret ⟨hinv'', hend, by simp⟩
    · have hconfirmed : Confirmed s' k.toLower := ⟨v, hpast, not_not.mp htype, hdeleted⟩
      refine safe_deleteApplyDesire hinv' (fun _ => hconfirmed) ?_
      intro r s'' hgrows hinv''
      have hend := hrely.1.trans hgrows
      have hconfirmed' := hconfirmed.grow hgrows
      cases r <;> exact wpg_ret ⟨hinv'', hend, fun _ _ => hconfirmed'⟩
    · exact wpg_ret ⟨hinv', hrely.1, by simp⟩

def Drained (s₀ : TeardownState) (done : List RemovalStep) (s : TeardownState) : Prop :=
  ∀ k, Waited s₀ k → (∃ step ∈ done, hasName step.names k.name = true) → Confirmed s k

theorem Drained.grow (h : Drained s₀ done s) (hgrows : Grows s s') : Drained s₀ done s' :=
  fun k hk hstep => (h k hk hstep).grow hgrows

/-- Once the steps before it are done, the desires of a step are due. -/
theorem Drained.due {k : DesireKey} (h : Drained s₀ done s)
    (hsplit : applyDesireRemovalChain = done ++ step :: rest)
    (hname : hasName step.names k.name = true) :
    ∀ k', Waited s₀ k' → Earlier k' k → Confirmed s k' := by
  rintro k' hk' ⟨m, n, hm, hn, hlt⟩
  rw [chainStep_of_split hsplit hname] at hn
  cases hn
  exact h k' hk' (exists_done_of_chainStep hsplit hm hlt)

variable {errs : List String} {waiting : Bool}

theorem stepResult_eq_true (h : stepResult errs waiting = .ok true) :
    errs = [] ∧ waiting = false := by
  unfold stepResult at h
  split_ifs at h with herrs
  cases waiting with
  | false => exact ⟨herrs, rfl⟩
  | true => cases h

/-- What the loop over the desires of a step has done when it ends: it reports success only if it
had met neither an error nor a desire to wait for, and all the desires left to it are confirmed. -/
def Removes (s₀ : TeardownState) (before : DesireKey → Bool) (step : RemovalStep)
    (errs : List String) (waiting : Bool) (owned : List ApplyDesire) (s : TeardownState)
    (r : Except String Bool) (s' : TeardownState) : Prop :=
  Inv s₀ before s' ∧ Grows s s' ∧ (r = .ok true → errs = [] ∧ waiting = false ∧
    ∀ d ∈ owned, step.selects d = true → Waited s₀ d.resourceID.toLower →
      Confirmed s' d.resourceID.toLower)

variable {owned : List ApplyDesire}

/-- A desire that is not selected, or confirmed already, may be put before the others. -/
theorem Removes.cons {r : Except String Bool} {t : TeardownState} {d : ApplyDesire}
    (h : Removes s₀ before step errs waiting owned s' r t) (hgrows : Grows s s')
    (hd : step.selects d = true → Waited s₀ d.resourceID.toLower →
      Confirmed s' d.resourceID.toLower) :
    Removes s₀ before step errs waiting (d :: owned) s r t := by
  obtain ⟨hinv, hgrows', hr⟩ := h
  refine ⟨hinv, hgrows.trans hgrows', ?_⟩
  intro hok
  obtain ⟨herrs, hwaiting, hall⟩ := hr hok
  refine ⟨herrs, hwaiting, List.forall_mem_cons.mpr ⟨?_, hall⟩⟩
  intro hselects hk
  exact (hd hselects hk).grow hgrows'

/-- A loop that goes on with an error or a desire to wait for does not report success. -/
theorem Removes.dirty {errs' : List String} {waiting' : Bool} {owned' : List ApplyDesire}
    {r : Except String Bool} {t : TeardownState}
    (h : Removes s₀ before step errs waiting owned s' r t) (hgrows : Grows s s')
    (hdirty : ¬(errs = [] ∧ waiting = false)) :
    Removes s₀ before step errs' waiting' owned' s r t := by
  obtain ⟨hinv, hgrows', hr⟩ := h
  refine ⟨hinv, hgrows.trans hgrows', ?_⟩
  intro hok
  obtain ⟨herrs, hwaiting, -⟩ := hr hok
  exact absurd ⟨herrs, hwaiting⟩ hdirty

def Listed (s₀ : TeardownState) (owned : List ApplyDesire) (s : TeardownState) : Prop :=
  ∀ k, Waited s₀ k → Confirmed s k ∨ ∃ d ∈ owned, d.resourceID.toLower = k

theorem Listed.grow (h : Listed s₀ owned s) (hgrows : Grows s s') :
    Listed s₀ owned s' :=
  fun k hk => (h k hk).imp_left fun hc => hc.grow hgrows

section

variable (hsplit : applyDesireRemovalChain = done ++ step :: rest) (hinv : Inv s₀ before s)

include hsplit hinv

theorem removeMatching_safe (hdrained : Drained s₀ done s) :
    safe s₀ before w (removeMatching step errs waiting owned)
      (Removes s₀ before step errs waiting owned s) s := by
  induction owned generalizing s errs waiting with
  | nil =>
    refine wpg_ret ⟨hinv, Grows.refl s, ?_⟩
    intro hr
    obtain ⟨herrs, hwaiting⟩ := stepResult_eq_true hr
    exact ⟨herrs, hwaiting, by simp⟩
  | cons d owned ih =>
    unfold removeMatching
    split_ifs with hselects
    · refine wpg_mono (fun r t h => h.cons (Grows.refl s) ?_) (ih hinv hdrained)
      intro hd
      rw [hselects] at hd
      cases hd
    · rw [Bool.not_eq_false] at hselects
      have hname : hasName step.names d.resourceID.toLower.name = true :=
        (hasName_toLower _ _).trans hselects
      refine wpg_bind (wpg_mono ?_
        (ensureApplyDesireRemoved_safe hinv fun _ => hdrained.due hsplit hname))
      rintro r s' ⟨hinv', hgrows, hr⟩
      have hdrained' := hdrained.grow hgrows
      cases r with
      | error err =>
        exact wpg_mono (fun _ _ h => h.dirty hgrows (by simp)) (ih hinv' hdrained')
      | ok removed =>
        cases removed with
        | false =>
          exact wpg_mono (fun _ _ h => h.dirty hgrows (by simp)) (ih hinv' hdrained')
        | true =>
          refine safe_unnoticed hinv' (fun _ _ _ hsem => hsem) ?_
          intro outcome s'' _ hgrows' hinv''
          have hend := hgrows.trans hgrows'
          have hnext : safe s₀ before w (removeMatching step errs waiting owned)
              (Removes s₀ before step errs waiting (d :: owned) s) s'' :=
            wpg_mono (fun _ _ h => h.cons hend fun _ hk => (hr rfl hk).grow hgrows')
              (ih hinv'' (hdrained'.grow hgrows'))
          cases outcome with
          | ok | notFound => exact hnext
          | conflict | preconditionFailed | failed => exact wpg_ret ⟨hinv'', hend, by simp⟩

theorem dropMatching_safe (hwaits : step.waits = false) :
    safe s₀ before w (dropMatching step errs owned)
      (fun _ s' => Inv s₀ before s' ∧ Grows s s') s := by
  induction owned generalizing s errs with
  | nil => exact wpg_ret ⟨hinv, Grows.refl s⟩
  | cons d owned ih =>
    unfold dropMatching
    split_ifs with hselects
    · exact ih hinv
    · rw [Bool.not_eq_false] at hselects
      have hnot : ¬Waited s₀ d.resourceID.toLower :=
        not_waited_of_drop hsplit hwaits ((hasName_toLower _ _).trans hselects)
      refine safe_deleteApplyDesire hinv (fun hk => absurd hk hnot) ?_
      intro r s' hgrows hinv'
      have hnext (errs : List String) : safe s₀ before w (dropMatching step errs owned)
          (fun _ s'' => Inv s₀ before s'' ∧ Grows s s'') s' :=
        wpg_mono (fun _ _ h => ⟨h.1, hgrows.trans h.2⟩) (ih hinv')
      cases r <;> exact hnext _

/-- A step that reports that it is drained is done. -/
theorem remove_safe (hdrained : Drained s₀ done s) (hlisted : Listed s₀ owned s) :
    safe s₀ before w (step.remove owned)
      (fun r s' => Inv s₀ before s' ∧ Grows s s' ∧
        (r = .ok true → Drained s₀ (done ++ [step]) s')) s := by
  have hdone {t : TeardownState} (hgrows : Grows s t)
      (hstep : ∀ k, Waited s₀ k → hasName step.names k.name = true → Confirmed t k) :
      Drained s₀ (done ++ [step]) t := by
    rintro k hk ⟨step', hmem, hname⟩
    rcases List.mem_append.mp hmem with hmem | hmem
    · exact hdrained.grow hgrows k hk ⟨step', hmem, hname⟩
    · rw [List.mem_singleton.mp hmem] at hname
      exact hstep k hk hname
  unfold RemovalStep.remove
  split_ifs with hwaits
  · refine wpg_mono ?_ (removeMatching_safe hsplit hinv hdrained)
    rintro r t ⟨hinvt, hgrows, hr⟩
    refine ⟨hinvt, hgrows, ?_⟩
    intro hok
    refine hdone hgrows ?_
    intro k hk hname
    rcases hlisted.grow hgrows k hk with hc | ⟨d, hd, rfl⟩
    · exact hc
    · exact (hr hok).2.2 d hd ((hasName_toLower _ _).symm.trans hname) hk
  · rw [Bool.not_eq_true] at hwaits
    refine wpg_mono ?_ (dropMatching_safe hsplit hinv hwaits)
    rintro r t ⟨hinvt, hgrows⟩
    refine ⟨hinvt, hgrows, fun _ => hdone hgrows ?_⟩
    intro k hk hname
    exact absurd hk (not_waited_of_drop hsplit hwaits hname)

end

theorem runChain_safe (hsplit : applyDesireRemovalChain = done ++ rest) (hinv : Inv s₀ before s)
    (hdrained : Drained s₀ done s) (hlisted : Listed s₀ owned s) :
    safe s₀ before w (runChain owned rest) (fun _ s' => Inv s₀ before s') s := by
  induction rest generalizing s done with
  | nil => exact wpg_ret hinv
  | cons step rest ih =>
    refine wpg_bind (wpg_mono ?_ (remove_safe hsplit hinv hdrained hlisted))
    rintro r s' ⟨hinv', hgrows, hr⟩
    cases r with
    | error err => exact wpg_ret hinv'
    | ok drained =>
      cases drained with
      | false => exact wpg_ret hinv'
      | true =>
        refine ih ?_ hinv' (hr rfl) (hlisted.grow hgrows)
        rw [hsplit, List.append_assoc, List.singleton_append]

section

variable (hinv : Inv s₀ before s)

include hinv

theorem sweepReadDesires_safe {applyNames : List String} {readDesires : List ReadDesire} :
    safe s₀ before w (sweepReadDesires applyNames readDesires) (fun _ _ => True) s := by
  induction readDesires generalizing s with
  | nil => exact wpg_ret trivial
  | cons d rest ih =>
    unfold sweepReadDesires
    split_ifs
    · exact ih hinv
    · refine safe_unnoticed hinv (fun _ _ _ hsem => hsem) ?_
      intro r s' _ _ hinv'
      cases r with
      | ok | notFound => exact ih hinv'
      | conflict | preconditionFailed | failed => exact wpg_ret trivial

theorem sweepOrphanedReadDesires_safe :
    safe s₀ before w sweepOrphanedReadDesires (fun _ _ => True) s := by
  refine safe_unnoticed hinv (fun _ _ _ hsem => hsem.2) ?_
  intro r s' _ _ hinv'
  cases r with
  | error err => exact wpg_ret trivial
  | ok applyDesires =>
    refine safe_unnoticed hinv' (fun _ _ _ hsem => hsem) ?_
    intro r s'' _ _ hinv''
    cases r with
    | error err => exact wpg_ret trivial
    | ok readDesires => exact sweepReadDesires_safe hinv''

/-- A snapshot with every stored desire lists what the chain waits for. -/
theorem listed_of_snapshot {existing : List ApplyDesire} (hall : ∀ k v, s.store.current k = some v →
      ∃ d ∈ existing, d.resourceID = v.doc.resourceID ∧ d.tags = v.doc.tags) :
    Listed s₀ (existing.filter fun d =>
      !managedByKubeAPIServerServingCertificate d.resourceID.name && isOwned d) s := by
  intro k hk
  cases hcurrent : s.store.current k with
  | none => exact .inl (hinv.gone k hk hcurrent)
  | some v =>
    have hpast := s.store.current_mem k v hcurrent
    obtain ⟨⟨v₀, hv₀, howned⟩, step, hstep, -, hname⟩ := hk
    obtain ⟨v₀', hv₀', htags, -⟩ := hinv.origin k v hpast
    cases hv₀.symm.trans hv₀'
    obtain ⟨d, hd, hid, hdtags⟩ := hall k v hcurrent
    have hkey : d.resourceID.toLower = k := by
      rw [hid]
      exact hinv.keyed k v hpast
    refine .inr ⟨d, List.mem_filter.mpr ⟨hd, ?_⟩, hkey⟩
    have hname' : hasName step.names d.resourceID.name = true := by
      rw [← hkey] at hname
      exact (hasName_toLower _ _).symm.trans hname
    have howned' : isOwned d = true := by
      unfold isOwned at howned ⊢
      rwa [hdtags, htags]
    rw [not_managed_of_claimed hstep hname', howned']
    rfl

theorem deleteAllOwnedApplyDesires_safe :
    safe s₀ before w deleteAllOwnedApplyDesires (fun _ _ => True) s := by
  refine safe_unnoticed hinv (fun _ _ _ hsem => hsem.2) ?_
  intro r s' hsem hgrows hinv'
  rcases r with _ | existing
  · exact wpg_ret trivial
  have hlisted := listed_of_snapshot hinv (hsem.1 existing rfl)
  refine safe_unnoticed hinv' (fun _ _ _ hsem => hsem) ?_
  intro client s'' _ hgrows' hinv''
  cases client with
  | false => exact wpg_ret trivial
  | true =>
    have hdrained : Drained s₀ [] s'' := fun k _ hstep => by simp at hstep
    refine wpg_bind (wpg_mono ?_
      (runChain_safe rfl hinv'' hdrained (hlisted.grow (hgrows.trans hgrows'))))
    intro result t hinvt
    cases result with
    | error err => exact wpg_ret trivial
    | ok drained =>
      cases drained with
      | false => exact wpg_ret trivial
      | true => exact sweepOrphanedReadDesires_safe hinvt

end

end Backend

/-! ## The workers of the kube-applier -/

section Applier

variable {s₀ s : TeardownState} {before : DesireKey → Bool} {k : DesireKey}

theorem isStatusConditionTrue_setResult (type type' : ConditionType) (err : Option SyncError)
    (conditions : List (Condition ConditionType)) :
    isStatusConditionTrue (setResult type err conditions) type' =
      if type = type' then err.isNone else isStatusConditionTrue conditions type' := by
  rcases err with _ | (_ | _)
  all_goals
    exact isStatusConditionTrue_set ..

theorem isStatusConditionTrue_setDegraded (err : Option SyncError)
    (conditions : List (Condition ConditionType)) :
    isStatusConditionTrue (setDegraded err conditions) .successfullyDeleted =
      isStatusConditionTrue conditions .successfullyDeleted := by
  cases err <;> exact isStatusConditionTrue_set ..

/-- A delete is reported as done only when it settled without an error. -/
theorem settled_of_mutate {evaluation : DeleteEvaluation} {status : ApplyDesireStatus}
    (h : isStatusConditionTrue (evaluation.mutate status).conditions .successfullyDeleted = true) :
    evaluation = .settled none := by
  cases evaluation with
  | settled err =>
    unfold DeleteEvaluation.mutate setSuccessfullyDeleted at h
    rw [isStatusConditionTrue_setDegraded, isStatusConditionTrue_setResult,
      isStatusConditionTrue_setResult] at h
    cases err with
    | none => rfl
    | some err => exact absurd h (by simp)
  | inFlight deletionTime uid =>
    unfold DeleteEvaluation.mutate setWaitingForDeletion at h
    rw [isStatusConditionTrue_setDegraded, isStatusConditionTrue_set,
      isStatusConditionTrue_set] at h
    exact absurd h (by simp)

theorem appliedStatus_deleted (applied : Except SyncError KubeObject) (status : ApplyDesireStatus) :
    isStatusConditionTrue (appliedStatus applied status).conditions .successfullyDeleted =
      isStatusConditionTrue status.conditions .successfullyDeleted := by
  unfold appliedStatus setSuccessfullyApplied
  rw [isStatusConditionTrue_setDegraded, isStatusConditionTrue_setResult,
    isStatusConditionTrue_setResult]
  simp

theorem unknownStatus_deleted (text : String) (status : ApplyDesireStatus) :
    isStatusConditionTrue (unknownStatus text status).conditions .successfullyDeleted =
      isStatusConditionTrue status.conditions .successfullyDeleted := by
  unfold unknownStatus setSuccessful
  rw [isStatusConditionTrue_setDegraded, isStatusConditionTrue_setResult]
  simp

/-- The status may be written if it reports a delete as done only when it did before, or when the
object has been observed absent. -/
theorem updateStatus_safe {mutate : ApplyDesireStatus → ApplyDesireStatus} (hinv : Inv s₀ before s)
    (hmutate : ∀ status,
      isStatusConditionTrue (mutate status).conditions .successfullyDeleted = true →
        isStatusConditionTrue status.conditions .successfullyDeleted = true ∨
          seenAbsent before s.log k = true) :
    safe s₀ before (.applier k) (updateStatus k mutate) (fun _ _ => True) s := by
  refine safe_getApplyDesire hinv (fun _ _ _ _ => wpg_ret trivial) (fun _ _ _ _ => wpg_ret trivial) ?_
  intro v hv s' hrely hinv'
  have hpast := hrely.1.past k v (s.store.current_mem k v hv)
  dsimp only
  split_ifs
  · exact wpg_ret trivial
  · refine safe_replaceApplyDesire hinv' hpast rfl rfl rfl (fun htype => htype) ?_ ?_ ?_
    · intro htype huntouched
      exact hinv'.order k huntouched ⟨v, hpast, htype⟩
    · rintro ⟨htype, hdeleted⟩
      refine ⟨rfl, ?_⟩
      rcases hmutate v.doc.status hdeleted with hold | hseen
      · exact hinv'.absent k ⟨v, hpast, htype, hold⟩
      · exact (hrely.2 k rfl).absent hseen
    · intro r s'' _ _
      cases r <;> exact wpg_ret trivial

/-- An apply is made only for a desire that has not been turned into a delete and reported as done.
-/
theorem applyDesired_safe {decodes : String → Except String Unit} {v : Versioned ApplyDesire}
    (hinv : Inv s₀ before s) (hpast : s.store.Past k v) (hk : ¬Confirmed s k) :
    safe s₀ before (.applier k) (applyDesired decodes k v.doc) (fun _ s' => Inv s₀ before s') s := by
  unfold applyDesired
  split
  · exact wpg_ret hinv
  · refine wpg_perform_bind ?_
    rintro r s' rfl
    refine ⟨⟨hinv.applied (hinv.targets hpast) hk, grows_log .., ?_⟩, ?_⟩
    · intro k' hk'
      have hne : k ≠ k' := by
        rintro rfl
        exact hk' rfl
      refine ⟨?_, fun hc => hc⟩
      rw [seenAbsent_applied_of_ne _ hne]
      exact fun habsent => habsent
    · intro s'' _ hinv''
      cases r <;> exact wpg_ret hinv''

/-- The rule of a call that may observe that the object is absent, after other events. -/
theorem safe_observe {β : Type} {c : Call} {f : c.Reply → Prog β} {absent : c.Reply → Bool}
    {target : ResourceReference} {log : List Event} {Q : β → TeardownState → Prop}
    (hsem : ∀ r s', sem c s r s' →
      s' = { s with log := observation k target (absent r) ++ log })
    (hinv : Inv s₀ before { s with log }) (htarget : Targets s₀ k target)
    (hlog : ∀ k', seenAbsent before s.log k' = true → seenAbsent before log k' = true)
    (h : ∀ r s', Grows s s' → Inv s₀ before s' →
      (absent r = true → seenAbsent before s'.log k = true) →
      safe s₀ before (.applier k) (f r) Q s') :
    safe s₀ before (.applier k) (perform c >>= f) Q s := by
  refine wpg_perform_bind ?_
  intro r s' hcall
  obtain rfl := hsem r s' hcall
  refine ⟨⟨hinv.observation htarget _, grows_log .., ?_⟩, ?_⟩
  · intro k' _
    exact ⟨fun hseen => seenAbsent_observation target _ (hlog k' hseen), fun hc => hc⟩
  · intro s'' hrely hinv''
    refine h r s'' ((grows_log ..).trans hrely.1) hinv'' ?_
    intro habsent
    apply (hrely.2 k rfl).absent
    rw [habsent]
    exact seenAbsent_absent_self ..

/-- A delete that settles without an error has observed that the object is absent. -/
abbrev Settles (s₀ : TeardownState) (before : DesireKey → Bool) (k : DesireKey)
    (evaluation : DeleteEvaluation) (s : TeardownState) : Prop :=
  Inv s₀ before s ∧ (evaluation = .settled none → seenAbsent before s.log k = true)

theorem afterDelete_safe {now : Int} {target : ResourceReference} (hinv : Inv s₀ before s)
    (htarget : Targets s₀ k target) :
    safe s₀ before (.applier k) (afterDelete now k target) (Settles s₀ before k) s := by
  refine safe_observe (fun _ _ hsem => hsem) hinv htarget (fun _ hseen => hseen) ?_
  intro r s' _ hinv' habsent
  cases r with
  | ok post => exact wpg_ret ⟨hinv', by simp⟩
  | error err =>
    dsimp only
    split_ifs with hfound
    · exact wpg_ret ⟨hinv', fun _ => habsent hfound⟩
    · exact wpg_ret ⟨hinv', by simp⟩

theorem evaluateDelete_safe {now : Int} {v : Versioned ApplyDesire} (hinv : Inv s₀ before s)
    (hpast : s.store.Past k v) (htype : v.doc.spec.type = .delete) :
    safe s₀ before (.applier k) (evaluateDelete now k v.doc) (Settles s₀ before k) s := by
  have htarget := hinv.targets hpast
  have hdoomed : Doomed s k := ⟨v, hpast, htype⟩
  unfold evaluateDelete
  split_ifs
  · exact wpg_ret ⟨hinv, by simp⟩
  · refine safe_observe (fun _ _ hsem => hsem) hinv htarget (fun _ hseen => hseen) ?_
    intro r s' hgrows hinv' habsent
    cases r with
    | error err =>
      dsimp only
      split_ifs with hfound
      · exact wpg_ret ⟨hinv', fun _ => habsent hfound⟩
      · exact wpg_ret ⟨hinv', by simp⟩
    | ok got =>
      dsimp only
      cases got.deletionTimestamp with
      | some deletionTime => exact wpg_ret ⟨hinv', by simp⟩
      | none =>
        refine safe_observe (fun _ _ hsem => hsem)
          (hinv'.deleteIssued htarget (hdoomed.grow hgrows)) htarget (fun _ hseen => hseen) ?_
        intro r s'' _ hinv'' habsent'
        cases r with
        | none => exact afterDelete_safe hinv'' htarget
        | some err =>
          dsimp only
          split_ifs with hfound
          · exact wpg_ret ⟨hinv'', fun _ => habsent' hfound⟩
          · exact wpg_ret ⟨hinv'', by simp⟩

theorem syncOnce_safe {decodes : String → Except String Unit} {now : Int}
    (hinv : Inv s₀ before s) :
    safe s₀ before (.applier k) (syncOnce decodes now k) (fun _ _ => True) s := by
  refine safe_getApplyDesire hinv (fun _ _ _ _ => wpg_ret trivial) (fun _ _ _ _ => wpg_ret trivial) ?_
  intro v hv s' hrely hinv'
  have hpast := hrely.1.past k v (s.store.current_mem k v hv)
  dsimp only
  cases htype : v.doc.spec.type with
  | serverSideApply =>
    have hk : ¬Confirmed s' k := by
      intro hc
      -- only this worker reports the delete as done, so it was before the read
      have hdelete := hinv.doomed k v ((hrely.2 k rfl).confirmed hc).toDoomed hv
      rw [htype] at hdelete
      cases hdelete
    refine wpg_bind (wpg_mono ?_ (applyDesired_safe hinv' hpast hk))
    intro applied s'' hinv''
    refine wpg_bind (wpg_mono ?_ (updateStatus_safe hinv'' ?_))
    · intro statusErr t _
      rcases applied with err | _ <;> rcases statusErr with _ | statusErr
      · dsimp only
        split_ifs <;> exact wpg_ret trivial
      all_goals exact wpg_ret trivial
    · intro status hdeleted
      rw [appliedStatus_deleted] at hdeleted
      exact .inl hdeleted
  | delete =>
    refine wpg_bind (wpg_mono ?_ (evaluateDelete_safe hinv' hpast htype))
    rintro evaluation s'' ⟨hinv'', hsettles⟩
    refine updateStatus_safe hinv'' ?_
    intro status hdeleted
    exact .inr (hsettles (settled_of_mutate hdeleted))
  | unknown text =>
    refine updateStatus_safe hinv' ?_
    intro status hdeleted
    rw [unknownStatus_deleted] at hdeleted
    exact .inl hdeleted

end Applier

/-! ## The order -/

theorem program_safe {s₀ s : TeardownState} {before : DesireKey → Bool}
    {decodes : String → Except String Unit} {now : Int} (w : Worker) (hinv : Inv s₀ before s) :
    safe s₀ before w (program decodes now w) (fun _ _ => True) s := by
  cases w with
  | applier k => exact syncOnce_safe hinv
  | backend n => exact deleteAllOwnedApplyDesires_safe hinv

theorem Ordered.legal {s₀ : TeardownState} {before : DesireKey → Bool} {e : Event}
    {later earlier : List Event} (h : Ordered s₀ before (later ++ e :: earlier)) :
    Legal s₀ before e earlier := by
  induction later with
  | nil => exact h.1
  | cons _ _ ih => exact ih h.2

/-- In every run of a teardown a delete is issued for a desire that was not one at the beginning
only after the object of every desire of an earlier step that the chain waits for was observed
absent, and the document of a desire that the chain waits for goes only after its object was. -/
theorem teardown_in_order (decodes : String → Except String Unit) (now : Int)
    (before : DesireKey → Bool) (s₀ : TeardownState) (hstart : Start s₀ before)
    {c : Config Worker TeardownState Call Call.Reply (Option String)}
    (hrun : ReflTransGen (Step sem (program decodes now)) (initial s₀) c)
    (later earlier : List Event) (e : Event) (hlog : c.state.log = later ++ e :: earlier) :
    Legal s₀ before e earlier := by
  have hinv : Inv s₀ before c.state := by
    refine invariant_of_programs ?_ ?_ ?_ (fun w _ hinv => program_safe w hinv) hstart.inv hrun
    · exact rely_refl
    · intro w a b c hab hbc
      exact rely_trans hab hbc
    · intro w w' a b hne hguar
      exact rely_of_guar hne hguar
  have hordered := hinv.ordered
  rw [hlog] at hordered
  exact hordered.legal

/-! ## Runs of small teardowns -/

section Examples

def answer : (c : Call) → Except KubeError KubeObject → TeardownState →
    Option (c.Reply × TeardownState)
  | .dbClient, _, s => some (true, s)
  | .getApplyDesire k, _, s => some (.ok (s.store.current k), s)
  | .listApplyDesires, _, s => some (.ok (s.store.scan.map (·.2.doc)), s)
  | .listReadDesires, _, s => some (.ok [], s)
  | .replaceApplyDesire etag d, _, s =>
    (s.store.replace d.resourceID.toLower etag d).map fun store => (.ok, { s with store })
  | .deleteApplyDesire k, _, s =>
    if (s.store.current k).isSome then some (.ok, ⟨s.store.remove k, .removed k :: s.log⟩) else none
  | .deleteReadDesire _, _, s => some (.ok, s)
  | .getObject k target, hint, s =>
    some (hint, { s with log := observation k target (isAbsent hint) ++ s.log })
  | .deleteObject k target, _, s => some (none, { s with log := .deleteIssued k target :: s.log })
  | .applyObject k target _ _, hint, s =>
    some (hint, { s with log := .applied k target :: s.log })
  | _, _, _ => none

theorem sem_of_answer {c : Call} {hint : Except KubeError KubeObject} {s : TeardownState}
    {r : c.Reply} {s' : TeardownState} (h : answer c hint s = some (r, s')) : sem c s r s' := by
  cases c <;> simp only [answer, Option.some.injEq, Prod.mk.injEq, reduceCtorEq] at h
  case getApplyDesire k => exact ⟨.inl h.1.symm, h.2.symm⟩
  case listApplyDesires =>
    refine ⟨?_, h.2.symm⟩
    rintro l rfl k v hv
    cases h.1
    exact ⟨v.doc, List.mem_map.mpr ⟨⟨k, v⟩, Store.mem_scan.mpr hv, rfl⟩, rfl, rfl⟩
  case replaceApplyDesire etag d =>
    obtain ⟨store, hstore, heq⟩ := Option.map_eq_some_iff.mp h
    cases heq
    exact .inl ⟨.inl rfl, store, hstore, rfl⟩
  case deleteApplyDesire k =>
    split_ifs at h with hstored
    cases h
    exact .inl ⟨.inl rfl, hstored, rfl⟩
  all_goals
    obtain ⟨rfl, rfl⟩ := h
    rfl

theorem Start.empty : Start ⟨Store.empty, []⟩ fun _ => false where
  log := rfl
  keyed k v hv := by cases hv
  fresh k v hv := by cases hv
  settled k v hv := by cases hv

/-- A desire whose delete is not reported as done may be stored when a teardown begins. -/
theorem Start.put {store : Desired} {before : DesireKey → Bool} (h : Start ⟨store, []⟩ before)
    (d : ApplyDesire) (hnone : store.current d.resourceID.toLower = none) (hd : ¬isDone d) :
    Start ⟨store.put d.resourceID.toLower d, []⟩ before := by
  have hcurrent {k : DesireKey} {v : Versioned ApplyDesire}
      (hv : (store.put d.resourceID.toLower d).current k = some v) :
      store.current k = some v ∨ k = d.resourceID.toLower ∧ v.doc = d := by
    by_cases hk : k = d.resourceID.toLower
    · subst hk
      rw [Store.put_current_self] at hv
      cases hv
      exact .inr ⟨rfl, rfl⟩
    · rw [Store.put_current_of_ne _ _ hk] at hv
      exact .inl hv
  refine ⟨rfl, ?_, ?_, ?_⟩
  · intro k v hv
    rcases hcurrent hv with hold | ⟨rfl, rfl⟩
    · exact h.keyed k v hold
    · rfl
  · intro k v hv
    rcases Store.past_put hv with hold | hnew
    · have hk : k ≠ d.resourceID.toLower := by
        rintro rfl
        have hstored := h.fresh _ v hold
        rw [hnone] at hstored
        cases hstored
      exact (Store.put_current_of_ne _ _ hk).trans (h.fresh k v hold)
    · cases hnew
      exact Store.put_current_self ..
  · intro k v hv htype hdeleted
    rcases hcurrent hv with hold | ⟨-, rfl⟩
    · exact h.settled k v hold htype hdeleted
    · exact absurd ⟨htype, hdeleted⟩ hd

def exampleTarget (name : DesireName) : ResourceReference :=
  ⟨"", "v1", "objects", "", name.text⟩

def exampleDesire (name : DesireName) (type : ApplyDesireType) (target : ResourceReference) :
    ApplyDesire where
  resourceID := ⟨.cluster, name.text⟩
  spec := ⟨"", type, target, some ⟨some "content", none⟩⟩
  status := {}
  tags := [(tagControllerName, clusterResourcesControllerName)]

def exampleKey (name : DesireName) : DesireKey :=
  DesireKey.toLower ⟨.cluster, name.text⟩

def exampleStart (d d' : ApplyDesire) : TeardownState :=
  ⟨(Store.empty.put d.resourceID.toLower d).put d'.resourceID.toLower d', []⟩

theorem exampleStart_start {d d' : ApplyDesire}
    (hne : d'.resourceID.toLower ≠ d.resourceID.toLower) (hd : d.status = {}) (hd' : d'.status = {}) :
    Start (exampleStart d d') fun _ => false := by
  have hfirst : Start ⟨Store.empty.put d.resourceID.toLower d, []⟩ fun _ => false := by
    refine Start.empty.put d rfl ?_
    rintro ⟨-, hdeleted⟩
    rw [hd] at hdeleted
    cases hdeleted
  refine hfirst.put d' (Store.put_current_of_ne _ _ hne) ?_
  rintro ⟨-, hdeleted⟩
  rw [hd'] at hdeleted
  cases hdeleted

def goneObject : Except KubeError KubeObject := .error (.status 404 .notFound "not found")

def liveObject : Except KubeError KubeObject := .ok ⟨none, "uid", 1⟩

def workerRun (w : Worker) (calls : Nat) (object : Except KubeError KubeObject) :
    List (Workers.Choice Worker (Except KubeError KubeObject)) :=
  Workers.Choice.run w (List.replicate calls object)

abbrev exampleProgram : Worker → Prog (Option String) := program (fun _ => .ok ()) 0

theorem exists_run (s₀ : TeardownState)
    (choices : List (Workers.Choice Worker (Except KubeError KubeObject))) (log : List Event)
    (h : (Workers.execute answer exampleProgram (initial s₀) choices).map (·.state.log) = some log) :
    ∃ c, ReflTransGen (Step sem exampleProgram) (initial s₀) c ∧ c.state.log = log := by
  obtain ⟨c, hc, hlog⟩ := Option.map_eq_some_iff.mp h
  exact ⟨c, Workers.run_of_execute (fun _ _ _ _ _ => sem_of_answer) hc, hlog⟩

theorem stored_of_any {s₀ : TeardownState} {k : DesireKey}
    (h : (s₀.store.current k).any (fun v => isOwned v.doc) = true) : Stored s₀ k :=
  (Option.any_eq_true _ _).mp h

theorem untouched_of_any {s₀ : TeardownState} {k : DesireKey}
    (h : (s₀.store.current k).any (fun v => v.doc.spec.type ≠ .delete) = true) :
    Untouched s₀ k := by
  obtain ⟨v, hv, htype⟩ := (Option.any_eq_true _ _).mp h
  exact ⟨v, hv, of_decide_eq_true htype⟩

theorem earlier_hostedCluster :
    Earlier (exampleKey .hostedCluster) (exampleKey .hostedClusterNamespace) :=
  ⟨3, 6, by decide +kernel, by decide +kernel, by decide⟩

theorem waited_hostedCluster {s₀ : TeardownState} (h : Stored s₀ (exampleKey .hostedCluster)) :
    Waited s₀ (exampleKey .hostedCluster) :=
  ⟨h, hostedClusterRemovalStep, by simp [applyDesireRemovalChain], rfl, by decide +kernel⟩

def hostedDesires : TeardownState :=
  exampleStart (exampleDesire .hostedCluster .serverSideApply (exampleTarget .hostedCluster))
    (exampleDesire .hostedClusterNamespace .serverSideApply (exampleTarget .hostedClusterNamespace))

/-- Two passes with a sync of the HostedCluster between them, and then a sync of the namespace: when
its delete is issued, the HostedCluster has been observed absent. -/
theorem teardown_in_order_hostedCluster :
    let removed := [.removed (exampleKey .hostedCluster),
      .absent (exampleKey .hostedCluster) (exampleTarget .hostedCluster)]
    ∃ c, ReflTransGen (Step sem exampleProgram) (initial hostedDesires) c ∧
      c.state.log = .deleteIssued (exampleKey .hostedClusterNamespace)
        (exampleTarget .hostedClusterNamespace) :: removed ∧
      Waited hostedDesires (exampleKey .hostedCluster) ∧
      seenAbsent (fun _ => false) removed (exampleKey .hostedCluster) = true := by
  intro removed
  obtain ⟨c, hrun, hlog⟩ := exists_run hostedDesires
    (workerRun (.backend 0) 4 goneObject ++
      workerRun (.applier (exampleKey .hostedCluster)) 4 goneObject ++
      workerRun (.backend 0) 7 goneObject ++
      workerRun (.applier (exampleKey .hostedClusterNamespace)) 3 liveObject)
    (.deleteIssued (exampleKey .hostedClusterNamespace) (exampleTarget .hostedClusterNamespace) ::
      removed) (by decide +kernel)
  have hwaited : Waited hostedDesires (exampleKey .hostedCluster) :=
    waited_hostedCluster (stored_of_any (by decide +kernel))
  refine ⟨c, hrun, hlog, hwaited, ?_⟩
  have hlegal := teardown_in_order _ _ _ _ (exampleStart_start (by decide +kernel) rfl rfl) hrun []
    removed _ hlog
  exact hlegal.2 (untouched_of_any (by decide +kernel)) _ hwaited earlier_hostedCluster

/-- In some run from `s₀` the delete of a desire is issued although, of the applies and observations
in question, no observation of an absent object is the latest. -/
def Premature (s₀ : TeardownState) (j : DesireKey)
    (about : DesireKey → ResourceReference → Bool) : Prop :=
  Start s₀ (fun _ => false) ∧ ∃ c, ReflTransGen (Step sem exampleProgram) (initial s₀) c ∧
    ∃ target earlier, c.state.log = .deleteIssued j target :: earlier ∧
      absentSince about false earlier = false

/-- A pull secret, which a step drops without deleting the object, and the HostedCluster. -/
def coveredDesires : TeardownState :=
  exampleStart (exampleDesire .ocpPullSecret .serverSideApply (exampleTarget .ocpPullSecret))
    (exampleDesire .hostedCluster .serverSideApply (exampleTarget .hostedCluster))

def deletingDesires : TeardownState :=
  exampleStart (exampleDesire .hostedCluster .serverSideApply (exampleTarget .hostedCluster))
    (exampleDesire .hostedClusterNamespace .delete (exampleTarget .hostedClusterNamespace))

/-- Two desires for one object. -/
def sharedDesires : TeardownState :=
  exampleStart (exampleDesire .hostedCluster .serverSideApply (exampleTarget .hostedCluster))
    (exampleDesire .hostedClusterNamespace .serverSideApply (exampleTarget .hostedCluster))

/-- The delete of a later step does not wait for the objects of the step that is covered by a
cascade; that of a desire that is one already waits for nothing; and where desires of two steps
target one object, those of the later step go on applying it. -/
theorem teardown_out_of_order :
    (Stored coveredDesires (exampleKey .ocpPullSecret) ∧
        Untouched coveredDesires (exampleKey .hostedCluster) ∧
        Earlier (exampleKey .ocpPullSecret) (exampleKey .hostedCluster) ∧
        Premature coveredDesires (exampleKey .hostedCluster)
          fun k _ => k = exampleKey .ocpPullSecret) ∧
      (Waited deletingDesires (exampleKey .hostedCluster) ∧
        Stored deletingDesires (exampleKey .hostedClusterNamespace) ∧
        Earlier (exampleKey .hostedCluster) (exampleKey .hostedClusterNamespace) ∧
        Premature deletingDesires (exampleKey .hostedClusterNamespace)
          fun k _ => k = exampleKey .hostedCluster) ∧
      (Waited sharedDesires (exampleKey .hostedCluster) ∧
        Untouched sharedDesires (exampleKey .hostedClusterNamespace) ∧
        Earlier (exampleKey .hostedCluster) (exampleKey .hostedClusterNamespace) ∧
        Premature sharedDesires (exampleKey .hostedClusterNamespace)
          fun _ target => target = exampleTarget .hostedCluster) := by
  refine ⟨⟨stored_of_any (by decide +kernel), untouched_of_any (by decide +kernel), ?_,
      exampleStart_start (by decide +kernel) rfl rfl, ?_⟩,
    ⟨waited_hostedCluster (stored_of_any (by decide +kernel)), stored_of_any (by decide +kernel),
      earlier_hostedCluster, exampleStart_start (by decide +kernel) rfl rfl, ?_⟩,
    ⟨waited_hostedCluster (stored_of_any (by decide +kernel)), untouched_of_any (by decide +kernel),
      earlier_hostedCluster, exampleStart_start (by decide +kernel) rfl rfl, ?_⟩⟩
  · exact ⟨0, 3, by decide +kernel, by decide +kernel, by decide⟩
  · obtain ⟨c, hrun, hlog⟩ := exists_run coveredDesires
      (workerRun (.backend 0) 5 goneObject ++
        workerRun (.applier (exampleKey .hostedCluster)) 3 liveObject)
      [.deleteIssued (exampleKey .hostedCluster) (exampleTarget .hostedCluster),
        .removed (exampleKey .ocpPullSecret)] (by decide +kernel)
    exact ⟨c, hrun, _, _, hlog, rfl⟩
  · obtain ⟨c, hrun, hlog⟩ := exists_run deletingDesires
      (workerRun (.applier (exampleKey .hostedClusterNamespace)) 3 liveObject)
      [.deleteIssued (exampleKey .hostedClusterNamespace) (exampleTarget .hostedClusterNamespace)]
      (by decide +kernel)
    exact ⟨c, hrun, _, _, hlog, rfl⟩
  · obtain ⟨c, hrun, hlog⟩ := exists_run sharedDesires
      (workerRun (.backend 0) 4 goneObject ++
        workerRun (.applier (exampleKey .hostedCluster)) 4 goneObject ++
        workerRun (.applier (exampleKey .hostedClusterNamespace)) 2 liveObject ++
        workerRun (.backend 0) 7 goneObject ++
        workerRun (.applier (exampleKey .hostedClusterNamespace)) 3 liveObject)
      [.deleteIssued (exampleKey .hostedClusterNamespace) (exampleTarget .hostedCluster),
        .removed (exampleKey .hostedCluster),
        .applied (exampleKey .hostedClusterNamespace) (exampleTarget .hostedCluster),
        .absent (exampleKey .hostedCluster) (exampleTarget .hostedCluster)] (by decide +kernel)
    exact ⟨c, hrun, _, _, hlog, by decide +kernel⟩

end Examples

end AroHcp.ClusterResources
