import AroHcp.Rollout.Progressive

/-! Bounded exposure: one sync of the progressive rollout leaves the clusters at the best version
within the canary or the rolling share. -/

namespace AroHcp.Rollout

open GoFmt SemVer Tally

variable {V : Type} [SemVer V] {config : RolloutConfig} {select : ClusterSelector V}
  {clusters : List (Cluster V)} {members : List (ServiceProviderCluster V)} {best : V} {now : Time}

/-- The clusters that desire or run `best`. -/
def inFlightOrDone (best : V) (spcs : List (ServiceProviderCluster V)) : Int :=
  countAt (fun spc => (mismatchedVersion spc).map text) (text best) spcs +
    countAt achievedKey (text best) spcs

/-- A selector returns at most `n` of the candidates, none of them twice. -/
def Selects (select : ClusterSelector V) : Prop :=
  ∀ candidates n, (select candidates n).Subperm candidates ∧ (select candidates n).length ≤ n

theorem filterMap_range_getElem? {α : Type} (xs : List α) :
    ((List.range xs.length).filterMap fun i => xs[i]?) = xs := by
  induction xs with
  | nil => rfl
  | cons x xs ih =>
    rw [List.length_cons, List.range_succ_eq_map, List.filterMap_cons, List.filterMap_map]
    exact congrArg (x :: ·) ih

omit [SemVer V] in
theorem selects_randomClusterSelector {permutation : Nat → List Nat}
    (h : ∀ n, (permutation n).Perm (List.range n)) :
    Selects (randomClusterSelector (V := V) permutation) := by
  intro candidates n
  unfold randomClusterSelector
  split_ifs with hle
  · exact ⟨.refl _, hle⟩
  · have hall : ((permutation candidates.length).filterMap fun i => candidates[i]?).Perm
        candidates := by
      refine ((h candidates.length).filterMap _).trans (.of_eq ?_)
      exact filterMap_range_getElem? candidates
    refine ⟨?_, ?_⟩
    · exact ((List.take_sublist n _).filterMap _).subperm.trans hall.subperm
    · exact (List.length_filterMap_le _ _).trans (List.length_take_le _ _)

/-! ## Eligible clusters -/

structure Eligible (clusters : List (Cluster V)) (best : V) (spc : ServiceProviderCluster V) :
    Prop where
  below : ∃ desired, spc.desiredVersion = some desired ∧ lt desired best = true
  normal : ∀ cluster ∈ clusters, ∀ id, cluster.id = some id → parentKey spc = some (toLower id) →
    cluster.controlPlaneExactVersion = none ∧
      cluster.zStreamUpdatePolicy ≠ immediateZStreamUpdatePolicy
  pin : spc.pinnedVersion.exactVersion = none ∨
    ∃ untilVersion, spc.pinnedVersion.untilExactVersion = some untilVersion ∧
      lte untilVersion best = true

theorem eligible_of_mem {spc : ServiceProviderCluster V}
    (h : spc ∈ eligibleClusters members best (clustersWithExperimentalAssignment clusters)) :
    spc ∈ members ∧ Eligible clusters best spc := by
  unfold eligibleClusters at h
  simp only [List.mem_filter, Bool.and_eq_true, Option.any_eq_true, Bool.not_eq_true'] at h
  obtain ⟨hmem, ⟨hexp, hbelow⟩, hpin⟩ := h
  refine ⟨hmem, hbelow, ?_, ?_⟩
  · intro cluster hcluster id hid hkey
    by_contra hassigned
    have hlisted : (toLower id) ∈ clustersWithExperimentalAssignment clusters := by
      refine List.mem_filterMap.mpr ⟨cluster, hcluster, ?_⟩
      rw [if_pos, hid]
      · rfl
      · cases hexact : cluster.controlPlaneExactVersion <;> simp_all
    rw [hkey] at hexp
    simp [hlisted] at hexp
  · unfold pinAllows at hpin
    cases hexact : spc.pinnedVersion.exactVersion with
    | none => exact .inl rfl
    | some exact =>
      right
      cases huntil : spc.pinnedVersion.untilExactVersion with
      | none => simp [hexact, huntil] at hpin
      | some untilVersion => exact ⟨untilVersion, rfl, by simpa [hexact, huntil] using hpin⟩

theorem setDesiredVersion_of_below {spc : ServiceProviderCluster V} {desired : V}
    (hdesired : spc.desiredVersion = some desired) (hlt : lt desired best = true) :
    setDesiredVersion spc best now =
      { spc with desiredVersion := some best, desiredVersionLastTransitionTime := some now } := by
  unfold setDesiredVersion
  simp [hdesired, eq_false_of_lt hlt]

/-! ## What a batch does to the counters -/

/-- A cluster counts at a version as mismatched or as achieved, not as both. -/
theorem inFlightOrDone_singleton_le (best : V) (spc : ServiceProviderCluster V) :
    inFlightOrDone best [spc] ≤ 1 := by
  have hboth : ¬((mismatchedVersion spc).map text = some (text best) ∧
      achievedKey spc = some (text best)) := by
    rintro ⟨hmismatched, hachieved⟩
    obtain ⟨desired, hdesired, htext⟩ := Option.map_eq_some_iff.mp hmismatched
    obtain ⟨entry, hentry, hsame⟩ := Option.map_eq_some_iff.mp hachieved
    unfold mismatchedVersion at hdesired
    rw [Option.filter_eq_some_iff, hentry, Option.any_some] at hdesired
    rw [eq_of_text_eq (hsame.trans htext.symm)] at hdesired
    simp at hdesired
  simp only [inFlightOrDone, countAt_cons, countAt_nil]
  split_ifs <;> simp_all

theorem inFlightOrDone_append (best : V) (spcs spcs' : List (ServiceProviderCluster V)) :
    inFlightOrDone best (spcs ++ spcs') = inFlightOrDone best spcs + inFlightOrDone best spcs' := by
  simp only [inFlightOrDone, countAt_append]
  omega

theorem inFlightOrDone_le_length (best : V) (spcs : List (ServiceProviderCluster V)) :
    inFlightOrDone best spcs ≤ spcs.length := by
  induction spcs with
  | nil => simp [inFlightOrDone]
  | cons spc spcs ih =>
    have hsplit := inFlightOrDone_append best [spc] spcs
    have hone := inFlightOrDone_singleton_le best spc
    rw [List.singleton_append] at hsplit
    rw [hsplit, List.length_cons]
    omega

theorem inFlightOrDone_nonneg (best : V) (spcs : List (ServiceProviderCluster V)) :
    0 ≤ inFlightOrDone best spcs :=
  add_nonneg (countAt_nonneg _ _ _) (countAt_nonneg _ _ _)

/-- Replacing some of the members raises the clusters at `best` by at most their number. -/
theorem inFlightOrDone_replace_le (best : V) {old new rest : List (ServiceProviderCluster V)}
    (hmembers : members.Perm (old ++ rest)) (hlength : new.length = old.length) :
    inFlightOrDone best (new ++ rest) ≤ inFlightOrDone best members + old.length := by
  have hbefore : inFlightOrDone best members =
      inFlightOrDone best old + inFlightOrDone best rest := by
    rw [← inFlightOrDone_append]
    simp only [inFlightOrDone, countAt_perm _ _ hmembers]
  have hnew := inFlightOrDone_le_length best new
  have hold := inFlightOrDone_nonneg best old
  rw [inFlightOrDone_append, hbefore]
  omega

theorem successful_replace {pairs : List (ServiceProviderCluster V × ServiceProviderCluster V)}
    {rest : List (ServiceProviderCluster V)} (version : String)
    (hmembers : members.Perm (pairs.map Prod.fst ++ rest))
    (hactive : ∀ pair ∈ pairs, pair.2.activeVersions = pair.1.activeVersions) :
    countAt (successfulKey config now) version (pairs.map Prod.snd ++ rest) =
      countAt (successfulKey config now) version members := by
  have hpairs : countAt (successfulKey config now) version (pairs.map Prod.snd) =
      countAt (successfulKey config now) version (pairs.map Prod.fst) := by
    unfold countAt
    rw [List.countP_map, List.countP_map]
    congr 1
    apply List.countP_congr
    intro pair hpair
    simp [successfulKey, hactive pair hpair]
  rw [countAt_perm _ _ hmembers, countAt_append, countAt_append, hpairs]

/-! ## The decision -/

theorem rolloutDecision_of_selects {status : RolloutCounts} {total eligibleCount : Int}
    (h : 0 < (rolloutDecision (some best) status total eligibleCount config).selectCount) :
    let n := (rolloutDecision (some best) status total eligibleCount config).selectCount
    let atBest := valueAt status.mismatched (text best) + valueAt status.achieved (text best)
    ((valueAt status.failed (text best) : Int) : ℚ) ≤
      failureBudget (valueAt status.desired (text best)) ∧
      (atBest + n ≤ percentOfCeil config.canaryPercentage total + 2 ∨
        percentOfCeil config.canaryPercentage total ≤ valueAt status.successful (text best) ∧
          atBest + n - valueAt status.successful (text best) ≤
            percentOfCeil config.rollingPercentage total) := by
  unfold rolloutDecision at h ⊢
  dsimp only at h ⊢
  split_ifs at h ⊢ with hfailed hnone hcanary hwaiting hrolling
  · dsimp only at h
    omega
  · dsimp only at h
    omega
  · refine ⟨not_lt.mp hfailed, .inl ?_⟩
    dsimp only
    omega
  · dsimp only at h
    omega
  · refine ⟨not_lt.mp hfailed, .inr ⟨not_lt.mp hwaiting, ?_⟩⟩
    dsimp only
    omega
  · dsimp only at h
    omega

/-! ## The batch -/

/-- What the assignments store: part of the selected documents, each with `best` desired. -/
theorem assigned_spec (selected : List (ServiceProviderCluster V)) (best : V) (now : Time)
    (answer : Nat → WriteResult) :
    (((assignAll selected best now answer).filterMap storedAttempt).map Prod.fst).Sublist
        selected ∧
      ∀ pair ∈ (assignAll selected best now answer).filterMap storedAttempt,
        pair.2 = setDesiredVersion pair.1 best now := by
  have hstored : ∀ (attempt : ServiceProviderCluster V × Nat)
      (pair : ServiceProviderCluster V × ServiceProviderCluster V),
      storedAttempt (attempt.1, assignDesiredVersion attempt.1 best now (answer attempt.2)) =
        some pair → pair.1 = attempt.1 ∧ pair.2 = setDesiredVersion attempt.1 best now := by
    intro attempt pair h
    unfold assignDesiredVersion at h
    cases hcoords : serviceProviderClusterCoords attempt.1 with
    | none => simp [hcoords, storedAttempt] at h
    | some coords =>
      cases hanswer : answer attempt.2 with
      | stored =>
        simp only [hcoords, hanswer, storedAttempt, Option.some.injEq] at h
        exact ⟨by rw [← h], by rw [← h]⟩
      | conflict => simp [hcoords, hanswer, storedAttempt] at h
      | failed e => simp [hcoords, hanswer, storedAttempt] at h
  constructor
  · have hsub : ∀ attempts : List (ServiceProviderCluster V × Nat),
        (((attempts.map fun attempt => (attempt.1, assignDesiredVersion attempt.1 best now
          (answer attempt.2))).filterMap storedAttempt).map Prod.fst).Sublist
            (attempts.map Prod.fst) := by
      intro attempts
      induction attempts with
      | nil => exact .slnil
      | cons attempt attempts ih =>
        rw [List.map_cons, List.map_cons, List.filterMap_cons]
        split
        · exact ih.cons _
        · rename_i pair hpair
          rw [List.map_cons, (hstored attempt pair hpair).1]
          exact ih.cons_cons _
    have hall := hsub selected.zipIdx
    rwa [List.zipIdx_map_fst] at hall
  · intro pair hpair
    obtain ⟨attempt, hattempt, hpair⟩ := List.mem_filterMap.mp hpair
    obtain ⟨source, -, rfl⟩ := List.mem_map.mp hattempt
    obtain ⟨hfst, hsnd⟩ := hstored source pair hpair
    rw [hsnd, hfst]

/-- The bound on the clusters at `best` that a batch of `n` clusters keeps. -/
def WithinShares (config : RolloutConfig) (total atBest successful : Int) : Prop :=
  atBest ≤ percentOfCeil config.canaryPercentage total + 2 ∨
    percentOfCeil config.canaryPercentage total ≤ successful ∧
      atBest - successful ≤ percentOfCeil config.rollingPercentage total

theorem planBatch_spec (hselect : Selects select) (clusters : List (Cluster V))
    (members : List (ServiceProviderCluster V)) (best : V) (now : Time)
    (hselected : (planBatch config select clusters members (some best) now).2 ≠ []) :
    let selected := (planBatch config select clusters members (some best) now).2
    let counts := computeRolloutStatusCounts members config now
    ((valueAt counts.failed (text best) : Int) : ℚ) ≤
        failureBudget (valueAt counts.desired (text best)) ∧
      selected.Subperm members ∧ (∀ spc ∈ selected, spc ∈ members ∧ Eligible clusters best spc) ∧
      WithinShares config members.length (inFlightOrDone best members + selected.length)
        (countAt (successfulKey config now) (text best) members) := by
  unfold planBatch at hselected ⊢
  dsimp only [Option.map_some, Option.getD_some] at hselected ⊢
  generalize heligible : eligibleClusters members best
    (clustersWithExperimentalAssignment clusters) = eligible at hselected ⊢
  obtain ⟨-, hmismatched, -, hachieved, hsuccessful⟩ :=
    computeRolloutStatusCounts_spec members config now (text best)
  split_ifs at hselected ⊢ with hpos
  · have hdecision := rolloutDecision_of_selects hpos
    generalize (rolloutDecision (some best) (computeRolloutStatusCounts members config now)
      members.length eligible.length config).selectCount = n at hpos hdecision ⊢
    obtain ⟨hsub, hlength⟩ := hselect eligible n.toNat
    refine ⟨hdecision.1, ?_, ?_, ?_⟩
    · exact hsub.trans (heligible ▸ List.filter_sublist.subperm)
    · intro spc hspc
      exact eligible_of_mem (heligible ▸ hsub.subset hspc)
    · unfold WithinShares inFlightOrDone
      omega
  · exact absurd rfl hselected

theorem syncOnce_assigned {input : SyncInput V}
    (h : (syncOnce config select input).assigned ≠ []) :
    ∃ rollout best members, input.rollout = some rollout ∧ rollout.bestExactVersion = some best ∧
      filterServiceProviderClustersForChannel input.clusters input.serviceProviderClusters
        input.channel = .ok members ∧
      (syncOnce config select input).assigned =
        (assignAll (planBatch config select input.clusters members (some best) input.now).2 best
          input.now input.assignment).filterMap storedAttempt := by
  unfold syncOnce at h ⊢
  cases hrollout : input.rollout with
  | none => simp [hrollout] at h
  | some rollout =>
    cases hcooldown : cooldownRemaining rollout input.now with
    | some remaining => simp [hrollout, hcooldown] at h
    | none =>
      cases hmembers : filterServiceProviderClustersForChannel input.clusters
          input.serviceProviderClusters input.channel with
      | error e => simp [hrollout, hcooldown, hmembers] at h
      | ok members =>
        cases hbest : rollout.bestExactVersion with
        | none => simp [hrollout, hcooldown, hmembers, hbest] at h
        | some best =>
          refine ⟨rollout, best, members, rfl, hbest, rfl, ?_⟩
          cases hreservation : input.reservation with
          | stored => simp [hcooldown, hbest]
          | conflict => simp [hrollout, hcooldown, hmembers, hbest, hreservation] at h
          | failed e =>
            simp only [hrollout, hcooldown, hmembers, hbest, hreservation] at h
            split_ifs at h <;> simp at h

/-- For non-negative percentages and every selector that returns at most the requested number of
distinct eligible clusters, a sync that changes clusters found the failures at the best version
within budget, changed only eligible clusters and only to the best version, and leaves the channel,
whichever of its writes succeeded, with at most the canary share plus two clusters at the best
version, or with the canary share successful and at most the rolling share in flight. -/
theorem zstream_batch_bounded (config : RolloutConfig) (hcanary : 0 ≤ config.canaryPercentage)
    (hrolling : 0 ≤ config.rollingPercentage) (select : ClusterSelector V)
    (hselect : Selects select) (input : SyncInput V)
    (hchanged : (syncOnce config select input).assigned ≠ []) :
    ∃ rollout best members, input.rollout = some rollout ∧ rollout.bestExactVersion = some best ∧
      filterServiceProviderClustersForChannel input.clusters input.serviceProviderClusters
        input.channel = .ok members ∧
      (let counts := computeRolloutStatusCounts members config input.now
       ((valueAt counts.failed (text best) : Int) : ℚ) ≤
        max 2 (5 / 100 * ((valueAt counts.desired (text best) : Int) : ℚ))) ∧
      (∀ pair ∈ (syncOnce config select input).assigned,
        pair.1 ∈ members ∧ Eligible input.clusters best pair.1 ∧
        pair.2 = { pair.1 with desiredVersion := some best,
                               desiredVersionLastTransitionTime := some input.now }) ∧
      ∃ rest, members.Perm ((syncOnce config select input).assigned.map Prod.fst ++ rest) ∧
        let counts := computeRolloutStatusCounts
          ((syncOnce config select input).assigned.map Prod.snd ++ rest) config input.now
        let atBest := valueAt counts.mismatched (text best) + valueAt counts.achieved (text best)
        atBest ≤ ⌈(config.canaryPercentage * members.length : ℚ) / 100⌉ + 2 ∨
          ⌈(config.canaryPercentage * members.length : ℚ) / 100⌉ ≤
              valueAt counts.successful (text best) ∧
            atBest - valueAt counts.successful (text best) ≤
              ⌈(config.rollingPercentage * members.length : ℚ) / 100⌉ := by
  obtain ⟨rollout, best, members, hrollout, hbest, hmembers, hassigned⟩ := syncOnce_assigned hchanged
  rw [hassigned] at hchanged ⊢
  generalize hselected : (planBatch config select input.clusters members (some best) input.now).2 =
    selected at hchanged ⊢
  obtain ⟨hsub, hset⟩ := assigned_spec selected best input.now input.assignment
  generalize (assignAll selected best input.now input.assignment).filterMap storedAttempt = pairs
    at hchanged hsub hset ⊢
  have hne : selected ≠ [] := by
    rintro rfl
    exact hchanged (List.map_eq_nil_iff.mp (List.sublist_nil.mp hsub))
  obtain ⟨hfailed, hsubperm, heligible, hshares⟩ := planBatch_spec hselect input.clusters members
    best input.now (hselected ▸ hne)
  rw [hselected] at hsubperm heligible hshares
  refine ⟨rollout, best, members, hrollout, hbest, hmembers, ?_, ?_, ?_⟩
  · simpa only [failureBudget, failureBudgetAbsolute, Int.cast_ofNat] using hfailed
  · intro pair hpair
    obtain ⟨hmem, hel⟩ := heligible pair.1 (hsub.subset (List.mem_map_of_mem hpair))
    obtain ⟨desired, hdesired, hlt⟩ := hel.below
    exact ⟨hmem, hel, (hset pair hpair).trans (setDesiredVersion_of_below hdesired hlt)⟩
  · obtain ⟨listed, hlisted, hsublist⟩ := hsub.subperm.trans hsubperm
    obtain ⟨rest, hrest⟩ := hsublist.exists_perm_append
    have hperm : members.Perm (pairs.map Prod.fst ++ rest) :=
      hrest.trans (hlisted.append_right rest)
    refine ⟨rest, hperm, ?_⟩
    obtain ⟨-, hmismatched, -, hachieved, hsuccessful⟩ :=
      computeRolloutStatusCounts_spec (pairs.map Prod.snd ++ rest) config input.now (text best)
    have hactive : ∀ pair ∈ pairs, pair.2.activeVersions = pair.1.activeVersions := by
      intro pair hpair
      rw [hset pair hpair, setDesiredVersion]
      split_ifs <;> rfl
    have hatBest := inFlightOrDone_replace_le best hperm
      (by rw [List.length_map, List.length_map] : (pairs.map Prod.snd).length = _)
    have hlength : (pairs.map Prod.fst).length ≤ selected.length := hsub.length_le
    dsimp only
    rw [hmismatched, hachieved, hsuccessful, successful_replace _ hperm hactive]
    have htotal : (members.length : ℚ) = ((members.length : Int) : ℚ) := by norm_cast
    rw [htotal, ← percentOfCeil_eq_ceil hcanary (by omega),
      ← percentOfCeil_eq_ceil hrolling (by omega)]
    unfold WithinShares at hshares
    unfold inFlightOrDone at hatBest hshares
    omega

/-! ## A channel of three clusters -/

def defaultRolloutConfig : RolloutConfig := ⟨6, 12, hour, ∅⟩

def sampleMember (name : String) : ServiceProviderCluster Release where
  resourceID := some ⟨"sub", "rg", some ⟨"/clusters/" ++ name, name⟩⟩
  desiredVersion := some ⟨4, 20, 1⟩
  desiredVersionLastTransitionTime := some hour
  pinnedVersion := {}
  activeVersions := [⟨some ⟨4, 20, 1⟩, .completed, hour⟩]

def sampleCluster (name : String) : Cluster Release :=
  ⟨some ("/Clusters/" ++ name), none, "stable", "4.20", none, ""⟩

def sampleSync : SyncInput Release where
  channel := "stable-4.20"
  rollout := some ⟨some ⟨4, 20, 3⟩, none⟩
  clusters := ["a", "b", "c"].map sampleCluster
  serviceProviderClusters := ["a", "b", "c"].map sampleMember
  now := 10 * hour
  reservation := .stored
  assignment i := if i = 0 then .stored else .conflict

def sampleSelector : ClusterSelector Release := randomClusterSelector List.range

/-- Of three selected clusters the first is stored. -/
theorem zstream_batch_bounded_sample :
    (syncOnce defaultRolloutConfig sampleSelector sampleSync).assigned.length = 1 ∧
      ∃ best : Release, ∀ pair ∈
        (syncOnce defaultRolloutConfig sampleSelector sampleSync).assigned,
        pair.2.desiredVersion = some best := by
  have hselect : Selects sampleSelector := selects_randomClusterSelector fun _ => .refl _
  have hlength : (syncOnce defaultRolloutConfig sampleSelector sampleSync).assigned.length = 1 := by
    decide +kernel
  have hchanged := List.ne_nil_of_length_pos (Nat.lt_of_lt_of_eq Nat.one_pos hlength.symm)
  obtain ⟨_, best, _, -, -, -, -, hpairs, -⟩ := zstream_batch_bounded defaultRolloutConfig
    (by decide) (by decide) sampleSelector hselect sampleSync hchanged
  exact ⟨hlength, best, fun pair hpair => by rw [(hpairs pair hpair).2.2]⟩

end AroHcp.Rollout
