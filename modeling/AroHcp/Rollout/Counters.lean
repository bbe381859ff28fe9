import AroHcp.Rollout.Status

/-! Relations between the counters of a channel. A version is compared by precedence where a
cluster is found mismatched, and by its text where it is counted; the counters fit together
exactly when no cluster tells the two apart. -/

namespace AroHcp.Rollout

open SemVer Tally

variable {V : Type}

/-! ## One counter -/

section

variable {key key' : ServiceProviderCluster V → Option String}
  {spcs spcs' : List (ServiceProviderCluster V)}

theorem countAt_le_of_imp {version : String}
    (h : ∀ spc, key spc = some version → key' spc = some version) :
    countAt key version spcs ≤ countAt key' version spcs := by
  unfold countAt
  exact_mod_cast List.countP_mono_left fun spc _ hspc => by simpa using h spc (by simpa using hspc)

theorem mem_increment {counts : CountByVersion} {k : Option String} {version : String} :
    version ∈ increment counts k ↔ version ∈ counts ∨ k = some version := by
  cases k with
  | none => simp [increment]
  | some k =>
    rw [increment, mem_addAt]
    simp only [Option.some_inj]
    tauto

/-- A counter has the versions that some cluster adds to. -/
theorem mem_countBy {version : String} :
    version ∈ countBy key spcs ↔ ∃ spc ∈ spcs, key spc = some version := by
  have hloop : ∀ counts : CountByVersion,
      version ∈ spcs.foldl (fun counts spc => increment counts (key spc)) counts ↔
        version ∈ counts ∨ ∃ spc ∈ spcs, key spc = some version := by
    induction spcs with
    | nil => simp
    | cons spc rest ih =>
      intro counts
      rw [List.foldl_cons, ih, mem_increment, List.exists_mem_cons_iff]
      tauto
  rw [countBy, hloop]
  simp

/-- Go's maps have no order: a counter is the same map for every order of the clusters. -/
theorem lookup_countBy_perm (h : spcs.Perm spcs') (version : String) :
    (countBy key spcs).lookup version = (countBy key spcs').lookup version := by
  have hvalue : valueAt (countBy key spcs) version = valueAt (countBy key spcs') version := by
    rw [valueAt_countBy, valueAt_countBy, countAt_perm _ _ h]
  have hmem : version ∈ countBy key spcs ↔ version ∈ countBy key spcs' := by
    rw [mem_countBy, mem_countBy]
    simp only [h.mem_iff]
  by_cases hv : version ∈ countBy key spcs
  · rw [lookup_eq_some_valueAt hv, lookup_eq_some_valueAt (hmem.mp hv), hvalue]
  · rw [AList.lookup_eq_none.mpr hv, AList.lookup_eq_none.mpr fun h => hv (hmem.mpr h)]

theorem total_increment (counts : CountByVersion) (k : Option String) :
    total (increment counts k) = total counts + if k.isSome then 1 else 0 := by
  cases k with
  | none => simp [increment]
  | some k => simp [increment, total_addAt]

/-- The total of a counter is the number of clusters that add to it. -/
theorem total_countBy (key : ServiceProviderCluster V → Option String)
    (spcs : List (ServiceProviderCluster V)) :
    total (countBy key spcs) = spcs.countP fun spc => (key spc).isSome := by
  have hloop : ∀ counts : CountByVersion,
      total (spcs.foldl (fun counts spc => increment counts (key spc)) counts) =
        total counts + (spcs.countP fun spc => (key spc).isSome : Nat) := by
    induction spcs with
    | nil => simp
    | cons spc rest ih =>
      intro counts
      rw [List.foldl_cons, ih, total_increment, List.countP_cons]
      push_cast
      ring
  have hzero : total (∅ : CountByVersion) = 0 := rfl
  rw [countBy, hloop, hzero, zero_add]

/-- Of two conditions one of which implies the other, as many elements meet both exactly when they
agree on every element. -/
theorem countP_eq_countP_iff {α : Type} (p q : α → Bool) {xs : List α}
    (himp : ∀ x ∈ xs, q x = true → p x = true) :
    xs.countP p = xs.countP q ↔ ∀ x ∈ xs, p x = true → q x = true := by
  constructor
  · intro heq x hx hp
    by_contra hq
    obtain ⟨l, r, rfl⟩ := List.append_of_mem hx
    have hl : l.countP q ≤ l.countP p :=
      List.countP_mono_left fun y hy => himp y (List.mem_append_left _ hy)
    have hr : r.countP q ≤ r.countP p := List.countP_mono_left fun y hy =>
      himp y (List.mem_append_right _ (List.mem_cons_of_mem _ hy))
    rw [List.countP_append, List.countP_append, List.countP_cons_of_pos hp,
      List.countP_cons_of_neg hq] at heq
    omega
  · intro hsame
    exact List.countP_congr fun x hx => ⟨hsame x hx, himp x hx⟩

end

variable [SemVer V]

/-! ## The counters of a channel -/

structure SameCounts (counts counts' : RolloutCounts) : Prop where
  desired : ∀ version, counts.desired.lookup version = counts'.desired.lookup version
  mismatched : ∀ version, counts.mismatched.lookup version = counts'.mismatched.lookup version
  failed : ∀ version, counts.failed.lookup version = counts'.failed.lookup version
  achieved : ∀ version, counts.achieved.lookup version = counts'.achieved.lookup version
  successful : ∀ version, counts.successful.lookup version = counts'.successful.lookup version

def settledCount (spcs : List (ServiceProviderCluster V)) (version : String) : Nat :=
  spcs.countP fun spc => desiredKey spc = some version && achievedKey spc = some version

/-- What the canary and the rolling gates rely on. -/
structure ConsistentCounts (spcs : List (ServiceProviderCluster V)) (counts : RolloutCounts) :
    Prop where
  failed_le : ∀ version, valueAt counts.failed version ≤ valueAt counts.mismatched version
  mismatched_le : ∀ version, valueAt counts.mismatched version ≤ valueAt counts.desired version
  successful_le : ∀ version, valueAt counts.successful version ≤ valueAt counts.achieved version
  settled : ∀ version, valueAt counts.desired version - valueAt counts.mismatched version =
    settledCount spcs version
  covered : ∀ version, valueAt counts.desired version ≤
    valueAt counts.mismatched version + valueAt counts.achieved version
  desired_total : total counts.desired = spcs.countP fun spc => spc.desiredVersion.isSome
  achieved_total : total counts.achieved =
    spcs.countP fun spc => (earliestActiveVersionEntry spc.activeVersions).isSome

/-- The desired version, where the running one has its precedence. -/
def heldKey (spc : ServiceProviderCluster V) : Option String :=
  (spc.desiredVersion.filter fun desired =>
    (earliestActiveVersionEntry spc.activeVersions).any fun entry => eq entry.1 desired).map text

def AgreeingTexts (spc : ServiceProviderCluster V) : Prop :=
  ∀ desired entry, spc.desiredVersion = some desired →
    earliestActiveVersionEntry spc.activeVersions = some entry →
      eq entry.1 desired = true → text entry.1 = text desired

/-- A cluster that desires a version is mismatched or holds it. -/
theorem countAt_desiredKey (version : String) (spcs : List (ServiceProviderCluster V)) :
    countAt desiredKey version spcs =
      countAt (fun spc => (mismatchedVersion spc).map text) version spcs +
        countAt heldKey version spcs := by
  induction spcs with
  | nil => rfl
  | cons spc rest ih =>
    have hone : (if desiredKey spc = some version then (1 : Int) else 0) =
        (if (mismatchedVersion spc).map text = some version then 1 else 0) +
          if heldKey spc = some version then 1 else 0 := by
      unfold desiredKey mismatchedVersion heldKey
      cases spc.desiredVersion with
      | none => simp
      | some desired =>
        cases hany : (earliestActiveVersionEntry spc.activeVersions).any
          fun entry => eq entry.1 desired <;> simp [Option.filter, hany]
    rw [countAt_cons, countAt_cons, countAt_cons, ih, hone]
    ring

/-- Equal texts have equal precedence. -/
theorem heldKey_of_settled {spc : ServiceProviderCluster V} {version : String}
    (hdesired : desiredKey spc = some version) (hachieved : achievedKey spc = some version) :
    heldKey spc = some version := by
  obtain ⟨desired, hd, htext⟩ := Option.map_eq_some_iff.mp hdesired
  obtain ⟨entry, he, hentry⟩ := Option.map_eq_some_iff.mp hachieved
  have heq : eq entry.1 desired = true := eq_of_text_eq (hentry.trans htext.symm)
  simp [heldKey, hd, he, heq, htext, Option.filter]

theorem achievedKey_of_heldKey {spc : ServiceProviderCluster V} (h : AgreeingTexts spc)
    {version : String} (hheld : heldKey spc = some version) :
    desiredKey spc = some version ∧ achievedKey spc = some version := by
  obtain ⟨desired, hfilter, rfl⟩ := Option.map_eq_some_iff.mp hheld
  obtain ⟨hd, hany⟩ := Option.filter_eq_some_iff.mp hfilter
  obtain ⟨entry, he, heq⟩ := (Option.any_eq_true _ _).mp hany
  refine ⟨congrArg (Option.map text) hd, ?_⟩
  rw [achievedKey, he, Option.map_some, h desired entry hd he heq]

/-- Every cluster that holds a version runs it by text exactly when all texts agree. -/
theorem settledCount_eq_iff (spcs : List (ServiceProviderCluster V)) :
    (∀ version, countAt heldKey version spcs = settledCount spcs version) ↔
      ∀ spc ∈ spcs, AgreeingTexts spc := by
  have hcount : ∀ version, countAt heldKey version spcs = settledCount spcs version ↔
      ∀ spc ∈ spcs, heldKey spc = some version →
        desiredKey spc = some version ∧ achievedKey spc = some version := by
    intro version
    have himp : ∀ spc ∈ spcs, (desiredKey spc = some version && achievedKey spc = some version) =
        true → decide (heldKey spc = some version) = true := by
      intro spc _ h
      simp only [Bool.and_eq_true, decide_eq_true_eq] at h
      simpa using heldKey_of_settled h.1 h.2
    have hiff := countP_eq_countP_iff (fun spc => heldKey spc = some version) _ himp
    simp only [Bool.and_eq_true, decide_eq_true_eq] at hiff
    rw [← hiff, countAt, settledCount]
    exact_mod_cast Iff.rfl
  simp only [hcount]
  constructor
  · intro h spc hspc desired entry hd he heq
    have hheld : heldKey spc = some (text desired) := by
      simp [heldKey, hd, he, heq, Option.filter]
    have hachieved := (h _ spc hspc hheld).2
    rw [achievedKey, he] at hachieved
    exact Option.some_inj.mp hachieved
  · intro h version spc hspc hheld
    exact achievedKey_of_heldKey (h spc hspc) hheld

/-- The counters do not depend on the order of the clusters, and they are consistent exactly when
no cluster runs a version that has the precedence of its desired one but another text. -/
theorem rollout_counts_consistent_iff (spcs : List (ServiceProviderCluster V))
    (config : RolloutConfig) (now : Time) :
    (ConsistentCounts spcs (computeRolloutStatusCounts spcs config now) ∧
      ∀ spcs' : List (ServiceProviderCluster V), spcs'.Perm spcs → SameCounts
        (computeRolloutStatusCounts spcs' config now)
        (computeRolloutStatusCounts spcs config now)) ↔
      ∀ spc ∈ spcs, AgreeingTexts spc := by
  rw [← settledCount_eq_iff]
  have hspec := computeRolloutStatusCounts_spec spcs config now
  constructor
  · rintro ⟨h, -⟩ version
    obtain ⟨hdesired, hmismatched, -⟩ := hspec version
    have hsettled := h.settled version
    rw [hdesired, hmismatched, countAt_desiredKey] at hsettled
    omega
  · intro h
    have hdiff : ∀ version, valueAt (computeRolloutStatusCounts spcs config now).desired version =
        valueAt (computeRolloutStatusCounts spcs config now).mismatched version +
          settledCount spcs version := by
      intro version
      rw [(hspec version).1, (hspec version).2.1, countAt_desiredKey, h]
    have hachieved : ∀ version, (settledCount spcs version : Int) ≤
        valueAt (computeRolloutStatusCounts spcs config now).achieved version := by
      intro version
      rw [(hspec version).2.2.2.1, settledCount, countAt]
      exact_mod_cast List.countP_mono_left fun spc _ hspc =>
        ((Bool.and_eq_true _ _).mp hspc).2
    refine ⟨⟨?_, ?_, ?_, ?_, ?_, ?_, ?_⟩, ?_⟩
    · intro version
      rw [(hspec version).2.2.1, (hspec version).2.1]
      apply countAt_le_of_imp
      intro spc hfailed
      obtain ⟨desired, hmismatched, hkey⟩ := Option.bind_eq_some_iff.mp hfailed
      split_ifs at hkey
      rw [hmismatched]
      exact hkey
    · intro version
      have hnonneg := hdiff version
      omega
    · intro version
      rw [(hspec version).2.2.2.2, (hspec version).2.2.2.1]
      apply countAt_le_of_imp
      intro spc hsuccessful
      obtain ⟨entry, hentry, hkey⟩ := Option.bind_eq_some_iff.mp hsuccessful
      split_ifs at hkey
      rw [achievedKey, hentry]
      exact hkey
    · intro version
      have hsum := hdiff version
      omega
    · intro version
      have hsum := hdiff version
      have hle := hachieved version
      omega
    · rw [computeRolloutStatusCounts_eq, total_countBy]
      simp [desiredKey]
    · rw [computeRolloutStatusCounts_eq, total_countBy]
      simp [achievedKey]
    · intro spcs' hperm
      rw [computeRolloutStatusCounts_eq, computeRolloutStatusCounts_eq]
      exact ⟨lookup_countBy_perm hperm, lookup_countBy_perm hperm, lookup_countBy_perm hperm,
        lookup_countBy_perm hperm, lookup_countBy_perm hperm⟩

/-- A cluster pinned to a version with build metadata that runs the release without. -/
def pinnedBuildCluster : ServiceProviderCluster Build where
  resourceID := none
  desiredVersion := some ⟨⟨4, 20, 1⟩, "hotfix"⟩
  desiredVersionLastTransitionTime := some hour
  pinnedVersion := {}
  activeVersions := [⟨some ⟨⟨4, 20, 1⟩, ""⟩, .completed, hour⟩]

/-- The cluster is not counted as mismatched, nor as having achieved what it desires. -/
theorem rollout_counts_inconsistent :
    let counts := computeRolloutStatusCounts [pinnedBuildCluster] ⟨10, 10, hour, ∅⟩ (5 * hour)
    valueAt counts.desired "4.20.1+hotfix" = 1 ∧ valueAt counts.mismatched "4.20.1+hotfix" = 0 ∧
      valueAt counts.achieved "4.20.1+hotfix" = 0 ∧ valueAt counts.achieved "4.20.1" = 1 ∧
      ¬ ConsistentCounts [pinnedBuildCluster] counts := by
  refine ⟨by decide +kernel, by decide +kernel, by decide +kernel, by decide +kernel, ?_⟩
  intro h
  have hcovered := h.covered "4.20.1+hotfix"
  revert hcovered
  decide +kernel

end AroHcp.Rollout
