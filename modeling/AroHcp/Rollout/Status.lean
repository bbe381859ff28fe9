import AroHcp.Lib.Tally
import AroHcp.Rollout.Types
import Mathlib.Algebra.Order.Floor.Ring
import Mathlib.Data.Rat.Floor
import Mathlib.Tactic.Linarith
import Mathlib.Tactic.FieldSimp

/-! The progress counters of a rollout channel. Each cluster adds to a counter at the text of one
version, or not at all. -/

namespace AroHcp.Rollout

open SemVer Tally

abbrev CountByVersion := AList fun _ : String => Int

structure RolloutCounts where
  desired : CountByVersion
  mismatched : CountByVersion
  failed : CountByVersion
  achieved : CountByVersion
  successful : CountByVersion

section

variable {V : Type} [SemVer V] (config : RolloutConfig) (now : Time)
  (spc : ServiceProviderCluster V)

def desiredKey : Option String :=
  spc.desiredVersion.map text

def achievedKey : Option String :=
  (earliestActiveVersionEntry spc.activeVersions).map fun entry => text entry.1

/-- The achieved version, once held longer than the minimum ready duration. -/
def successfulKey : Option String :=
  (earliestActiveVersionEntry spc.activeVersions).bind fun entry =>
    if entry.2 ≠ 0 && config.minVersionReadyDuration < now - entry.2 then some (text entry.1)
    else none

/-- The desired version, while it is not the achieved one. -/
def mismatchedVersion : Option V :=
  spc.desiredVersion.filter fun desired =>
    !(earliestActiveVersionEntry spc.activeVersions).any fun entry => eq entry.1 desired

/-- The mismatched version, once desired for longer than its minor may take. -/
def failedKey : Option String :=
  (mismatchedVersion spc).bind fun desired =>
    if (spc.desiredVersionLastTransitionTime.any fun since => since ≠ 0 &&
      config.maxUpgradeDurationForMinor (minorString desired) < now - since) then some (text desired)
    else none

end

def increment (counts : CountByVersion) : Option String → CountByVersion
  | none => counts
  | some key => addAt counts key 1

variable {V : Type} [SemVer V]

def computeRolloutStatusCounts (spcs : List (ServiceProviderCluster V)) (config : RolloutConfig)
    (now : Time) : RolloutCounts :=
  spcs.foldl (fun counts spc =>
    { desired := increment counts.desired (desiredKey spc)
      mismatched := increment counts.mismatched ((mismatchedVersion spc).map text)
      failed := increment counts.failed (failedKey config now spc)
      achieved := increment counts.achieved (achievedKey spc)
      successful := increment counts.successful (successfulKey config now spc) })
    ⟨∅, ∅, ∅, ∅, ∅⟩

def percentOfCeil (pct total : Int) : Int :=
  if pct ≤ 0 || total ≤ 0 then 0 else (pct * total + 99).tdiv 100

/-! ## What the counters count -/

/-- The clusters that add to a counter at a version. -/
def countAt (key : ServiceProviderCluster V → Option String) (version : String)
    (spcs : List (ServiceProviderCluster V)) : Int :=
  spcs.countP fun spc => key spc = some version

section

variable (key : ServiceProviderCluster V → Option String) (version : String)

omit [SemVer V]

@[simp]
theorem countAt_nil : countAt key version [] = 0 := rfl

@[simp]
theorem countAt_cons (spc : ServiceProviderCluster V) (spcs : List (ServiceProviderCluster V)) :
    countAt key version (spc :: spcs) =
      (if key spc = some version then 1 else 0) + countAt key version spcs := by
  unfold countAt
  split_ifs <;> simp_all [add_comm]

theorem countAt_append (spcs spcs' : List (ServiceProviderCluster V)) :
    countAt key version (spcs ++ spcs') = countAt key version spcs + countAt key version spcs' := by
  simp [countAt]

theorem countAt_perm {spcs spcs' : List (ServiceProviderCluster V)} (h : spcs.Perm spcs') :
    countAt key version spcs = countAt key version spcs' := by
  unfold countAt
  rw [h.countP_eq]

theorem countAt_nonneg (spcs : List (ServiceProviderCluster V)) :
    0 ≤ countAt key version spcs := by
  unfold countAt
  omega

end

theorem valueAt_increment (counts : CountByVersion) (key : Option String) (version : String) :
    valueAt (increment counts key) version =
      valueAt counts version + if key = some version then 1 else 0 := by
  cases key with
  | none => simp [increment]
  | some k => simp [increment, valueAt_addAt]

/-- One counter: the loop over the clusters, for one of the maps. -/
def countBy (key : ServiceProviderCluster V → Option String)
    (spcs : List (ServiceProviderCluster V)) : CountByVersion :=
  spcs.foldl (fun counts spc => increment counts (key spc)) ∅

theorem computeRolloutStatusCounts_eq (spcs : List (ServiceProviderCluster V))
    (config : RolloutConfig) (now : Time) :
    computeRolloutStatusCounts spcs config now =
      ⟨countBy desiredKey spcs, countBy (fun spc => (mismatchedVersion spc).map text) spcs,
        countBy (failedKey config now) spcs, countBy achievedKey spcs,
        countBy (successfulKey config now) spcs⟩ := by
  have hloop : ∀ d m f a s : CountByVersion, spcs.foldl (fun counts spc =>
      { desired := increment counts.desired (desiredKey spc)
        mismatched := increment counts.mismatched ((mismatchedVersion spc).map text)
        failed := increment counts.failed (failedKey config now spc)
        achieved := increment counts.achieved (achievedKey spc)
        successful := increment counts.successful (successfulKey config now spc) })
      (⟨d, m, f, a, s⟩ : RolloutCounts) =
        ⟨spcs.foldl (fun counts spc => increment counts (desiredKey spc)) d,
          spcs.foldl (fun counts spc => increment counts ((mismatchedVersion spc).map text)) m,
          spcs.foldl (fun counts spc => increment counts (failedKey config now spc)) f,
          spcs.foldl (fun counts spc => increment counts (achievedKey spc)) a,
          spcs.foldl (fun counts spc => increment counts (successfulKey config now spc)) s⟩ := by
    induction spcs with
    | nil => exact fun _ _ _ _ _ => rfl
    | cons spc rest ih => exact fun _ _ _ _ _ => ih _ _ _ _ _
  exact hloop _ _ _ _ _

section

variable (key : ServiceProviderCluster V → Option String)

omit [SemVer V]

theorem valueAt_foldl_increment (version : String) (spcs : List (ServiceProviderCluster V))
    (counts : CountByVersion) :
    valueAt (spcs.foldl (fun counts spc => increment counts (key spc)) counts) version =
      valueAt counts version + countAt key version spcs := by
  induction spcs generalizing counts with
  | nil => simp
  | cons spc rest ih => rw [List.foldl_cons, ih, valueAt_increment, countAt_cons, add_assoc]

theorem valueAt_countBy (version : String) (spcs : List (ServiceProviderCluster V)) :
    valueAt (countBy key spcs) version = countAt key version spcs := by
  have hzero : valueAt (∅ : CountByVersion) version = 0 := rfl
  rw [countBy, valueAt_foldl_increment, hzero, zero_add]

end

theorem computeRolloutStatusCounts_spec (spcs : List (ServiceProviderCluster V))
    (config : RolloutConfig) (now : Time) (version : String) :
    valueAt (computeRolloutStatusCounts spcs config now).desired version =
        countAt desiredKey version spcs ∧
      valueAt (computeRolloutStatusCounts spcs config now).mismatched version =
        countAt (fun spc => (mismatchedVersion spc).map text) version spcs ∧
      valueAt (computeRolloutStatusCounts spcs config now).failed version =
        countAt (failedKey config now) version spcs ∧
      valueAt (computeRolloutStatusCounts spcs config now).achieved version =
        countAt achievedKey version spcs ∧
      valueAt (computeRolloutStatusCounts spcs config now).successful version =
        countAt (successfulKey config now) version spcs := by
  rw [computeRolloutStatusCounts_eq]
  exact ⟨valueAt_countBy _ _ _, valueAt_countBy _ _ _, valueAt_countBy _ _ _, valueAt_countBy _ _ _,
    valueAt_countBy _ _ _⟩

theorem percentOfCeil_eq_ceil {pct total : Int} (hpct : 0 ≤ pct) (htotal : 0 ≤ total) :
    percentOfCeil pct total = ⌈(pct * total : ℚ) / 100⌉ := by
  unfold percentOfCeil
  split_ifs with hzero
  · have hprod : (pct * total : ℚ) = 0 := by
      rw [Bool.or_eq_true, decide_eq_true_eq, decide_eq_true_eq] at hzero
      rcases hzero with h | h
      · rw [le_antisymm h hpct, Int.cast_zero, zero_mul]
      · rw [le_antisymm h htotal, Int.cast_zero, mul_zero]
    rw [hprod, zero_div, Int.ceil_zero]
  · have hprod : 0 ≤ pct * total := Int.mul_nonneg hpct htotal
    rw [Int.tdiv_eq_ediv_of_nonneg (by omega), eq_comm, Int.ceil_eq_iff]
    generalize hx : pct * total = x at *
    have hcast : (pct * total : ℚ) = x := by exact_mod_cast hx
    rw [hcast]
    constructor
    · rw [lt_div_iff₀ (by norm_num)]
      have : ((x + 99) / 100 - 1) * 100 < x := by omega
      exact_mod_cast this
    · rw [div_le_iff₀ (by norm_num)]
      have : x ≤ (x + 99) / 100 * 100 := by omega
      exact_mod_cast this

end AroHcp.Rollout
