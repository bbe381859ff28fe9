import AroHcp.Compute.DesiredShape
import AroHcp.Lib.Transport
import Mathlib.Algebra.BigOperators.Fin
import Mathlib.Data.List.Sublists

/-! `canFill` decides whether the families can give every zone what it needs: its test of all groups
of zones is Hall's condition, so it agrees with the existence of an assignment, as long as quotas
and needs add up to `int64` numbers. -/

namespace AroHcp.Compute

open GoInt Tally Transport

/-! ## Groups of zones -/

theorem mem_combinations {zones group : List String} {k : ℕ} :
    group ∈ combinations zones k ↔ group.Sublist zones ∧ group.length = k := by
  induction zones generalizing group k with
  | nil =>
    cases k with
    | zero => simp [combinations]
    | succ k =>
      simp only [combinations, List.not_mem_nil, List.sublist_nil, false_iff, not_and]
      rintro rfl
      simp
  | cons zone rest ih =>
    cases k with
    | zero =>
      simp only [combinations, List.mem_singleton, List.length_eq_zero_iff]
      constructor
      · rintro rfl
        exact ⟨List.nil_sublist _, rfl⟩
      · exact And.right
    | succ k =>
      simp only [combinations, List.mem_append, List.mem_map, ih, List.sublist_cons_iff]
      constructor
      · rintro (⟨tail, ⟨hsub, hlen⟩, rfl⟩ | ⟨hsub, hlen⟩)
        · exact ⟨.inr ⟨tail, rfl, hsub⟩, by simp [hlen]⟩
        · exact ⟨.inl hsub, hlen⟩
      · rintro ⟨hsub | ⟨tail, rfl, hsub⟩, hlen⟩
        · exact .inr ⟨hsub, hlen⟩
        · exact .inl ⟨tail, ⟨hsub, by simpa using hlen⟩, rfl⟩

theorem canFill_eq_true {families : List FamilyQuota} {needed : ZoneNodes} :
    canFill families needed = true ↔ ∀ group,
      group.Sublist (needed.keys.insertionSort (· ≤ ·)) →
        coversGroup families needed group = true := by
  unfold canFill
  simp only [List.all_eq_true, mem_combinations, List.mem_range'_1]
  constructor
  · intro h group hsub
    rcases Nat.eq_zero_or_pos group.length with hzero | hpos
    · rw [List.length_eq_zero_iff.mp hzero]
      simp [coversGroup, intersectZones]
    · exact h group.length ⟨hpos, by have := hsub.length_le; omega⟩ group ⟨hsub, rfl⟩
  · rintro h size - group ⟨hsub, -⟩
    exact h group hsub

/-! ## Families as sources, zones as sinks -/

section

variable {n : ℕ}

/-- Families numbered from 0 give the zones of the map exactly what they need. -/
abbrev Fills (families : Fin n → FamilyQuota) (needed : ZoneNodes) (x : Fin n → String → ℕ) : Prop :=
  Serves (fun i zone => zone ∈ (families i).metadata.zones) (fun i => (families i).quotaNodes)
    needed.keys.toFinset (valueAt needed) x

def Fillable (families : Fin n → FamilyQuota) (needed : ZoneNodes) : Prop :=
  ∃ x, Fills families needed x

/-- Quotas and needs without a negative number whose sums `int64` holds. -/
structure NodesFit (families : Fin n → FamilyQuota) (needed : ZoneNodes) : Prop where
  quota_nonneg : ∀ i, 0 ≤ (families i).quotaNodes
  needed_nonneg : ∀ zone, 0 ≤ valueAt needed zone
  quota_sum : ∑ i, (families i).quotaNodes ≤ maxInt64
  needed_sum : ∑ zone ∈ needed.keys.toFinset, valueAt needed zone ≤ maxInt64

theorem int64_sum_of_le {ι : Type} {s t : Finset ι} {f : ι → Int} (h0 : ∀ i, 0 ≤ f i)
    (hsub : s ⊆ t) (hle : ∑ i ∈ t, f i ≤ maxInt64) : int64 (∑ i ∈ s, f i) = ∑ i ∈ s, f i := by
  have hnonneg : 0 ≤ ∑ i ∈ s, f i := Finset.sum_nonneg fun i _ => h0 i
  have hsum := Finset.sum_le_sum_of_subset_of_nonneg hsub fun i _ _ => h0 i
  unfold maxInt64 at hle
  exact int64_of_lt (by omega) (by omega)

theorem coversGroup_ofFn {families : Fin n → FamilyQuota} {needed : ZoneNodes}
    (hfit : NodesFit families needed) {group : List String} (hgroup : group.Nodup)
    (hsub : group.toFinset ⊆ needed.keys.toFinset) :
    coversGroup (List.ofFn families) needed group = true ↔
      ∑ zone ∈ group.toFinset, valueAt needed zone ≤
        ∑ i with ∃ zone ∈ group.toFinset, zone ∈ (families i).metadata.zones,
          (families i).quotaNodes := by
  have hoffered : ∀ family : FamilyQuota, intersectZones group family.metadata ≠ [] ↔
      ∃ zone ∈ group.toFinset, zone ∈ family.metadata.zones := by
    intro family
    simp [intersectZones, List.filter_eq_nil_iff]
  have hquota : (((List.ofFn families).filter fun family =>
      intersectZones group family.metadata ≠ []).map FamilyQuota.quotaNodes).sum =
      ∑ i with ∃ zone ∈ group.toFinset, zone ∈ (families i).metadata.zones,
        (families i).quotaNodes := by
    have hsplit := List.sum_map_ite (fun family : FamilyQuota =>
      intersectZones group family.metadata ≠ []) FamilyQuota.quotaNodes (fun _ => 0)
      (List.ofFn families)
    rw [List.map_ofFn, List.sum_ofFn] at hsplit
    simp only [List.map_const', List.sum_replicate, nsmul_zero, add_zero] at hsplit
    rw [← hsplit, Finset.sum_filter]
    refine Finset.sum_congr rfl fun i _ => ?_
    simp only [Function.comp_apply, hoffered]
  unfold coversGroup
  rw [decide_eq_true_iff, hquota, ← List.sum_toFinset _ hgroup,
    int64_sum_of_le hfit.needed_nonneg hsub hfit.needed_sum,
    int64_sum_of_le hfit.quota_nonneg (Finset.filter_subset _ _) hfit.quota_sum]

/-- The test of every group is Hall's condition. -/
theorem canFill_ofFn {families : Fin n → FamilyQuota} {needed : ZoneNodes}
    (hfit : NodesFit families needed) :
    canFill (List.ofFn families) needed = true ↔
      Covered (fun i zone => zone ∈ (families i).metadata.zones)
        (fun i => (families i).quotaNodes) needed.keys.toFinset (valueAt needed) := by
  have hperm : (needed.keys.insertionSort (· ≤ ·)).Perm needed.keys :=
    List.perm_insertionSort _ _
  have hsorted : (needed.keys.insertionSort (· ≤ ·)).Nodup := hperm.nodup_iff.mpr needed.keys_nodup
  rw [canFill_eq_true]
  constructor
  · intro h group hgroup
    -- the group as the code meets it: its zones in sorted order
    have hsub : ((needed.keys.insertionSort (· ≤ ·)).filter fun zone => zone ∈ group).Sublist
        (needed.keys.insertionSort (· ≤ ·)) := List.filter_sublist
    have hset : ((needed.keys.insertionSort (· ≤ ·)).filter fun zone => zone ∈ group).toFinset =
        group := by
      ext zone
      rw [List.mem_toFinset, List.mem_filter, hperm.mem_iff, decide_eq_true_iff]
      exact ⟨And.right, fun hz => ⟨List.mem_toFinset.mp (hgroup hz), hz⟩⟩
    have hcovers := (coversGroup_ofFn hfit (hsorted.sublist hsub) (hset.symm ▸ hgroup)).mp (h _ hsub)
    rwa [hset] at hcovers
  · intro h group hsub
    have hkeys : group.toFinset ⊆ needed.keys.toFinset := fun zone hzone =>
      List.mem_toFinset.mpr (hperm.mem_iff.mp (hsub.subset (List.mem_toFinset.mp hzone)))
    exact (coversGroup_ofFn hfit (hsorted.sublist hsub) hkeys).mpr (h _ hkeys)

theorem canFill_iff_fillable {families : Fin n → FamilyQuota} {needed : ZoneNodes}
    (hfit : NodesFit families needed) :
    canFill (List.ofFn families) needed = true ↔ Fillable families needed :=
  (canFill_ofFn hfit).trans (exists_serves_iff hfit.quota_nonneg hfit.needed_nonneg).symm

end

/-- `canFill` holds exactly when whole nodes of the families, each within its quota and only in the
zones of its SKU, give every zone what it needs. -/
theorem canFill_exact (families : List FamilyQuota) (needed : ZoneNodes)
    (hquota : ∀ family ∈ families, 0 ≤ family.quotaNodes)
    (hneeded : ∀ zone ∈ needed, 0 ≤ valueAt needed zone)
    (hquotaSum : (families.map FamilyQuota.quotaNodes).sum ≤ maxInt64)
    (hneededSum : (needed.keys.map (valueAt needed)).sum ≤ maxInt64) :
    canFill families needed = true ↔ ∃ x : Fin families.length → String → ℕ,
      (∀ i zone, zone ∉ (families.get i).metadata.zones → x i zone = 0) ∧
      (∀ zone ∈ needed, ∑ i, (x i zone : ℤ) = valueAt needed zone) ∧
      ∀ i, ∑ zone ∈ needed.keys.toFinset, (x i zone : ℤ) ≤ (families.get i).quotaNodes := by
  have hnonneg : ∀ zone, 0 ≤ valueAt needed zone := by
    intro zone
    by_cases hzone : zone ∈ needed
    · exact hneeded zone hzone
    · rw [valueAt, AList.lookup_eq_none.mpr hzone, Option.getD_none]
  have hfit : NodesFit families.get needed := by
    refine ⟨fun i => hquota _ (List.get_mem families i), hnonneg, ?_, ?_⟩
    · exact (Fin.sum_univ_fun_getElem families FamilyQuota.quotaNodes).trans_le hquotaSum
    · rwa [List.sum_toFinset _ needed.keys_nodup]
  have hfillable := canFill_iff_fillable hfit
  rw [List.ofFn_get] at hfillable
  rw [hfillable]
  constructor
  · rintro ⟨x, hx⟩
    exact ⟨x, hx.reached, fun zone hzone => hx.met zone (List.mem_toFinset.mpr hzone), hx.within⟩
  · rintro ⟨x, hreached, hmet, hwithin⟩
    exact ⟨x, hreached, fun zone hzone => hmet zone (List.mem_toFinset.mp hzone), hwithin⟩

/-- A family of zone 1 alone and one of both zones. -/
def sampleFamilies : List FamilyQuota :=
  [⟨{ sampleSKU "D4" 4 with zones := ["1"] }, 2⟩, ⟨sampleSKU "E4" 4, 3⟩]

/-- Two nodes in zone 1 and three in zone 2 use up both quotas, and nothing is left for a fourth. -/
theorem canFill_exact_two_families :
    let needed : ZoneNodes := (AList.singleton "1" 2).insert "2" 3
    (∃ x : Fin sampleFamilies.length → String → ℕ,
      (∀ i zone, zone ∉ (sampleFamilies.get i).metadata.zones → x i zone = 0) ∧
      (∀ zone ∈ needed, ∑ i, (x i zone : ℤ) = valueAt needed zone) ∧
      ∀ i, ∑ zone ∈ needed.keys.toFinset, (x i zone : ℤ) ≤ (sampleFamilies.get i).quotaNodes) ∧
    canFill sampleFamilies (needed.insert "2" 4) = false := by
  refine ⟨(canFill_exact sampleFamilies _ (by decide) ?_ (by decide) ?_).mp (by decide +kernel),
    by decide +kernel⟩
  · decide +kernel
  · decide +kernel

/-- Two families of 2 ^ 62 nodes each: their sum wraps, and a single node is refused. -/
theorem canFill_refuses_overflow :
    let families : List FamilyQuota := [⟨sampleSKU "D4" 4, 2 ^ 62⟩, ⟨sampleSKU "E4" 4, 2 ^ 62⟩]
    canFill families (AList.singleton "1" 1) = false ∧
      ∃ x : Fin families.length → String → ℕ,
        (∀ i zone, zone ∉ (families.get i).metadata.zones → x i zone = 0) ∧
        (∀ zone ∈ (AList.singleton "1" 1 : ZoneNodes),
          ∑ i, (x i zone : ℤ) = valueAt (AList.singleton "1" 1) zone) ∧
        ∀ i, ∑ zone ∈ (AList.singleton "1" 1 : ZoneNodes).keys.toFinset, (x i zone : ℤ) ≤
          (families.get i).quotaNodes := by
  refine ⟨by decide +kernel, fun i zone => if i = 0 ∧ zone = "1" then 1 else 0, ?_, ?_, ?_⟩
  · intro i zone hzone
    apply if_neg
    rintro ⟨rfl, rfl⟩
    exact hzone (by decide)
  · decide +kernel
  · decide +kernel

end AroHcp.Compute
