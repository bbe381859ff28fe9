import AroHcp.Lib.Tally
import Mathlib.Algebra.BigOperators.Group.Finset.Piecewise
import Mathlib.Algebra.Group.Hom.Defs
import Mathlib.Algebra.Order.BigOperators.Group.Finset
import Mathlib.Algebra.Order.BigOperators.Group.List

/-! Totals of keyed lists compared with each other: a key that occurs once, a list matched with
another by key, and buckets that share out a total. -/

namespace Tally

variable {κ ν α β : Type} [DecidableEq κ] [AddCommMonoid ν] {key : α → κ} {value : α → ν}

theorem sumAt_eq_zero {k : κ} {xs : List α} (h : ∀ x ∈ xs, key x ≠ k) :
    sumAt key value k xs = 0 := by
  induction xs with
  | nil => rfl
  | cons x xs ih =>
    rw [sumAt_cons, if_neg (h x List.mem_cons_self), zero_add]
    exact ih fun y hy => h y (List.mem_cons_of_mem _ hy)

theorem sumAt_of_mem {xs : List α} (hn : (xs.map key).Nodup) {x : α} (hx : x ∈ xs) :
    sumAt key value (key x) xs = value x := by
  obtain ⟨l, r, rfl⟩ := List.append_of_mem hx
  rw [List.map_append, List.map_cons, List.nodup_middle, List.nodup_cons] at hn
  have hne : ∀ y ∈ l ++ r, key y ≠ key x := by
    intro y hy he
    apply hn.1
    rw [← List.map_append, ← he]
    exact List.mem_map_of_mem hy
  have hl : sumAt key value (key x) l = 0 :=
    sumAt_eq_zero fun y hy => hne y (List.mem_append_left _ hy)
  have hr : sumAt key value (key x) r = 0 :=
    sumAt_eq_zero fun y hy => hne y (List.mem_append_right _ hy)
  rw [sumAt_append, sumAt_cons, hl, hr, if_pos rfl, zero_add, add_zero]

section

variable [PartialOrder ν] [IsOrderedAddMonoid ν]

theorem sumAt_nonneg {k : κ} {xs : List α} (h : ∀ x ∈ xs, 0 ≤ value x) :
    0 ≤ sumAt key value k xs := by
  apply List.sum_nonneg
  intro v hv
  obtain ⟨x, hx, rfl⟩ := List.mem_map.mp hv
  split_ifs
  · exact h x hx
  · exact le_rfl

theorem le_sumAt {xs : List α} (h : ∀ x ∈ xs, 0 ≤ value x) {x : α} (hx : x ∈ xs) :
    value x ≤ sumAt key value (key x) xs := by
  obtain ⟨l, r, rfl⟩ := List.append_of_mem hx
  have hl : 0 ≤ sumAt key value (key x) l :=
    sumAt_nonneg fun y hy => h y (List.mem_append_left _ hy)
  have hr : 0 ≤ sumAt key value (key x) r :=
    sumAt_nonneg fun y hy => h y (by simp [hy])
  rw [sumAt_append, sumAt_cons, if_pos rfl]
  calc value x ≤ value x + sumAt key value (key x) r := le_add_of_nonneg_right hr
    _ ≤ sumAt key value (key x) l + (value x + sumAt key value (key x) r) :=
        le_add_of_nonneg_left hl

theorem sumAt_pos {xs : List α} (h : ∀ x ∈ xs, 0 < value x) {x : α} (hx : x ∈ xs) :
    0 < sumAt key value (key x) xs :=
  (h x hx).trans_le (le_sumAt (fun y hy => (h y hy).le) hx)

/-- One bucket holds at most the total of larger values. -/
theorem sumAt_le_sum {k : κ} {xs : List α} {bound : α → ν}
    (h : ∀ x ∈ xs, 0 ≤ bound x ∧ value x ≤ bound x) :
    sumAt key value k xs ≤ (xs.map bound).sum := by
  apply List.sum_le_sum
  intro x hx
  split_ifs
  · exact (h x hx).2
  · exact (h x hx).1

end

/-- What the elements of `ys` find of `xs` under their keys is the part of `xs` that has a match. -/
theorem sum_sumAt {key' : β → κ} {ys : List β} (hn : (ys.map key').Nodup) (xs : List α) :
    (ys.map fun y => sumAt key value (key' y) xs).sum =
      (xs.map fun x => if ys.any (fun y => key' y = key x) then value x else 0).sum := by
  induction xs with
  | nil => simp
  | cons x xs ih =>
    have hhead : (ys.map fun y => if key x = key' y then value x else 0).sum =
        if ys.any (fun y => key' y = key x) then value x else 0 := by
      have hswap : (ys.map fun y => if key x = key' y then value x else 0).sum =
          sumAt key' (fun _ => value x) (key x) ys := by
        simp only [sumAt, eq_comm]
      rw [hswap]
      by_cases hx : ∃ y ∈ ys, key' y = key x
      · obtain ⟨y, hy, hyx⟩ := hx
        have hany : ys.any (fun y => key' y = key x) = true := by simpa using ⟨y, hy, hyx⟩
        rw [if_pos hany, ← hyx, sumAt_of_mem hn hy]
      · have hany : ¬ys.any (fun y => key' y = key x) = true := by simpa using hx
        rw [if_neg hany]
        exact sumAt_eq_zero (by simpa using hx)
    simp only [sumAt_cons, List.sum_map_add, List.map_cons, List.sum_cons, hhead, ih]

theorem sumAt_hom {μ : Type} [AddCommMonoid μ] (f : ν →+ μ) {value' : α → μ} {k : κ} {xs : List α}
    (h : ∀ x ∈ xs, key x = k → value' x = f (value x)) :
    sumAt key value' k xs = f (sumAt key value k xs) := by
  induction xs with
  | nil => simp
  | cons x xs ih =>
    rw [sumAt_cons, sumAt_cons, map_add, ih fun y hy => h y (List.mem_cons_of_mem _ hy)]
    split_ifs with hk
    · rw [h x List.mem_cons_self hk]
    · rw [map_zero]

theorem sum_buckets (S : Finset κ) {xs : List α} (hS : ∀ x ∈ xs, key x ∈ S) :
    ∑ k ∈ S, sumAt key value k xs = (xs.map value).sum := by
  induction xs with
  | nil => simp
  | cons x xs ih =>
    have hx : key x ∈ S := hS x List.mem_cons_self
    simp only [sumAt_cons, Finset.sum_add_distrib, Finset.sum_ite_eq, hx, if_true, List.map_cons,
      List.sum_cons]
    rw [ih fun y hy => hS y (List.mem_cons_of_mem _ hy)]

/-- Where one total exceeds another, one of its buckets does. -/
theorem exists_sumAt_lt [LinearOrder ν] [IsOrderedAddMonoid ν] {key' : β → κ} {value' : β → ν}
    {xs : List α} {ys : List β} (h : (xs.map value).sum < (ys.map value').sum) :
    ∃ k, sumAt key value k xs < sumAt key' value' k ys := by
  let S : Finset κ := (xs.map key ++ ys.map key').toFinset
  have hx : ∀ x ∈ xs, key x ∈ S := by
    intro x hx
    simp only [S, List.mem_toFinset, List.mem_append]
    exact .inl (List.mem_map_of_mem hx)
  have hy : ∀ y ∈ ys, key' y ∈ S := by
    intro y hy
    simp only [S, List.mem_toFinset, List.mem_append]
    exact .inr (List.mem_map_of_mem hy)
  rw [← sum_buckets S hx, ← sum_buckets S hy] at h
  obtain ⟨k, -, hk⟩ := Finset.exists_lt_of_sum_lt h
  exact ⟨k, hk⟩

end Tally
