import Mathlib.Data.List.AList
import Mathlib.Data.List.TakeWhile
import Mathlib.Tactic.Tauto

/-! Lists of records with a key. A Go loop that fills `byKey[key(x)] = x` builds an index in which
the last record of a key wins; a loop that stops at the first record of a key splits the list
there. Both pick the same record when the keys are pairwise distinct. -/

namespace Keyed

variable {κ α : Type} [DecidableEq κ] (key : α → κ)

def index (xs : List α) : AList fun _ : κ => α :=
  xs.foldl (fun m x => m.insert (key x) x) ∅

theorem lookup_foldl_insert {k : κ} {x : α} (xs : List α) (m : AList fun _ : κ => α)
    (h : (xs.foldl (fun m x => m.insert (key x) x) m).lookup k = some x) :
    m.lookup k = some x ∨ (x ∈ xs ∧ key x = k) := by
  induction xs generalizing m with
  | nil => exact .inl h
  | cons y ys ih =>
    rcases ih _ h with hm | ⟨hx, hk⟩
    · by_cases hy : k = key y
      · subst hy
        rw [AList.lookup_insert, Option.some_inj] at hm
        subst hm
        exact .inr ⟨List.mem_cons_self, rfl⟩
      · rw [AList.lookup_insert_ne hy] at hm
        exact .inl hm
    · exact .inr ⟨List.mem_cons_of_mem _ hx, hk⟩

theorem mem_foldl_insert {k : κ} (xs : List α) (m : AList fun _ : κ => α) :
    k ∈ xs.foldl (fun m x => m.insert (key x) x) m ↔ k ∈ m ∨ ∃ x ∈ xs, key x = k := by
  induction xs generalizing m with
  | nil => simp
  | cons y ys ih =>
    rw [List.foldl_cons, ih, AList.mem_insert]
    simp only [List.mem_cons, exists_eq_or_imp, eq_comm (a := k)]
    tauto

theorem mem_of_lookup_index {xs : List α} {k : κ} {x : α}
    (h : (index key xs).lookup k = some x) : x ∈ xs ∧ key x = k := by
  rcases lookup_foldl_insert key xs ∅ h with hm | hx
  · simp at hm
  · exact hx

theorem mem_index {xs : List α} {k : κ} : k ∈ index key xs ↔ ∃ x ∈ xs, key x = k := by
  simp [index, mem_foldl_insert]

theorem lookup_index_eq_none {xs : List α} {k : κ} :
    (index key xs).lookup k = none ↔ ∀ x ∈ xs, key x ≠ k := by
  rw [AList.lookup_eq_none, mem_index]
  simp

omit key in
theorem lookup_foldl_insert_values {ν : Type} (value : κ → ν) (k : κ) (ks : List κ)
    (m : AList fun _ : κ => ν) :
    (ks.foldl (fun m k => m.insert k (value k)) m).lookup k =
      if k ∈ ks then some (value k) else m.lookup k := by
  induction ks generalizing m with
  | nil => simp
  | cons j ks ih =>
    rw [List.foldl_cons, ih]
    by_cases hj : k = j
    · subst hj
      simp
    · simp [hj, AList.lookup_insert_ne hj]

variable {key}

theorem lookup_index_of_mem {xs : List α} (hn : (xs.map key).Nodup) {x : α} (hx : x ∈ xs) :
    (index key xs).lookup (key x) = some x := by
  have hk : key x ∈ index key xs := (mem_index key).mpr ⟨x, hx, rfl⟩
  obtain ⟨y, hy⟩ := Option.isSome_iff_exists.mp (AList.lookup_isSome.mpr hk)
  obtain ⟨hmem, hkey⟩ := mem_of_lookup_index key hy
  rw [hy, List.inj_on_of_nodup_map hn hmem hx hkey]

/-- The scan for the first record with the key of `x` stops at `x` itself. -/
theorem exists_split {xs : List α} (hn : (xs.map key).Nodup) {x : α} (hx : x ∈ xs) :
    ∃ l r, xs = l ++ x :: r ∧
      xs.takeWhile (fun y => key y ≠ key x) = l ∧
      xs.dropWhile (fun y => key y ≠ key x) = x :: r := by
  obtain ⟨l, r, rfl⟩ := List.append_of_mem hx
  have hl : ∀ y ∈ l, key y ≠ key x := by
    intro y hy he
    rw [List.map_append, List.map_cons] at hn
    have hdisj := List.disjoint_of_nodup_append hn (List.mem_map_of_mem hy)
    exact hdisj (he ▸ List.mem_cons_self)
  refine ⟨l, r, rfl, ?_, ?_⟩
  · rw [List.takeWhile_append_of_pos (by simpa using hl)]
    simp
  · rw [List.dropWhile_append_of_pos (by simpa using hl)]
    simp

end Keyed
