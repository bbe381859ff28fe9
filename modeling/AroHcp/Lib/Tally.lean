import Mathlib.Data.List.AList
import Mathlib.Algebra.BigOperators.Group.List.Basic
import Mathlib.Tactic.Abel

/-! Per-key totals. A Go loop of the form `m[key(x)] += value(x)` builds a finite map whose keys
are the keys that occur and whose values are the totals of each key. -/

namespace Tally

variable {κ ν α : Type} [DecidableEq κ]

/-- A Go map read: the zero value stands for a missing key. -/
def valueAt [Zero ν] (m : AList fun _ : κ => ν) (k : κ) : ν :=
  (m.lookup k).getD 0

/-- `for k, v := range m { out[k] = g(k, v) }` -/
def mapEntries {ν' : Type} (g : κ → ν → ν') (m : AList fun _ : κ => ν) : AList fun _ : κ => ν' where
  entries := m.entries.map fun e => ⟨e.1, g e.1 e.2⟩
  nodupKeys := by
    have hkeys : (m.entries.map fun e => (⟨e.1, g e.1 e.2⟩ : Sigma fun _ : κ => ν')).keys =
        m.entries.keys := by
      simp [List.keys, Function.comp_def]
    have hm : m.entries.keys.Nodup := m.nodupKeys
    change List.Nodup _
    rw [hkeys]
    exact hm

theorem lookup_mapEntries {ν' : Type} (g : κ → ν → ν') (m : AList fun _ : κ => ν) (k : κ) :
    (mapEntries g m).lookup k = (m.lookup k).map (g k) :=
  List.dlookup_map₂ (l := m.entries) (f := g) k

theorem mem_mapEntries {ν' : Type} (g : κ → ν → ν') (m : AList fun _ : κ => ν) (k : κ) :
    k ∈ mapEntries g m ↔ k ∈ m := by
  rw [← AList.lookup_isSome, ← AList.lookup_isSome, lookup_mapEntries, Option.isSome_map]

theorem valueAt_mapEntries {ν' : Type} [Zero ν] [Zero ν'] (g : ν → ν') (h0 : g 0 = 0)
    (m : AList fun _ : κ => ν) (k : κ) : valueAt (mapEntries (fun _ => g) m) k = g (valueAt m k) := by
  unfold valueAt
  rw [lookup_mapEntries]
  cases m.lookup k with
  | none => exact h0.symm
  | some v => rfl

theorem kerase_map {ν' : Type} (g : κ → ν → ν') (k : κ) (l : List (Sigma fun _ : κ => ν)) :
    (l.map fun e => (⟨e.1, g e.1 e.2⟩ : Sigma fun _ : κ => ν')).kerase k =
      (l.kerase k).map fun e => ⟨e.1, g e.1 e.2⟩ := by
  induction l with
  | nil => rfl
  | cons e l ih =>
    obtain ⟨k', v⟩ := e
    by_cases he : k = k'
    · simp [he]
    · simp [he, ih]

theorem mapEntries_insert {ν' : Type} (g : κ → ν → ν') (m : AList fun _ : κ => ν) (k : κ) (v : ν) :
    mapEntries g (m.insert k v) = (mapEntries g m).insert k (g k v) := by
  apply AList.ext
  rw [AList.entries_insert]
  simp [mapEntries, AList.entries_insert, kerase_map]

section

variable [AddMonoid ν]

def addAt (m : AList fun _ : κ => ν) (k : κ) (v : ν) : AList fun _ : κ => ν :=
  m.insert k (valueAt m k + v)

/-- The total of `value` over the elements of `xs` with key `k`. -/
def sumAt (key : α → κ) (value : α → ν) (k : κ) (xs : List α) : ν :=
  (xs.map fun x => if key x = k then value x else 0).sum

def tally (key : α → κ) (value : α → ν) (xs : List α) : AList fun _ : κ => ν :=
  xs.foldl (fun m x => addAt m (key x) (value x)) ∅

variable (key : α → κ) (value : α → ν) (k : κ)

@[simp]
theorem sumAt_nil : sumAt key value k [] = 0 := rfl

@[simp]
theorem sumAt_cons (x : α) (xs : List α) :
    sumAt key value k (x :: xs) = (if key x = k then value x else 0) + sumAt key value k xs := by
  simp [sumAt]

@[simp]
theorem sumAt_append (xs ys : List α) :
    sumAt key value k (xs ++ ys) = sumAt key value k xs + sumAt key value k ys := by
  simp [sumAt]

theorem sumAt_map {β : Type} (f : β → α) (xs : List β) :
    sumAt key value k (xs.map f) = sumAt (fun x => key (f x)) (fun x => value (f x)) k xs := by
  simp [sumAt, Function.comp_def]

theorem valueAt_addAt (m : AList fun _ : κ => ν) (k' : κ) (v : ν) :
    valueAt (addAt m k' v) k = valueAt m k + if k' = k then v else 0 := by
  by_cases h : k' = k
  · subst h
    simp [valueAt, addAt]
  · simp [valueAt, addAt, AList.lookup_insert_ne (Ne.symm h), h]

theorem mem_addAt (m : AList fun _ : κ => ν) (k' : κ) (v : ν) :
    k ∈ addAt m k' v ↔ k = k' ∨ k ∈ m := by
  simp [addAt]

theorem valueAt_foldl_addAt (xs : List α) (m : AList fun _ : κ => ν) :
    valueAt (xs.foldl (fun m x => addAt m (key x) (value x)) m) k =
      valueAt m k + sumAt key value k xs := by
  induction xs generalizing m with
  | nil => simp
  | cons x xs ih => rw [List.foldl_cons, ih, valueAt_addAt, sumAt_cons, add_assoc]

theorem mem_foldl_addAt (xs : List α) (m : AList fun _ : κ => ν) :
    k ∈ xs.foldl (fun m x => addAt m (key x) (value x)) m ↔ k ∈ m ∨ ∃ x ∈ xs, key x = k := by
  induction xs generalizing m with
  | nil => simp
  | cons x xs ih =>
    rw [List.foldl_cons, ih, mem_addAt]
    simp only [List.mem_cons, exists_eq_or_imp, eq_comm (a := k)]
    tauto

theorem valueAt_tally (xs : List α) : valueAt (tally key value xs) k = sumAt key value k xs := by
  rw [tally, valueAt_foldl_addAt]
  simp [valueAt]

theorem mem_tally (xs : List α) : k ∈ tally key value xs ↔ ∃ x ∈ xs, key x = k := by
  simp [tally, mem_foldl_addAt]

end

theorem lookup_eq_some_valueAt [Zero ν] {m : AList fun _ : κ => ν} {k : κ} (h : k ∈ m) :
    m.lookup k = some (valueAt m k) := by
  obtain ⟨v, hv⟩ := Option.isSome_iff_exists.mp (AList.lookup_isSome.mpr h)
  simp [valueAt, hv]

def total [AddMonoid ν] (m : AList fun _ : κ => ν) : ν :=
  (m.entries.map Sigma.snd).sum

theorem total_addAt [AddCommMonoid ν] (m : AList fun _ : κ => ν) (k : κ) (v : ν) :
    total (addAt m k v) = total m + v := by
  have hinsert : total (addAt m k v) =
      valueAt m k + v + ((m.entries.kerase k).map Sigma.snd).sum := by
    rw [total, addAt, AList.entries_insert, List.map_cons, List.sum_cons]
  by_cases hk : k ∈ m
  · obtain ⟨b, l, r, -, hentries, herase⟩ := List.exists_of_kerase (AList.mem_keys.mp hk)
    have hlookup : m.lookup k = some b := AList.mem_lookup_iff.mpr (by simp [hentries])
    rw [hinsert, herase, total, hentries, valueAt, hlookup]
    simp only [Option.getD_some, List.map_append, List.map_cons, List.sum_append, List.sum_cons]
    abel
  · have hlookup : m.lookup k = none := AList.lookup_eq_none.mpr hk
    rw [hinsert, List.kerase_of_notMem_keys hk, total, valueAt, hlookup, Option.getD_none, zero_add,
      add_comm]

end Tally
