import Mathlib.Data.Finmap

/-! Slices and maps of pointers, as generated SDK types have them. A pointer is an option. -/

namespace GoPtr

variable {κ α : Type} [DecidableEq κ]

/-- `*p`, or the default for a nil pointer. -/
def deref (p : Option α) (default : α) : α := p.getD default

/-- A map entry read without a presence check: nil where the key is missing. -/
def entry (m : Finmap fun _ : κ => Option α) (k : κ) : Option α :=
  (m.lookup k).join

/-- `for k, v := range m { r[k] = &v }` -/
def toPtrs (m : Finmap fun _ : κ => α) : Finmap fun _ : κ => Option α where
  entries := m.entries.map fun e => ⟨e.1, some e.2⟩
  nodupKeys := by
    have hkeys : (m.entries.map fun e => (⟨e.1, some e.2⟩ : Sigma fun _ : κ => Option α)).keys =
        m.entries.keys := by
      simp [Multiset.keys]
    rw [← Multiset.nodup_keys, hkeys, Multiset.nodup_keys]
    exact m.nodupKeys

def fromPtrs (m : Finmap fun _ : κ => Option α) : Finmap fun _ : κ => α where
  entries := m.entries.filterMap fun e => e.2.map fun v => ⟨e.1, v⟩
  nodupKeys := by
    obtain ⟨entries, hnodup⟩ := m
    induction entries using Quotient.inductionOn with
    | h l =>
      have hkeys : ((l.filterMap fun e : Sigma fun _ : κ => Option α =>
          e.2.map fun v => (⟨e.1, v⟩ : Sigma fun _ : κ => α)).keys).Sublist l.keys := by
        induction l with
        | nil => exact List.Sublist.slnil
        | cons e l ih =>
          have hl := ih (List.nodupKeys_cons.mp hnodup).2
          obtain ⟨k, v⟩ := e
          cases v with
          | none => exact hl.cons k
          | some v => exact hl.cons_cons k
      exact hkeys.nodup hnodup

omit [DecidableEq κ] in
theorem fromPtrs_toPtrs (m : Finmap fun _ : κ => α) : fromPtrs (toPtrs m) = m := by
  apply Finmap.ext
  change (m.entries.map _).filterMap _ = m.entries
  rw [Multiset.filterMap_map]
  exact Multiset.filterMap_some _

theorem lookup_toPtrs (m : Finmap fun _ : κ => α) (k : κ) :
    (toPtrs m).lookup k = (m.lookup k).map some := by
  cases h : m.lookup k with
  | none =>
    rw [Finmap.lookup_eq_none] at h
    rw [Option.map_none, Finmap.lookup_eq_none, ← Finmap.mem_keys]
    rw [← Finmap.mem_keys] at h
    intro hk
    apply h
    simpa [Finmap.keys, toPtrs, Multiset.keys] using hk
  | some v =>
    rw [Option.map_some, Finmap.lookup_eq_some_iff]
    rw [Finmap.lookup_eq_some_iff] at h
    exact Multiset.mem_map.mpr ⟨⟨k, v⟩, h, rfl⟩

theorem entry_toPtrs (m : Finmap fun _ : κ => α) (k : κ) : entry (toPtrs m) k = m.lookup k := by
  rw [entry, lookup_toPtrs]
  cases m.lookup k <;> rfl

theorem filterMap_map_some (xs : List α) : (xs.map some).filterMap id = xs := by
  rw [List.filterMap_map]
  exact List.filterMap_some

end GoPtr
