import AroHcp.Lib.Unstructured
import Mathlib.Data.List.Basic

/-! JSON objects of Go structs whose fields are left out when they are empty. -/

namespace OmitEmpty

structure StringMap where
  entries : List (String × String)
  sorted : entries.Pairwise fun a b => a.1 < b.1
deriving DecidableEq

namespace StringMap

@[ext] theorem ext {m m' : StringMap} (h : m.entries = m'.entries) : m = m' := by
  cases m
  cases m'
  congr

def empty : StringMap := ⟨[], .nil⟩

/-- The text of a map with the verb `%v`. -/
def format (m : StringMap) : String :=
  "map[" ++ " ".intercalate (m.entries.map fun e => e.1 ++ ":" ++ e.2) ++ "]"

def toJson (m : StringMap) : Json :=
  .obj (m.entries.map fun e => (e.1, .str e.2))

theorem toJson_inj {m m' : StringMap} (h : m.toJson = m'.toJson) : m = m' := by
  apply StringMap.ext
  unfold toJson at h
  rw [Json.obj.injEq] at h
  refine List.map_injective_iff.mpr ?_ h
  intro e e' he
  rw [Prod.mk.injEq, Json.str.injEq] at he
  exact Prod.ext he.1 he.2

end StringMap

/-- The members of an object that `omitempty` leaves. -/
def members (fields : List (String × Option Json)) : Json :=
  .obj (fields.filterMap fun field => field.2.map fun value => (field.1, value))

def numField (n : Int32) : Option Json :=
  if n = 0 then none else some (.num n.toInt)

def strField (s : String) : Option Json :=
  if s = "" then none else some (.str s)

def mapField (m : Option StringMap) : Option Json :=
  if m.getD .empty = .empty then none else m.map StringMap.toJson

def listField {α : Type} (toJson : α → Json) (l : List α) : Option Json :=
  if l = [] then none else some (.arr (l.map toJson))

/-! ## Objects with the same keys -/

theorem mem_keys {keys : List String} {values : List (Option Json)} {e : String × Json}
    (h : e ∈ (keys.zip values).filterMap fun field => field.2.map fun value => (field.1, value)) :
    e.1 ∈ keys := by
  obtain ⟨field, hfield, heq⟩ := List.mem_filterMap.mp h
  obtain ⟨value, -, rfl⟩ := Option.map_eq_some_iff.mp heq
  exact (List.of_mem_zip hfield).1

/-- Objects of the same keys, each once, are equal only if what their fields leave is. -/
theorem members_inj (keys : List String) {values values' : List (Option Json)} (hnodup : keys.Nodup)
    (hlength : values.length = keys.length) (hlength' : values'.length = keys.length)
    (h : members (keys.zip values) = members (keys.zip values')) : values = values' := by
  unfold members at h
  rw [Json.obj.injEq] at h
  induction keys generalizing values values' with
  | nil =>
    rw [List.length_eq_zero_iff.mp hlength, List.length_eq_zero_iff.mp hlength']
  | cons key keys ih =>
    obtain ⟨value, values, rfl⟩ := List.exists_cons_of_length_eq_add_one hlength
    obtain ⟨value', values', rfl⟩ := List.exists_cons_of_length_eq_add_one hlength'
    obtain ⟨hkey, hnodup⟩ := List.nodup_cons.mp hnodup
    have ih := @ih values values' hnodup (Nat.succ.inj hlength) (Nat.succ.inj hlength')
    rw [List.zip_cons_cons, List.zip_cons_cons, List.filterMap_cons, List.filterMap_cons] at h
    cases value with
    | none =>
      cases value' with
      | none => rw [ih h]
      | some json =>
        -- the key would come again later
        dsimp only [Option.map_none, Option.map_some] at h
        exact absurd (mem_keys (h ▸ List.mem_cons_self)) hkey
    | some json =>
      cases value' with
      | none =>
        dsimp only [Option.map_none, Option.map_some] at h
        exact absurd (mem_keys (h.symm ▸ List.mem_cons_self)) hkey
      | some json' =>
        dsimp only [Option.map_some] at h
        rw [List.cons.injEq, Prod.mk.injEq] at h
        rw [h.1.2, ih h.2]

theorem numField_inj {m n : Int32} (h : numField m = numField n) : m = n := by
  unfold numField at h
  split_ifs at h with hm hn hn
  · rw [hm, hn]
  · rw [Option.some.injEq, Json.num.injEq] at h
    exact Int32.toInt_inj.mp (Rat.intCast_inj.mp h)

theorem strField_inj {s t : String} (h : strField s = strField t) : s = t := by
  unfold strField at h
  split_ifs at h with hs ht ht
  · rw [hs, ht]
  · rwa [Option.some.injEq, Json.str.injEq] at h

theorem listField_inj {α : Type} {toJson : α → Json}
    (hinj : Function.Injective toJson) {l l' : List α}
    (h : listField toJson l = listField toJson l') : l = l' := by
  unfold listField at h
  split_ifs at h with hl hl' hl'
  · rw [hl, hl']
  · rw [Option.some.injEq, Json.arr.injEq] at h
    exact List.map_injective_iff.mpr hinj h

theorem mapField_eq_iff {m m' : Option StringMap} :
    mapField m = mapField m' ↔ m.getD .empty = m'.getD .empty := by
  have hfield : ∀ m : Option StringMap, mapField m =
      if m.getD .empty = .empty then none else some (m.getD .empty).toJson := by
    intro m
    cases m with
    | none => rfl
    | some m => rfl
  rw [hfield, hfield]
  constructor
  · intro h
    split_ifs at h with hm hm' hm'
    · rw [hm, hm']
    · rw [Option.some.injEq] at h
      exact StringMap.toJson_inj h
  · intro h
    rw [h]

end OmitEmpty
