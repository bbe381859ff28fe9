import AroHcp.Lib.GoStrings

/-! Kubernetes objects as trees of JSON values, with the accessors of `unstructured`, which tell a
field that is missing from one that has the wrong type. -/

/-- A JSON value. An object lists its members in the order of their keys, so that equal values are
equal as Go maps. -/
inductive Json where
  | null
  | bool (b : Bool)
  | num (n : Rat)
  | str (s : String)
  | arr (items : List Json)
  | obj (members : List (String × Json))

namespace Json

mutual

def beq : Json → Json → Bool
  | null, null => true
  | bool b, bool b' => b = b'
  | num n, num n' => n = n'
  | str s, str s' => s = s'
  | arr items, arr items' => beqItems items items'
  | obj members, obj members' => beqMembers members members'
  | _, _ => false

def beqItems : List Json → List Json → Bool
  | [], [] => true
  | x :: items, y :: items' => beq x y && beqItems items items'
  | _, _ => false

def beqMembers : List (String × Json) → List (String × Json) → Bool
  | [], [] => true
  | (k, x) :: members, (k', y) :: members' => k = k' && beq x y && beqMembers members members'
  | _, _ => false

end

mutual

theorem beq_iff (x y : Json) : beq x y = true ↔ x = y := by
  cases x <;> cases y <;> simp [beq, beqItems_iff, beqMembers_iff]

theorem beqItems_iff (xs ys : List Json) : beqItems xs ys = true ↔ xs = ys := by
  cases xs <;> cases ys <;> simp [beqItems, beq_iff, beqItems_iff]

theorem beqMembers_iff (xs ys : List (String × Json)) : beqMembers xs ys = true ↔ xs = ys := by
  match xs, ys with
  | [], [] => simp [beqMembers]
  | [], _ :: _ => simp [beqMembers]
  | _ :: _, [] => simp [beqMembers]
  | (k, x) :: xs, (k', y) :: ys =>
    simp [beqMembers, beq_iff x y, beqMembers_iff xs ys, and_assoc]

end

instance : DecidableEq Json := fun x y => decidable_of_iff _ (beq_iff x y)

/-- `m[key]` of a value that should be a map. -/
def member (key : String) : Json → Option Json
  | obj members => members.lookup key
  | _ => none

end Json

namespace Unstructured

/-- What is found at a path: nothing, a value of another type than expected, or a value. -/
inductive Lookup (α : Type)
  | missing
  | malformed
  | found (a : α)

namespace Lookup

variable {α β : Type}

def bind : Lookup α → (α → Lookup β) → Lookup β
  | missing, _ => missing
  | malformed, _ => malformed
  | found a, f => f a

/-- The value if there is one, as the accessors that drop the error return it. -/
def toOption : Lookup α → Option α
  | found a => some a
  | _ => none

end Lookup

def nestedField : Json → List String → Lookup Json
  | v, [] => .found v
  | .null, _ :: _ => .missing
  | .obj members, field :: path =>
    match members.lookup field with
    | some v => nestedField v path
    | none => .missing
  | _, _ :: _ => .malformed

theorem nestedField_append (v : Json) (path rest : List String) :
    nestedField v (path ++ rest) = (nestedField v path).bind fun u => nestedField u rest := by
  induction path generalizing v with
  | nil => rfl
  | cons field path ih =>
    cases v with
    | obj members =>
      rw [List.cons_append, nestedField, nestedField]
      cases members.lookup field with
      | none => rfl
      | some u => exact ih u
    | _ => rfl

def asString : Json → Lookup String
  | .str s => .found s
  | _ => .malformed

def asSlice : Json → Lookup (List Json)
  | .arr items => .found items
  | _ => .malformed

def asMap : Json → Lookup (List (String × Json))
  | .obj members => .found members
  | _ => .malformed

def asStrings (items : List Json) : Lookup (List String) :=
  match items.mapM fun v => (asString v).toOption with
  | some strings => .found strings
  | none => .malformed

def asStringMap (members : List (String × Json)) : Lookup (List (String × String)) :=
  match members.mapM fun (k, v) => (asString v).toOption.map (k, ·) with
  | some strings => .found strings
  | none => .malformed

def nestedString (v : Json) (path : List String) : Lookup String :=
  (nestedField v path).bind asString

def nestedSlice (v : Json) (path : List String) : Lookup (List Json) :=
  (nestedField v path).bind asSlice

def nestedStringSlice (v : Json) (path : List String) : Lookup (List String) :=
  (nestedSlice v path).bind asStrings

def nestedMap (v : Json) (path : List String) : Lookup (List (String × Json)) :=
  (nestedField v path).bind asMap

def nestedStringMap (v : Json) (path : List String) : Lookup (List (String × String)) :=
  (nestedMap v path).bind asStringMap

def stringOrEmpty (v : Json) (path : List String) : String :=
  (nestedString v path).toOption.getD ""

def getName (v : Json) : String := stringOrEmpty v ["metadata", "name"]

def getNamespace (v : Json) : String := stringOrEmpty v ["metadata", "namespace"]

def getUID (v : Json) : String := stringOrEmpty v ["metadata", "uid"]

def getResourceVersion (v : Json) : String := stringOrEmpty v ["metadata", "resourceVersion"]

def getKind (v : Json) : String := stringOrEmpty v ["kind"]

def getGeneration (v : Json) : Int :=
  match nestedField v ["metadata", "generation"] with
  | .found (.num n) => if n.den = 1 then n.num else 0
  | _ => 0

def getLabels (v : Json) : List (String × String) :=
  (nestedStringMap v ["metadata", "labels"]).toOption.getD []

def getLabel (v : Json) (key : String) : String :=
  ((getLabels v).lookup key).getD ""

def getAnnotations (v : Json) : List (String × String) :=
  (nestedStringMap v ["metadata", "annotations"]).toOption.getD []

def getFinalizers (v : Json) : List String :=
  (nestedStringSlice v ["metadata", "finalizers"]).toOption.getD []

def hasLabel (v : Json) (key : String) : Bool :=
  ((getLabels v).lookup key).isSome

structure OwnerReference where
  kind : String
  name : String
  uid : String
deriving DecidableEq

def extractOwnerReference (v : Json) : Option OwnerReference :=
  match v with
  | .obj _ => some ⟨stringOrEmpty v ["kind"], stringOrEmpty v ["name"], stringOrEmpty v ["uid"]⟩
  | _ => none

/-- One entry of another type than expected makes the whole list empty. -/
def getOwnerReferences (v : Json) : List OwnerReference :=
  match nestedField v ["metadata", "ownerReferences"] with
  | .found (.arr items) => (items.mapM extractOwnerReference).getD []
  | _ => []

/-! ## Setting fields -/

def insertMember (key : String) (v : Json) : List (String × Json) → List (String × Json)
  | [] => [(key, v)]
  | (k, u) :: rest =>
    if key = k then (key, v) :: rest
    else if key < k then (key, v) :: (k, u) :: rest
    else (k, u) :: insertMember key v rest

/-- `delete(m, key)` -/
def removeMember (key : String) (members : List (String × Json)) : List (String × Json) :=
  members.filter (·.1 ≠ key)

def setNestedFieldFrom (passed : List String) : List String → Json → List (String × Json) →
    Except String (List (String × Json))
  | [], _, members => .ok members
  | [field], v, members => .ok (insertMember field v members)
  | field :: rest, v, members =>
    match members.lookup field with
    | none => (setNestedFieldFrom (passed ++ [field]) rest v []).map fun inner =>
      insertMember field (.obj inner) members
    | some (.obj inner) => (setNestedFieldFrom (passed ++ [field]) rest v inner).map fun inner =>
      insertMember field (.obj inner) members
    | some _ => .error ("value cannot be set because ." ++ ".".intercalate (passed ++ [field]) ++
      " is not a map[string]interface\x7b\x7d")

def setNestedField (v : Json) (value : Json) (path : List String) : Except String Json :=
  match v with
  | .obj members => (setNestedFieldFrom [] path value members).map .obj
  | v => .ok v

def setAnnotations (v : Json) (annotations : List (String × String)) : Json :=
  match setNestedField v (.obj (annotations.map fun (k, s) => (k, .str s)))
    ["metadata", "annotations"] with
  | .ok v' => v'
  | .error _ => v

end Unstructured
