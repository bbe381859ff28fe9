import Mathlib.Data.List.Basic

/-! Status conditions as `meta.SetStatusCondition` keeps them: one for each type. The time of the
last transition is left out. -/

namespace Conditions

variable {κ : Type} [DecidableEq κ]

structure Condition (κ : Type) where
  type : κ
  status : Bool
  reason : String
  message : String
deriving DecidableEq, Repr

def isStatusConditionTrue (conditions : List (Condition κ)) (type : κ) : Bool :=
  (conditions.find? (·.type = type)).any (·.status)

def setStatusCondition (new : Condition κ) : List (Condition κ) → List (Condition κ)
  | [] => [new]
  | c :: rest => if c.type = new.type then new :: rest else c :: setStatusCondition new rest

theorem isStatusConditionTrue_set (new : Condition κ) (conditions : List (Condition κ)) (type : κ) :
    isStatusConditionTrue (setStatusCondition new conditions) type =
      if new.type = type then new.status else isStatusConditionTrue conditions type := by
  induction conditions with
  | nil =>
    unfold setStatusCondition isStatusConditionTrue
    by_cases h : new.type = type <;> simp [h]
  | cons c rest ih =>
    unfold isStatusConditionTrue at ih ⊢
    unfold setStatusCondition
    by_cases hc : c.type = new.type
    · by_cases h : new.type = type <;> simp [hc, h]
    · rw [if_neg hc]
      by_cases h : c.type = type
      · have hnew : new.type ≠ type := fun heq => hc (h.trans heq.symm)
        simp [h, hnew]
      · simp [h, ih]

end Conditions
