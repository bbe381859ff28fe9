import Mathlib.Data.List.Sort

/-! Rules with priorities: of the rules that match, the one with the lowest number decides. -/

namespace DecisionList

variable {ρ : Type*}

/-- A rule that accepts matches, and no rule that matches comes before it. -/
def Accepts (priority : ρ → Int) (accepts : ρ → Bool) (applies : ρ → Prop) (rules : List ρ) : Prop :=
  ∃ r ∈ rules, applies r ∧ accepts r = true ∧ ∀ r' ∈ rules, applies r' → priority r ≤ priority r'

/-- Of the rules in their order, the first that matches decides. -/
def FirstAccepts (accepts : ρ → Bool) (applies : ρ → Prop) : List ρ → Prop
  | [] => False
  | r :: rules => applies r ∧ accepts r = true ∨ ¬applies r ∧ FirstAccepts accepts applies rules

variable {priority : ρ → Int} {accepts : ρ → Bool} {applies : ρ → Prop}

variable {rules : List ρ}

theorem firstAccepts_cons_of_not_applies {r : ρ} (h : ¬applies r) :
    FirstAccepts accepts applies (r :: rules) ↔ FirstAccepts accepts applies rules := by
  simp only [FirstAccepts, h, false_and, not_false_eq_true, true_and, false_or]

theorem firstAccepts_cons_of_accepts {r : ρ} (h : accepts r = true) :
    FirstAccepts accepts applies (r :: rules) ↔ applies r ∨ FirstAccepts accepts applies rules := by
  rw [FirstAccepts]
  tauto

theorem not_firstAccepts_cons {r : ρ} (happlies : applies r) (h : accepts r = false) :
    ¬FirstAccepts accepts applies (r :: rules) := by
  simp only [FirstAccepts, happlies, h, Bool.false_eq_true, and_false, not_true_eq_false, false_and,
    or_false, not_false_eq_true]

theorem accepts_congr {applies' : ρ → Prop} (h : ∀ r ∈ rules, applies r ↔ applies' r) :
    Accepts priority accepts applies rules ↔ Accepts priority accepts applies' rules := by
  refine exists_congr fun r => and_congr_right fun hr => ?_
  refine and_congr (h r hr) (and_congr_right fun _ => forall₂_congr fun r' hr' => ?_)
  rw [h r' hr']

theorem accepts_perm {rules' : List ρ} (h : rules.Perm rules') :
    Accepts priority accepts applies rules ↔ Accepts priority accepts applies rules' := by
  unfold Accepts
  simp only [h.mem_iff]

/-- In strictly ascending order, the lowest number is the first match. -/
theorem accepts_iff_firstAccepts (h : rules.Pairwise fun a b => priority a < priority b) :
    Accepts priority accepts applies rules ↔ FirstAccepts accepts applies rules := by
  induction rules with
  | nil => simp [Accepts, FirstAccepts]
  | cons r rules ih =>
    obtain ⟨hfirst, hrest⟩ := List.pairwise_cons.mp h
    rw [FirstAccepts, ← ih hrest]
    constructor
    · rintro ⟨s, hs, happlies, haccepts, hlowest⟩
      by_cases hr : applies r
      · refine .inl ⟨hr, ?_⟩
        rcases List.mem_cons.mp hs with rfl | hs
        · exact haccepts
        · have := hlowest r List.mem_cons_self hr
          have := hfirst s hs
          omega
      · refine .inr ⟨hr, s, ?_, happlies, haccepts, ?_⟩
        · rcases List.mem_cons.mp hs with rfl | hs
          · exact absurd happlies hr
          · exact hs
        · intro t ht
          exact hlowest t (List.mem_cons_of_mem _ ht)
    · rintro (⟨hr, haccepts⟩ | ⟨hr, s, hs, happlies, haccepts, hlowest⟩)
      · refine ⟨r, List.mem_cons_self, hr, haccepts, ?_⟩
        intro t ht _
        rcases List.mem_cons.mp ht with rfl | ht
        · exact le_refl _
        · exact (hfirst t ht).le
      · refine ⟨s, List.mem_cons_of_mem _ hs, happlies, haccepts, ?_⟩
        intro t ht happlies'
        rcases List.mem_cons.mp ht with rfl | ht
        · exact absurd happlies' hr
        · exact hlowest t ht happlies'

/-- Sorting by priorities that are all different gives a strictly ascending order. -/
theorem pairwise_lt_insertionSort (h : (rules.map priority).Nodup) :
    (rules.insertionSort fun a b => priority a ≤ priority b).Pairwise
      fun a b => priority a < priority b := by
  have : IsTrans ρ fun a b => priority a ≤ priority b := ⟨fun _ _ _ => le_trans⟩
  have hsorted := List.pairwise_insertionSort (fun a b => priority a ≤ priority b) rules
  have hperm := List.perm_insertionSort (fun a b => priority a ≤ priority b) rules
  have hne : (rules.insertionSort fun a b => priority a ≤ priority b).Pairwise
      fun a b => priority a ≠ priority b :=
    List.pairwise_map.mp ((hperm.map priority).nodup_iff.mpr h)
  exact (hsorted.and hne).imp fun hab => lt_of_le_of_ne hab.1 hab.2

/-- With different priorities, the sorted rules decide by the first match. -/
theorem accepts_iff_sorted (h : (rules.map priority).Nodup) :
    Accepts priority accepts applies rules ↔
      FirstAccepts accepts applies (rules.insertionSort fun a b => priority a ≤ priority b) := by
  rw [← accepts_iff_firstAccepts (pairwise_lt_insertionSort h)]
  exact (accepts_perm (List.perm_insertionSort _ rules)).symm

end DecisionList
