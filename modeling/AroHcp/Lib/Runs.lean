import Mathlib.Logic.Relation
import Mathlib.Order.WellFounded

/-! Runs of a transition relation: the invariant rule and the rule for a decreasing measure. -/

namespace Runs

open Relation

variable {σ : Type} {step : σ → σ → Prop} {P : σ → Prop}

/-- What holds initially and is kept by every step holds in every state reached. -/
theorem invariant {a b : σ} (hrun : ReflTransGen step a b) (ha : P a)
    (hstep : ∀ a b, P a → step a b → P b) : P b := by
  induction hrun with
  | refl => exact ha
  | tail _ h ih => exact hstep _ _ ih h

variable {μ : σ → ℕ} (hstep : ∀ a b, P a → step a b → P b)
  (hμ : ∀ a b, P a → step a b → μ b < μ a)

include hstep hμ

theorem measure_lt {a b : σ} (hrun : TransGen step a b) (ha : P a) : μ b < μ a := by
  induction hrun with
  | single h => exact hμ _ _ ha h
  | tail hrun h ih =>
    have hb := invariant hrun.to_reflTransGen ha hstep
    exact (hμ _ _ hb h).trans ih

/-- A run along which a measure decreases ends in a state without a step. -/
theorem exists_final (a : σ) (ha : P a) : ∃ b, ReflTransGen step a b ∧ ∀ c, ¬step b c := by
  induction hn : μ a using Nat.strong_induction_on generalizing a with
  | _ n ih =>
    by_cases h : ∃ b, step a b
    · obtain ⟨b, hab⟩ := h
      obtain ⟨c, hbc, hfinal⟩ := ih (μ b) (hn ▸ hμ a b ha hab) b (hstep a b ha hab) rfl
      exact ⟨c, .head hab hbc, hfinal⟩
    · exact ⟨a, .refl, not_exists.mp h⟩

/-- A run along which a measure decreases never comes back to a state. -/
theorem ne_of_transGen {a b : σ} (hrun : TransGen step a b) (ha : P a) : b ≠ a := by
  intro h
  exact (measure_lt hstep hμ hrun ha).ne (by rw [h])

theorem not_infinite {a : σ} (ha : P a) :
    ¬∃ f : ℕ → σ, f 0 = a ∧ ∀ n, step (f n) (f (n + 1)) := by
  rintro ⟨f, h0, hf⟩
  have hP : ∀ n, P (f n) := by
    intro n
    induction n with
    | zero => exact h0 ▸ ha
    | succ n ih => exact hstep _ _ ih (hf n)
  have hdec : ∀ n, μ (f n) + n ≤ μ a := by
    intro n
    induction n with
    | zero => simp [h0]
    | succ n ih =>
      have := hμ _ _ (hP n) (hf n)
      omega
  have := hdec (μ a + 1)
  omega

omit hstep hμ in
inductive Steps (step : σ → σ → Prop) : ℕ → σ → σ → Prop
  | refl (a : σ) : Steps step 0 a a
  | head {n : ℕ} {a b c : σ} (h : step a b) (hrun : Steps step n b c) : Steps step (n + 1) a c

omit hstep hμ in
theorem Steps.reflTransGen {n : ℕ} {a b : σ} (h : Steps step n a b) : ReflTransGen step a b := by
  induction h with
  | refl a => exact .refl
  | head h _ ih => exact .head h ih

theorem Steps.length_le {n : ℕ} {a b : σ} (h : Steps step n a b) (ha : P a) : n + μ b ≤ μ a := by
  induction h with
  | refl a => simp
  | head h _ ih =>
    have hlt := hμ _ _ ha h
    have hle := ih (hstep _ _ ha h)
    omega

end Runs
