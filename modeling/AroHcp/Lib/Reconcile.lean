import Mathlib.Logic.Function.Iterate

/-! A controller that compares what a remote system has with what is desired, and sends a patch when
they differ. -/

namespace Reconcile

variable {σ : Type} (inSync : σ → Bool) (patch : σ → σ)

/-- One pass of the controller. -/
def sync (s : σ) : σ :=
  if inSync s then s else patch s

/-- The patches that are sent in a number of passes. -/
def patches : Nat → σ → Nat
  | 0, _ => 0
  | n + 1, s => (if inSync s then 0 else 1) + patches n (sync inSync patch s)

variable {inSync patch} {s : σ}

theorem sync_of_inSync (h : inSync s = true) : sync inSync patch s = s :=
  if_pos h

theorem sync_of_not_inSync (h : ¬inSync s = true) : sync inSync patch s = patch s :=
  if_neg h

theorem patches_of_inSync (h : inSync s = true) (n : Nat) : patches inSync patch n s = 0 := by
  induction n with
  | zero => rfl
  | succ n ih => rw [patches, if_pos h, sync_of_inSync h, ih]

/-- If the patch gives what is desired, it is sent once at most. -/
theorem patches_le_one (h : inSync (patch s) = true) (n : Nat) : patches inSync patch n s ≤ 1 := by
  cases n with
  | zero => exact Nat.zero_le 1
  | succ n =>
    rw [patches]
    by_cases hs : inSync s = true
    · rewrite [if_pos hs, sync_of_inSync hs, patches_of_inSync hs]
      omega
    · rewrite [if_neg hs, sync_of_not_inSync hs, patches_of_inSync h]
      omega

/-- If the patch changes nothing when it is repeated and does not give what is desired, it is sent
in every pass. -/
theorem patches_of_stuck (hidem : patch (patch s) = patch s) (hs : ¬inSync s = true)
    (h : ¬inSync (patch s) = true) (n : Nat) : patches inSync patch n s = n := by
  have hpatched : ∀ n, patches inSync patch n (patch s) = n := by
    intro n
    induction n with
    | zero => rfl
    | succ n ih =>
      rewrite [patches, if_neg h, sync_of_not_inSync h, hidem, ih]
      omega
  cases n with
  | zero => rfl
  | succ n =>
    rewrite [patches, if_neg hs, sync_of_not_inSync hs, hpatched]
    omega

end Reconcile
