import AroHcp.Lib.Runs
import Mathlib.Logic.Function.Basic

/-! Items and the jobs that work on them. An item names its active job and mirrors the status of
that job; a job that has reached a final status never changes again. -/

variable {Job Item Status : Type}

structure JobRegistry (Job Item Status : Type) where
  job : Job → Option (Item × Status)
  item : Item → Option (Option Job × Status)

namespace JobRegistry

open Relation

variable {final : Status → Bool} {R R' : JobRegistry Job Item Status} {i : Item} {j : Job}
  {status : Status}

structure Consistent (final : Status → Bool) (R : JobRegistry Job Item Status) : Prop where
  active : ∀ j i status, R.job j = some (i, status) → final status = false →
    R.item i = some (some j, status)
  idle : ∀ i status, R.item i = some (none, status) → final status = true
  owned : ∀ i j status, R.item i = some (some j, status) →
    R.job j = some (i, status) ∧ final status = false

structure Starts [DecidableEq Item] (final : Status → Bool) (i : Item) (j : Job) (status : Status)
    (R R' : JobRegistry Job Item Status) : Prop where
  fresh : R.job j = none
  running : final status = false
  job : R'.job j = some (i, status)
  others : ∀ k, k ≠ j →
    R'.job k = R.job k ∧ (∀ old, R.job k = some (i, old) → final old = true) ∨
      ∃ old new, R.job k = some (i, old) ∧ final old = false ∧ R'.job k = some (i, new) ∧
        final new = true
  item : R'.item = Function.update R.item i (some (some j, status))

structure Ends (final : Status → Bool) (i : Item) (R R' : JobRegistry Job Item Status) : Prop where
  jobs : ∀ k, R'.job k = R.job k ∨
    ∃ old new, R.job k = some (i, old) ∧ final old = false ∧ R'.job k = some (i, new) ∧
      final new = true
  item : R'.item = R.item

structure Advances [DecidableEq Item] [DecidableEq Job] (final : Status → Bool) (i : Item) (j : Job)
    (status : Status) (R R' : JobRegistry Job Item Status) : Prop where
  running : ∃ old, R.job j = some (i, old) ∧ final old = false
  job : R'.job = Function.update R.job j (some (i, status))
  item : R'.item = Function.update R.item i
    (some (if final status then none else some j, status))

theorem Ends.refl (R : JobRegistry Job Item Status) : Ends final i R R :=
  ⟨fun _ => .inl rfl, rfl⟩

theorem Ends.trans {R'' : JobRegistry Job Item Status} (h : Ends final i R R')
    (h' : Ends final i R' R'') : Ends final i R R'' where
  jobs k := by
    rcases h.jobs k with hsame | ⟨old, new, hold, hrunning, hnew, hfinal⟩
    · rw [← hsame]
      exact h'.jobs k
    · right
      rcases h'.jobs k with hsame' | ⟨_, new', _, _, hnew', hfinal'⟩
      · exact ⟨old, new, hold, hrunning, hsame' ▸ hnew, hfinal⟩
      · exact ⟨old, new', hold, hrunning, hnew', hfinal'⟩
  item := h'.item.trans h.item

/-- A job that is still running after the end of some jobs has not been touched. -/
theorem Ends.job_of_running (h : Ends final i R R') {k : Job} {i' : Item} {old : Status}
    (hk : R'.job k = some (i', old)) (hrunning : final old = false) : R.job k = some (i', old) := by
  rcases h.jobs k with hsame | ⟨_, new, _, _, hnew, hfinal⟩
  · rw [← hsame, hk]
  · rw [hk, Option.some.injEq, Prod.mk.injEq] at hnew
    rw [← hnew.2, hrunning] at hfinal
    cases hfinal

variable [DecidableEq Item]

/-- Jobs may be ended before the new job starts. -/
theorem Starts.of_ends {R1 : JobRegistry Job Item Status} (hends : Ends final i R R1)
    (h : Starts final i j status R1 R') : Starts final i j status R R' where
  fresh := by
    rcases hends.jobs j with hsame | ⟨_, new, _, _, hnew, _⟩
    · rw [← hsame, h.fresh]
    · rw [h.fresh] at hnew
      cases hnew
  running := h.running
  job := h.job
  others k hk := by
    rcases h.others k hk with ⟨hsame, hfinal⟩ | ⟨old, new, hold, hrunning, hnew⟩
    · rcases hends.jobs k with hsame1 | ⟨old, new, hold, hrunning, hnew, hfinal1⟩
      · exact .inl ⟨hsame.trans hsame1, fun old hold => hfinal old (hsame1 ▸ hold)⟩
      · exact .inr ⟨old, new, hold, hrunning, hsame ▸ hnew, hfinal1⟩
    · exact .inr ⟨old, new, hends.job_of_running hold hrunning, hrunning, hnew⟩
  item := by rw [h.item, hends.item]

theorem Starts.consistent (h : Starts final i j status R R') (hR : Consistent final R) :
    Consistent final R' where
  active k i' status' hk hrunning := by
    rw [h.item]
    by_cases hkj : k = j
    · rw [hkj, h.job, Option.some.injEq, Prod.mk.injEq] at hk
      obtain ⟨rfl, rfl⟩ := hk
      rw [hkj, Function.update_self]
    · rcases h.others k hkj with ⟨hsame, hfinal⟩ | ⟨old, new, hold, -, hnew, hfinal⟩
      · rw [hsame] at hk
        have hother : i' ≠ i := by
          rintro rfl
          rw [hfinal status' hk] at hrunning
          cases hrunning
        rw [Function.update_of_ne hother]
        exact hR.active k i' status' hk hrunning
      · rw [hnew, Option.some.injEq, Prod.mk.injEq] at hk
        rw [← hk.2, hfinal] at hrunning
        cases hrunning
  idle i' status' hi := by
    rw [h.item] at hi
    by_cases hii : i' = i
    · rw [hii, Function.update_self] at hi
      cases hi
    · rw [Function.update_of_ne hii] at hi
      exact hR.idle i' status' hi
  owned i' k status' hi := by
    rw [h.item] at hi
    by_cases hii : i' = i
    · rw [hii, Function.update_self] at hi
      cases hi
      exact ⟨hii ▸ h.job, h.running⟩
    · rw [Function.update_of_ne hii] at hi
      obtain ⟨hk, hrunning⟩ := hR.owned i' k status' hi
      refine ⟨?_, hrunning⟩
      have hkj : k ≠ j := by
        rintro rfl
        rw [h.fresh] at hk
        cases hk
      rcases h.others k hkj with ⟨hsame, -⟩ | ⟨old, -, hold, -⟩
      · rw [hsame, hk]
      · rw [hk, Option.some.injEq, Prod.mk.injEq] at hold
        exact absurd hold.1 hii

theorem Advances.consistent [DecidableEq Job] (h : Advances final i j status R R')
    (hR : Consistent final R) : Consistent final R' := by
  obtain ⟨old, hold, hrunning⟩ := h.running
  have hitem := hR.active j i old hold hrunning
  refine ⟨?_, ?_, ?_⟩
  · intro k i' status' hk hnonfinal
    rw [h.job] at hk
    rw [h.item]
    by_cases hkj : k = j
    · subst hkj
      rw [Function.update_self] at hk
      cases hk
      rw [Function.update_self, hnonfinal]
      rfl
    · rw [Function.update_of_ne hkj] at hk
      have hi := hR.active k i' status' hk hnonfinal
      have hother : i' ≠ i := by
        rintro rfl
        rw [hitem] at hi
        cases hi
        exact hkj rfl
      rw [Function.update_of_ne hother]
      exact hi
  · intro i' status' hi
    rw [h.item] at hi
    by_cases hii : i' = i
    · rw [hii, Function.update_self] at hi
      cases hfinal : final status with
      | false => simp [hfinal] at hi
      | true =>
        simp only [hfinal, if_true, Option.some.injEq, Prod.mk.injEq] at hi
        rw [← hi.2, hfinal]
    · rw [Function.update_of_ne hii] at hi
      exact hR.idle i' status' hi
  · intro i' k status' hi
    rw [h.item] at hi
    rw [h.job]
    by_cases hii : i' = i
    · rw [hii, Function.update_self] at hi
      cases hfinal : final status with
      | true => simp [hfinal] at hi
      | false =>
        simp only [hfinal, Option.some.injEq, Prod.mk.injEq] at hi
        obtain ⟨hk, rfl⟩ := hi
        cases hk
        exact ⟨by rw [Function.update_self, hii], hfinal⟩
    · rw [Function.update_of_ne hii] at hi
      obtain ⟨hk, hnonfinal⟩ := hR.owned i' k status' hi
      have hkj : k ≠ j := by
        rintro rfl
        rw [hold] at hk
        cases hk
        exact hii rfl
      rw [Function.update_of_ne hkj]
      exact ⟨hk, hnonfinal⟩

theorem Starts.job_of_final (h : Starts final i j status R R') {k : Job} {i' : Item} {old : Status}
    (hk : R.job k = some (i', old)) (hfinal : final old = true) : R'.job k = some (i', old) := by
  have hkj : k ≠ j := by
    rintro rfl
    rw [h.fresh] at hk
    cases hk
  rcases h.others k hkj with ⟨hsame, -⟩ | ⟨st, -, hst, hrunning, -⟩
  · rw [hsame, hk]
  · rw [hk] at hst
    cases hst
    rw [hfinal] at hrunning
    cases hrunning

theorem Advances.job_of_final [DecidableEq Job] (h : Advances final i j status R R') {k : Job}
    {i' : Item} {old : Status} (hk : R.job k = some (i', old)) (hfinal : final old = true) :
    R'.job k = some (i', old) := by
  obtain ⟨st, hst, hrunning⟩ := h.running
  have hkj : k ≠ j := by
    rintro rfl
    rw [hk] at hst
    cases hst
    rw [hfinal] at hrunning
    cases hrunning
  rw [h.job, Function.update_of_ne hkj, hk]

/-! ## Runs -/

variable [DecidableEq Job]

inductive Step (final : Status → Bool) (R R' : JobRegistry Job Item Status) : Prop
  | starts (i : Item) (j : Job) (status : Status) (h : Starts final i j status R R')
  | advances (i : Item) (j : Job) (status : Status) (h : Advances final i j status R R')

theorem consistent_of_run (hrun : ReflTransGen (Step final) R R') (hR : Consistent final R) :
    Consistent final R' := by
  apply Runs.invariant hrun hR
  rintro R R' hR (⟨i, j, status, h⟩ | ⟨i, j, status, h⟩)
  · exact h.consistent hR
  · exact h.consistent hR

theorem job_of_run (hrun : ReflTransGen (Step final) R R') (hjob : R.job j = some (i, status))
    (hfinal : final status = true) : R'.job j = some (i, status) := by
  apply Runs.invariant hrun hjob
  rintro R R' hjob (⟨i', j', status', h⟩ | ⟨i', j', status', h⟩)
  · exact h.job_of_final hjob hfinal
  · exact h.job_of_final hjob hfinal

end JobRegistry
