import AroHcp.Lib.Program

/-! Workers, each of which runs its program again and again, one run at a time, while all the others
do the same. Every worker has a guarantee of its own and relies on those of the others, so that it
may count on what it alone does. -/

namespace Workers

open Program Relation

variable {ι σ C β γ κ : Type} {R : C → Type}

structure Config (ι σ C : Type) (R : C → Type) (β : Type) where
  state : σ
  running : ι → Option (Program C R β)

section Steps

variable [DecidableEq ι] (sem : Semantics σ C R) (program : ι → Program C R β)

/-- A worker that is idle starts its program, one that runs makes its next call, or one stops, at
the end of its program or because it crashes. -/
inductive Step : Config ι σ C R β → Config ι σ C R β → Prop
  | start (s : σ) (running : ι → Option (Program C R β)) (i : ι) (h : running i = none) :
      Step ⟨s, running⟩ ⟨s, Function.update running i (some (program i))⟩
  | call (s s' : σ) (running : ι → Option (Program C R β)) (i : ι) (c : C)
      (next : R c → Program C R β) (r : R c) (h : running i = some (.call c next))
      (hsem : sem c s r s') : Step ⟨s, running⟩ ⟨s', Function.update running i (some (next r))⟩
  | stop (s : σ) (running : ι → Option (Program C R β)) (i : ι) :
      Step ⟨s, running⟩ ⟨s, Function.update running i none⟩

def initial (s : σ) : Config ι σ C R β := ⟨s, fun _ => none⟩

end Steps

/-! ## Rely and guarantee -/

section Logic

variable (sem : Semantics σ C R) (inv : σ → Prop) (guar rely : σ → σ → Prop)

/-- From `s` on the program keeps the invariant and the guarantee with every call, if the others do
what it relies on, and its result and the state it ends in are as `Q` says. -/
def wpg : Program C R β → (β → σ → Prop) → σ → Prop
  | .ret b, Q, s => Q b s
  | .call c next, Q, s => ∀ r s', sem c s r s' →
      (inv s' ∧ guar s s') ∧ ∀ s'', rely s' s'' → inv s'' → wpg (next r) Q s''

variable {sem inv guar rely} {Q Q' : β → σ → Prop} {s : σ}

theorem wpg_ret {b : β} (h : Q b s) : wpg sem inv guar rely (.ret b : Program C R β) Q s := h

theorem wpg_mono {p : Program C R β} (h : ∀ b s, Q b s → Q' b s)
    (hp : wpg sem inv guar rely p Q s) : wpg sem inv guar rely p Q' s := by
  induction p generalizing s with
  | ret b => exact h b s hp
  | call c next ih =>
    intro r s' hsem
    obtain ⟨hstep, hnext⟩ := hp r s' hsem
    exact ⟨hstep, fun s'' hrely hinv => ih r (hnext s'' hrely hinv)⟩

theorem wpg_bind {p : Program C R γ} {f : γ → Program C R β}
    (h : wpg sem inv guar rely p (fun b => wpg sem inv guar rely (f b) Q) s) :
    wpg sem inv guar rely (p >>= f) Q s := by
  induction p generalizing s with
  | ret b => exact h
  | call c next ih =>
    intro r s' hsem
    obtain ⟨hstep, hnext⟩ := h r s' hsem
    exact ⟨hstep, fun s'' hrely hinv => ih r (hnext s'' hrely hinv)⟩

theorem wpg_perform_bind {c : C} {f : R c → Program C R β}
    (h : ∀ r s', sem c s r s' → (inv s' ∧ guar s s') ∧
      ∀ s'', rely s' s'' → inv s'' → wpg sem inv guar rely (f r) Q s'') :
    wpg sem inv guar rely (perform c >>= f) Q s :=
  h

theorem wpg_read_bind {c : C} {f : R c → Program C R β} (hinv : inv s) (hrefl : guar s s)
    (hread : ∀ r s', sem c s r s' → s' = s)
    (h : ∀ r, sem c s r s → ∀ s', rely s s' → inv s' → wpg sem inv guar rely (f r) Q s') :
    wpg sem inv guar rely (perform c >>= f) Q s := by
  apply wpg_perform_bind
  intro r s' hsem
  obtain rfl := hread r s' hsem
  exact ⟨⟨hinv, hrefl⟩, h r hsem⟩

/-- When a program ends, the invariant holds, and what neither it nor the others undo is as it was.
-/
theorem wpg_frame {M : σ → σ → Prop} {p : Program C R β} {s₀ : σ}
    (htrans : ∀ a b c, M a b → M b c → M a c) (hguar : ∀ a b, guar a b → M a b)
    (hrely : ∀ a b, rely a b → M a b) (hinv : inv s) (hs : M s₀ s)
    (hp : wpg sem inv guar rely p Q s) :
    wpg sem inv guar rely p (fun b s' => Q b s' ∧ inv s' ∧ M s₀ s') s := by
  induction p generalizing s with
  | ret b => exact ⟨hp, hinv, hs⟩
  | call c next ih =>
    intro r s' hsem
    obtain ⟨hstep, hnext⟩ := hp r s' hsem
    refine ⟨hstep, ?_⟩
    intro s'' hs'' hinv''
    have hs' := htrans _ _ _ hs (hguar _ _ hstep.2)
    exact ih r hinv'' (htrans _ _ _ hs' (hrely _ _ hs'')) (hnext s'' hs'' hinv'')

end Logic

section Ready

variable [DecidableEq ι] {sem : Semantics σ C R} {program : ι → Program C R β} {inv : σ → Prop}
  {guar rely : ι → σ → σ → Prop} {c c' : Config ι σ C R β}

/-- Every worker is ready for whatever the others do next. -/
def Ready (sem : Semantics σ C R) (inv : σ → Prop) (guar rely : ι → σ → σ → Prop)
    (c : Config ι σ C R β) : Prop :=
  inv c.state ∧ ∀ i p, c.running i = some p → ∀ s, rely i c.state s → inv s →
    wpg sem inv (guar i) (rely i) p (fun _ _ => True) s

theorem Ready.step (hrefl : ∀ i s, rely i s s)
    (htrans : ∀ i a b c, rely i a b → rely i b c → rely i a c)
    (hcompatible : ∀ i j s s', i ≠ j → guar i s s' → rely j s s')
    (hprogram : ∀ i s, inv s → wpg sem inv (guar i) (rely i) (program i) (fun _ _ => True) s)
    (hready : Ready sem inv guar rely c) (h : Step sem program c c') :
    Ready sem inv guar rely c' := by
  cases h with
  | start s running i hidle =>
    refine ⟨hready.1, ?_⟩
    intro j p hp s' hs' hinv
    dsimp only at hp
    by_cases hj : j = i
    · subst hj
      rw [Function.update_self] at hp
      cases hp
      exact hprogram j s' hinv
    · rw [Function.update_of_ne hj] at hp
      exact hready.2 j p hp s' hs' hinv
  | call s s' running i c next r hrun hsem =>
    obtain ⟨⟨hinv, hguar⟩, hnext⟩ := hready.2 i _ hrun s (hrefl i s) hready.1 r s' hsem
    refine ⟨hinv, ?_⟩
    intro j p hp s'' hs'' hinv''
    dsimp only at hp
    by_cases hj : j = i
    · subst hj
      rw [Function.update_self] at hp
      cases hp
      exact hnext s'' hs'' hinv''
    · rw [Function.update_of_ne hj] at hp
      have hrely := hcompatible i j s s' (Ne.symm hj) hguar
      exact hready.2 j p hp s'' (htrans j _ _ _ hrely hs'') hinv''
  | stop s running i =>
    refine ⟨hready.1, ?_⟩
    intro j p hp
    dsimp only at hp
    by_cases hj : j = i
    · subst hj
      rw [Function.update_self] at hp
      cases hp
    · rw [Function.update_of_ne hj] at hp
      exact hready.2 j p hp

omit [DecidableEq ι] in
theorem Ready.initial {s : σ} (hinv : inv s) :
    Ready sem inv guar rely (Workers.initial s : Config ι σ C R β) := by
  refine ⟨hinv, ?_⟩
  intro i p hp
  cases hp

/-- If the program of every worker keeps the invariant among others that do what it relies on, every
state that is reached has it. -/
theorem invariant_of_programs (hrefl : ∀ i s, rely i s s)
    (htrans : ∀ i a b c, rely i a b → rely i b c → rely i a c)
    (hcompatible : ∀ i j s s', i ≠ j → guar i s s' → rely j s s')
    (hprogram : ∀ i s, inv s → wpg sem inv (guar i) (rely i) (program i) (fun _ _ => True) s)
    {s : σ} (hinv : inv s) (hrun : ReflTransGen (Step sem program) (Workers.initial s) c) :
    inv c.state :=
  (Runs.invariant (P := Ready sem inv guar rely) hrun (Ready.initial hinv)
    fun _ _ hready hstep => hready.step hrefl htrans hcompatible hprogram hstep).1

end Ready

/-! ## Schedules -/

inductive Choice (ι κ : Type)
  | start (i : ι)
  /-- the worker makes its call, answered as the hint says -/
  | call (i : ι) (hint : κ)
  | stop (i : ι)

/-- One whole run of a worker's program, with a call for each hint. -/
def Choice.run (i : ι) (hints : List κ) : List (Choice ι κ) :=
  .start i :: hints.map (.call i) ++ [.stop i]

section Schedule

variable [DecidableEq ι] (answer : (c : C) → κ → σ → Option (R c × σ)) (program : ι → Program C R β)

def schedule (c : Config ι σ C R β) : Choice ι κ → Option (Config ι σ C R β)
  | .start i =>
    match c.running i with
    | none => some { c with running := Function.update c.running i (some (program i)) }
    | some _ => none
  | .call i hint =>
    match c.running i with
    | some (.call x next) => (answer x hint c.state).map fun (r, s') =>
      ⟨s', Function.update c.running i (some (next r))⟩
    | _ => none
  | .stop i => some { c with running := Function.update c.running i none }

def execute (c : Config ι σ C R β) (choices : List (Choice ι κ)) : Option (Config ι σ C R β) :=
  choices.foldlM (schedule answer program) c

variable {answer program} {sem : Semantics σ C R} {c c' : Config ι σ C R β}

theorem step_of_schedule (hanswer : ∀ c hint s r s', answer c hint s = some (r, s') → sem c s r s')
    {choice : Choice ι κ} (h : schedule answer program c choice = some c') :
    Step sem program c c' := by
  cases choice with
  | start i =>
    dsimp only [schedule] at h
    split at h
    · rename_i hidle
      cases h
      exact .start c.state c.running i hidle
    · cases h
  | call i hint =>
    dsimp only [schedule] at h
    split at h
    · rename_i x next hrun
      obtain ⟨⟨r, s'⟩, hcall, rfl⟩ := Option.map_eq_some_iff.mp h
      exact .call c.state s' c.running i x next r hrun (hanswer x hint _ r s' hcall)
    · cases h
  | stop i =>
    cases h
    exact .stop c.state c.running i

theorem run_of_execute (hanswer : ∀ c hint s r s', answer c hint s = some (r, s') → sem c s r s')
    {choices : List (Choice ι κ)} (h : execute answer program c choices = some c') :
    ReflTransGen (Step sem program) c c' := by
  induction choices generalizing c with
  | nil =>
    cases h
    exact .refl
  | cons choice choices ih =>
    obtain ⟨middle, hfirst, hrest⟩ := Option.bind_eq_some_iff.mp h
    exact .head (step_of_schedule hanswer hfirst) (ih hrest)

end Schedule

end Workers
