import AroHcp.Lib.Runs

/-! Programs that work on a shared system one call at a time, any number of them at once. The rules
of pre- and postconditions are those of rely and guarantee: between two calls of a program the
others may do whatever keeps an invariant and a relation between earlier and later states. -/

/-- A program ends with a result, or makes a call and goes on with the reply. -/
inductive Program (C : Type) (R : C → Type) (β : Type)
  | ret (b : β)
  | call (c : C) (next : R c → Program C R β)

namespace Program

variable {C σ τ β γ : Type} {R : C → Type}

def bind : Program C R β → (β → Program C R γ) → Program C R γ
  | ret b, f => f b
  | call c next, f => call c fun r => (next r).bind f

instance : Monad (Program C R) where
  pure := ret
  bind := bind

def perform (c : C) : Program C R (R c) :=
  call c ret

/-- What a call may answer in a state, and the state it leaves. -/
abbrev Semantics (σ C : Type) (R : C → Type) :=
  (c : C) → σ → R c → σ → Prop

/-! ## Programs running at once -/

structure Pool (σ C : Type) (R : C → Type) (β : Type) where
  state : σ
  programs : List (Program C R β)

/-- A program is started, the environment changes the state, or one program makes its next call. A
program that is never scheduled again has crashed. -/
inductive Step (sem : Semantics σ C R) (start : τ → Program C R β) (env : σ → σ → Prop)
    (allowed : C → σ → Prop) : Pool σ C R β → Pool σ C R β → Prop
  | start (s : σ) (programs : List (Program C R β)) (t : τ) :
      Step sem start env allowed ⟨s, programs⟩ ⟨s, programs ++ [start t]⟩
  | env (s s' : σ) (programs : List (Program C R β)) (h : env s s') :
      Step sem start env allowed ⟨s, programs⟩ ⟨s', programs⟩
  | call (s s' : σ) (before after : List (Program C R β)) (c : C) (next : R c → Program C R β)
      (r : R c) (h : sem c s r s') (hallowed : allowed c s) :
      Step sem start env allowed ⟨s, before ++ call c next :: after⟩
        ⟨s', before ++ next r :: after⟩

open Relation in
theorem run_mono {sem : Semantics σ C R} {start : τ → Program C R β} {env : σ → σ → Prop}
    {allowed allowed' : C → σ → Prop} {pool pool' : Pool σ C R β}
    (h : ∀ c s, allowed c s → allowed' c s)
    (hrun : ReflTransGen (Step sem start env allowed) pool pool') :
    ReflTransGen (Step sem start env allowed') pool pool' := by
  refine ReflTransGen.mono ?_ _ _ hrun
  rintro a b (⟨s, programs, t⟩ | ⟨s, s', programs, henv⟩ |
    ⟨s, s', before, after, c, next, r, hsem, hallowed⟩)
  · exact .start s programs t
  · exact .env s s' programs henv
  · exact .call s s' before after c next r hsem (h c s hallowed)

/-! ## Rely and guarantee -/

section Logic

variable (sem : Semantics σ C R) (allowed : C → σ → Prop) (inv : σ → Prop) (rely : σ → σ → Prop)

/-- From `s` on the program keeps the invariant and the relation with every call, and its result and
the state it ends in are as `Q` says. -/
def wp : Program C R β → (β → σ → Prop) → σ → Prop
  | ret b, Q, s => Q b s
  | call c next, Q, s => ∀ r s', sem c s r s' → allowed c s →
      (inv s' ∧ rely s s') ∧ ∀ s'', rely s' s'' → inv s'' → wp (next r) Q s''

variable {sem allowed inv rely} {Q Q' : β → σ → Prop} {s : σ}

theorem wp_mono {p : Program C R β} (h : ∀ b s, Q b s → Q' b s)
    (hp : wp sem allowed inv rely p Q s) : wp sem allowed inv rely p Q' s := by
  induction p generalizing s with
  | ret b => exact h b s hp
  | call c next ih =>
    intro r s' hsem hallowed
    obtain ⟨hstep, hnext⟩ := hp r s' hsem hallowed
    exact ⟨hstep, fun s'' hrely hinv => ih r (hnext s'' hrely hinv)⟩

theorem wp_bind {p : Program C R γ} {f : γ → Program C R β}
    (h : wp sem allowed inv rely p (fun b => wp sem allowed inv rely (f b) Q) s) :
    wp sem allowed inv rely (p >>= f) Q s := by
  induction p generalizing s with
  | ret b => exact h
  | call c next ih =>
    intro r s' hsem hallowed
    obtain ⟨hstep, hnext⟩ := h r s' hsem hallowed
    exact ⟨hstep, fun s'' hrely hinv => ih r (hnext s'' hrely hinv)⟩

/-- When a program ends, the invariant holds and the state is related to the one it started in. -/
theorem wp_frame [IsTrans σ rely] {p : Program C R β} {s₀ : σ} (hinv : inv s) (hrely : rely s₀ s)
    (hp : wp sem allowed inv rely p Q s) :
    wp sem allowed inv rely p (fun b s' => Q b s' ∧ inv s' ∧ rely s₀ s') s := by
  induction p generalizing s with
  | ret b => exact ⟨hp, hinv, hrely⟩
  | call c next ih =>
    intro r s' hsem hallowed
    obtain ⟨hstep, hnext⟩ := hp r s' hsem hallowed
    refine ⟨hstep, ?_⟩
    intro s'' hs'' hinv''
    exact ih r hinv'' (Trans.trans hrely (Trans.trans hstep.2 hs'')) (hnext s'' hs'' hinv'')

/-- The rule of a program that is followed by another, which starts in a later state. -/
theorem wp_seq [Std.Refl rely] [IsTrans σ rely] {p : Program C R γ} {f : γ → Program C R β}
    {P : γ → σ → Prop} (hinv : inv s) (hp : wp sem allowed inv rely p P s)
    (h : ∀ b s', P b s' → rely s s' → inv s' → wp sem allowed inv rely (f b) Q s') :
    wp sem allowed inv rely (p >>= f) Q s := by
  refine wp_bind (wp_mono ?_ (wp_frame hinv (refl s) hp))
  rintro b s' ⟨hb, hinv', hrely⟩
  exact h b s' hb hrely hinv'

theorem wp_perform_bind {c : C} {f : R c → Program C R β}
    (h : ∀ r s', sem c s r s' → allowed c s → (inv s' ∧ rely s s') ∧
      ∀ s'', rely s' s'' → inv s'' → wp sem allowed inv rely (f r) Q s'') :
    wp sem allowed inv rely (perform c >>= f) Q s :=
  h

theorem wp_read_bind [Std.Refl rely] {c : C} {f : R c → Program C R β} (hinv : inv s)
    (hread : ∀ r s', sem c s r s' → s' = s)
    (h : ∀ r s', sem c s r s → rely s s' → inv s' → wp sem allowed inv rely (f r) Q s') :
    wp sem allowed inv rely (perform c >>= f) Q s := by
  apply wp_perform_bind
  intro r s' hsem _
  obtain rfl := hread r s' hsem
  exact ⟨⟨hinv, refl s'⟩, fun s'' => h r s'' hsem⟩

/-- The programs of a pool are ready for whatever the others do next. -/
def Ready (sem : Semantics σ C R) (allowed : C → σ → Prop) (inv : σ → Prop) (rely : σ → σ → Prop)
    (pool : Pool σ C R β) : Prop :=
  inv pool.state ∧ ∀ p ∈ pool.programs, ∀ s, rely pool.state s → inv s →
    wp sem allowed inv rely p (fun _ _ => True) s

variable {start : τ → Program C R β} {env : σ → σ → Prop} {pool pool' : Pool σ C R β}

theorem Ready.step [Std.Refl rely] [IsTrans σ rely]
    (hstart : ∀ t s, inv s → wp sem allowed inv rely (start t) (fun _ _ => True) s)
    (henv : ∀ s s', inv s → env s s' → inv s' ∧ rely s s')
    (hpool : Ready sem allowed inv rely pool) (h : Step sem start env allowed pool pool') :
    Ready sem allowed inv rely pool' ∧ rely pool.state pool'.state := by
  cases h with
  | start s programs t =>
    refine ⟨⟨hpool.1, ?_⟩, refl s⟩
    intro p hp
    rcases List.mem_append.mp hp with hold | hnew
    · exact hpool.2 p hold
    · rw [List.mem_singleton.mp hnew]
      exact fun s' _ hinv => hstart t s' hinv
  | env s s' programs h =>
    obtain ⟨hinv, hrely⟩ := henv s s' hpool.1 h
    exact ⟨⟨hinv, fun p hp s'' hs'' => hpool.2 p hp s'' (Trans.trans hrely hs'')⟩, hrely⟩
  | call s s' before after c next r hsem hallowed =>
    have hcall := hpool.2 (call c next) (by simp) s (refl s) hpool.1 r s' hsem hallowed
    obtain ⟨⟨hinv, hrely⟩, hnext⟩ := hcall
    refine ⟨⟨hinv, ?_⟩, hrely⟩
    intro p hp s'' hs'' hinv''
    rcases List.mem_append.mp hp with hbefore | hrest
    · exact hpool.2 p (List.mem_append_left _ hbefore) s'' (Trans.trans hrely hs'') hinv''
    · rcases List.mem_cons.mp hrest with rfl | hafter
      · exact hnext s'' hs'' hinv''
      · exact hpool.2 p (by simp [hafter]) s'' (Trans.trans hrely hs'') hinv''

open Relation in
/-- If every program keeps the invariant when it runs alone among relying others, every state that
the pool reaches has it and is related to every earlier one. -/
theorem Ready.run [Std.Refl rely] [IsTrans σ rely]
    (hstart : ∀ t s, inv s → wp sem allowed inv rely (start t) (fun _ _ => True) s)
    (henv : ∀ s s', inv s → env s s' → inv s' ∧ rely s s')
    (hpool : Ready sem allowed inv rely pool)
    (hrun : ReflTransGen (Step sem start env allowed) pool pool') :
    Ready sem allowed inv rely pool' ∧ rely pool.state pool'.state := by
  refine Runs.invariant (P := fun p => Ready sem allowed inv rely p ∧ rely pool.state p.state)
    hrun ⟨hpool, refl _⟩ ?_
  rintro a b ⟨ha, hrely⟩ hstep
  obtain ⟨hb, hstep'⟩ := ha.step hstart henv hstep
  exact ⟨hb, Trans.trans hrely hstep'⟩

theorem Ready.initial (hinv : inv s) : Ready sem allowed inv rely (β := β) ⟨s, []⟩ := by
  refine ⟨hinv, ?_⟩
  intro p hp
  cases hp

end Logic

/-! ## Schedules -/

/-- What happens next in an execution that is written down. -/
inductive Choice (τ κ : Type)
  | start (t : τ)
  /-- the program at the given place makes its call, answered as the hint says -/
  | call (place : Nat) (hint : κ)

def Choice.program {τ κ : Type} (place : Nat) (t : τ) (hints : List κ) : List (Choice τ κ) :=
  .start t :: hints.map (.call place)

section Schedule

variable {κ : Type} (answer : (c : C) → κ → σ → Option (R c × σ)) (start : τ → Program C R β)
  (may : C → σ → Bool)

def schedule (pool : Pool σ C R β) : Choice τ κ → Option (Pool σ C R β)
  | .start t => some { pool with programs := pool.programs ++ [start t] }
  | .call place hint =>
    match pool.programs[place]? with
    | some (.call c next) =>
      if may c pool.state then
        (answer c hint pool.state).map fun (r, s') =>
          ⟨s', pool.programs.take place ++ next r :: pool.programs.drop (place + 1)⟩
      else none
    | _ => none

def execute (pool : Pool σ C R β) (choices : List (Choice τ κ)) : Option (Pool σ C R β) :=
  choices.foldlM (schedule answer start may) pool

variable {answer start may} {sem : Semantics σ C R} (env : σ → σ → Prop) {pool pool' : Pool σ C R β}

theorem step_of_schedule (hanswer : ∀ c hint s r s', answer c hint s = some (r, s') → sem c s r s')
    {choice : Choice τ κ} (h : schedule answer start may pool choice = some pool') :
    Step sem start env (fun c s => may c s = true) pool pool' := by
  cases choice with
  | start t =>
    cases h
    exact .start pool.state pool.programs t
  | call place hint =>
    dsimp only [schedule] at h
    split at h
    · rename_i c next hplace
      split_ifs at h with hmay
      obtain ⟨⟨r, s'⟩, hcall, rfl⟩ := Option.map_eq_some_iff.mp h
      obtain ⟨hlt, hget⟩ := List.getElem?_eq_some_iff.mp hplace
      have hsplit : pool = ⟨pool.state, pool.programs.take place ++ .call c next ::
          pool.programs.drop (place + 1)⟩ := by
        rw [← hget, ← List.drop_eq_getElem_cons hlt, List.take_append_drop]
      have hstep : Step sem start env (fun c s => may c s = true)
          ⟨pool.state, pool.programs.take place ++ .call c next :: pool.programs.drop (place + 1)⟩
          ⟨s', pool.programs.take place ++ next r :: pool.programs.drop (place + 1)⟩ :=
        .call _ _ _ _ c next r (hanswer c hint _ r s' hcall) hmay
      rwa [← hsplit] at hstep
    · cases h

open Relation in
theorem run_of_execute (hanswer : ∀ c hint s r s', answer c hint s = some (r, s') → sem c s r s')
    {choices : List (Choice τ κ)} (h : execute answer start may pool choices = some pool') :
    ReflTransGen (Step sem start env fun c s => may c s = true) pool pool' := by
  induction choices generalizing pool with
  | nil =>
    cases h
    exact .refl
  | cons choice choices ih =>
    unfold execute at h
    obtain ⟨middle, hfirst, hrest⟩ := Option.bind_eq_some_iff.mp h
    exact .head (step_of_schedule env hanswer hfirst) (ih hrest)

end Schedule

/-! ## Schedules with changes by the environment -/

/-- What happens next: a change by the environment, a start, or a call. -/
inductive Turn (τ κ ε : Type)
  | env (e : ε)
  | start (t : τ)
  | call (place : Nat) (hint : κ)

def Turn.program {τ κ ε : Type} (place : Nat) (t : τ) (hints : List κ) : List (Turn τ κ ε) :=
  .start t :: hints.map (.call place)

section Play

variable {κ ε : Type} (answer : (c : C) → κ → σ → Option (R c × σ)) (start : τ → Program C R β)
  (may : C → σ → Bool) (change : ε → σ → Option σ)

def turn (pool : Pool σ C R β) : Turn τ κ ε → Option (Pool σ C R β)
  | .env e => (change e pool.state).map fun s => { pool with state := s }
  | .start t => schedule answer start may pool (.start t)
  | .call place hint => schedule answer start may pool (.call place hint)

def play (pool : Pool σ C R β) (turns : List (Turn τ κ ε)) : Option (Pool σ C R β) :=
  turns.foldlM (turn answer start may change) pool

variable {answer start may change} {sem : Semantics σ C R} {env : σ → σ → Prop}
  {pool pool' : Pool σ C R β}

open Relation

theorem run_of_play (hanswer : ∀ c hint s r s', answer c hint s = some (r, s') → sem c s r s')
    (hchange : ∀ e s s', change e s = some s' → env s s') {turns : List (Turn τ κ ε)}
    (h : play answer start may change pool turns = some pool') :
    ReflTransGen (Step sem start env fun c s => may c s = true) pool pool' := by
  induction turns generalizing pool with
  | nil =>
    cases h
    exact .refl
  | cons next turns ih =>
    obtain ⟨middle, hfirst, hrest⟩ := Option.bind_eq_some_iff.mp h
    refine .head ?_ (ih hrest)
    cases next with
    | env e =>
      obtain ⟨s', he, rfl⟩ := Option.map_eq_some_iff.mp hfirst
      exact .env pool.state s' pool.programs (hchange e pool.state s' he)
    | start t =>
      have hstart : schedule answer start may pool (.start t) = some middle := hfirst
      exact step_of_schedule env hanswer hstart
    | call place hint =>
      have hcall : schedule answer start may pool (.call place hint) = some middle := hfirst
      exact step_of_schedule env hanswer hcall

/-- What is computed of the end of a schedule holds at the end of a run. -/
theorem exists_run_of_play {α : Type} (f : σ → α)
    (hanswer : ∀ c hint s r s', answer c hint s = some (r, s') → sem c s r s')
    (hchange : ∀ e s s', change e s = some s' → env s s') {turns : List (Turn τ κ ε)} {result : α}
    (h : (play answer start may change pool turns).map (fun p => f p.state) = some result) :
    ∃ pool', ReflTransGen (Step sem start env fun c s => may c s = true) pool pool' ∧
      f pool'.state = result := by
  obtain ⟨pool', hplay, hresult⟩ := Option.map_eq_some_iff.mp h
  exact ⟨pool', run_of_play hanswer hchange hplay, hresult⟩

end Play

end Program
