import AroHcp.Lib.Program

/-! What a program has called and been answered, whatever the answers are. -/

namespace Program

variable {C β γ : Type} {R : C → Type}

/-- The program makes the calls of the trace, gets their answers and ends with the result. -/
inductive Ends : Program C R β → List (Sigma R) → β → Prop
  | ret (b : β) : Ends (ret b) [] b
  | call (c : C) (next : R c → Program C R β) (r : R c) (trace : List (Sigma R)) (b : β)
      (h : Ends (next r) trace b) : Ends (call c next) (⟨c, r⟩ :: trace) b

inductive Reaches : Program C R β → List (Sigma R) → C → Prop
  | here (c : C) (next : R c → Program C R β) : Reaches (call c next) [] c
  | later (c : C) (next : R c → Program C R β) (r : R c) (trace : List (Sigma R)) (c' : C)
      (h : Reaches (next r) trace c') : Reaches (call c next) (⟨c, r⟩ :: trace) c'

variable {p : Program C R γ} {f : γ → Program C R β} {trace : List (Sigma R)} {c : C} {b : β}

theorem not_reaches_ret : ¬Reaches (ret b : Program C R β) trace c := by
  intro h
  cases h

theorem Ends.bind_inv (h : Ends (p >>= f) trace b) :
    ∃ first second a, trace = first ++ second ∧ Ends p first a ∧ Ends (f a) second b := by
  induction p generalizing trace with
  | ret a => exact ⟨[], trace, a, rfl, .ret a, h⟩
  | call d next ih =>
    cases h with
    | call _ _ r rest _ hrest =>
      obtain ⟨first, second, a, rfl, hfirst, hsecond⟩ := ih r hrest
      exact ⟨⟨d, r⟩ :: first, second, a, rfl, .call d next r first a hfirst, hsecond⟩

theorem Ends.ret_inv {b' : β} (h : Ends (Program.ret b : Program C R β) trace b') :
    trace = [] ∧ b' = b := by
  cases h
  exact ⟨rfl, rfl⟩

theorem Ends.eq_of_ret {b' : β} (h : Ends (Program.ret b : Program C R β) trace b') : b' = b :=
  h.ret_inv.2

theorem Ends.perform_bind_inv {f : R c → Program C R β} (h : Ends (perform c >>= f) trace b) :
    ∃ r rest, trace = ⟨c, r⟩ :: rest ∧ Ends (f r) rest b := by
  cases h with
  | call _ _ r rest _ hrest => exact ⟨r, rest, rfl, hrest⟩

theorem Reaches.perform_bind_inv {c' : C} {f : R c → Program C R β}
    (h : Reaches (perform c >>= f) trace c') :
    c' = c ∨ ∃ r rest, trace = ⟨c, r⟩ :: rest ∧ Reaches (f r) rest c' := by
  cases h with
  | here => exact .inl rfl
  | later _ _ r rest _ hrest => exact .inr ⟨r, rest, rfl, hrest⟩

/-- A call of a sequence is one of the first program or one of the rest after the first has ended.
-/
theorem Reaches.bind_inv (h : Reaches (p >>= f) trace c) :
    Reaches p trace c ∨
      ∃ first second a, trace = first ++ second ∧ Ends p first a ∧ Reaches (f a) second c := by
  induction p generalizing trace with
  | ret a => exact .inr ⟨[], trace, a, rfl, .ret a, h⟩
  | call d next ih =>
    cases h with
    | here _ _ => exact .inl (.here c next)
    | later _ _ r rest _ hrest =>
      rcases ih r hrest with hfirst | ⟨first, second, a, rfl, hfirst, hsecond⟩
      · exact .inl (.later d next r rest c hfirst)
      · exact .inr ⟨⟨d, r⟩ :: first, second, a, rfl, .call d next r first a hfirst, hsecond⟩

theorem reaches_perform {f : R c → Program C R β} : Reaches (perform c >>= f) [] c :=
  .here c _

theorem Reaches.bind_left (h : Reaches p trace c) : Reaches (p >>= f) trace c := by
  induction h with
  | here c next => exact .here c _
  | later d next r trace c _ ih => exact .later d _ r trace c ih

theorem Ends.reaches_bind {first second : List (Sigma R)} {a : γ} (hp : Ends p first a)
    (hf : Reaches (f a) second c) : Reaches (p >>= f) (first ++ second) c := by
  induction hp with
  | ret a => exact hf
  | call d next r trace a _ ih => exact .later d _ r (trace ++ second) c (ih hf)

/-- Every call of the program is of the given kind. -/
def Only (P : C → Prop) (p : Program C R β) : Prop :=
  ∀ trace c, Reaches p trace c → P c

variable {P : C → Prop}

theorem only_ret (b : β) : Only P (ret b : Program C R β) :=
  fun _ _ h => absurd h not_reaches_ret

theorem only_perform_bind {f : R c → Program C R β} (h : P c) (hf : ∀ r, Only P (f r)) :
    Only P (perform c >>= f) := by
  intro trace c' hreach
  cases hreach with
  | here => exact h
  | later _ _ r rest _ hrest => exact hf r rest c' hrest

/-- The rest of a sequence may be judged by what the first program can end with. -/
theorem Only.bind_of_ends (hp : Only P p) (hf : ∀ trace a, Ends p trace a → Only P (f a)) :
    Only P (p >>= f) := by
  intro trace c h
  rcases h.bind_inv with hfirst | ⟨first, second, a, -, hends, hsecond⟩
  · exact hp trace c hfirst
  · exact hf first a hends second c hsecond

theorem Only.bind (hp : Only P p) (hf : ∀ a, Only P (f a)) : Only P (p >>= f) :=
  hp.bind_of_ends fun _ a _ => hf a

/-- A call of another kind than those of the first program is made by the rest. -/
theorem Only.reaches_bind (hp : Only P p) (hc : ¬P c) (h : Reaches (p >>= f) trace c) :
    ∃ first second a, trace = first ++ second ∧ Ends p first a ∧ Reaches (f a) second c :=
  h.bind_inv.resolve_left fun hfirst => hc (hp trace c hfirst)

/-- A program whose calls all keep an invariant and a relation keeps them. -/
theorem Only.keeps {σ : Type} {sem : Semantics σ C R} {allowed : C → σ → Prop} {inv : σ → Prop}
    {rely : σ → σ → Prop} {s : σ} {p : Program C R β} (hp : Only P p)
    (hkeeps : ∀ c s r s', P c → sem c s r s' → inv s → inv s' ∧ rely s s') (hinv : inv s) :
    wp sem allowed inv rely p (fun _ _ => True) s := by
  induction p generalizing s with
  | ret b => trivial
  | call c next ih =>
    intro r s' hsem _
    refine ⟨hkeeps c s r s' (hp [] c (.here c next)) hsem hinv, fun s'' _ hinv'' => ih r ?_ hinv''⟩
    exact fun trace c' h => hp _ c' (.later c next r trace c' h)

/-! ## Answers that depend on the call only -/

section Replies

variable (reply : (c : C) → R c) (stop : C → Bool)

def firstCall : Program C R β → Option (List (Sigma R) × C)
  | ret _ => none
  | call c next =>
    if stop c then some ([], c)
    else (firstCall (next (reply c))).map fun (trace, c') => (⟨c, reply c⟩ :: trace, c')

def result : Program C R β → β
  | ret b => b
  | call c next => result (next (reply c))

theorem result_bind (p : Program C R γ) (f : γ → Program C R β) :
    result reply (p >>= f) = result reply (f (result reply p)) := by
  induction p with
  | ret b => rfl
  | call c next ih => exact ih (reply c)

variable {reply stop} {p : Program C R β}

theorem Ends.eq_result (h : Ends p trace b) (hreply : ∀ e ∈ trace, e.2 = reply e.1) :
    b = result reply p := by
  induction h with
  | ret b => rfl
  | call c next r trace b _ ih =>
    have hr : r = reply c := hreply ⟨c, r⟩ List.mem_cons_self
    rw [result, ← hr]
    exact ih fun e he => hreply e (List.mem_cons_of_mem _ he)

/-- Every program ends when its calls are answered. -/
theorem exists_ends (reply : (c : C) → R c) (p : Program C R β) :
    ∃ trace, Ends p trace (result reply p) ∧ ∀ e ∈ trace, e.2 = reply e.1 := by
  induction p with
  | ret b => exact ⟨[], .ret b, by simp⟩
  | call c next ih =>
    obtain ⟨trace, hends, hreply⟩ := ih (reply c)
    refine ⟨⟨c, reply c⟩ :: trace, .call c next _ trace _ hends, ?_⟩
    intro e he
    rcases List.mem_cons.mp he with rfl | hmem
    · rfl
    · exact hreply e hmem

/-- The program makes the call if its calls are answered so. -/
def Makes (reply : (c : C) → R c) (p : Program C R β) (c : C) : Prop :=
  ∃ trace, Reaches p trace c ∧ ∀ e ∈ trace, e.2 = reply e.1

theorem makes_perform {f : R c → Program C R β} : Makes reply (perform c >>= f) c :=
  ⟨[], reaches_perform, by simp⟩

theorem Makes.bind_left {p : Program C R γ} {f : γ → Program C R β} (h : Makes reply p c) :
    Makes reply (p >>= f) c :=
  h.imp fun _ ⟨hreach, hreply⟩ => ⟨hreach.bind_left, hreply⟩

theorem Makes.bind_right {p : Program C R γ} {f : γ → Program C R β}
    (h : Makes reply (f (result reply p)) c) : Makes reply (p >>= f) c := by
  obtain ⟨first, hends, hfirst⟩ := exists_ends reply p
  obtain ⟨second, hreach, hsecond⟩ := h
  refine ⟨first ++ second, hends.reaches_bind hreach, ?_⟩
  intro e he
  exact (List.mem_append.mp he).elim (hfirst e) (hsecond e)

theorem reaches_of_firstCall (h : firstCall reply stop p = some (trace, c)) :
    Reaches p trace c ∧ stop c = true ∧ ∀ e ∈ trace, e.2 = reply e.1 := by
  induction p generalizing trace with
  | ret b => cases h
  | call d next ih =>
    unfold firstCall at h
    split_ifs at h with hstop
    · cases h
      exact ⟨.here c next, hstop, by simp⟩
    · obtain ⟨⟨rest, c'⟩, hrest, heq⟩ := Option.map_eq_some_iff.mp h
      cases heq
      obtain ⟨hreach, hstop', hreply⟩ := ih (reply d) hrest
      refine ⟨.later d next (reply d) rest c hreach, hstop', ?_⟩
      intro e he
      rcases List.mem_cons.mp he with rfl | hmem
      · rfl
      · exact hreply e hmem

end Replies

/-! ## Programs that run alone -/

section Alone

variable {σ : Type} (handle : (c : C) → σ → R c × σ)

/-- Every call is answered at once, and the state is what the calls make of it. -/
def run : Program C R β → σ → β × σ
  | ret b, s => (b, s)
  | call c next, s => run (next (handle c s).1) (handle c s).2

@[simp] theorem run_pure (b : β) (s : σ) : run handle (pure b) s = (b, s) := rfl

theorem run_perform_bind (c : C) (f : R c → Program C R β) (s : σ) :
    run handle (perform c >>= f) s = run handle (f (handle c s).1) (handle c s).2 := rfl

theorem run_bind (p : Program C R γ) (f : γ → Program C R β) (s : σ) :
    run handle (p >>= f) s = run handle (f (run handle p s).1) (run handle p s).2 := by
  induction p generalizing s with
  | ret b => rfl
  | call c next ih => exact ih (handle c s).1 (handle c s).2

end Alone

end Program
