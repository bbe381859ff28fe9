import AroHcp.Lib.Trace

/-! Programs whose calls carry who makes them and what that program has been answered so far. A run
of such programs tells who did what, and on what grounds. -/

namespace Program

variable {C ι β : Type} {R : C → Type}

structure Tagged (ι : Type) {C : Type} (R : C → Type) where
  author : ι
  seen : List (Sigma R)
  call : C

@[reducible] def Tagged.Reply (c : Tagged ι R) : Type := R c.call

/-- The same program, run by `i` after the answers in `seen`. -/
def tag (i : ι) : List (Sigma R) → Program C R β → Program (Tagged ι R) Tagged.Reply β
  | _, ret b => ret b
  | seen, call c next => call ⟨i, seen, c⟩ fun r => tag i (seen ++ [⟨c, r⟩]) (next r)

variable {σ : Type} {sem : Semantics σ (Tagged ι R) Tagged.Reply} {allowed : Tagged ι R → σ → Prop}
  {inv : σ → Prop} {rely : σ → σ → Prop} {Q : β → σ → Prop} {s : σ} {i : ι} {seen : List (Sigma R)}

theorem wp_tag_perform_bind {c : C} {f : R c → Program C R β}
    (h : ∀ r s', sem ⟨i, seen, c⟩ s r s' → allowed ⟨i, seen, c⟩ s → (inv s' ∧ rely s s') ∧
      ∀ s'', rely s' s'' → inv s'' →
        wp sem allowed inv rely (tag i (seen ++ [⟨c, r⟩]) (f r)) Q s'') :
    wp sem allowed inv rely (tag i seen (perform c >>= f)) Q s :=
  h

theorem wp_tag_read_bind [Std.Refl rely] {c : C} {f : R c → Program C R β} (hinv : inv s)
    (hread : ∀ r s', sem ⟨i, seen, c⟩ s r s' → s' = s)
    (h : ∀ r, sem ⟨i, seen, c⟩ s r s → allowed ⟨i, seen, c⟩ s → ∀ s', rely s s' → inv s' →
      wp sem allowed inv rely (tag i (seen ++ [⟨c, r⟩]) (f r)) Q s') :
    wp sem allowed inv rely (tag i seen (perform c >>= f)) Q s := by
  apply wp_tag_perform_bind
  intro r s' hsem hallowed
  obtain rfl := hread r s' hsem
  exact ⟨⟨hinv, refl s'⟩, h r hsem hallowed⟩

/-- A program whose calls all keep the invariant and the relation keeps them. -/
theorem Only.keeps_tag {P : C → Prop} {p : Program C R β} (hp : Only P p)
    (hkeeps : ∀ c seen s r s', P c → sem ⟨i, seen, c⟩ s r s' → inv s → inv s' ∧ rely s s')
    (hinv : inv s) : wp sem allowed inv rely (tag i seen p) (fun _ _ => True) s := by
  induction p generalizing s seen with
  | ret b => trivial
  | call c next ih =>
    intro r s' hsem _
    refine ⟨hkeeps c seen s r s' (hp [] c (.here c next)) hsem hinv, fun s'' _ hinv'' =>
      ih r ?_ hinv''⟩
    exact fun trace c' h => hp _ c' (.later c next r trace c' h)

end Program
