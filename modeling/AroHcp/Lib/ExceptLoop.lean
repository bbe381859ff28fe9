import Mathlib.Data.List.Basic

/-! Loops that stop at their first error. -/

namespace ExceptLoop

variable {ε α β : Type}

theorem bind_eq_ok {x : Except ε α} {f : α → Except ε β} {b : β} :
    x >>= f = .ok b ↔ ∃ a, x = .ok a ∧ f a = .ok b := by
  cases x with
  | error e => exact iff_of_false (by rintro ⟨⟩) (by rintro ⟨a, ⟨⟩, -⟩)
  | ok a => exact ⟨fun h => ⟨a, rfl, h⟩, by rintro ⟨a', ⟨⟩, h⟩; exact h⟩

theorem toOption_eq_some {x : Except ε α} {a : α} : x.toOption = some a ↔ x = .ok a := by
  cases x <;> simp [Except.toOption]

/-- A check followed by the rest of a function. -/
theorem seq_eq_ok {x : Except ε Unit} {y : Except ε β} {b : β} :
    (x >>= fun _ => y) = .ok b ↔ x = .ok () ∧ y = .ok b := by
  rw [bind_eq_ok]
  exact ⟨fun ⟨_, hx, hy⟩ => ⟨hx, hy⟩, fun ⟨hx, hy⟩ => ⟨(), hx, hy⟩⟩

theorem forM_eq_ok {f : α → Except ε Unit} {xs : List α} :
    xs.forM f = .ok () ↔ ∀ x ∈ xs, f x = .ok () := by
  induction xs with
  | nil => simp [pure, Except.pure]
  | cons x xs ih =>
    change (f x >>= fun _ => xs.forM f) = _ ↔ _
    rw [bind_eq_ok, List.forall_mem_cons, ← ih]
    exact ⟨fun ⟨_, hx, hxs⟩ => ⟨hx, hxs⟩, fun ⟨hx, hxs⟩ => ⟨(), hx, hxs⟩⟩

theorem foldlM_eq_foldl {f : β → α → Except ε β} {g : β → α → β} {xs : List α}
    (h : ∀ x ∈ xs, ∀ b, f b x = .ok (g b x)) (b : β) :
    xs.foldlM f b = .ok (xs.foldl g b) := by
  induction xs generalizing b with
  | nil => rfl
  | cons x xs ih =>
    rw [List.foldlM_cons, h x List.mem_cons_self]
    exact ih (fun y hy => h y (List.mem_cons_of_mem _ hy)) _

theorem exists_ok_of_foldlM {f : β → α → Except ε β} {xs : List α} {b r : β}
    (h : xs.foldlM f b = .ok r) {x : α} (hx : x ∈ xs) : ∃ c d, f c x = .ok d := by
  induction xs generalizing b with
  | nil => cases hx
  | cons y ys ih =>
    rw [List.foldlM_cons, bind_eq_ok] at h
    obtain ⟨c, hc, h⟩ := h
    rcases List.mem_cons.mp hx with rfl | hx
    · exact ⟨b, c, hc⟩
    · exact ih h hx

theorem of_foldlM {f : β → α → Except ε β} {P : β → Prop} {xs : List α} {b r : β}
    (h : xs.foldlM f b = .ok r) (hb : P b)
    (hstep : ∀ x ∈ xs, ∀ b c, P b → f b x = .ok c → P c) : P r := by
  induction xs generalizing b with
  | nil =>
    cases h
    exact hb
  | cons x xs ih =>
    rw [List.foldlM_cons, bind_eq_ok] at h
    obtain ⟨c, hc, h⟩ := h
    exact ih h (hstep x List.mem_cons_self b c hb hc) fun y hy => hstep y (List.mem_cons_of_mem _ hy)

theorem mapM_eq_ok {f : α → Except ε β} {xs : List α} {ys : List β} (h : xs.mapM f = .ok ys) :
    (∀ x ∈ xs, ∃ y, f x = .ok y) ∧ ys = xs.filterMap fun x => (f x).toOption := by
  induction xs generalizing ys with
  | nil =>
    cases h
    simp
  | cons x xs ih =>
    rw [List.mapM_cons, bind_eq_ok] at h
    obtain ⟨y, hy, h⟩ := h
    rw [bind_eq_ok] at h
    obtain ⟨zs, hzs, h⟩ := h
    cases h
    obtain ⟨hall, rfl⟩ := ih hzs
    refine ⟨?_, ?_⟩
    · intro z hz
      rcases List.mem_cons.mp hz with rfl | hz
      · exact ⟨y, hy⟩
      · exact hall z hz
    · rw [List.filterMap_cons, hy]
      rfl

end ExceptLoop
