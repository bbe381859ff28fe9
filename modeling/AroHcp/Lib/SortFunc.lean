import Mathlib.Data.List.Sort

/-! Sorts of which the order of equal elements is not determined, and order statistics of a list. -/

/-- A sort by an order in which elements may be equal. -/
structure SortFunc (α : Type) where
  sort : (α → α → Bool) → List α → List α
  perm : ∀ le l, (sort le l).Perm l
  pairwise : ∀ le l, (∀ a b c, le a b = true → le b c = true → le a c = true) →
    (∀ a b, (le a b || le b a) = true) → (sort le l).Pairwise fun a b => le a b = true

def SortFunc.insertionSort (α : Type) : SortFunc α where
  sort le l := l.insertionSort fun a b => le a b = true
  perm _ l := List.perm_insertionSort _ l
  pairwise le l htrans htotal := by
    have : IsTrans α fun a b => le a b = true := ⟨htrans⟩
    have : Std.Total fun a b : α => le a b = true := ⟨fun a b => by simpa using htotal a b⟩
    exact List.pairwise_insertionSort _ l

/-! ## Order statistics -/

section OrderStatistic

variable {α : Type}

/-- An element of the list with at most `k` greater ones, while more than `k` are not smaller. -/
structure IsNthLargest (gt : α → α → Bool) (l : List α) (k : Nat) (x : α) : Prop where
  mem : x ∈ l
  greater : l.countP (gt · x) ≤ k
  notSmaller : k < l.countP (!gt x ·)

variable {gt : α → α → Bool} {l : List α} {k : Nat} {x y : α}

theorem IsNthLargest.perm {l' : List α} (h : IsNthLargest gt l k x) (hperm : l.Perm l') :
    IsNthLargest gt l' k x where
  mem := hperm.mem_iff.mp h.mem
  greater := hperm.countP_eq (gt · x) ▸ h.greater
  notSmaller := hperm.countP_eq (!gt x ·) ▸ h.notSmaller

/-- The element at index `k` of a descending list. -/
theorem isNthLargest_of_getElem? (hirrefl : ∀ z ∈ l, gt z z = false)
    (hsorted : l.Pairwise fun a b => gt b a = false) (h : l[k]? = some x) :
    IsNthLargest gt l k x := by
  obtain ⟨before, after, rfl, hlen⟩ : ∃ before after, l = before ++ x :: after ∧
    before.length = k := by
    obtain ⟨hk, hx⟩ := List.getElem?_eq_some_iff.mp h
    refine ⟨l.take k, l.drop (k + 1), ?_, ?_⟩
    · rw [← hx, List.getElem_cons_drop, List.take_append_drop]
    · rw [List.length_take]
      omega
  have hself : gt x x = false := hirrefl x (by simp)
  rw [List.pairwise_append, List.pairwise_cons] at hsorted
  obtain ⟨-, ⟨hafter, -⟩, hbefore⟩ := hsorted
  refine ⟨by simp, ?_, ?_⟩
  · have hzero : (x :: after).countP (gt · x) = 0 := by
      rw [List.countP_eq_zero]
      intro z hz
      rcases List.mem_cons.mp hz with rfl | hz
      · simp [hself]
      · simp [hafter z hz]
    rw [List.countP_append, hzero, Nat.add_zero, ← hlen]
    exact List.countP_le_length
  · have hall : before.countP (!gt x ·) = before.length := by
      rw [List.countP_eq_length]
      intro z hz
      simp [hbefore z hz x List.mem_cons_self]
    rw [List.countP_append, hall, hlen, List.countP_cons, hself]
    simp

end OrderStatistic
