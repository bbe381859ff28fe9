import Mathlib.Data.List.Pairwise
import Mathlib.Data.List.Sort

/-! Closed intervals of natural numbers, merged where they overlap or touch. A list of intervals
covers another one exactly if one of the merged intervals does. -/

structure NatRange where
  first : Nat
  last : Nat
deriving DecidableEq, Repr

namespace NatRange

def Has (r : NatRange) (x : Nat) : Prop :=
  r.first ≤ x ∧ x ≤ r.last

/-- The common part. -/
def inter (a b : NatRange) : NatRange :=
  ⟨max a.first b.first, min a.last b.last⟩

theorem has_inter {a b : NatRange} {x : Nat} : (a.inter b).Has x ↔ a.Has x ∧ b.Has x := by
  unfold Has inter
  dsimp only
  omega

def adjacent (a b : Nat) : Bool :=
  a + 1 = b || b + 1 = a

/-- Adds an interval to merged ones, of which the last is at the head. -/
def mergeStep (merged : List NatRange) (r : NatRange) : List NatRange :=
  match merged with
  | [] => [r]
  | last :: rest =>
    if r.first ≤ last.last || adjacent last.last r.first then
      (if last.last < r.last then { last with last := r.last } else last) :: rest
    else r :: last :: rest

def merge (ranges : List NatRange) : List NatRange :=
  ((ranges.insertionSort (·.first ≤ ·.first)).foldl mergeStep []).reverse

def covers (ranges : List NatRange) (target : NatRange) : Bool :=
  ranges.any fun r => r.first ≤ target.first && target.last ≤ r.last

/-! ## Merged intervals -/

/-- No interval is empty, and between two of them there is a gap; the last is at the head. -/
structure Merged (l : List NatRange) : Prop where
  valid : ∀ r ∈ l, r.first ≤ r.last
  separated : l.Pairwise fun later earlier => earlier.last + 1 < later.first

theorem Merged.nil : Merged [] :=
  ⟨by simp, .nil⟩

def InSome (l : List NatRange) (x : Nat) : Prop :=
  ∃ r ∈ l, r.Has x

@[simp] theorem inSome_nil (x : Nat) : ¬InSome [] x := by
  rintro ⟨r, hr, -⟩
  cases hr

@[simp] theorem inSome_cons (r : NatRange) (l : List NatRange) (x : Nat) :
    InSome (r :: l) x ↔ r.Has x ∨ InSome l x := by
  unfold InSome
  simp

theorem merged_mergeStep {merged : List NatRange} {r : NatRange} (h : Merged merged)
    (hr : r.first ≤ r.last) (hfirst : ∀ last, merged.head? = some last → last.first ≤ r.first) :
    Merged (mergeStep merged r) ∧ (∀ x, InSome (mergeStep merged r) x ↔ InSome merged x ∨ r.Has x) ∧
      ∀ last, (mergeStep merged r).head? = some last → last.first ≤ r.first := by
  cases merged with
  | nil => exact ⟨⟨by simpa [mergeStep] using hr, by simp [mergeStep]⟩, by simp [mergeStep],
      by simp [mergeStep]⟩
  | cons last rest =>
    have hle := hfirst last rfl
    have hrest : Merged rest :=
      ⟨fun q hq => h.valid q (List.mem_cons_of_mem _ hq), (List.pairwise_cons.mp h.separated).2⟩
    have hgap := (List.pairwise_cons.mp h.separated).1
    unfold mergeStep
    dsimp only
    by_cases htouch : (decide (r.first ≤ last.last) || adjacent last.last r.first) = true
    · -- the last interval grows to the right, if at all
      rw [if_pos htouch]
      have htouch' : r.first ≤ last.last + 1 := by
        simp only [adjacent, Bool.or_eq_true, decide_eq_true_eq] at htouch
        omega
      by_cases hgrows : last.last < r.last
      · rw [if_pos hgrows]
        refine ⟨⟨?_, ?_⟩, ?_, ?_⟩
        · intro q hq
          rcases List.mem_cons.mp hq with rfl | hq
          · show last.first ≤ r.last
            omega
          · exact hrest.valid q hq
        · exact List.pairwise_cons.mpr ⟨hgap, hrest.separated⟩
        · intro x
          simp only [inSome_cons, Has]
          by_cases hx : InSome rest x <;> simp only [hx, or_true, true_or, or_false]
          omega
        · intro q hq
          cases hq
          exact hle
      · rw [if_neg hgrows]
        refine ⟨h, ?_, ?_⟩
        · intro x
          simp only [inSome_cons, Has]
          by_cases hx : InSome rest x <;> simp only [hx, or_true, true_or, or_false]
          omega
        · intro q hq
          cases hq
          exact hle
    · rw [if_neg htouch]
      have hbeyond : last.last + 1 < r.first := by
        simp only [adjacent, Bool.or_eq_true, decide_eq_true_eq] at htouch
        omega
      refine ⟨⟨?_, ?_⟩, ?_, ?_⟩
      · intro q hq
        rcases List.mem_cons.mp hq with rfl | hq
        · exact hr
        · exact h.valid q hq
      · refine List.pairwise_cons.mpr ⟨?_, h.separated⟩
        intro q hq
        rcases List.mem_cons.mp hq with rfl | hq
        · exact hbeyond
        · have := hgap q hq
          omega
      · intro x
        rw [inSome_cons, or_comm]
      · intro q hq
        cases hq
        exact le_refl _

theorem merged_foldl {ranges merged : List NatRange} (h : Merged merged)
    (hvalid : ∀ r ∈ ranges, r.first ≤ r.last)
    (hsorted : ranges.Pairwise fun a b => a.first ≤ b.first)
    (hfirst : ∀ last, merged.head? = some last → ∀ r ∈ ranges, last.first ≤ r.first) :
    Merged (ranges.foldl mergeStep merged) ∧
      ∀ x, InSome (ranges.foldl mergeStep merged) x ↔ InSome merged x ∨ InSome ranges x := by
  induction ranges generalizing merged with
  | nil => exact ⟨h, by simp⟩
  | cons r ranges ih =>
    obtain ⟨hle, hsorted'⟩ := List.pairwise_cons.mp hsorted
    obtain ⟨hstep, hunion, hhead⟩ := merged_mergeStep h (hvalid r List.mem_cons_self)
      fun last hlast => hfirst last hlast r List.mem_cons_self
    obtain ⟨hmerged, hall⟩ := ih hstep (fun q hq => hvalid q (List.mem_cons_of_mem _ hq)) hsorted'
      fun last hlast q hq => (hhead last hlast).trans (hle q hq)
    refine ⟨hmerged, ?_⟩
    intro x
    rw [List.foldl_cons, hall, hunion, inSome_cons, or_assoc]

theorem merged_merge {ranges : List NatRange} (hvalid : ∀ r ∈ ranges, r.first ≤ r.last) :
    Merged (merge ranges).reverse ∧ ∀ x, InSome (merge ranges) x ↔ InSome ranges x := by
  have hperm := List.perm_insertionSort (fun a b : NatRange => a.first ≤ b.first) ranges
  have hsorted : (ranges.insertionSort fun a b => a.first ≤ b.first).Pairwise
      fun a b => a.first ≤ b.first := by
    exact List.pairwise_insertionSort _ ranges
  obtain ⟨hmerged, hunion⟩ := merged_foldl Merged.nil
    (fun r hr => hvalid r (hperm.mem_iff.mp hr)) hsorted (by simp)
  unfold merge
  rw [List.reverse_reverse]
  refine ⟨hmerged, ?_⟩
  intro x
  have hreverse : InSome (((ranges.insertionSort fun a b => a.first ≤ b.first).foldl mergeStep
      []).reverse) x ↔ InSome ((ranges.insertionSort fun a b => a.first ≤ b.first).foldl mergeStep
      []) x := by
    unfold InSome
    simp only [List.mem_reverse]
  rw [hreverse, hunion]
  unfold InSome
  simp only [List.not_mem_nil, false_and, exists_false, false_or, hperm.mem_iff]

theorem covers_of_merged {l : List NatRange} {target : NatRange} (h : Merged l)
    (htarget : target.first ≤ target.last) :
    covers l target = true ↔ ∀ x, target.Has x → InSome l x := by
  unfold covers
  rw [List.any_eq_true]
  constructor
  · rintro ⟨r, hr, hcovers⟩ x ⟨hfirst, hlast⟩
    simp only [Bool.and_eq_true, decide_eq_true_eq] at hcovers
    exact ⟨r, hr, hcovers.1.trans hfirst, hlast.trans hcovers.2⟩
  · intro hall
    obtain ⟨r, hr, hfirst, hlast⟩ := hall target.first ⟨le_refl _, htarget⟩
    refine ⟨r, hr, ?_⟩
    by_contra hshort
    simp only [Bool.and_eq_true, decide_eq_true_eq, not_and, not_le] at hshort
    -- the number after the end of the interval would be in another one that touches it
    obtain ⟨q, hq, hqfirst, hqlast⟩ := hall (r.last + 1) ⟨by omega, by omega⟩
    have hne : r ≠ q := by
      rintro rfl
      omega
    have hapart : l.Pairwise fun a b => b.last + 1 < a.first ∨ a.last + 1 < b.first :=
      h.separated.imp fun hab => .inl hab
    have : Std.Symm fun a b : NatRange => b.last + 1 < a.first ∨ a.last + 1 < b.first :=
      ⟨fun _ _ => Or.symm⟩
    rcases hapart.forall hr hq hne with hgap | hgap <;> omega

/-- The merged intervals cover a target exactly if the intervals have all its numbers. -/
theorem covers_merge {ranges : List NatRange} {target : NatRange}
    (hvalid : ∀ r ∈ ranges, r.first ≤ r.last) (htarget : target.first ≤ target.last) :
    covers (merge ranges) target = true ↔ ∀ x, target.Has x → InSome ranges x := by
  obtain ⟨hmerged, hunion⟩ := merged_merge hvalid
  have hreverse : covers (merge ranges) target = covers (merge ranges).reverse target := by
    unfold covers
    rw [List.any_reverse]
  rw [hreverse, covers_of_merged hmerged htarget]
  refine forall_congr' fun x => imp_congr_right fun _ => ?_
  rw [← hunion]
  unfold InSome
  simp only [List.mem_reverse]

example : merge [⟨4, 6⟩, ⟨0, 1⟩, ⟨2, 3⟩, ⟨9, 9⟩] = [⟨0, 6⟩, ⟨9, 9⟩] := by decide

end NatRange
