import AroHcp.Lib.AddrBytes
import AroHcp.Nsg.Exactness

/-! The union of prefixes on addresses and their bytes, as the evaluator computes it: the ranges of
the prefixes, sorted and merged, against the range of the destination. The evaluation works with the
numbers of the addresses; here both are shown to agree. -/

namespace Nsg.Addresses

open Netip

structure AddrRange where
  first : Addr
  last : Addr
deriving DecidableEq

/-- `sort.Slice` by the first address: in that order, in which equal ones may change places. -/
structure RangeSort where
  sort : List AddrRange → List AddrRange
  perm : ∀ ranges, (sort ranges).Perm ranges
  sorted : ∀ ranges, (sort ranges).Pairwise fun a b => ¬b.first.compare a.first < 0

/-! ## The ranges of prefixes -/

def lastAddrOfPrefix (p : Prefix) : Option Addr :=
  match p.addr.family with
  | .v4 =>
    let a := p.addr.as4
    let n := word a.1 a.2.1 a.2.2.1 a.2.2.2
    if 32 < p.bits then none
    else
      let hostBits := 32 - p.bits
      let n := if 0 < hostBits then n ||| (((1 : BitVec 32) <<< hostBits) - 1) else n
      some (addrFrom4 ((n >>> 24).setWidth 8, (n >>> 16).setWidth 8, (n >>> 8).setWidth 8,
        n.setWidth 8))
  | .v6 =>
    if 128 < p.bits then none
    else
      let hostBits := 128 - p.bits
      -- the loop runs from the last byte to the first
      some (addrFrom16 (setLowBits hostBits p.addr.as16.reverse).reverse (by simp [Addr.as16]))

/-- A `Prefix` is valid, so that the checks of `IsValid` have nothing to refuse. -/
def prefixToAddrRange (p : Prefix) : Option AddrRange :=
  let masked := p.masked
  let first := masked.addr
  match lastAddrOfPrefix masked with
  | none => none
  | some last => some ⟨first, last⟩

def intersectAddrRanges (a b : AddrRange) : AddrRange :=
  { first := if 0 < b.first.compare a.first then b.first else a.first
    last := if b.last.compare a.last < 0 then b.last else a.last }

/-! ## Merging -/

def adjacentAddrs (a b : Addr) : Bool :=
  if a.family ≠ b.family then false
  else a.next = some b || b.next = some a

/-- The body of the loop, with the last merged range at the head. -/
def mergeStep (merged : List AddrRange) (r : AddrRange) : List AddrRange :=
  match merged with
  | [] => [r]
  | last :: rest =>
    if r.first.compare last.last ≤ 0 || adjacentAddrs last.last r.first then
      (if 0 < r.last.compare last.last then { last with last := r.last } else last) :: rest
    else r :: last :: rest

variable (sorter : RangeSort)

def mergeAddrRanges (ranges : List AddrRange) : List AddrRange :=
  match sorter.sort ranges with
  | [] => []
  | first :: ranges => (ranges.foldl mergeStep [first]).reverse

def addrRangeCovers (ranges : List AddrRange) (dest : AddrRange) : Bool :=
  if ranges.isEmpty then false
  else (mergeAddrRanges sorter ranges).any fun r =>
    r.first.compare dest.first ≤ 0 && 0 ≤ r.last.compare dest.last

def partialAddrRange (dest : Prefix) (destRange : AddrRange) (p : Prefix) : Option AddrRange :=
  if !p.overlaps dest then none
  else match prefixToAddrRange p with
    | none => none
    | some partialRange => some (intersectAddrRanges partialRange destRange)

def prefixUnionCoversDest (partials : List Prefix) (dest : Prefix) : Bool :=
  match prefixToAddrRange dest with
  | none => false
  | some destRange =>
    let ranges := partials.filterMap (partialAddrRange dest destRange)
    if ranges.isEmpty then false
    else addrRangeCovers sorter (mergeAddrRanges sorter ranges) destRange

/-! ## Addresses and their numbers -/

def AddrRange.numbers (r : AddrRange) : NatRange :=
  ⟨r.first.value, r.last.value⟩

/-- Both ends are addresses of the family. -/
structure AddrRange.Of (f : Family) (r : AddrRange) : Prop where
  first : r.first.family = f
  last : r.last.family = f

/-- The bits of an IPv4 address are set in one word; with no bits in the prefix the shift leaves
nothing of the one, and the mask is the whole word. -/
theorem lastAddrOfPrefix_v4 {value bits : Nat} (hvalue : value < 2 ^ Family.v4.bitLen)
    (hbits : bits ≤ Family.v4.bitLen) :
    ∃ last, lastAddrOfPrefix ⟨⟨.v4, value, hvalue⟩, bits, hbits⟩ = some last ∧ last.family = .v4 ∧
      last.value = value ||| (2 ^ (32 - bits) - 1) := by
  have hword : (BitVec.ofNat 32 value).toNat = value := Nat.mod_eq_of_lt hvalue
  have hfits : ¬32 < bits := Nat.not_lt.mpr hbits
  unfold lastAddrOfPrefix Addr.as4
  rw [if_neg hfits, word_bytes]
  refine ⟨_, rfl, rfl, ?_⟩
  unfold addrFrom4
  dsimp only
  rw [word_bytes]
  by_cases hhost : 0 < 32 - bits
  · rw [if_pos hhost, BitVec.toNat_or, toNat_lowMask (Nat.sub_le 32 bits) (by decide), hword]
  · have hzero : 32 - bits = 0 := by omega
    rw [if_neg hhost, hzero, hword]
    simp

/-- Those of an IPv6 address are set byte by byte. -/
theorem lastAddrOfPrefix_v6 {value bits : Nat} (hvalue : value < 2 ^ Family.v6.bitLen)
    (hbits : bits ≤ Family.v6.bitLen) :
    ∃ last, lastAddrOfPrefix ⟨⟨.v6, value, hvalue⟩, bits, hbits⟩ = some last ∧ last.family = .v6 ∧
      last.value = value ||| (2 ^ (128 - bits) - 1) := by
  have hlength : 128 - bits ≤ 8 * (toBytes 16 value).length := by
    rw [length_toBytes]
    omega
  have hfits : ¬128 < bits := Nat.not_lt.mpr hbits
  unfold lastAddrOfPrefix
  rw [if_neg hfits]
  refine ⟨_, rfl, rfl, ?_⟩
  unfold addrFrom16 Addr.as16
  dsimp only
  rw [List.reverse_reverse, List.reverse_reverse, ofBytes_setLowBits hlength, ofBytes_toBytes hvalue]

theorem lastAddrOfPrefix_eq (p : Prefix) :
    ∃ last, lastAddrOfPrefix p = some last ∧ last.family = p.addr.family ∧
      last.value = p.addr.value ||| (2 ^ p.hostBits - 1) := by
  obtain ⟨⟨family, value, hvalue⟩, bits, hbits⟩ := p
  cases family with
  | v4 => exact lastAddrOfPrefix_v4 hvalue hbits
  | v6 => exact lastAddrOfPrefix_v6 hvalue hbits

theorem prefixToAddrRange_eq (p : Prefix) :
    ∃ r, prefixToAddrRange p = some r ∧ r.Of p.addr.family ∧ r.numbers = p.range := by
  obtain ⟨last, hlast, hfamily, hvalue⟩ := lastAddrOfPrefix_eq p.masked
  refine ⟨⟨p.masked.addr, last⟩, ?_, ⟨rfl, hfamily⟩, ?_⟩
  · unfold prefixToAddrRange
    dsimp only
    rw [hlast]
  · unfold AddrRange.numbers Prefix.range
    rw [hvalue]
    rfl

variable {f : Family} {a b r dest : AddrRange} {ranges merged : List AddrRange}

theorem intersectAddrRanges_of (ha : a.Of f) (hb : b.Of f) : (intersectAddrRanges a b).Of f := by
  constructor
  · unfold intersectAddrRanges
    dsimp only
    split_ifs
    · exact hb.first
    · exact ha.first
  · unfold intersectAddrRanges
    dsimp only
    split_ifs
    · exact hb.last
    · exact ha.last

theorem numbers_intersectAddrRanges (ha : a.Of f) (hb : b.Of f) :
    (intersectAddrRanges a b).numbers = a.numbers.inter b.numbers := by
  have hfirst := Addr.compare_pos (hb.first.trans ha.first.symm)
  have hlast := Addr.compare_neg (hb.last.trans ha.last.symm)
  unfold intersectAddrRanges AddrRange.numbers NatRange.inter
  dsimp only
  congr 1
  · by_cases hlt : a.first.value < b.first.value
    · rw [if_pos (hfirst.mpr hlt)]
      omega
    · rw [if_neg (mt hfirst.mp hlt)]
      omega
  · by_cases hlt : b.last.value < a.last.value
    · rw [if_pos (hlast.mpr hlt)]
      omega
    · rw [if_neg (mt hlast.mp hlt)]
      omega

/-- Addresses of a family are adjacent exactly if their numbers are: the last address has none after
it, and no number of an address is beyond it. -/
theorem adjacentAddrs_eq {a b : Addr} (h : a.family = b.family) :
    adjacentAddrs a b = NatRange.adjacent a.value b.value := by
  unfold adjacentAddrs NatRange.adjacent
  simp only [if_neg (not_not_intro h), Addr.next_eq_some h, Addr.next_eq_some h.symm]

theorem touches_eq {a b : Addr} (h : a.family = b.family) :
    (decide (b.compare a ≤ 0) || adjacentAddrs a b) =
      (decide (b.value ≤ a.value) || NatRange.adjacent a.value b.value) := by
  rw [adjacentAddrs_eq h]
  congr 1
  rw [decide_eq_decide, ← not_lt, Addr.compare_pos h.symm, not_lt]

theorem mergeStep_of (hmerged : ∀ q ∈ merged, q.Of f) (hr : r.Of f) :
    (∀ q ∈ mergeStep merged r, q.Of f) ∧
      (mergeStep merged r).map AddrRange.numbers =
        NatRange.mergeStep (merged.map AddrRange.numbers) r.numbers := by
  cases merged with
  | nil => exact ⟨by simpa [mergeStep] using hr, rfl⟩
  | cons last rest =>
    have hlast := hmerged last List.mem_cons_self
    have htouches := touches_eq (hlast.last.trans hr.first.symm)
    have hgrows := Addr.compare_pos (hr.last.trans hlast.last.symm)
    have hnumbers : NatRange.mergeStep ((last :: rest).map AddrRange.numbers) r.numbers =
        if (decide (r.first.value ≤ last.last.value) ||
            NatRange.adjacent last.last.value r.first.value) = true then
          (if last.last.value < r.last.value then ⟨last.first.value, r.last.value⟩
            else last.numbers) ::
            rest.map AddrRange.numbers
        else r.numbers :: last.numbers :: rest.map AddrRange.numbers := rfl
    rw [hnumbers]
    unfold mergeStep
    simp only [htouches, hgrows]
    by_cases htouch : (decide (r.first.value ≤ last.last.value) ||
        NatRange.adjacent last.last.value r.first.value) = true
    · rw [if_pos htouch, if_pos htouch]
      by_cases hlt : last.last.value < r.last.value
      · rw [if_pos hlt, if_pos hlt]
        refine ⟨?_, rfl⟩
        intro q hq
        rcases List.mem_cons.mp hq with rfl | hq
        · exact ⟨hlast.first, hr.last⟩
        · exact hmerged q (List.mem_cons_of_mem _ hq)
      · rw [if_neg hlt, if_neg hlt]
        exact ⟨hmerged, rfl⟩
    · rw [if_neg htouch, if_neg htouch]
      refine ⟨?_, rfl⟩
      intro q hq
      rcases List.mem_cons.mp hq with rfl | hq
      · exact hr
      · exact hmerged q hq

theorem foldl_mergeStep_of (hmerged : ∀ q ∈ merged, q.Of f) (hranges : ∀ r ∈ ranges, r.Of f) :
    (∀ q ∈ ranges.foldl mergeStep merged, q.Of f) ∧
      (ranges.foldl mergeStep merged).map AddrRange.numbers =
        (ranges.map AddrRange.numbers).foldl NatRange.mergeStep (merged.map AddrRange.numbers) := by
  induction ranges generalizing merged with
  | nil => exact ⟨hmerged, rfl⟩
  | cons r ranges ih =>
    obtain ⟨hof, hnumbers⟩ := mergeStep_of hmerged (hranges r List.mem_cons_self)
    obtain ⟨hof', hnumbers'⟩ := ih hof fun q hq => hranges q (List.mem_cons_of_mem _ hq)
    refine ⟨hof', ?_⟩
    rw [List.foldl_cons, hnumbers', hnumbers]
    rfl

theorem mergeAddrRanges_eq_foldl :
    mergeAddrRanges sorter ranges = ((sorter.sort ranges).foldl mergeStep []).reverse := by
  unfold mergeAddrRanges
  cases sorter.sort ranges with
  | nil => rfl
  | cons first rest => rfl

/-! ## The merged ranges -/

/-- Ranges of one family, none of them empty. -/
structure RangesOf (f : Family) (ranges : List AddrRange) : Prop where
  of : ∀ r ∈ ranges, r.Of f
  valid : ∀ r ∈ ranges.map AddrRange.numbers, r.first ≤ r.last

theorem pairwise_numbers_sort (hof : ∀ r ∈ ranges, r.Of f) :
    ((sorter.sort ranges).map AddrRange.numbers).Pairwise fun a b => a.first ≤ b.first := by
  rw [List.pairwise_map]
  refine (sorter.sorted ranges).imp_of_mem ?_
  intro a b ha hb hle
  have ha' := (hof a ((sorter.perm ranges).mem_iff.mp ha)).first
  have hb' := (hof b ((sorter.perm ranges).mem_iff.mp hb)).first
  rw [Addr.compare_neg (hb'.trans ha'.symm)] at hle
  exact Nat.le_of_not_lt hle

/-- Merging leaves gaps between the ranges and keeps their addresses, whatever order the sort gives
to ranges with the same first address. -/
theorem mergeAddrRanges_spec (h : RangesOf f ranges) :
    RangesOf f (mergeAddrRanges sorter ranges) ∧
      NatRange.Merged ((mergeAddrRanges sorter ranges).map AddrRange.numbers).reverse ∧
      ∀ x, NatRange.InSome ((mergeAddrRanges sorter ranges).map AddrRange.numbers) x ↔
        NatRange.InSome (ranges.map AddrRange.numbers) x := by
  have hperm := (sorter.perm ranges).map AddrRange.numbers
  obtain ⟨hof, hnumbers⟩ := foldl_mergeStep_of (f := f) (List.forall_mem_nil _)
    fun r hr => h.of r ((sorter.perm ranges).mem_iff.mp hr)
  obtain ⟨hmerged, hunion⟩ := NatRange.merged_foldl NatRange.Merged.nil
    (fun r hr => h.valid r (hperm.mem_iff.mp hr)) (pairwise_numbers_sort sorter h.of) (by simp)
  rw [mergeAddrRanges_eq_foldl, List.map_reverse, hnumbers, List.map_nil]
  refine ⟨⟨?_, ?_⟩, ?_, ?_⟩
  · intro r hr
    exact hof r (List.mem_reverse.mp hr)
  · intro r hr
    rw [List.map_reverse, hnumbers, List.map_nil] at hr
    exact hmerged.valid r (List.mem_reverse.mp hr)
  · rw [List.reverse_reverse]
    exact hmerged
  · intro x
    have hx := hunion x
    unfold NatRange.InSome at hx ⊢
    simpa [hperm.mem_iff] using hx

/-- One range covers the destination after merging exactly if the ranges have all its addresses. -/
theorem addrRangeCovers_iff (h : RangesOf f ranges) (hdest : dest.Of f)
    (hle : dest.numbers.first ≤ dest.numbers.last) :
    addrRangeCovers sorter ranges dest = true ↔
      ∀ x, dest.numbers.Has x → NatRange.InSome (ranges.map AddrRange.numbers) x := by
  obtain ⟨hof, hmerged, hunion⟩ := mergeAddrRanges_spec sorter h
  have hcovers : ∀ r ∈ mergeAddrRanges sorter ranges,
      (decide (r.first.compare dest.first ≤ 0) && decide (0 ≤ r.last.compare dest.last)) =
        (decide (r.numbers.first ≤ dest.numbers.first) &&
          decide (dest.numbers.last ≤ r.numbers.last)) := by
    intro r hr
    have hfirst := Addr.compare_pos ((hof.of r hr).first.trans hdest.first.symm)
    have hlast := Addr.compare_neg ((hof.of r hr).last.trans hdest.last.symm)
    congr 1
    · rw [decide_eq_decide, ← not_lt, hfirst, not_lt]
      rfl
    · rw [decide_eq_decide, ← not_lt, hlast, not_lt]
      rfl
  have hany : ((mergeAddrRanges sorter ranges).any fun r =>
      r.first.compare dest.first ≤ 0 && 0 ≤ r.last.compare dest.last) =
      NatRange.covers ((mergeAddrRanges sorter ranges).map AddrRange.numbers).reverse
        dest.numbers := by
    unfold NatRange.covers
    rw [List.any_reverse, List.any_map, Bool.eq_iff_iff, List.any_eq_true, List.any_eq_true]
    refine exists_congr fun r => and_congr_right fun hr => ?_
    rw [hcovers r hr]
    rfl
  have hsome : ∀ x, NatRange.InSome
      ((mergeAddrRanges sorter ranges).map AddrRange.numbers).reverse x ↔
      NatRange.InSome (ranges.map AddrRange.numbers) x := by
    intro x
    rw [← hunion]
    unfold NatRange.InSome
    simp only [List.mem_reverse]
  unfold addrRangeCovers
  by_cases hempty : ranges.isEmpty = true
  · rw [if_pos hempty, List.isEmpty_iff.mp hempty]
    exact iff_of_false nofun fun h => NatRange.inSome_nil _ (h _ ⟨le_rfl, hle⟩)
  · rw [if_neg hempty, hany, NatRange.covers_of_merged hmerged hle]
    exact forall_congr' fun x => imp_congr_right fun _ => hsome x

/-! ## The union of prefixes -/

variable {partials : List Prefix} {dest : Prefix}

theorem partialAddrRange_of_overlaps {p : Prefix} {destRange : AddrRange}
    (hof : destRange.Of dest.addr.family) (hnumbers : destRange.numbers = dest.range)
    (h : p.overlaps dest = true) :
    ∃ r, partialAddrRange dest destRange p = some r ∧ r.Of dest.addr.family ∧
      r.numbers = p.range.inter dest.range := by
  obtain ⟨a, hpa, hda⟩ := Prefix.exists_common_of_overlaps h
  have hfamily : p.addr.family = dest.addr.family :=
    (Prefix.contains_iff.mp hpa).1.trans (Prefix.contains_iff.mp hda).1.symm
  obtain ⟨r, hr, hrof, hrnumbers⟩ := prefixToAddrRange_eq p
  rw [hfamily] at hrof
  refine ⟨intersectAddrRanges r destRange, ?_, intersectAddrRanges_of hrof hof, ?_⟩
  · unfold partialAddrRange
    rw [h, hr]
    rfl
  · rw [numbers_intersectAddrRanges hrof hof, hrnumbers, hnumbers]

/-- The ranges that the loop over the prefixes collects are those of the prefixes within the
destination. -/
theorem filterMap_partialAddrRange {destRange : AddrRange} (hof : destRange.Of dest.addr.family)
    (hnumbers : destRange.numbers = dest.range) :
    (∀ r ∈ partials.filterMap (partialAddrRange dest destRange), r.Of dest.addr.family) ∧
      (partials.filterMap (partialAddrRange dest destRange)).map AddrRange.numbers =
        partialRanges partials dest := by
  induction partials with
  | nil => exact ⟨by simp, rfl⟩
  | cons p partials ih =>
    obtain ⟨ihof, ihnumbers⟩ := ih
    by_cases h : p.overlaps dest = true
    · obtain ⟨r, hr, hrof, hrnumbers⟩ := partialAddrRange_of_overlaps hof hnumbers h
      rw [List.filterMap_cons_some hr]
      constructor
      · intro q hq
        rcases List.mem_cons.mp hq with rfl | hq
        · exact hrof
        · exact ihof q hq
      · unfold partialRanges at ihnumbers ⊢
        rw [List.filter_cons, if_pos h, List.map_cons, List.map_cons, ihnumbers, hrnumbers]
    · have hnone : partialAddrRange dest destRange p = none := by
        unfold partialAddrRange
        simp [h]
      rw [List.filterMap_cons_none hnone]
      refine ⟨ihof, ?_⟩
      unfold partialRanges at ihnumbers ⊢
      rw [List.filter_cons, if_neg h, ihnumbers]

/-- On addresses and their bytes the union covers the destination exactly if the ranges of numbers
have all its addresses. -/
theorem prefixUnionCoversDest_iff_ranges :
    prefixUnionCoversDest sorter partials dest = true ↔
      ∀ x, dest.range.Has x → NatRange.InSome (partialRanges partials dest) x := by
  obtain ⟨destRange, hdest, hof, hnumbers⟩ := prefixToAddrRange_eq dest
  obtain ⟨hrof, hrnumbers⟩ := @filterMap_partialAddrRange partials dest destRange hof hnumbers
  have hle : destRange.numbers.first ≤ destRange.numbers.last := by
    rw [hnumbers]
    exact Prefix.first_le_last
  have hranges : RangesOf dest.addr.family
      (partials.filterMap (partialAddrRange dest destRange)) := by
    refine ⟨hrof, ?_⟩
    rw [hrnumbers]
    exact partialRanges_valid
  unfold prefixUnionCoversDest
  rw [hdest]
  dsimp only
  rw [← hrnumbers, ← hnumbers]
  generalize partials.filterMap (partialAddrRange dest destRange) = ranges at hranges ⊢
  obtain ⟨hmerged, -, hunion⟩ := mergeAddrRanges_spec sorter hranges
  by_cases hempty : ranges.isEmpty = true
  · rw [if_pos hempty, List.isEmpty_iff.mp hempty]
    exact iff_of_false nofun fun h => NatRange.inSome_nil _ (h _ ⟨le_rfl, hle⟩)
  · rw [if_neg hempty, addrRangeCovers_iff sorter hmerged hof hle]
    exact forall_congr' fun x => imp_congr_right fun _ => hunion x

/-- The evaluation's own union, on the numbers of the addresses, gives the same verdict. -/
theorem prefixUnionCoversDest_eq :
    prefixUnionCoversDest sorter partials dest = Nsg.prefixUnionCoversDest partials dest := by
  rw [Bool.eq_iff_iff, prefixUnionCoversDest_iff_ranges, Nsg.prefixUnionCoversDest_iff,
    forall_inSome_partialRanges]

/-- The union of the prefixes covers the destination exactly if each of its addresses is in a prefix
of its family. -/
theorem prefixUnionCoversDest_exact (sorter : RangeSort) (partials : List Prefix) (dest : Prefix) :
    prefixUnionCoversDest sorter partials dest = true ↔
      ∀ a, dest.contains a = true →
        ∃ p ∈ partials, p.addr.family = dest.addr.family ∧ p.contains a = true := by
  rw [prefixUnionCoversDest_iff_ranges, forall_inSome_partialRanges]
  refine forall_congr' fun a => imp_congr_right fun ha => ?_
  refine exists_congr fun p => and_congr_right fun _ => ?_
  rw [iff_and_self]
  intro hp
  exact (Prefix.contains_iff.mp hp).1.trans (Prefix.contains_iff.mp ha).1.symm

/-! ### A sort -/

theorem compare_neg_iff (a b : Addr) :
    a.compare b < 0 ↔ a.family.bitLen < b.family.bitLen ∨
      (a.family.bitLen = b.family.bitLen ∧ a.value < b.value) := by
  unfold Addr.compare
  split_ifs <;> omega

/-- Insertion in the order of the first addresses. -/
def RangeSort.insertion : RangeSort where
  sort ranges := ranges.insertionSort fun a b => ¬b.first.compare a.first < 0
  perm ranges := List.perm_insertionSort _ ranges
  sorted ranges := by
    have : Std.Total fun a b : AddrRange => ¬b.first.compare a.first < 0 := by
      constructor
      intro a b
      rw [compare_neg_iff, compare_neg_iff]
      omega
    have : IsTrans AddrRange fun a b => ¬b.first.compare a.first < 0 := by
      constructor
      intro a b c
      rw [compare_neg_iff, compare_neg_iff, compare_neg_iff]
      omega
    exact List.pairwise_insertionSort _ ranges

/-- The two halves of the IPv4 addresses cover them to the last one, 255.255.255.255; the upper half
of an IPv6 prefix does not cover it, whatever IPv4 prefixes are listed. -/
theorem prefixUnionCoversDest_exact_halves :
    let v4 (value bits : Nat) (hvalue : value < 2 ^ 32) (hbits : bits ≤ 32) : Prefix :=
      ⟨⟨.v4, value, hvalue⟩, bits, hbits⟩
    let v6 (value bits : Nat) (hvalue : value < 2 ^ 128) (hbits : bits ≤ 128) : Prefix :=
      ⟨⟨.v6, value, hvalue⟩, bits, hbits⟩
    let upper := v4 0xc0a80000 1 (by decide) (by decide)
    let lower := v4 0 1 (by decide) (by decide)
    let all := v4 0 0 (by decide) (by decide)
    let top := v6 (2 ^ 128 - 1) 122 (by decide) (by decide)
    let topHalf := v6 (2 ^ 128 - 1) 123 (by decide) (by decide)
    (∀ a, all.contains a = true →
      ∃ p ∈ [upper, lower, topHalf], p.addr.family = all.addr.family ∧ p.contains a = true) ∧
    ¬∀ a, top.contains a = true →
      ∃ p ∈ [upper, lower, topHalf], p.addr.family = top.addr.family ∧ p.contains a = true := by
  intro v4 v6 upper lower all top topHalf
  constructor
  · exact (prefixUnionCoversDest_exact RangeSort.insertion _ _).mp (by decide +kernel)
  · intro h
    have := (prefixUnionCoversDest_exact RangeSort.insertion _ _).mpr h
    revert this
    decide +kernel

end Nsg.Addresses
