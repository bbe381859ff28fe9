import AroHcp.Lib.Netip
import Mathlib.Tactic.IntervalCases

/-! The bytes of addresses, and the order of addresses in Go's `net/netip`. -/

namespace Netip

abbrev Byte := BitVec 8

/-! ## Numbers as bytes, the least significant first -/

def toBytes : Nat → Nat → List Byte
  | 0, _ => []
  | n + 1, x => BitVec.ofNat 8 x :: toBytes n (x / 256)

def ofBytes : List Byte → Nat
  | [] => 0
  | b :: bs => b.toNat + 256 * ofBytes bs

@[simp] theorem length_toBytes (n x : Nat) : (toBytes n x).length = n := by
  induction n generalizing x with
  | zero => rfl
  | succ n ih => rw [toBytes, List.length_cons, ih]

theorem ofBytes_lt (bs : List Byte) : ofBytes bs < 2 ^ (8 * bs.length) := by
  induction bs with
  | nil => decide
  | cons b bs ih =>
    rw [List.length_cons, Nat.mul_succ, pow_add]
    unfold ofBytes
    omega

theorem ofBytes_toBytes {n x : Nat} (h : x < 2 ^ (8 * n)) : ofBytes (toBytes n x) = x := by
  induction n generalizing x with
  | zero =>
    have : x = 0 := by simpa using h
    rw [this]
    rfl
  | succ n ih =>
    rw [Nat.mul_succ, pow_add] at h
    have hrest : x / 256 < 2 ^ (8 * n) := by omega
    rw [toBytes, ofBytes, ih hrest, BitVec.toNat_ofNat]
    omega

def setLowBits (hostBits : Nat) : List Byte → List Byte
  | [] => []
  | b :: bs =>
    if hostBits = 0 then b :: bs
    else if 8 ≤ hostBits then 0xff :: setLowBits (hostBits - 8) bs
    else (b ||| (((1 : Byte) <<< hostBits) - 1)) :: setLowBits 0 bs

@[simp] theorem setLowBits_zero (bs : List Byte) : setLowBits 0 bs = bs := by
  cases bs <;> simp [setLowBits]

@[simp] theorem length_setLowBits (h : Nat) (bs : List Byte) :
    (setLowBits h bs).length = bs.length := by
  induction bs generalizing h with
  | nil => rfl
  | cons b bs ih =>
    unfold setLowBits
    split_ifs <;> simp [ih]

theorem toNat_lowMask {w h : Nat} (hle : h ≤ w) (hpos : 0 < w) :
    (((1 : BitVec w) <<< h) - 1).toNat = 2 ^ h - 1 := by
  have hw : 1 < 2 ^ w := Nat.one_lt_two_pow hpos.ne'
  have hone : (1 : BitVec w).toNat = 1 := Nat.mod_eq_of_lt hw
  rw [BitVec.toNat_sub, BitVec.toNat_shiftLeft, hone, Nat.one_shiftLeft]
  rcases hle.lt_or_eq with hlt | rfl
  · have hpow : 2 ^ h < 2 ^ w := Nat.pow_lt_pow_right (by decide) hlt
    have := Nat.two_pow_pos h
    rw [Nat.mod_eq_of_lt hpow]
    have hsum : 2 ^ w - 1 + 2 ^ h = 2 ^ h - 1 + 2 ^ w := by omega
    rw [hsum, Nat.add_mod_right, Nat.mod_eq_of_lt (by omega)]
  · rw [Nat.mod_self, Nat.add_zero, Nat.mod_eq_of_lt (by omega)]

theorem ofBytes_cons_eq_or (b : Byte) (bs : List Byte) :
    ofBytes (b :: bs) = ofBytes bs <<< 8 ||| b.toNat := by
  rw [← Nat.shiftLeft_add_eq_or_of_lt b.isLt, Nat.shiftLeft_eq, ofBytes]
  omega

theorem ofBytes_setLowBits {h : Nat} {bs : List Byte} (hle : h ≤ 8 * bs.length) :
    ofBytes (setLowBits h bs) = ofBytes bs ||| (2 ^ h - 1) := by
  induction bs generalizing h with
  | nil =>
    have : h = 0 := by simpa using hle
    rw [this]
    rfl
  | cons b bs ih =>
    rw [List.length_cons] at hle
    unfold setLowBits
    by_cases hzero : h = 0
    · rw [if_pos hzero, hzero]
      simp
    · rw [if_neg hzero]
      apply Nat.eq_of_testBit_eq
      intro i
      by_cases hfull : 8 ≤ h
      · have hff : (0xff : Byte).toNat = 2 ^ 8 - 1 := by decide
        rw [if_pos hfull, ofBytes_cons_eq_or, ofBytes_cons_eq_or, ih (by omega), hff]
        simp only [Nat.testBit_or, Nat.testBit_shiftLeft, Nat.testBit_two_pow_sub_one]
        by_cases hi : 8 ≤ i
        · have hhigh : b.toNat.testBit i = false :=
            Nat.testBit_lt_two_pow (b.isLt.trans_le (Nat.pow_le_pow_right (by decide) hi))
          have hiff : (i - 8 < h - 8) ↔ i < h := by omega
          simp [hi, hhigh, hiff]
        · have : i < h := by omega
          simp [hi, this]
          omega
      · have hmask : (((1 : Byte) <<< h) - 1).toNat = 2 ^ h - 1 :=
          toNat_lowMask (by omega) (by decide)
        rw [if_neg hfull, setLowBits_zero, ofBytes_cons_eq_or, ofBytes_cons_eq_or, BitVec.toNat_or,
          hmask,
          Nat.or_assoc]

/-! ## The bytes of an address -/

/-- A 32-bit word of its bytes, the most significant first. -/
def word (a b c d : Byte) : BitVec 32 :=
  a.setWidth 32 <<< 24 ||| b.setWidth 32 <<< 16 ||| c.setWidth 32 <<< 8 ||| d.setWidth 32

theorem word_bytes (n : BitVec 32) :
    word ((n >>> 24).setWidth 8) ((n >>> 16).setWidth 8) ((n >>> 8).setWidth 8) (n.setWidth 8) =
      n := by
  apply BitVec.eq_of_getLsbD_eq
  intro i hi
  unfold word
  interval_cases i <;> simp

def Addr.as4 (a : Addr) : Byte × Byte × Byte × Byte :=
  let n := BitVec.ofNat 32 a.value
  ((n >>> 24).setWidth 8, (n >>> 16).setWidth 8, (n >>> 8).setWidth 8, n.setWidth 8)

def addrFrom4 (bytes : Byte × Byte × Byte × Byte) : Addr :=
  ⟨.v4, (word bytes.1 bytes.2.1 bytes.2.2.1 bytes.2.2.2).toNat, BitVec.isLt _⟩

/-- `Addr.As16` of an IPv6 address, the most significant byte first. -/
def Addr.as16 (a : Addr) : List Byte :=
  (toBytes 16 a.value).reverse

def addrFrom16 (bytes : List Byte) (h : bytes.length = 16) : Addr :=
  ⟨.v6, ofBytes bytes.reverse, by simpa [h, Family.bitLen] using ofBytes_lt bytes.reverse⟩

/-! ## Order -/

def Addr.compare (a b : Addr) : Int :=
  if a.family.bitLen < b.family.bitLen then -1
  else if b.family.bitLen < a.family.bitLen then 1
  else if a.value < b.value then -1
  else if b.value < a.value then 1
  else 0

def Addr.next (a : Addr) : Option Addr :=
  if h : a.value + 1 < 2 ^ a.family.bitLen then some ⟨a.family, a.value + 1, h⟩ else none

variable {a b : Addr}

section

variable (h : a.family = b.family)

include h

theorem Addr.compare_eq :
    a.compare b = if a.value < b.value then -1 else if b.value < a.value then 1 else 0 := by
  unfold compare
  rw [h]
  simp

theorem Addr.compare_neg : a.compare b < 0 ↔ a.value < b.value := by
  rw [compare_eq h]
  split_ifs <;> omega

theorem Addr.compare_pos : 0 < a.compare b ↔ b.value < a.value := by
  rw [compare_eq h]
  split_ifs <;> omega

/-- The next address of one is the other exactly if it is one greater: past the last address there
is none to be equal to. -/
theorem Addr.next_eq_some : a.next = some b ↔ a.value + 1 = b.value := by
  obtain ⟨f, x, hx⟩ := a
  obtain ⟨g, y, hy⟩ := b
  obtain rfl : f = g := h
  unfold next
  dsimp only
  split_ifs with hlt
  · simp
  · simp only [false_iff]
    omega

end

namespace Prefix

variable (p : Prefix)

def masked : Prefix :=
  ⟨⟨p.addr.family, p.first, lt_of_le_of_lt first_le_last last_lt⟩, p.bits, p.bits_le⟩

end Prefix

end Netip
