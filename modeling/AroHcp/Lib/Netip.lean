import AroHcp.Lib.GoStrings
import AroHcp.Lib.Intervals
import Mathlib.Data.Nat.Bitwise

/-! Addresses and prefixes of Go's `net/netip`: an address is the number of its bits, a prefix is an
address and a number of leading bits. -/

namespace Netip

inductive Family where
  | v4
  | v6
deriving DecidableEq, Repr

def Family.bitLen : Family → Nat
  | .v4 => 32
  | .v6 => 128

structure Addr where
  family : Family
  value : Nat
  bound : value < 2 ^ family.bitLen
deriving DecidableEq

/-- A valid `netip.Prefix`: no more bits than the address has. -/
structure Prefix where
  addr : Addr
  bits : Nat
  bits_le : bits ≤ addr.family.bitLen
deriving DecidableEq

/-- `netip.PrefixFrom` with all the bits of the address. -/
def Prefix.ofAddr (a : Addr) : Prefix :=
  ⟨a, a.family.bitLen, le_refl _⟩

namespace Prefix

variable (p q : Prefix)

def hostBits : Nat :=
  p.addr.family.bitLen - p.bits

def contains (a : Addr) : Bool :=
  p.addr.family = a.family && a.value >>> p.hostBits = p.addr.value >>> p.hostBits

/-- `Prefix.Overlaps`: the bits that both prefixes fix agree. -/
def overlaps : Bool :=
  let shift := p.addr.family.bitLen - min p.bits q.bits
  p.addr.family = q.addr.family && p.addr.value >>> shift = q.addr.value >>> shift

/-- The address of `Prefix.Masked`. -/
def first : Nat :=
  p.addr.value >>> p.hostBits <<< p.hostBits

/-- The masked address with all host bits set. -/
def last : Nat :=
  p.first ||| (2 ^ p.hostBits - 1)

def range : NatRange :=
  ⟨p.first, p.last⟩

variable {p q : Prefix} {a : Addr}

theorem first_eq : p.first = p.addr.value / 2 ^ p.hostBits * 2 ^ p.hostBits := by
  unfold first
  rw [Nat.shiftLeft_eq, Nat.shiftRight_eq_div_pow]

theorem last_eq : p.last = p.first + (2 ^ p.hostBits - 1) := by
  have hlt : 2 ^ p.hostBits - 1 < 2 ^ p.hostBits := by
    have := Nat.two_pow_pos p.hostBits
    omega
  unfold last first
  rw [← Nat.shiftLeft_add_eq_or_of_lt hlt]

theorem first_le_last : p.first ≤ p.last := by
  rw [last_eq]
  omega

theorem contains_iff :
    p.contains a = true ↔ p.addr.family = a.family ∧ p.range.Has a.value := by
  unfold contains range NatRange.Has
  dsimp only
  rw [Bool.and_eq_true, decide_eq_true_eq, decide_eq_true_eq, last_eq, first_eq,
    Nat.shiftRight_eq_div_pow, Nat.shiftRight_eq_div_pow]
  have hpos := Nat.two_pow_pos p.hostBits
  refine and_congr_right fun _ => ?_
  rw [Nat.div_eq_iff hpos]
  omega

theorem contains_addr : p.contains p.addr = true := by
  simp [contains]

theorem shiftRight_congr {m n i j : Nat} (h : m >>> i = n >>> i) (hij : i ≤ j) :
    m >>> j = n >>> j := by
  obtain ⟨d, rfl⟩ := Nat.exists_eq_add_of_le hij
  rw [Nat.shiftRight_add, Nat.shiftRight_add, h]

theorem overlaps_comm : p.overlaps q = q.overlaps p := by
  unfold overlaps
  by_cases hfamily : p.addr.family = q.addr.family
  · simp only [hfamily, decide_true, Bool.true_and, min_comm p.bits]
    rw [decide_eq_decide]
    exact eq_comm
  · simp [hfamily, Ne.symm hfamily]

theorem overlaps_of_bits_le (h : p.bits ≤ q.bits) : p.overlaps q = p.contains q.addr := by
  unfold overlaps contains hostBits
  rw [min_eq_left h]
  simp only [eq_comm]

theorem contains_of_covers (hbits : p.bits ≤ q.bits) (hcontains : p.contains q.addr = true)
    (ha : q.contains a = true) : p.contains a = true := by
  simp only [contains, Bool.and_eq_true, decide_eq_true_eq] at hcontains ha ⊢
  refine ⟨hcontains.1.trans ha.1, ?_⟩
  rw [← hcontains.2]
  refine shiftRight_congr ha.2 ?_
  unfold hostBits
  rw [hcontains.1]
  omega

theorem exists_common_of_overlaps (h : p.overlaps q = true) :
    ∃ a, p.contains a = true ∧ q.contains a = true := by
  rcases le_total p.bits q.bits with hbits | hbits
  · rw [overlaps_of_bits_le hbits] at h
    exact ⟨q.addr, h, contains_addr⟩
  · rw [overlaps_comm, overlaps_of_bits_le hbits] at h
    exact ⟨p.addr, contains_addr, h⟩

theorem overlaps_of_common (hp : p.contains a = true) (hq : q.contains a = true) :
    p.overlaps q = true := by
  have hfamily : p.addr.family = q.addr.family := by
    rw [contains_iff] at hp hq
    exact hp.1.trans hq.1.symm
  simp only [contains, Bool.and_eq_true, decide_eq_true_eq] at hp hq
  simp only [overlaps, Bool.and_eq_true, decide_eq_true_eq]
  refine ⟨hfamily, ?_⟩
  calc p.addr.value >>> (p.addr.family.bitLen - min p.bits q.bits)
      = a.value >>> (p.addr.family.bitLen - min p.bits q.bits) := by
        refine (shiftRight_congr hp.2 ?_).symm
        unfold hostBits
        omega
    _ = q.addr.value >>> (p.addr.family.bitLen - min p.bits q.bits) := by
        refine shiftRight_congr hq.2 ?_
        unfold hostBits
        rw [hfamily]
        omega

theorem last_lt : p.last < 2 ^ p.addr.family.bitLen := by
  have hdvd : 2 ^ p.addr.family.bitLen = 2 ^ p.bits * 2 ^ p.hostBits := by
    rw [← pow_add]
    congr 1
    have := p.bits_le
    unfold hostBits
    omega
  have hlt : p.addr.value / 2 ^ p.hostBits < 2 ^ p.bits := by
    rw [Nat.div_lt_iff_lt_mul (Nat.two_pow_pos _), ← hdvd]
    exact p.addr.bound
  have hpos := Nat.two_pow_pos p.hostBits
  rw [last_eq, first_eq, hdvd]
  calc p.addr.value / 2 ^ p.hostBits * 2 ^ p.hostBits + (2 ^ p.hostBits - 1)
      < p.addr.value / 2 ^ p.hostBits * 2 ^ p.hostBits + 2 ^ p.hostBits := by omega
    _ = (p.addr.value / 2 ^ p.hostBits + 1) * 2 ^ p.hostBits := by rw [Nat.succ_mul]
    _ ≤ 2 ^ p.bits * 2 ^ p.hostBits := Nat.mul_le_mul_right _ hlt

end Prefix

/-- The texts of prefixes and addresses, with what the package documents of them. -/
structure TextForm where
  parsePrefix : String → Except String Prefix
  parseAddr : String → Except String Addr
  string : Prefix → String
  /-- A prefix is read back from its text. -/
  parsePrefix_string : ∀ p, parsePrefix (string p) = .ok p
  /-- The text of a prefix is in CIDR notation. -/
  string_contains_slash : ∀ p, GoStrings.contains (string p) "/" = true
  trimSpace_string : ∀ p, GoStrings.trimSpace (string p) = string p
  /-- An address is written with dots or with colons. -/
  parseAddr_separator : ∀ s a, parseAddr s = .ok a → '.' ∈ s.toList ∨ ':' ∈ s.toList

end Netip
