import Mathlib.Data.Int.Bitwise

/-! Conversions between Go's integer types, and between integers and their decimal texts. -/

namespace GoInt

def maxInt32 : Int := 2 ^ 31 - 1

/-- `int32(x)`: the low 32 bits of `x`, read as a signed number. -/
def int32 (x : Int) : Int :=
  x.bmod (2 ^ 32)

theorem int32_of_le {x : Int} (h0 : 0 ≤ x) (h : x ≤ maxInt32) : int32 x = x := by
  unfold maxInt32 at h
  exact Int.bmod_eq_of_le (by omega) (by omega)

theorem int32_int32 (x : Int) : int32 (int32 x) = int32 x :=
  Int.bmod_bmod

/-- `int64(x)`: the low 64 bits of `x`, read as a signed number. -/
def int64 (x : Int) : Int :=
  x.bmod (2 ^ 64)

def uint64 (x : Int) : Int :=
  x % 2 ^ 64

theorem uint64_of_lt {x : Int} (h0 : 0 ≤ x) (h : x < 2 ^ 64) : uint64 x = x :=
  Int.emod_eq_of_lt h0 h

theorem int64_of_lt {x : Int} (hmin : -2 ^ 63 ≤ x) (hmax : x < 2 ^ 63) : int64 x = x :=
  Int.bmod_eq_of_le (by omega) (by omega)

/-- The sign bit of an unsigned number is read as its sign. -/
theorem int64_of_ge {x : Int} (hmin : 2 ^ 63 ≤ x) (hmax : x < 2 ^ 64) : int64 x = x - 2 ^ 64 := by
  unfold int64
  rw [Int.bmod_def]
  omega

theorem int64_add_int64 (x y : Int) : int64 (int64 x + int64 y) = int64 (x + y) := by
  simp [int64]

theorem int64_sub_left (x y : Int) : int64 (int64 x - y) = int64 (x - y) := by
  simp [int64]

theorem int64_sub_int64 (x y : Int) : int64 (int64 x - int64 y) = int64 (x - y) := by
  simp [int64]

def maxInt64 : Int := 2 ^ 63 - 1

/-! ## Decimal texts -/

def formatInt : Int → String
  | .ofNat n => String.ofList (Nat.toDigits 10 n)
  | .negSucc n => String.ofList ('-' :: Nat.toDigits 10 (n + 1))

/-- A nonempty text of decimal digits. -/
def parseDigits (cs : List Char) : Option Nat :=
  if cs ≠ [] ∧ cs.all Char.isDigit then some (Nat.ofDigitChars 10 cs 0) else none

/-- `strconv.ParseInt(s, 10, 64)`; `none` for a syntax or a range error. -/
def parseInt (s : String) : Option Int :=
  let cs := s.toList
  if cs.head? = some '-' then
    (parseDigits cs.tail).bind fun n => if (n : Int) ≤ maxInt64 + 1 then some (-(n : Int)) else none
  else
    (parseDigits (if cs.head? = some '+' then cs.tail else cs)).bind fun n =>
      if (n : Int) ≤ maxInt64 then some (n : Int) else none

theorem isDigit_of_mem_toDigits {n : Nat} {c : Char} (h : c ∈ Nat.toDigits 10 n) :
    c.isDigit = true :=
  Nat.isDigit_of_mem_toDigits (by decide) (by decide) h

theorem parseDigits_toDigits (n : Nat) : parseDigits (Nat.toDigits 10 n) = some n := by
  have hdigits : (Nat.toDigits 10 n).all Char.isDigit = true :=
    List.all_eq_true.mpr fun c hc => isDigit_of_mem_toDigits hc
  have hne : Nat.toDigits 10 n ≠ [] := Nat.toDigits_ne_nil
  rw [parseDigits, if_pos ⟨hne, hdigits⟩]
  simp

theorem head?_ne_of_digits {cs : List Char} (h : ∀ c ∈ cs, c.isDigit = true) {sign : Char}
    (hsign : sign.isDigit = false) : cs.head? ≠ some sign := by
  intro hhead
  have hdigit := h sign (List.mem_of_mem_head? hhead)
  rw [hsign] at hdigit
  cases hdigit

theorem parseInt_formatInt {x : Int} (hmin : -(maxInt64 + 1) ≤ x) (hmax : x ≤ maxInt64) :
    parseInt (formatInt x) = some x := by
  unfold parseInt formatInt
  cases x with
  | ofNat n =>
    have hdigits : ∀ c ∈ Nat.toDigits 10 n, c.isDigit = true := fun c => isDigit_of_mem_toDigits
    have hmax : (n : Int) ≤ maxInt64 := hmax
    rw [String.toList_ofList, if_neg (head?_ne_of_digits hdigits (by decide)),
      if_neg (head?_ne_of_digits hdigits (by decide)), parseDigits_toDigits, Option.bind_some,
      if_pos hmax]
    rfl
  | negSucc n =>
    have hmin : ((n + 1 : Nat) : Int) ≤ maxInt64 + 1 := by omega
    dsimp only
    rw [String.toList_ofList, if_pos List.head?_cons, List.tail_cons, parseDigits_toDigits,
      Option.bind_some, if_pos hmin, Int.negSucc_eq, Int.natCast_add, Int.natCast_one]

end GoInt
