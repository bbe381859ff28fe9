import Mathlib.Data.List.Basic

/-! The verbs of Go's `fmt` that the modelled error texts use: `%q` here, `%s` and `%d` by string
interpolation. `strings.ToLower` is here too. -/

namespace GoFmt

def hexDigit (n : Nat) : Char :=
  "0123456789abcdef".toList.getD n '0'

/-- One rune of `strconv.Quote`. Runes beyond ASCII are taken as printable. -/
def quoteRune (c : Char) : List Char :=
  match c with
  | '"' => ['\\', '"']
  | '\\' => ['\\', '\\']
  | '\x07' => ['\\', 'a']
  | '\x08' => ['\\', 'b']
  | '\x0c' => ['\\', 'f']
  | '\n' => ['\\', 'n']
  | '\r' => ['\\', 'r']
  | '\t' => ['\\', 't']
  | '\x0b' => ['\\', 'v']
  | c =>
    if c.toNat < 0x20 ∨ c.toNat = 0x7f then
      ['\\', 'x', hexDigit (c.toNat / 16), hexDigit (c.toNat % 16)]
    else [c]

/-- `%q` -/
def quote (s : String) : String :=
  String.ofList ('"' :: s.toList.flatMap quoteRune ++ ['"'])

example : quote "a\"b\n" = "\"a\\\"b\\n\"" := by decide

/-- `strings.ToLower` on ASCII letters. -/
def toLower (s : String) : String :=
  String.ofList (s.toList.map Char.toLower)

theorem char_toLower_toLower (c : Char) : c.toLower.toLower = c.toLower := by
  unfold Char.toLower
  by_cases h : c.val ≥ 'A'.val ∧ c.val ≤ 'Z'.val
  · rw [dif_pos h, dif_neg]
    rintro ⟨-, hupper⟩
    -- a lowered letter lies beyond the capital ones
    rw [ge_iff_le, UInt32.le_iff_toNat_le, UInt32.le_iff_toNat_le] at h
    rw [UInt32.le_iff_toNat_le, UInt32.toNat_add] at hupper
    have hA : 'A'.val.toNat = 65 := rfl
    have hZ : 'Z'.val.toNat = 90 := rfl
    have hshift : ('a'.val - 'A'.val).toNat = 32 := rfl
    omega
  · rw [dif_neg h, dif_neg h]

@[simp] theorem toLower_toLower (s : String) : toLower (toLower s) = toLower s := by
  unfold toLower
  rw [String.toList_ofList, List.map_map]
  congr 2
  funext c
  exact char_toLower_toLower c

end GoFmt
