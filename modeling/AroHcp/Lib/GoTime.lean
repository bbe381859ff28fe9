import AroHcp.Lib.GoInt
import Mathlib.Data.Rat.Cast.Order

/-! Durations of Go as texts. -/

namespace GoTime

open GoInt

/-- What is used of `fmt.Sprint` on floating-point numbers and of `time.ParseDuration`, for the
numbers of an `int32`: whole numbers from a million on are written with an exponent, and no duration
has one. A duration is a number of nanoseconds; minutes are in its range up to 153722867. -/
structure Texts where
  sprintFloat : Rat → String
  parseDuration : String → Except String Int
  sprintFloat_small : ∀ n : Nat, n < 10 ^ 6 → sprintFloat (n : Rat) = formatInt n
  sprintFloat_large : ∀ n : Nat, 10 ^ 6 ≤ n → n < 2 ^ 31 → 'e' ∈ (sprintFloat (n : Rat)).toList
  parseDuration_seconds : ∀ n : Nat, n < 2 ^ 31 →
    parseDuration (formatInt n ++ "s") = .ok (n * 10 ^ 9)
  parseDuration_minutes : ∀ n : Nat, n < 10 ^ 6 →
    parseDuration (formatInt n ++ "m") = .ok (n * 60 * 10 ^ 9)
  parseDuration_exponent : ∀ s : String, 'e' ∈ s.toList → ∃ err, parseDuration s = .error err

def minutes (duration : Int) : Rat :=
  (duration : Rat) / (60 * 10 ^ 9)

def seconds (duration : Int) : Rat :=
  (duration : Rat) / 10 ^ 9

theorem minutes_mul (n : Nat) : minutes ((n * 60 : Nat) * 10 ^ 9) = (n : Rat) := by
  unfold minutes
  push_cast
  rw [mul_assoc]
  exact mul_div_cancel_right₀ _ (by norm_num)

theorem seconds_mul (n : Int) : seconds (n * 10 ^ 9) = (n : Rat) := by
  unfold seconds
  push_cast
  exact mul_div_cancel_right₀ _ (by norm_num)

/-! ## Texts of whole numbers -/

/-- The texts of `Texts` for whole numbers of one unit, with the exponent always zero. -/
def wholeSprint (q : Rat) : String :=
  if q.num < 10 ^ 6 then formatInt q.num else formatInt q.num ++ "e+00"

def wholeParse (s : String) : Except String Int :=
  match parseDigits s.toList.dropLast with
  | none => .error "time: invalid duration"
  | some n =>
    if s.toList.getLast? = some 's' then .ok (n * 10 ^ 9)
    else if s.toList.getLast? = some 'm' then .ok (n * 60 * 10 ^ 9)
    else .error "time: unknown unit"

theorem formatInt_toList (n : Nat) : (formatInt n).toList = Nat.toDigits 10 n := by
  have h : formatInt n = String.ofList (Nat.toDigits 10 n) := rfl
  rw [h, String.toList_ofList]

theorem parseDigits_of_mem {cs : List Char} {c : Char} (hmem : c ∈ cs) (hc : c.isDigit = false) :
    parseDigits cs = none := by
  rw [parseDigits, if_neg]
  rintro ⟨-, hall⟩
  have hdigit := List.all_eq_true.mp hall c hmem
  rw [hc] at hdigit
  cases hdigit

def Texts.whole : Texts where
  sprintFloat := wholeSprint
  parseDuration := wholeParse
  sprintFloat_small n hn := by
    have hnum : ((n : Rat)).num = (n : Int) := Rat.num_natCast n
    rw [wholeSprint, hnum, if_pos (by exact_mod_cast hn)]
  sprintFloat_large n hn _ := by
    have hnum : ((n : Rat)).num = (n : Int) := Rat.num_natCast n
    have hlarge : ¬(n : Int) < 10 ^ 6 := by
      push Not
      exact_mod_cast hn
    rw [wholeSprint, hnum, if_neg hlarge, String.toList_append]
    exact List.mem_append_right _ (by decide)
  parseDuration_seconds n _ := by
    have hlist : (formatInt n ++ "s").toList = Nat.toDigits 10 n ++ ['s'] := by
      rw [String.toList_append, formatInt_toList]
      rfl
    rw [wholeParse, hlist, List.dropLast_concat, parseDigits_toDigits]
    dsimp only
    rw [List.getLast?_concat, if_pos rfl]
  parseDuration_minutes n _ := by
    have hlist : (formatInt n ++ "m").toList = Nat.toDigits 10 n ++ ['m'] := by
      rw [String.toList_append, formatInt_toList]
      rfl
    rw [wholeParse, hlist, List.dropLast_concat, parseDigits_toDigits]
    dsimp only
    rw [List.getLast?_concat, if_neg (by decide), if_pos rfl]
  parseDuration_exponent s hs := by
    unfold wholeParse
    generalize s.toList = cs at hs ⊢
    -- the exponent stands before the unit, or in its place
    rcases List.eq_nil_or_concat cs with rfl | ⟨cs, c, rfl⟩
    · cases hs
    · rw [List.concat_eq_append] at hs ⊢
      rw [List.dropLast_concat, List.getLast?_concat]
      rcases List.mem_append.mp hs with hmem | hmem
      · rw [parseDigits_of_mem hmem (by decide)]
        exact ⟨_, rfl⟩
      · rw [List.mem_singleton] at hmem
        subst hmem
        cases parseDigits cs with
        | none => exact ⟨_, rfl⟩
        | some n => exact ⟨_, rfl⟩

end GoTime
