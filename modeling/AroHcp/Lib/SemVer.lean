import Mathlib.Data.List.Basic
import Mathlib.Logic.Function.Basic
import Mathlib.Order.Compare

/-! Semantic versions as a version library documents them. Precedence ignores build metadata, so
versions of equal precedence may differ, while the text of a version determines it. -/

/-- The operations and the documented behaviour of a semantic version library. -/
class SemVer (V : Type) where
  major : V → Nat
  minor : V → Nat
  /-- precedence -/
  compare : V → V → Ordering
  text : V → String
  parse : String → Except String V
  parseTolerant : String → Except String V
  compare_swap : ∀ a b, compare b a = (compare a b).swap
  line_le_of_compare : ∀ a b, compare a b ≠ .gt →
    major a < major b ∨ major a = major b ∧ minor a ≤ minor b
  text_injective : Function.Injective text

namespace SemVer

variable {V : Type} [SemVer V]

def lt (a b : V) : Bool := compare a b == .lt

def gt (a b : V) : Bool := compare a b == .gt

def eq (a b : V) : Bool := compare a b == .eq

def lte (a b : V) : Bool := !gt a b

def gte (a b : V) : Bool := !lt a b

def minorString (v : V) : String := s!"{major v}.{minor v}"

theorem minorString_congr {a b : V} (hmajor : major a = major b) (hminor : minor a = minor b) :
    minorString a = minorString b := by
  rw [minorString, minorString, hmajor, hminor]

theorem eq_self (a : V) : eq a a = true := by
  have h := compare_swap a a
  unfold eq
  cases hc : compare a a <;> simp_all

theorem lt_self (a : V) : lt a a = false := by
  have h := eq_self a
  unfold eq at h
  unfold lt
  simp_all

theorem lte_iff_gte (a b : V) : lte a b = gte b a := by
  unfold lte gte gt lt
  rw [compare_swap a b]
  cases compare a b <;> rfl

theorem lte_self (a : V) : lte a a = true := by
  rw [lte_iff_gte, gte, lt_self]
  rfl

theorem lte_of_lt {a b : V} (h : lt a b = true) : lte a b = true := by
  unfold lt at h
  unfold lte gt
  rw [beq_iff_eq] at h
  rw [h]
  rfl

theorem eq_of_text_eq {a b : V} (h : text a = text b) : eq a b = true := by
  rw [text_injective h]
  exact eq_self b

theorem eq_comm (a b : V) : eq a b = eq b a := by
  unfold eq
  rw [compare_swap a b]
  cases compare a b <;> rfl

theorem eq_false_of_lt {a b : V} (h : lt a b = true) : eq a b = false := by
  unfold lt at h
  unfold eq
  cases hc : compare a b <;> simp_all

/-! ## Release lines -/

/-- The release line of `a` is not ahead of the release line of `b`. -/
def LineLe (a b : V) : Prop :=
  major a < major b ∨ major a = major b ∧ minor a ≤ minor b

instance (a b : V) : Decidable (LineLe a b) :=
  inferInstanceAs (Decidable (_ ∨ _))

theorem LineLe.trans {a b c : V} (hab : LineLe a b) (hbc : LineLe b c) : LineLe a c := by
  unfold LineLe at *
  omega

theorem lineLe_of_lt {a b : V} (h : lt a b = true) : LineLe a b := by
  apply line_le_of_compare
  unfold lt at h
  simp_all

theorem lineLe_of_not_lt {a b : V} (h : lt a b = false) : LineLe b a := by
  apply line_le_of_compare
  rw [compare_swap a b]
  unfold lt at h
  cases hc : compare a b <;> simp_all

theorem gt_iff_lt (a b : V) : gt a b = lt b a := by
  unfold gt lt
  rw [compare_swap a b]
  cases compare a b <;> rfl

theorem line_eq_of_eq {a b : V} (h : eq a b = true) : major a = major b ∧ minor a = minor b := by
  have hcompare : compare a b = .eq := by simpa [eq] using h
  have hle := line_le_of_compare a b (by simp [hcompare])
  have hge := line_le_of_compare b a (by simp [compare_swap a b, hcompare])
  omega

end SemVer

/-- Where the text of a version is read back, the release line is the same. -/
class ReadsText (V : Type) [SemVer V] : Prop where
  minorString_of_read : ∀ {v w : V}, SemVer.parseTolerant (SemVer.text v) = .ok w →
    SemVer.minorString w = SemVer.minorString v

/-- Versions of equal precedence form classes. -/
class EqTrans (V : Type) [SemVer V] : Prop where
  eq_trans : ∀ {a b c : V}, SemVer.eq a b = true → SemVer.eq b c = true → SemVer.eq a c = true

/-- Precedence is an order, and a strict text is read the same way by both parsers. -/
class LawfulSemVer (V : Type) [SemVer V] : Prop where
  lte_trans : ∀ {a b c : V}, SemVer.lte a b = true → SemVer.lte b c = true → SemVer.lte a c = true
  parseTolerant_of_parse : ∀ {s : String} {v : V}, SemVer.parse s = .ok v →
    SemVer.parseTolerant s = .ok v

/-- A released version, without pre-release or build parts. -/
structure Release where
  major : Nat
  minor : Nat
  patch : Nat
deriving DecidableEq, Repr

namespace Release

def text (v : Release) : String :=
  String.ofList (Nat.toDigits 10 v.major ++ '.' :: (Nat.toDigits 10 v.minor ++
    '.' :: Nat.toDigits 10 v.patch))

/-- The numbers of a dotted text. -/
def numbers (digits : List Char) : List Char → List Nat
  | [] => [Nat.ofDigitChars 10 digits.reverse 0]
  | c :: rest =>
    if c = '.' then Nat.ofDigitChars 10 digits.reverse 0 :: numbers [] rest
    else numbers (c :: digits) rest

def parse (s : String) : Except String Release :=
  if s = "" then .error "Version string empty"
  else if s.toList.all (fun c => c.isDigit || c = '.') then
    match numbers [] s.toList with
    | [major, minor, patch] => .ok ⟨major, minor, patch⟩
    | _ => .error "No Major.Minor.Patch elements found"
  else .error "Invalid character(s) found"

/-- Missing components are zero. -/
def parseTolerant (s : String) : Except String Release :=
  match parse s, s.toList.count '.' with
  | .error _, 0 => parse (s ++ ".0.0")
  | .error _, 1 => parse (s ++ ".0")
  | parsed, _ => parsed

protected def compare (a b : Release) : Ordering :=
  (compare a.major b.major).then ((compare a.minor b.minor).then (compare a.patch b.patch))

theorem dot_notMem_toDigits (n : Nat) : '.' ∉ Nat.toDigits 10 n := by
  intro h
  have hdigit := Nat.isDigit_of_mem_toDigits (by decide) (by decide) h
  exact absurd hdigit (by decide)

theorem toDigits_injective {m n : Nat} (h : Nat.toDigits 10 m = Nat.toDigits 10 n) : m = n := by
  have hread := congrArg (fun digits => Nat.ofDigitChars 10 digits 0) h
  simpa using hread

/-- A list is split at the first occurrence of a character in one way. -/
theorem split_at_char {c : Char} {xs ys r t : List Char} (hx : c ∉ xs) (hy : c ∉ ys)
    (h : xs ++ c :: r = ys ++ c :: t) : xs = ys ∧ r = t := by
  induction xs generalizing ys with
  | nil =>
    cases ys with
    | nil => simpa using h
    | cons y ys =>
      have hhead := (List.cons.inj h).1
      exact absurd (hhead ▸ List.mem_cons_self) hy
  | cons x xs ih =>
    cases ys with
    | nil =>
      have hhead := (List.cons.inj h).1
      exact absurd (hhead ▸ List.mem_cons_self) hx
    | cons y ys =>
      obtain ⟨hhead, htail⟩ := List.cons.inj h
      rw [List.mem_cons, not_or] at hx hy
      obtain ⟨hrest, hrt⟩ := ih hx.2 hy.2 htail
      exact ⟨by rw [hhead, hrest], hrt⟩

theorem text_injective : Function.Injective text := by
  intro a b h
  have hlist := String.ofList_injective h
  obtain ⟨hmajor, hrest⟩ := split_at_char (dot_notMem_toDigits _) (dot_notMem_toDigits _) hlist
  obtain ⟨hminor, hpatch⟩ := split_at_char (dot_notMem_toDigits _) (dot_notMem_toDigits _) hrest
  cases a
  cases b
  simp only [mk.injEq]
  exact ⟨toDigits_injective hmajor, toDigits_injective hminor, toDigits_injective hpatch⟩

theorem compare_swap (a b : Release) : Release.compare b a = (Release.compare a b).swap := by
  unfold Release.compare
  rw [Ordering.swap_then, Ordering.swap_then, Nat.compare_swap, Nat.compare_swap, Nat.compare_swap]

theorem line_le_of_compare (a b : Release) (h : Release.compare a b ≠ .gt) :
    a.major < b.major ∨ a.major = b.major ∧ a.minor ≤ b.minor := by
  unfold Release.compare at h
  rcases Nat.lt_trichotomy a.major b.major with hmajor | hmajor | hmajor
  · exact .inl hmajor
  · refine .inr ⟨hmajor, ?_⟩
    by_contra hminor
    rw [Nat.compare_eq_eq.mpr hmajor, Nat.compare_eq_gt.mpr (Nat.not_le.mp hminor)] at h
    exact h rfl
  · rw [Nat.compare_eq_gt.mpr hmajor] at h
    exact absurd rfl h

instance : SemVer Release where
  major := major
  minor := minor
  compare := Release.compare
  text := text
  parse := parse
  parseTolerant := parseTolerant
  compare_swap := compare_swap
  line_le_of_compare := line_le_of_compare
  text_injective := text_injective

theorem eq_of_compare_eq {a b : Release} (h : Release.compare a b = .eq) : a = b := by
  cases a with | mk majorA minorA patchA => cases b with | mk majorB minorB patchB =>
  simp only [Release.compare, Ordering.then_eq_eq, Nat.compare_eq_eq] at h
  rw [h.1, h.2.1, h.2.2]

instance : EqTrans Release where
  eq_trans := by
    intro a b c hab hbc
    have hcompare : Release.compare a b = .eq := beq_iff_eq.mp hab
    rw [eq_of_compare_eq hcompare]
    exact hbc

theorem numbers_append_dot {digits : List Char} (read rest : List Char) (hdot : '.' ∉ digits) :
    numbers read (digits ++ '.' :: rest) =
      Nat.ofDigitChars 10 (read.reverse ++ digits) 0 :: numbers [] rest := by
  induction digits generalizing read with
  | nil => simp [numbers]
  | cons c digits ih =>
    rw [List.mem_cons, not_or] at hdot
    rw [List.cons_append, numbers, if_neg (Ne.symm hdot.1), ih _ hdot.2]
    simp

theorem numbers_of_dot_notMem {digits : List Char} (read : List Char) (hdot : '.' ∉ digits) :
    numbers read digits = [Nat.ofDigitChars 10 (read.reverse ++ digits) 0] := by
  induction digits generalizing read with
  | nil => simp [numbers]
  | cons c digits ih =>
    rw [List.mem_cons, not_or] at hdot
    rw [numbers, if_neg (Ne.symm hdot.1), ih _ hdot.2]
    simp

theorem numbers_text (v : Release) : numbers [] v.text.toList = [v.major, v.minor, v.patch] := by
  rw [text, String.toList_ofList, numbers_append_dot _ _ (dot_notMem_toDigits _),
    numbers_append_dot _ _ (dot_notMem_toDigits _), numbers_of_dot_notMem _ (dot_notMem_toDigits _)]
  simp

theorem parse_text (v w : Release) (h : parse v.text = .ok w) : w = v := by
  unfold parse at h
  rw [numbers_text] at h
  split_ifs at h
  exact (Except.ok.inj h).symm

theorem count_dot_text (v : Release) : v.text.toList.count '.' = 2 := by
  have hnone : ∀ n, (Nat.toDigits 10 n).count '.' = 0 := fun n =>
    List.count_eq_zero.mpr (dot_notMem_toDigits n)
  simp [text, hnone]

instance : ReadsText Release where
  minorString_of_read := by
    intro v w h
    change parseTolerant v.text = .ok w at h
    unfold parseTolerant at h
    rw [count_dot_text] at h
    have hparse : parse v.text = .ok w := by
      cases hp : parse v.text <;> simp_all
    rw [parse_text v w hparse]

theorem compare_ne_gt_iff (a b : Release) :
    Release.compare a b ≠ .gt ↔ a.major < b.major ∨ a.major = b.major ∧
      (a.minor < b.minor ∨ a.minor = b.minor ∧ a.patch ≤ b.patch) := by
  have hpatch : compare a.patch b.patch ≠ .gt ↔ a.patch ≤ b.patch := Nat.compare_ne_gt
  have hthen : ∀ (m n : Nat) (o : Ordering),
      (compare m n).then o ≠ .gt ↔ m < n ∨ m = n ∧ o ≠ .gt := by
    intro m n o
    rcases Nat.lt_trichotomy m n with h | h | h
    · simp [Nat.compare_eq_lt.mpr h, h]
    · simp [h]
    · simp [Nat.compare_eq_gt.mpr h, Nat.lt_asymm h, Nat.ne_of_gt h]
  rw [Release.compare, hthen, hthen, hpatch]

instance : LawfulSemVer Release where
  lte_trans := by
    intro a b c hab hbc
    have hlte : ∀ v w : Release, SemVer.lte v w = true ↔ Release.compare v w ≠ .gt := by
      intro v w
      change (!(Release.compare v w == .gt)) = true ↔ _
      simp
    rw [hlte, compare_ne_gt_iff] at hab hbc ⊢
    omega
  parseTolerant_of_parse := by
    intro s v h
    change parse s = .ok v at h
    change parseTolerant s = .ok v
    rw [parseTolerant, h]

example : text ⟨4, 20, 13⟩ = "4.20.13" := by decide

example : (parseTolerant "4.21").toOption = some ⟨4, 21, 0⟩ := by decide

end Release

theorem SemVer.minorString_eq_iff {V : Type} [SemVer V] {v : V} {x y : Nat} :
    SemVer.minorString v = s!"{x}.{y}" ↔ SemVer.major v = x ∧ SemVer.minor v = y := by
  have hlist : ∀ a b : Nat, (s!"{a}.{b}").toList =
      Nat.toDigits 10 a ++ '.' :: Nat.toDigits 10 b := by
    intro a b
    change (toString a ++ "." ++ toString b).toList = _
    simp
  constructor
  · intro h
    have hlists := congrArg String.toList h
    rw [SemVer.minorString, hlist, hlist] at hlists
    obtain ⟨hmajor, hminor⟩ := Release.split_at_char (Release.dot_notMem_toDigits _)
      (Release.dot_notMem_toDigits _) hlists
    exact ⟨Release.toDigits_injective hmajor, Release.toDigits_injective hminor⟩
  · rintro ⟨rfl, rfl⟩
    rfl

/-- A released version with build metadata, which precedence ignores. -/
structure Build where
  release : Release
  metadata : String
deriving DecidableEq, Repr

namespace Build

def text (v : Build) : String :=
  if v.metadata = "" then v.release.text else v.release.text ++ "+" ++ v.metadata

def parseWith (parseRelease : String → Except String Release) (s : String) : Except String Build :=
  let metadata := String.ofList ((s.toList.dropWhile (· ≠ '+')).drop 1)
  if '+' ∈ s.toList && metadata = "" then .error "Build meta data is empty"
  else (parseRelease (String.ofList (s.toList.takeWhile (· ≠ '+')))).map fun release =>
    ⟨release, metadata⟩

theorem plus_notMem_text (v : Release) : '+' ∉ v.text.toList := by
  have hdigits : ∀ n, '+' ∉ Nat.toDigits 10 n := by
    intro n h
    have hdigit := Nat.isDigit_of_mem_toDigits (by decide) (by decide) h
    exact absurd hdigit (by decide)
  simp [Release.text, hdigits]

theorem text_injective : Function.Injective text := by
  intro a b h
  have hlist := congrArg String.toList h
  have ha := plus_notMem_text a.release
  have hb := plus_notMem_text b.release
  cases a with | mk ra ma => cases b with | mk rb mb =>
  unfold text at hlist
  dsimp only at ha hb hlist
  split_ifs at hlist with hma hmb hmb
  · rw [Release.text_injective (String.toList_injective hlist), hma, hmb]
  · exact absurd (by simp [hlist]) ha
  · exact absurd (by simp [← hlist]) hb
  · simp only [String.toList_append, List.append_assoc] at hlist
    obtain ⟨hrelease, hmetadata⟩ := Release.split_at_char ha hb hlist
    rw [Release.text_injective (String.toList_injective hrelease),
      String.toList_injective hmetadata]

instance : SemVer Build where
  major v := v.release.major
  minor v := v.release.minor
  compare a b := Release.compare a.release b.release
  text := text
  parse := parseWith Release.parse
  parseTolerant := parseWith Release.parseTolerant
  compare_swap a b := Release.compare_swap a.release b.release
  line_le_of_compare a b := Release.line_le_of_compare a.release b.release
  text_injective := text_injective

instance : EqTrans Build where
  eq_trans := by
    intro a b c hab hbc
    have htrans : SemVer.eq a.release c.release = true :=
      EqTrans.eq_trans (b := b.release) hab hbc
    exact htrans

end Build
