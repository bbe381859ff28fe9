import Mathlib.Data.List.Infix

/-! Functions of Go's `strings` on strings as lists of characters, and the DNS name checks of
Kubernetes. -/

namespace GoStrings

/-- `strings.HasPrefix` -/
def startsWith (s start : String) : Bool :=
  start.toList.isPrefixOf s.toList

/-- `strings.HasSuffix` -/
def endsWith (s ending : String) : Bool :=
  ending.toList.isSuffixOf s.toList

def trimSuffix (s ending : String) : String :=
  if endsWith s ending then String.ofList (s.toList.take (s.toList.length - ending.toList.length))
  else s

/-- `strings.TrimPrefix` -/
def trimStart (s start : String) : String :=
  if startsWith s start then String.ofList (s.toList.drop start.toList.length) else s

/-- `strings.CutPrefix` -/
def cutStart (s start : String) : Option String :=
  if startsWith s start then some (String.ofList (s.toList.drop start.toList.length)) else none

/-- `strings.Trim` with one character. -/
def trim (s : String) (c : Char) : String :=
  String.ofList (((s.toList.dropWhile (· = c)).reverse.dropWhile (· = c)).reverse)

/-- `strings.Split` at one character. -/
def split (s : String) (c : Char) : List String :=
  (s.toList.splitOn c).map String.ofList

def contains (s part : String) : Bool :=
  s.toList.tails.any part.toList.isPrefixOf

def isSpace (c : Char) : Bool :=
  c ∈ ['\t', '\n', '\x0b', '\x0c', '\r', ' ', '\u0085', '\u00a0', '\u1680', '\u2028', '\u2029',
    '\u202f', '\u205f', '\u3000'] || '\u2000' ≤ c && c ≤ '\u200a'

def trimSpace (s : String) : String :=
  String.ofList (((s.toList.dropWhile isSpace).reverse.dropWhile isSpace).reverse)

/-- The ASCII letters that differ only in case, with the Kelvin sign and the long s that Unicode
folds with `k` and `s`. -/
def foldRune (c : Char) : Char :=
  if c = '\u212a' then 'k' else if c = '\u017f' then 's' else c.toLower

/-- `strings.EqualFold` with an ASCII text on one side. -/
def equalFold (s t : String) : Bool :=
  s.toList.map foldRune = t.toList.map foldRune

theorem contains_singleton_iff {s : String} {c : Char} :
    contains s (String.singleton c) = true ↔ c ∈ s.toList := by
  unfold contains
  rw [List.any_eq_true, String.toList_singleton]
  constructor
  · rintro ⟨tail, htail, hc⟩
    have hstart : [c] <+: tail := List.isPrefixOf_iff_prefix.mp hc
    exact ((List.mem_tails tail s.toList).mp htail).subset (hstart.subset List.mem_cons_self)
  · intro hc
    obtain ⟨before, after, heq⟩ := List.append_of_mem hc
    refine ⟨c :: after, (List.mem_tails _ _).mpr ⟨before, heq.symm⟩, ?_⟩
    exact List.isPrefixOf_iff_prefix.mpr ⟨after, rfl⟩

/-- A character that folds to itself is in both of two texts that are equal but for case, or in
none. -/
theorem not_equalFold {s t : String} {c : Char} (hs : c ∈ s.toList) (hc : foldRune c = c)
    (ht : c ∉ t.toList.map foldRune) : equalFold s t = false := by
  unfold equalFold
  rw [decide_eq_false_iff_not]
  intro heq
  rw [← heq] at ht
  exact ht (List.mem_map.mpr ⟨c, hs, hc⟩)

theorem startsWith_iff {s start : String} :
    startsWith s start = true ↔ start.toList <+: s.toList :=
  List.isPrefixOf_iff_prefix

def isLowerAlnum (c : Char) : Bool :=
  'a' ≤ c && c ≤ 'z' || '0' ≤ c && c ≤ '9'

/-- `[a-z0-9]([-a-z0-9]*[a-z0-9])?` -/
def isLabel (s : List Char) : Bool :=
  s.all (fun c => isLowerAlnum c || c = '-') && s.head?.any isLowerAlnum &&
    s.getLast?.any isLowerAlnum

/-- `validation.IsDNS1123Label` finds nothing wrong. -/
def isDNS1123Label (s : String) : Bool :=
  s.toList.length ≤ 63 && isLabel s.toList

/-- `validation.IsDNS1123Subdomain` finds nothing wrong. -/
def isDNS1123Subdomain (s : String) : Bool :=
  s.toList.length ≤ 253 && (s.toList.splitOn '.').all isLabel

example : trim "/a/b//" '/' = "a/b" ∧ split "a/b" '/' = ["a", "b"] := by decide +kernel

end GoStrings
