import AroHcp.Lib.Unstructured

/-! JSON texts as `encoding/json` reads them: first with their numbers as written, and then into an
`interface{}`, where each number becomes a float64. -/

namespace JsonText

/-- What is read from the front of a text, and the text after it. -/
abbrev Reader (α : Type) := List Char → Option (α × List Char)

def skipSpace : List Char → List Char :=
  List.dropWhile (· ∈ [' ', '\t', '\n', '\r'])

def hexDigit (c : Char) : Option Nat :=
  if c.isDigit then some (c.toNat - 48)
  else if 'a' ≤ c.toLower ∧ c.toLower ≤ 'f' then some (c.toLower.toNat - 87)
  else none

def escapes : List (Char × Nat) :=
  [('"', 34), ('\\', 92), ('/', 47), ('b', 8), ('f', 12), ('n', 10), ('r', 13), ('t', 9)]

/-- The code units up to the closing quote. -/
def units : Reader (List Nat)
  | [] => none
  | '"' :: cs => some ([], cs)
  | '\\' :: 'u' :: a :: b :: c :: d :: cs => do
    let unit ← [a, b, c, d].foldlM (fun n c => (hexDigit c).map (16 * n + ·)) 0
    (units cs).map fun (rest, cs) => (unit :: rest, cs)
  | '\\' :: c :: cs => do
    let unit ← escapes.lookup c
    (units cs).map fun (rest, cs) => (unit :: rest, cs)
  | c :: cs =>
    if c.toNat < 32 ∨ c = '\\' then none
    else (units cs).map fun (rest, cs) => (c.toNat :: rest, cs)

def ofUnit (n : Nat) : Char :=
  if n.isValidChar then Char.ofNat n else '\uFFFD'

/-- Two surrogates that make a pair are one character, and others are replaced. -/
def ofUnits : List Nat → List Char
  | high :: low :: rest =>
    if 0xD800 ≤ high ∧ high < 0xDC00 ∧ 0xDC00 ≤ low ∧ low < 0xE000 then
      Char.ofNat (0x10000 + (high - 0xD800) * 0x400 + (low - 0xDC00)) :: ofUnits rest
    else ofUnit high :: ofUnits (low :: rest)
  | [unit] => [ofUnit unit]
  | [] => []

def string (cs : List Char) : Option (String × List Char) :=
  (units cs).map fun (text, cs) => (String.ofList (ofUnits text), cs)

/-- At least one digit: the number that they make, and how many they are. -/
def digits (cs : List Char) : Option ((Nat × Nat) × List Char) :=
  let (ds, cs) := cs.span Char.isDigit
  if ds = [] then none
  else some ((ds.foldl (fun n d => 10 * n + (d.toNat - 48)) 0, ds.length), cs)

def fraction : Reader Rat
  | '.' :: cs => (digits cs).map fun ((n, k), cs) => (n / 10 ^ k, cs)
  | cs => some (0, cs)

def exponent : Reader Int
  | 'e' :: cs | 'E' :: cs =>
    match cs with
    | '-' :: cs => (digits cs).map fun ((n, _), cs) => (-n, cs)
    | '+' :: cs | cs => (digits cs).map fun ((n, _), cs) => (n, cs)
  | cs => some (0, cs)

def unsigned (cs : List Char) : Option (Rat × List Char) := do
  let (whole, cs) ← match cs with
    | '0' :: cs => some (0, cs)
    | cs => (digits cs).map fun ((n, _), cs) => (n, cs)
  let (part, cs) ← fraction cs
  let (e, cs) ← exponent cs
  return ((whole + part) * 10 ^ e, cs)

def number : Reader Rat
  | '-' :: cs => (unsigned cs).map fun (q, cs) => (-q, cs)
  | cs => unsigned cs

mutual

def value : Nat → Reader Json
  | 0, _ => none
  | fuel + 1, cs =>
    match skipSpace cs with
    | 'n' :: 'u' :: 'l' :: 'l' :: cs => some (.null, cs)
    | 't' :: 'r' :: 'u' :: 'e' :: cs => some (.bool true, cs)
    | 'f' :: 'a' :: 'l' :: 's' :: 'e' :: cs => some (.bool false, cs)
    | '"' :: cs => (string cs).map fun (s, cs) => (.str s, cs)
    | '[' :: cs =>
      match skipSpace cs with
      | ']' :: cs => some (.arr [], cs)
      | cs => (items fuel cs).map fun (vs, cs) => (.arr vs, cs)
    | '\x7b' :: cs =>
      match skipSpace cs with
      | '\x7d' :: cs => some (.obj [], cs)
      | cs => (members fuel [] cs).map fun (ms, cs) => (.obj ms, cs)
    | cs => (number cs).map fun (q, cs) => (.num q, cs)

def items : Nat → Reader (List Json)
  | 0, _ => none
  | fuel + 1, cs => do
    let (v, cs) ← value fuel cs
    match skipSpace cs with
    | ',' :: cs => (items fuel cs).map fun (vs, cs) => (v :: vs, cs)
    | ']' :: cs => some ([v], cs)
    | _ => none

/-- A later member of the same key takes the place of an earlier one. -/
def members : Nat → List (String × Json) → Reader (List (String × Json))
  | 0, _, _ => none
  | fuel + 1, found, cs => do
    let '"' :: cs := skipSpace cs | none
    let (key, cs) ← string cs
    let ':' :: cs := skipSpace cs | none
    let (v, cs) ← value fuel cs
    match skipSpace cs with
    | ',' :: cs => members fuel (Unstructured.insertMember key v found) cs
    | '\x7d' :: cs => some (Unstructured.insertMember key v found, cs)
    | _ => none

end

/-- The value of a text, with exact numbers. Two calls read at least one character. -/
def parse (text : String) : Option Json := do
  let (v, rest) ← value (2 * text.length + 1) text.toList
  if skipSpace rest = [] then some v else none

/-! ## Numbers as float64 -/

/-- The nearest integer, and the even one of two. -/
def roundEven (q : Rat) : Int :=
  let n := q.floor
  if q - n < 1 / 2 then n else if 1 / 2 < q - n then n + 1 else n + n % 2

/-- `strconv.ParseFloat`, which fails out of the range. -/
def float64 (q : Rat) : Option Rat :=
  let size : Rat := q.num.natAbs / q.den
  let e : Int := q.num.natAbs.log2 - q.den.log2
  -- the last of 53 binary digits, or of the digits of a subnormal number
  let e := max ((if size < (2 : Rat) ^ e then e - 1 else e) - 52) (-1074)
  let unit := (2 : Rat) ^ e
  let r := roundEven (q / unit) * unit
  let bound := (2 : Rat) ^ (1024 : Int)
  if -bound < r ∧ r < bound then some r else none

mutual

def toFloats : Json → Option Json
  | .num q => (float64 q).map .num
  | .arr vs => (toFloatItems vs).map .arr
  | .obj ms => (toFloatMembers ms).map .obj
  | v => some v

def toFloatItems : List Json → Option (List Json)
  | [] => some []
  | v :: vs => do return (← toFloats v) :: (← toFloatItems vs)

def toFloatMembers : List (String × Json) → Option (List (String × Json))
  | [] => some []
  | (k, v) :: ms => do return (k, ← toFloats v) :: (← toFloatMembers ms)

end

/-- `json.Unmarshal` into an `interface{}` -/
def unmarshal (text : String) : Option Json :=
  (parse text).bind toFloats

example : unmarshal "[9007199254740993, \x7b\"k\": 1, \"k\": 25e-1\x7d]" =
    some (.arr [.num 9007199254740992, .obj [("k", .num (5 / 2))]]) := by decide +kernel

end JsonText
