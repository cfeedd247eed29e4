import RcaBackend.PyJson
import Mathlib.Data.List.Sort

/-!
# What the interpreter brings along: Unicode tables, `repr`, sorting, floats

The Unicode tables, the text of `repr` for a list or dictionary, the depth at
which nested calls raise `RecursionError`, and binary64 arithmetic are parameters.
The laws are those of ASCII and of the few other characters that the patterns
of the code can match case-insensitively. `float(text)` is modelled up to the
literal that it reads.

`list.sort()` is a parameter as well: where `<` is not a weak order, as for tuples
that hold a NaN, the order it leaves within such elements is not documented. What
it keeps is that elements go in the order of every rank that `<` decides.
-/

namespace RcaBackend

/-- Tables, limits and the sort of the interpreter. -/
class PyRuntime where
  /-- the value of a decimal digit -/
  decimal : Nat → Option Nat
  /-- `isalnum()` of one character -/
  alnum : Nat → Bool
  /-- `isspace()` of one character -/
  space : Nat → Bool
  /-- `upper()` of one character -/
  upper : Nat → PyStr
  /-- `lower()` of one character that is not a capital sigma -/
  lower : Nat → PyStr
  /-- a capital sigma between two texts is at the end of its word -/
  finalSigma : PyStr → PyStr → Bool
  /-- `repr()` of a list or dictionary -/
  repr : Json → PyStr
  /-- the nesting of calls that is still allowed -/
  recursionLimit : Nat
  /-- `list.sort()` with the given `<` -/
  sort : {α : Type} → (α → α → Bool) → List α → List α
  decimal_ascii : ∀ c, c < 128 → decimal c = if isAsciiDigit c then some (c - 48) else none
  decimal_digit : ∀ c n, decimal c = some n → n < 10
  decimal_space : ∀ c n, decimal c = some n → space c = false
  space_ascii : ∀ c, c < 128 → space c = (9 ≤ c && c ≤ 13 || 28 ≤ c && c ≤ 32)
  lower_ascii : ∀ c, c < 128 → lower c = [if 65 ≤ c ∧ c ≤ 90 then c + 32 else c]
  lower_longS : lower 0x17F = [0x17F]
  lower_micro : lower 0xB5 = [0xB5]
  lower_mu : lower 0x3BC = [0x3BC]
  lower_capitalMu : lower 0x39C = [0x3BC]
  upper_ascii : ∀ c, c < 128 → upper c = [if 97 ≤ c ∧ c ≤ 122 then c - 32 else c]
  sort_perm : ∀ {α : Type} (lt : α → α → Bool) (items : List α), (sort lt items).Perm items
  sort_ranked : ∀ {α β : Type} [LinearOrder β] (rank : α → β) (lt : α → α → Bool)
    (items : List α),
    (∀ a ∈ items, ∀ b ∈ items, rank a < rank b → lt a b = true ∧ lt b a = false) →
    (sort lt items).Pairwise fun a b => rank a ≤ rank b

/-- binary64 numbers and the operations that the code uses. -/
class PyFloat (F : Type) where
  /-- the nearest number to a literal; too large a literal is an infinity -/
  ofLit : FloatLit → F
  /-- `float(n)` -/
  ofInt : Int → Except PyExc F
  /-- `int(x)` -/
  trunc : F → Except PyExc Int
  neg : F → F
  abs : F → F
  sub : F → F → F
  mul : F → F → F
  div : F → F → F
  lt : F → F → Bool
  /-- `==` -/
  eq : F → F → Bool
  /-- `m / n` of two integers -/
  ratio : Nat → Nat → F
  /-- `statistics.mean` -/
  mean : List F → Except PyExc F
  /-- `statistics.pstdev` -/
  pstdev : List F → Except PyExc F
  /-- `f"{x:g}"` -/
  general : F → PyStr
  /-- `f"{x:.4g}"` -/
  general4 : F → PyStr
  /-- `str(x)` -/
  text : F → PyStr

section Text

variable [PyRuntime]

open PyRuntime

def isDecimal (c : Nat) : Bool := (decimal c).isSome

/-- `\w` -/
def isWord (c : Nat) : Bool := alnum c || c = 95

/-- A text without such characters at its ends. -/
def trim (blank : Nat → Bool) (text : PyStr) : PyStr :=
  ((text.dropWhile blank).reverse.dropWhile blank).reverse

/-- `str.strip()` -/
def strip (text : PyStr) : PyStr := trim space text

/-- `str.lower()` of a text that follows another. -/
def lowerAfter : (before : PyStr) → PyStr → PyStr
  | _, [] => []
  | before, c :: rest =>
    (if c = 0x3A3 then [if finalSigma before rest then 0x3C2 else 0x3C3] else lower c) ++
      lowerAfter (before ++ [c]) rest

/-- `str.lower()` -/
def lowerText (text : PyStr) : PyStr := lowerAfter [] text

/-- `str.upper()` -/
def upperText (text : PyStr) : PyStr := text.flatMap upper

/-! ## `list.sort(key=...)` -/

/-- `sorted(items, key=key)`, of keys in a linear order. -/
def sortBy {α β : Type} [LinearOrder β] (key : α → β) (items : List α) : List α :=
  sort (fun a b => decide (key a < key b)) items

theorem sortBy_perm {α β : Type} [LinearOrder β] (key : α → β) (items : List α) :
    (sortBy key items).Perm items :=
  sort_perm _ items

theorem sortBy_sorted {α β : Type} [LinearOrder β] (key : α → β) (items : List α) :
    (sortBy key items).Pairwise fun a b => key a ≤ key b := by
  apply sort_ranked key
  intro a _ b _ less
  exact ⟨decide_eq_true less, decide_eq_false (lt_asymm less)⟩

/-! ## `float(text)` -/

/-- The white space that may stand around a number. The separators U+001C to U+001F, which
`strip` removes, may not. -/
def floatSpace (c : Nat) : Bool := space c && !decide (28 ≤ c ∧ c ≤ 31)

/-- Decimal digits of any script as ASCII digits. -/
def asciiDigits (text : PyStr) : PyStr :=
  text.map fun c =>
    match decimal c with
    | some value => 48 + value
    | none => c

end Text

/-- Underscores are dropped where they stand between digits; elsewhere the text is
no number. -/
def dropUnderscores : (afterDigit : Bool) → PyStr → Option PyStr
  | _, [] => some []
  | afterDigit, 95 :: rest =>
    match rest with
    | next :: _ => if afterDigit && isAsciiDigit next then dropUnderscores false rest else none
    | [] => none
  | _, c :: rest => (dropUnderscores (isAsciiDigit c) rest).map (c :: ·)

/-- The digits at the front of a text, and the rest. -/
def leadingDigits (text : PyStr) : PyStr × PyStr :=
  (text.takeWhile isAsciiDigit, text.dropWhile isAsciiDigit)

/-- The value of ASCII digits. -/
def digitsValue (digits : PyStr) : Nat := digits.foldl (fun value c => 10 * value + (c - 48)) 0

/-- A sign at the front of a text. -/
def leadingSign : PyStr → Bool × PyStr
  | 45 :: rest => (true, rest)
  | 43 :: rest => (false, rest)
  | text => (false, text)

/-- What follows the mantissa: nothing, or an exponent. -/
def exponentValue : PyStr → Option Int
  | [] => some 0
  | c :: rest =>
    if c = 101 ∨ c = 69 then
      let (negative, rest) := leadingSign rest
      let (digits, rest) := leadingDigits rest
      if digits ≠ [] ∧ rest = [] then
        some (if negative then -(digitsValue digits : Int) else digitsValue digits)
      else none
    else none

/-- A number without its sign. -/
def decimalLit (negative : Bool) (text : PyStr) : Option FloatLit :=
  let (whole, rest) := leadingDigits text
  let (fraction, rest) :=
    match rest with
    | 46 :: rest => leadingDigits rest
    | _ => ([], rest)
  if whole = [] ∧ fraction = [] then none
  else (exponentValue rest).map fun exponent =>
    .decimal negative (digitsValue (whole ++ fraction)) (exponent - fraction.length)

/-- ASCII letters in lower case. -/
def asciiLower (text : PyStr) : PyStr :=
  text.map fun c => if 65 ≤ c ∧ c ≤ 90 then c + 32 else c

/-- A float literal in ASCII, with the names of the special values. -/
def floatLit (text : PyStr) : Option FloatLit :=
  let (negative, rest) := leadingSign text
  let name := asciiLower rest
  if name = py "inf" ∨ name = py "infinity" then some (.infinity negative)
  else if name = py "nan" then some .nan
  else decimalLit negative rest

/-- `float(text)`; `none` where it raises `ValueError`. -/
def floatOfText [PyRuntime] (text : PyStr) : Option FloatLit :=
  (dropUnderscores false (asciiDigits (trim floatSpace text))).bind floatLit

end RcaBackend
