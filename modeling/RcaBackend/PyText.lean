import Mathlib.Analysis.Real.Sqrt

/-!
# Python strings

A Python `str` is a sequence of code points in which lone surrogates may occur:
`json.loads` produces them from `\ud800` escapes, and no encoder accepts them.
Lean's `Char` excludes surrogates, so a string is a list of code points here.
Literals of the source are written through `py`, which is injective; equality of
two literals is therefore decided by equality of the Lean strings.
-/

namespace RcaBackend

/-- A Python `str`, one natural number a code point. -/
abbrev PyStr := List Nat

/-- Two strings are compared by their code points. -/
instance : LawfulBEq PyStr := inferInstanceAs (LawfulBEq (List Nat))

/-- A string literal of the source. -/
def py (literal : String) : PyStr := literal.toList.map Char.toNat

/-- Distinct literals denote distinct Python strings. -/
@[simp] theorem py_inj {left right : String} : py left = py right ↔ left = right := by
  constructor
  · intro same
    have chars : left.toList = right.toList :=
      List.map_injective_iff.mpr (fun _ _ code => Char.ext (UInt32.toNat_inj.mp code)) same
    exact String.toList_injective chars
  · rintro rfl
    rfl

/-- ASCII decimal digits; `datetime` and the JSON scanner accept no others. -/
def isAsciiDigit (c : Nat) : Bool := 48 ≤ c && c ≤ 57

/-- The number written by a nonempty run of ASCII digits. -/
def asciiNat (digits : PyStr) : Option Nat :=
  if digits ≠ [] ∧ digits.all isAsciiDigit then
    some (digits.foldl (fun value c => 10 * value + (c - 48)) 0)
  else none

/-- A code point that UTF-8 cannot encode. -/
def isSurrogate (c : Nat) : Bool := 0xD800 ≤ c && c ≤ 0xDFFF

/-- A string that `str.encode("utf-8")` accepts. -/
def encodable (text : PyStr) : Bool := !text.any isSurrogate

/-- The bytes of one character. -/
def encodeChar (c : Nat) : Option (List UInt8) :=
  if c < 0x80 then some [UInt8.ofNat c]
  else if c < 0x800 then some [UInt8.ofNat (0xC0 + c / 64), UInt8.ofNat (0x80 + c % 64)]
  else if isSurrogate c then none
  else if c < 0x10000 then
    some [UInt8.ofNat (0xE0 + c / 4096), UInt8.ofNat (0x80 + c / 64 % 64),
      UInt8.ofNat (0x80 + c % 64)]
  else if c < 0x110000 then
    some [UInt8.ofNat (0xF0 + c / 262144), UInt8.ofNat (0x80 + c / 4096 % 64),
      UInt8.ofNat (0x80 + c / 64 % 64), UInt8.ofNat (0x80 + c % 64)]
  else none

/-- `text.encode("utf-8")`; `none` where it raises `UnicodeEncodeError`. -/
def encodeUtf8 : PyStr → Option (List UInt8)
  | [] => some []
  | c :: rest =>
    match encodeChar c, encodeUtf8 rest with
    | some bytes, some more => some (bytes ++ more)
    | _, _ => none

/-- The exceptions of the modelled code that some caller tells apart, and those
that no caller expects. -/
inductive PyExc where
  | valueError | typeError | overflowError | keyError | recursionError
  | jsonDecodeError | unicodeError | serializationError
  | validationError | signalsMissing | osError
deriving DecidableEq, Repr

/-- `str(n)` for a natural number. -/
def natText (n : Nat) : PyStr := (Nat.toDigits 10 n).map Char.toNat

/-- `str(n)` for an integer. -/
def intText : Int → PyStr
  | .ofNat n => natText n
  | .negSucc n => py "-" ++ natText (n + 1)

/-- Decimal text of fixed width, as `%0{width}d` writes it. -/
def padded (width n : Nat) : PyStr :=
  List.replicate (width - (natText n).length) 48 ++ natText n

end RcaBackend
