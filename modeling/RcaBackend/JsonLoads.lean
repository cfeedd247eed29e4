import RcaBackend.Attempts
import RcaBackend.PyRuntime

/-!
# `json.loads`

The scanner goes through the text from left to right and raises at the first place
that is no JSON: `JSONDecodeError` for a syntax error, `RecursionError` where values
nest deeper than the interpreter allows, and a plain `ValueError` for an integer with
more digits than `int` converts. `NaN` and the infinities are accepted, a key that is
repeated keeps its first place and its last value, and a lone surrogate that an escape
denotes stays in the string.

Each loop over items or entries takes the length of its text as fuel; a scanner that
takes something off its text never uses it up.
-/

namespace RcaBackend

namespace JsonLoads

/-- What a scanner returns: a value and the rest of the text. -/
abbrev Scan (α : Type) := Except PyExc (α × PyStr)

/-- The whitespace of JSON. -/
def isBlank (c : Nat) : Bool := c = 32 || c = 9 || c = 10 || c = 13

/-- The text behind its leading JSON white space. -/
def skipBlanks (text : PyStr) : PyStr := text.dropWhile isBlank

/-! ## Strings -/

/-- The value of a hexadecimal digit of either case. -/
def hexDigit (c : Nat) : Option Nat :=
  if 48 ≤ c ∧ c ≤ 57 then some (c - 48)
  else if 97 ≤ c ∧ c ≤ 102 then some (c - 87)
  else if 65 ≤ c ∧ c ≤ 70 then some (c - 55)
  else none

/-- The code unit of a `\u` escape. -/
def hexCode (a b c d : Nat) : Option Nat := do
  return 4096 * (← hexDigit a) + 256 * (← hexDigit b) + 16 * (← hexDigit c) + (← hexDigit d)

/-- The first half of a surrogate pair. -/
def isHighSurrogate (c : Nat) : Bool := 0xD800 ≤ c && c ≤ 0xDBFF

/-- The second half of a surrogate pair. -/
def isLowSurrogate (c : Nat) : Bool := 0xDC00 ≤ c && c ≤ 0xDFFF

/-- The character that a surrogate pair spells. -/
def joinSurrogates (high low : Nat) : Nat := 0x10000 + (high - 0xD800) * 0x400 + (low - 0xDC00)

/-- The character of an escape by one letter. -/
def escapeLetter : Nat → Option Nat
  | 34 => some 34 | 92 => some 92 | 47 => some 47 | 98 => some 8
  | 102 => some 12 | 110 => some 10 | 114 => some 13 | 116 => some 9
  | _ => none

/-- Characters in front of a scanned string. -/
def prepend (front : PyStr) (scanned : Scan PyStr) : Scan PyStr :=
  scanned.map fun result => (front ++ result.1, result.2)

/-- The string after its opening quote. A high surrogate from an escape is held back:
it joins with a low one from the next escape. -/
def scanString : Option Nat → PyStr → Scan PyStr
  | pending, 34 :: rest => .ok (pending.toList, rest)
  | pending, 92 :: 117 :: a :: b :: c :: d :: rest =>
    match hexCode a b c d, pending with
    | none, _ => .error .jsonDecodeError
    | some code, some high =>
      if isLowSurrogate code then prepend [joinSurrogates high code] (scanString none rest)
      else if isHighSurrogate code then prepend [high] (scanString (some code) rest)
      else prepend [high, code] (scanString none rest)
    | some code, none =>
      if isHighSurrogate code then scanString (some code) rest
      else prepend [code] (scanString none rest)
  | pending, 92 :: letter :: rest =>
    match escapeLetter letter with
    | none => .error .jsonDecodeError
    | some c => prepend (pending.toList ++ [c]) (scanString none rest)
  | pending, c :: rest =>
    if c < 32 ∨ c = 92 then .error .jsonDecodeError
    else prepend (pending.toList ++ [c]) (scanString none rest)
  | _, [] => .error .jsonDecodeError

/-! ## Literals and numbers -/

/-- The names of values. -/
def literals : List (PyStr × Json) :=
  [(py "null", .null), (py "true", .bool true), (py "false", .bool false),
    (py "NaN", .float .nan), (py "Infinity", .float (.infinity false)),
    (py "-Infinity", .float (.infinity true))]

/-- The names of the values that have one, `NaN` and the infinities included. -/
def scanLiteral (text : PyStr) : Option (Json × PyStr) :=
  literals.findSome? fun literal =>
    if literal.1.isPrefixOf text then some (literal.2, text.drop literal.1.length) else none

/-- The digits before the point: no leading zero. -/
def wholeDigits : PyStr → PyStr × PyStr
  | 48 :: rest => ([48], rest)
  | text => leadingDigits text

/-- The digits after a point, if there are any. -/
def fractionDigits : PyStr → PyStr × PyStr
  | 46 :: rest => if (leadingDigits rest).1 = [] then ([], 46 :: rest) else leadingDigits rest
  | text => ([], text)

/-- An exponent with at least one digit. -/
def exponentPart (text : PyStr) : Option (Int × PyStr) :=
  match text with
  | [] => none
  | mark :: rest =>
    let (negative, unsigned) := leadingSign rest
    let (digits, after) := leadingDigits unsigned
    if (mark = 101 ∨ mark = 69) ∧ digits ≠ [] then
      some (if negative then -(digitsValue digits : Int) else digitsValue digits, after)
    else none

/-- The digits that `int` converts. -/
def maxStrDigits : Nat := 4300

/-- A number after its minus sign. -/
def scanUnsigned (negative : Bool) (text : PyStr) : Scan Json :=
  let (whole, afterWhole) := wholeDigits text
  let (fraction, afterFraction) := fractionDigits afterWhole
  if whole = [] then .error .jsonDecodeError
  else
    match exponentPart afterFraction with
    | some (exponent, rest) =>
      .ok (.float (.decimal negative (digitsValue (whole ++ fraction))
        (exponent - fraction.length)), rest)
    | none =>
      if fraction ≠ [] then
        .ok (.float (.decimal negative (digitsValue (whole ++ fraction))
          (-(fraction.length : Int))), afterFraction)
      else if whole.length > maxStrDigits then .error .valueError
      else .ok (.int (if negative then -(digitsValue whole : Int) else digitsValue whole), afterWhole)

/-- A number, with or without a minus sign. -/
def scanNumber : PyStr → Scan Json
  | 45 :: rest => scanUnsigned true rest
  | text => scanUnsigned false text

/-- A value that is neither a string nor a list nor an object. -/
def scanScalar (text : PyStr) : Scan Json :=
  match scanLiteral text with
  | some result => .ok result
  | none => scanNumber text

/-! ## Lists, objects, values -/

/-- The items after an opening bracket, of which there is at least one. -/
def scanItems (element : PyStr → Scan Json) : Nat → PyStr → Except PyExc (List Json × PyStr)
  | 0, _ => .error .jsonDecodeError
  | fuel + 1, text => do
    let (value, rest) ← element text
    match skipBlanks rest with
    | 93 :: rest => .ok ([value], rest)
    | 44 :: rest =>
      let (values, rest) ← scanItems element fuel (skipBlanks rest)
      .ok (value :: values, rest)
    | _ => .error .jsonDecodeError

/-- The entries after an opening brace, of which there is at least one, added to those
read before. -/
def scanEntries (element : PyStr → Scan Json) :
    Nat → Dict → PyStr → Except PyExc (Dict × PyStr)
  | fuel + 1, entries, 34 :: text => do
    let (key, rest) ← scanString none text
    match skipBlanks rest with
    | 58 :: rest =>
      let (value, rest) ← element (skipBlanks rest)
      match skipBlanks rest with
      | 125 :: rest => .ok (entries.set key value, rest)
      | 44 :: rest => scanEntries element fuel (entries.set key value) (skipBlanks rest)
      | _ => .error .jsonDecodeError
    | _ => .error .jsonDecodeError
  | _, _, _ => .error .jsonDecodeError

/-- A list after its opening bracket. -/
def scanList (element : PyStr → Scan Json) (text : PyStr) : Scan Json :=
  match skipBlanks text with
  | 93 :: rest => .ok (.list [], rest)
  | items => (scanItems element items.length items).map fun result => (.list result.1, result.2)

/-- An object after its opening brace. -/
def scanObject (element : PyStr → Scan Json) (text : PyStr) : Scan Json :=
  match skipBlanks text with
  | 125 :: rest => .ok (.dict [], rest)
  | entries =>
    (scanEntries element entries.length [] entries).map fun result => (.dict result.1, result.2)

/-- A value, of at most so many lists and objects inside each other. -/
def scanValue : Nat → PyStr → Scan Json
  | _, 34 :: rest => (scanString none rest).map fun result => (.str result.1, result.2)
  | 0, 123 :: _ => .error .recursionError
  | 0, 91 :: _ => .error .recursionError
  | depth + 1, 123 :: rest => scanObject (scanValue depth) rest
  | depth + 1, 91 :: rest => scanList (scanValue depth) rest
  | _, text => scanScalar text

/-! ## A scanner takes something off its text -/

/-- The rest that a scanner leaves is shorter than its text. -/
def Shrinks {α : Type} (scan : PyStr → Scan α) : Prop :=
  ∀ text value rest, scan text = .ok (value, rest) → rest.length < text.length

/-- Skipping blanks makes a text no longer. -/
theorem skipBlanks_length (text : PyStr) : (skipBlanks text).length ≤ text.length :=
  (List.dropWhile_suffix isBlank).length_le

/-- Nor does reading digits. -/
theorem leadingDigits_length (text : PyStr) : (leadingDigits text).2.length ≤ text.length :=
  (List.dropWhile_suffix isAsciiDigit).length_le

/-- What is scanned behind a front is scanned without it. -/
theorem prepend_ok {front : PyStr} {scanned : Scan PyStr} {text rest : PyStr}
    (succeeded : prepend front scanned = .ok (text, rest)) :
    ∃ tail, scanned = .ok (tail, rest) ∧ text = front ++ tail := by
  cases scanned with
  | error raised => simp [prepend, Except.map] at succeeded
  | ok result =>
    obtain ⟨tail, after⟩ := result
    simp only [prepend, Except.map, Except.ok.injEq, Prod.mk.injEq] at succeeded
    obtain ⟨rfl, rfl⟩ := succeeded
    exact ⟨tail, rfl, rfl⟩

/-- A string consumes at least its closing quote. -/
theorem scanString_shrinks (pending : Option Nat) : Shrinks (scanString pending) := by
  intro text value rest
  fun_induction scanString pending text generalizing value with
  | case1 pending after =>
    intro succeeded
    simp only [Except.ok.injEq, Prod.mk.injEq] at succeeded
    simp [succeeded.2]
  | case2 | case8 | case10 | case12 => simp
  | case3 a b c d after code high _ _ inductionHypothesis
  | case4 a b c d after code high _ _ _ inductionHypothesis
  | case5 a b c d after code high _ _ _ inductionHypothesis
  | case7 a b c d after code _ _ inductionHypothesis =>
    intro succeeded
    obtain ⟨tail, scanned, -⟩ := prepend_ok succeeded
    have shorter := inductionHypothesis tail scanned
    simp only [List.length_cons]
    omega
  | case6 a b c d after code _ _ inductionHypothesis =>
    intro succeeded
    have shorter := inductionHypothesis value succeeded
    simp only [List.length_cons]
    omega
  | case9 pending letter after _ c _ inductionHypothesis =>
    intro succeeded
    obtain ⟨tail, scanned, -⟩ := prepend_ok succeeded
    have shorter := inductionHypothesis tail scanned
    simp only [List.length_cons]
    omega
  | case11 pending c after _ _ _ _ inductionHypothesis =>
    intro succeeded
    obtain ⟨tail, scanned, -⟩ := prepend_ok succeeded
    have shorter := inductionHypothesis tail scanned
    simp only [List.length_cons]
    omega

/-- The whole digits and the rest are the text. -/
theorem wholeDigits_length (text : PyStr) :
    (wholeDigits text).1.length + (wholeDigits text).2.length = text.length := by
  fun_cases wholeDigits text with
  | case1 rest => simp; omega
  | case2 text => rw [leadingDigits, ← List.length_append, List.takeWhile_append_dropWhile]

/-- A fraction makes the rest no longer. -/
theorem fractionDigits_length (text : PyStr) : (fractionDigits text).2.length ≤ text.length := by
  fun_cases fractionDigits text with
  | case1 rest none => simp
  | case2 rest some =>
    have shorter := leadingDigits_length rest
    simp only [List.length_cons]
    omega
  | case3 text => simp

/-- Nor does a sign. -/
theorem leadingSign_length (text : PyStr) : (leadingSign text).2.length ≤ text.length := by
  fun_cases leadingSign text <;> simp

/-- Nor does an exponent. -/
theorem exponentPart_length {text rest : PyStr} {exponent : Int}
    (found : exponentPart text = some (exponent, rest)) : rest.length ≤ text.length := by
  cases text with
  | nil => simp [exponentPart] at found
  | cons mark after =>
    have signed := leadingSign_length after
    have shorter := leadingDigits_length (leadingSign after).2
    simp only [exponentPart] at found
    split at found
    · obtain ⟨-, rfl⟩ := Prod.mk.inj (Option.some.inj found)
      simp only [List.length_cons]
      omega
    · simp at found

/-- An unsigned number consumes a digit. -/
theorem scanUnsigned_shrinks (negative : Bool) : Shrinks (scanUnsigned negative) := by
  intro text value rest succeeded
  have split := wholeDigits_length text
  have fraction := fractionDigits_length (wholeDigits text).2
  simp only [scanUnsigned] at succeeded
  split at succeeded
  · simp at succeeded
  · rename_i nonempty
    have positive : 0 < (wholeDigits text).1.length := List.length_pos_iff.mpr nonempty
    split at succeeded
    · rename_i exponent after found
      have shorter := exponentPart_length found
      obtain ⟨-, rfl⟩ := Prod.mk.inj (Except.ok.inj succeeded)
      omega
    · split at succeeded
      · obtain ⟨-, rfl⟩ := Prod.mk.inj (Except.ok.inj succeeded)
        omega
      · split at succeeded
        · simp at succeeded
        · obtain ⟨-, rfl⟩ := Prod.mk.inj (Except.ok.inj succeeded)
          omega

/-- So does a number. -/
theorem scanNumber_shrinks : Shrinks scanNumber := by
  intro text value rest succeeded
  fun_cases scanNumber text with
  | case1 after =>
    have shorter := scanUnsigned_shrinks true after value rest succeeded
    simp only [List.length_cons]
    omega
  | case2 text =>
    exact scanUnsigned_shrinks false text value rest (by simpa [scanNumber] using succeeded)

/-- A name consumes its letters. -/
theorem scanLiteral_shrinks {text rest : PyStr} {value : Json}
    (found : scanLiteral text = some (value, rest)) : rest.length < text.length := by
  obtain ⟨literal, member, taken⟩ := List.exists_of_findSome?_eq_some found
  split at taken
  · rename_i matched
    obtain ⟨-, rfl⟩ := Prod.mk.inj (Option.some.inj taken)
    have long : literal.1.length ≤ text.length := (List.isPrefixOf_iff_prefix.mp matched).length_le
    have named : 0 < literal.1.length := by
      have all : ∀ literal ∈ literals, 0 < literal.1.length := by decide
      exact all literal member
    rw [List.length_drop]
    omega
  · simp at taken

/-- A list's items shorten the text, if each of them does. -/
theorem scanItems_shrinks {element : PyStr → Scan Json} (shrinks : Shrinks element) (fuel : Nat) :
    Shrinks (scanItems element fuel) := by
  induction fuel with
  | zero =>
    intro text value rest succeeded
    simp [scanItems] at succeeded
  | succ fuel inductionHypothesis =>
    intro text values rest succeeded
    simp only [scanItems, bind, Except.bind] at succeeded
    split at succeeded
    · simp at succeeded
    · rename_i first scanned
      have one := shrinks _ _ _ scanned
      have blanks := skipBlanks_length first.2
      split at succeeded
      · rename_i after shape
        obtain ⟨-, rfl⟩ := Prod.mk.inj (Except.ok.inj succeeded)
        rw [shape, List.length_cons] at blanks
        omega
      · rename_i after shape
        rw [shape, List.length_cons] at blanks
        have more := skipBlanks_length after
        split at succeeded
        · simp at succeeded
        · rename_i others scannedRest
          have later := inductionHypothesis _ _ _ scannedRest
          obtain ⟨-, rfl⟩ := Prod.mk.inj (Except.ok.inj succeeded)
          omega
      · simp at succeeded

/-- One entry shortens the text: its key, its colon and its value. -/
theorem scanEntry_shrinks {element : PyStr → Scan Json} (shrinks : Shrinks element)
    {text key afterKey afterColon afterValue : PyStr} {value : Json}
    (keyScanned : scanString none text = .ok (key, afterKey))
    (colon : skipBlanks afterKey = 58 :: afterColon)
    (valueScanned : element (skipBlanks afterColon) = .ok (value, afterValue)) :
    (skipBlanks afterValue).length < text.length := by
  have first := scanString_shrinks none _ _ _ keyScanned
  have blanksKey := skipBlanks_length afterKey
  rw [colon, List.length_cons] at blanksKey
  have blanksColon := skipBlanks_length afterColon
  have second := shrinks _ _ _ valueScanned
  have blanksValue := skipBlanks_length afterValue
  omega

/-- The entries of an object consume the closing brace. -/
theorem scanEntries_shrinks {element : PyStr → Scan Json} (shrinks : Shrinks element) (fuel : Nat)
    (entries : Dict) : Shrinks (scanEntries element fuel entries) := by
  intro text result rest
  fun_induction scanEntries element fuel entries text with
  | case1 fuel entries text inductionHypothesis =>
    intro succeeded
    simp only [bind, Except.bind] at succeeded
    split at succeeded
    · simp at succeeded
    · rename_i keyed keyScanned
      split at succeeded
      · rename_i afterColon colon
        split at succeeded
        · simp at succeeded
        · rename_i valued valueScanned
          have one := scanEntry_shrinks shrinks keyScanned colon valueScanned
          split at succeeded
          · rename_i after shape
            obtain ⟨-, rfl⟩ := Prod.mk.inj (Except.ok.inj succeeded)
            simp only [shape, List.length_cons] at one ⊢
            omega
          · rename_i after shape
            have shorter := skipBlanks_length after
            have later := inductionHypothesis keyed.1 valued.1 after succeeded
            simp only [shape, List.length_cons] at one ⊢
            omega
          · simp at succeeded
      · simp at succeeded
  | case2 => simp

/-- So does an object. -/
theorem scanObject_shrinks {element : PyStr → Scan Json} (shrinks : Shrinks element)
    {text rest : PyStr} {value : Json} (scanned : scanObject element text = .ok (value, rest)) :
    rest.length < text.length + 1 := by
  have blanks := skipBlanks_length text
  simp only [scanObject] at scanned
  split at scanned
  · rename_i after shape
    obtain ⟨-, rfl⟩ := Prod.mk.inj (Except.ok.inj scanned)
    rw [shape, List.length_cons] at blanks
    omega
  · cases inner : scanEntries element (skipBlanks text).length [] (skipBlanks text) with
    | error raised => simp [inner, Except.map] at scanned
    | ok result =>
      have shorter := scanEntries_shrinks shrinks _ _ _ _ _ inner
      rw [inner] at scanned
      obtain ⟨-, rfl⟩ := Prod.mk.inj (Except.ok.inj scanned)
      omega

/-- A list consumes the closing bracket. -/
theorem scanList_shrinks {element : PyStr → Scan Json} (shrinks : Shrinks element)
    {text rest : PyStr} {value : Json} (scanned : scanList element text = .ok (value, rest)) :
    rest.length < text.length + 1 := by
  have blanks := skipBlanks_length text
  simp only [scanList] at scanned
  split at scanned
  · rename_i after shape
    obtain ⟨-, rfl⟩ := Prod.mk.inj (Except.ok.inj scanned)
    rw [shape, List.length_cons] at blanks
    omega
  · cases inner : scanItems element (skipBlanks text).length (skipBlanks text) with
    | error raised => simp [inner, Except.map] at scanned
    | ok result =>
      have shorter := scanItems_shrinks shrinks _ _ _ _ inner
      rw [inner] at scanned
      obtain ⟨-, rfl⟩ := Prod.mk.inj (Except.ok.inj scanned)
      omega

/-- A scalar consumes a character. -/
theorem scanScalar_shrinks : Shrinks scanScalar := by
  intro text value rest succeeded
  simp only [scanScalar] at succeeded
  split at succeeded
  · rename_i result found
    obtain rfl := Except.ok.inj succeeded
    exact scanLiteral_shrinks found
  · exact scanNumber_shrinks _ _ _ succeeded

/-- A string value consumes its closing quote. -/
theorem scanText_shrinks {after rest : PyStr} {value : Json}
    (scanned : (scanString none after).map (fun result => (Json.str result.1, result.2)) =
      .ok (value, rest)) : rest.length < after.length + 1 := by
  cases inner : scanString none after with
  | error raised => simp [inner, Except.map] at scanned
  | ok result =>
    have shorter := scanString_shrinks none _ _ _ inner
    rw [inner] at scanned
    obtain ⟨-, rfl⟩ := Prod.mk.inj (Except.ok.inj scanned)
    omega

/-- Every value takes at least one character. -/
theorem scanValue_shrinks (depth : Nat) : Shrinks (scanValue depth) := by
  induction depth with
  | zero =>
    intro text value rest succeeded
    unfold scanValue at succeeded
    split at succeeded
    · exact scanText_shrinks succeeded
    · simp at succeeded
    · simp at succeeded
    · rename_i contradiction
      simp at contradiction
    · rename_i contradiction
      simp at contradiction
    · exact scanScalar_shrinks _ _ _ succeeded
  | succ depth inductionHypothesis =>
    intro text value rest succeeded
    unfold scanValue at succeeded
    split at succeeded
    · exact scanText_shrinks succeeded
    · simp at succeeded
    · simp at succeeded
    · rename_i same
      obtain rfl := Nat.succ.inj same
      exact scanObject_shrinks inductionHypothesis succeeded
    · rename_i same
      obtain rfl := Nat.succ.inj same
      exact scanList_shrinks inductionHypothesis succeeded
    · exact scanScalar_shrinks _ _ _ succeeded

/-! ## A scalar is no object -/

/-- A number is no object. -/
theorem scanUnsigned_dict (negative : Bool) (text rest : PyStr) (entries : Dict) :
    scanUnsigned negative text ≠ .ok (.dict entries, rest) := by
  intro scanned
  simp only [scanUnsigned] at scanned
  split at scanned
  · simp at scanned
  · split at scanned
    · simp at scanned
    · split at scanned
      · simp at scanned
      · split at scanned <;> simp at scanned

/-- A scalar is no object. -/
theorem scanScalar_dict (text rest : PyStr) (entries : Dict) :
    scanScalar text ≠ .ok (.dict entries, rest) := by
  intro scanned
  simp only [scanScalar] at scanned
  split at scanned
  · rename_i result found
    obtain rfl := Except.ok.inj scanned
    obtain ⟨literal, member, taken⟩ := List.exists_of_findSome?_eq_some found
    have scalar : ∀ literal ∈ literals, ∀ entries, literal.2 ≠ .dict entries := by
      simp [literals]
    split at taken
    · exact scalar literal member entries (Prod.mk.inj (Option.some.inj taken)).1
    · simp at taken
  · simp only [scanNumber] at scanned
    split at scanned
    · exact scanUnsigned_dict _ _ _ _ scanned
    · exact scanUnsigned_dict _ _ _ _ scanned

/-! ## What a scanner raises -/

open Attempts

/-- The errors of `json.loads`. -/
def IsLoadError (error : PyExc) : Prop :=
  error = .jsonDecodeError ∨ error = .recursionError ∨ error = .valueError

/-- A string raises a decode error at most. -/
theorem scanString_raises (pending : Option Nat) (text : PyStr) :
    RaisesOnly IsLoadError (scanString pending text) := by
  fun_induction scanString pending text with
  | case1 => simp
  | case2 | case8 | case10 | case12 => simp [IsLoadError]
  | case3 | case4 | case5 | case7 | case9 | case11 => simpa [prepend]
  | case6 => assumption

/-- A number raises a decode error at most, or is too long. -/
theorem scanUnsigned_raises (negative : Bool) (text : PyStr) :
    RaisesOnly IsLoadError (scanUnsigned negative text) := by
  simp only [scanUnsigned]
  split
  · simp [IsLoadError]
  · split
    · simp
    · split
      · simp
      · split <;> simp [IsLoadError]

/-- So does a scalar. -/
theorem scanScalar_raises (text : PyStr) : RaisesOnly IsLoadError (scanScalar text) := by
  fun_cases scanScalar text with
  | case1 => simp
  | case2 =>
    fun_cases scanNumber text with
    | case1 rest => simpa [scanNumber] using scanUnsigned_raises true rest
    | case2 => simpa [scanNumber] using scanUnsigned_raises false text

section Elements

variable {element : PyStr → Scan Json} (raises : ∀ text, RaisesOnly IsLoadError (element text))

include raises

/-- The items of a list raise what their elements raise, and decode errors. -/
theorem scanItems_raises (fuel : Nat) (text : PyStr) :
    RaisesOnly IsLoadError (scanItems element fuel text) := by
  induction fuel generalizing text with
  | zero => simp [scanItems, IsLoadError]
  | succ fuel inductionHypothesis =>
    rw [scanItems]
    apply raisesOnly_bind (raises text)
    rintro ⟨value, rest⟩ _
    simp only
    split
    · simp
    · apply raisesOnly_bind (inductionHypothesis _)
      rintro ⟨values, after⟩ _
      simp
    · simp [IsLoadError]

/-- So do the entries of an object. -/
theorem scanEntries_raises (fuel : Nat) (entries : Dict) (text : PyStr) :
    RaisesOnly IsLoadError (scanEntries element fuel entries text) := by
  fun_induction scanEntries element fuel entries text with
  | case1 fuel entries text inductionHypothesis =>
    apply raisesOnly_bind (scanString_raises none text)
    rintro ⟨key, rest⟩ _
    simp only
    split
    · apply raisesOnly_bind (raises _)
      rintro ⟨value, after⟩ _
      simp only
      split
      · simp
      · exact inductionHypothesis _ _ _
      · simp [IsLoadError]
    · simp [IsLoadError]
  | case2 => simp [IsLoadError]

/-- So does an object. -/
theorem scanObject_raises (text : PyStr) : RaisesOnly IsLoadError (scanObject element text) := by
  rw [scanObject]
  split
  · simp
  · exact raisesOnly_map.mpr (scanEntries_raises raises _ _ _)

/-- So does a list. -/
theorem scanList_raises (text : PyStr) : RaisesOnly IsLoadError (scanList element text) := by
  rw [scanList]
  split
  · simp
  · exact raisesOnly_map.mpr (scanItems_raises raises _ _)

end Elements

/-- A value raises load errors only. -/
theorem scanValue_raises (depth : Nat) (text : PyStr) :
    RaisesOnly IsLoadError (scanValue depth text) := by
  induction depth generalizing text with
  | zero =>
    unfold scanValue
    split
    · exact raisesOnly_map.mpr (scanString_raises none _)
    · simp [IsLoadError]
    · simp [IsLoadError]
    · rename_i positive
      simp at positive
    · rename_i positive
      simp at positive
    · exact scanScalar_raises _
  | succ depth inductionHypothesis =>
    unfold scanValue
    split
    · exact raisesOnly_map.mpr (scanString_raises none _)
    · simp [IsLoadError]
    · simp [IsLoadError]
    · rename_i same
      obtain rfl := Nat.succ.inj same
      exact scanObject_raises inductionHypothesis _
    · rename_i same
      obtain rfl := Nat.succ.inj same
      exact scanList_raises inductionHypothesis _
    · exact scanScalar_raises _

end JsonLoads

open JsonLoads in
/-- `json.loads` of a string. -/
def loads [PyRuntime] (text : PyStr) : Except PyExc Json :=
  if text.head? = some 0xFEFF then .error .jsonDecodeError
  else do
    let (value, rest) ← scanValue PyRuntime.recursionLimit (skipBlanks text)
    if skipBlanks rest = [] then .ok value else .error .jsonDecodeError

open JsonLoads Attempts in
/-- A text that does not load raises one of three errors. -/
theorem loads_raises [PyRuntime] (text : PyStr) : RaisesOnly IsLoadError (loads text) := by
  rw [loads]
  split
  · simp [IsLoadError]
  · apply raisesOnly_bind (scanValue_raises _ _)
    rintro ⟨value, rest⟩ _
    simp only
    split
    · simp
    · simp [IsLoadError]

end RcaBackend
