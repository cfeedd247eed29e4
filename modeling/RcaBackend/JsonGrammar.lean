import RcaBackend.JsonLoads

/-!
# The texts that `json.loads` reads

The scanner is related to a grammar that knows no fuel. Values, items and entries are read
from left to right; reading exceeds the interpreter where a value opens one bracket too many
or is an integer with too many digits, and all that stands before it can be read. The text of
a value loads; of the others, those that exceed raise a plain error, and the rest, and only
these, a `JSONDecodeError`. So no loop of the scanner runs out of fuel.
-/

namespace RcaBackend

namespace JsonLoads

open Attempts

/-! ## The grammar -/

/-- What a text begins with: a value, and the text after it. -/
abbrev Reading := PyStr → Json → PyStr → Prop

/-- The items of a list up to its closing bracket. -/
inductive Items (element : Reading) : PyStr → List Json → PyStr → Prop where
  | last {text rest after : PyStr} {value : Json} (item : element text value rest)
      (closed : skipBlanks rest = 93 :: after) : Items element text [value] after
  | next {text rest more after : PyStr} {value : Json} {values : List Json}
      (item : element text value rest) (comma : skipBlanks rest = 44 :: more)
      (others : Items element (skipBlanks more) values after) :
      Items element text (value :: values) after

/-- A key and its colon, before the value. -/
def Named (text key place : PyStr) : Prop :=
  ∃ quoted rest more, text = 34 :: quoted ∧ scanString none quoted = .ok (key, rest) ∧
    skipBlanks rest = 58 :: more ∧ skipBlanks more = place

/-- The entries of an object up to its closing brace, added to the ones before. -/
inductive Entries (element : Reading) : Dict → PyStr → Dict → PyStr → Prop where
  | last {before : Dict} {text key place rest after : PyStr} {value : Json}
      (named : Named text key place) (entry : element place value rest)
      (closed : skipBlanks rest = 125 :: after) :
      Entries element before text (before.set key value) after
  | next {before result : Dict} {text key place rest more after : PyStr} {value : Json}
      (named : Named text key place) (entry : element place value rest)
      (comma : skipBlanks rest = 44 :: more)
      (others : Entries element (before.set key value) (skipBlanks more) result after) :
      Entries element before text result after

/-- A string. -/
def StringText (text : PyStr) (value : Json) (rest : PyStr) : Prop :=
  ∃ quoted read, text = 34 :: quoted ∧ scanString none quoted = .ok (read, rest) ∧
    value = .str read

/-- Nothing that a quote or a bracket opens. -/
def Unopened (text : PyStr) : Prop :=
  text.head? ≠ some 34 ∧ text.head? ≠ some 91 ∧ text.head? ≠ some 123

/-- A name or a number. -/
def ScalarText (text : PyStr) (value : Json) (rest : PyStr) : Prop :=
  Unopened text ∧ scanScalar text = .ok (value, rest)

/-- A list, empty or with items. -/
def ListText (element : Reading) (text : PyStr) (value : Json) (rest : PyStr) : Prop :=
  ∃ opened, text = 91 :: opened ∧
    (skipBlanks opened = 93 :: rest ∧ value = .list [] ∨
      (skipBlanks opened).head? ≠ some 93 ∧
        ∃ values, Items element (skipBlanks opened) values rest ∧ value = .list values)

/-- An object, empty or with entries. -/
def ObjectText (element : Reading) (text : PyStr) (value : Json) (rest : PyStr) : Prop :=
  ∃ opened, text = 123 :: opened ∧
    (skipBlanks opened = 125 :: rest ∧ value = .dict [] ∨
      ∃ entries, Entries element [] (skipBlanks opened) entries rest ∧ value = .dict entries)

/-- A value of at most so many lists and objects inside each other. -/
def Spells : Nat → Reading
  | 0, text, value, rest => StringText text value rest ∨ ScalarText text value rest
  | depth + 1, text, value, rest =>
    StringText text value rest ∨ ScalarText text value rest ∨
      ListText (Spells depth) text value rest ∨ ObjectText (Spells depth) text value rest

/-! ## What exceeds the interpreter -/

/-- A place at which an item begins, after items that can be read. -/
inductive ItemAt (element : Reading) : PyStr → PyStr → Prop where
  | here {text : PyStr} : ItemAt element text text
  | next {text rest more place : PyStr} {value : Json} (item : element text value rest)
      (comma : skipBlanks rest = 44 :: more) (later : ItemAt element (skipBlanks more) place) :
      ItemAt element text place

/-- A place at which the value of an entry begins, after entries that can be read. -/
inductive EntryAt (element : Reading) : PyStr → PyStr → Prop where
  | here {text key place : PyStr} (named : Named text key place) : EntryAt element text place
  | next {text key first rest more place : PyStr} {value : Json} (named : Named text key first)
      (entry : element first value rest) (comma : skipBlanks rest = 44 :: more)
      (later : EntryAt element (skipBlanks more) place) : EntryAt element text place

/-- An integer after its sign has more digits than `int` converts. -/
def LongDigits (text : PyStr) : Prop :=
  maxStrDigits < (wholeDigits text).1.length ∧ (fractionDigits (wholeDigits text).2).1 = [] ∧
    exponentPart (fractionDigits (wholeDigits text).2).2 = none

/-- An integer has more digits than `int` converts. -/
def LongInteger : PyStr → Prop
  | 45 :: rest => LongDigits rest
  | text => LongDigits text

/-- A place inside a list or an object at which a value begins. -/
def InsideAt (element : Reading) (text place : PyStr) : Prop :=
  (∃ opened, text = 91 :: opened ∧ (skipBlanks opened).head? ≠ some 93 ∧
      ItemAt element (skipBlanks opened) place) ∨
    ∃ opened, text = 123 :: opened ∧ EntryAt element (skipBlanks opened) place

/-- Reading a value opens more brackets inside each other than allowed, or meets an integer
that is too long. -/
def TooMuch : Nat → PyStr → Prop
  | 0, text => text.head? = some 91 ∨ text.head? = some 123 ∨ LongInteger text
  | depth + 1, text => LongInteger text ∨
    ∃ place, InsideAt (Spells depth) text place ∧ TooMuch depth place

/-! ## The scanner reads the grammar -/

/-- A scan raises an error that is not one of syntax. -/
def Exceeds {α : Type} (scan : Except PyExc α) : Prop :=
  ∃ error, scan = .error error ∧ error ≠ .jsonDecodeError

/-- A value exceeds nothing. -/
@[simp] theorem exceeds_ok {α : Type} (value : α) : ¬ Exceeds (.ok value) := by
  simp [Exceeds]

/-- A syntax error is the one that does not exceed the interpreter. -/
@[simp] theorem exceeds_error {α : Type} (error : PyExc) :
    Exceeds (.error error : Except PyExc α) ↔ error ≠ .jsonDecodeError := by
  simp [Exceeds]

/-- Two attempts in a row exceed where the first one does, or the second one on its value. -/
theorem exceeds_bind {α β : Type} {first : Except PyExc α} {next : α → Except PyExc β} :
    Exceeds (first >>= next) ↔
      Exceeds first ∨ ∃ value, first = .ok value ∧ Exceeds (next value) := by
  cases first with
  | error error => simp [bind, Except.bind]
  | ok value => simp [bind, Except.bind]

/-- What is made of the value does not matter. -/
@[simp] theorem exceeds_map {α β : Type} {first : Except PyExc α} {f : α → β} :
    Exceeds (first.map f) ↔ Exceeds first := by
  cases first <;> simp [Except.map]

/-- What a scanner reads. -/
def Reads (element : PyStr → Scan Json) : Reading :=
  fun text value rest => element text = .ok (value, rest)

section Elements

variable {element : PyStr → Scan Json} (shrinks : Shrinks element)

include shrinks

/-- The scanner reads the items of the grammar. -/
theorem scanItems_ok_iff {fuel : Nat} {text rest : PyStr} {values : List Json}
    (enough : text.length ≤ fuel) :
    scanItems element fuel text = .ok (values, rest) ↔ Items (Reads element) text values rest := by
  induction fuel generalizing text values with
  | zero =>
    obtain rfl := List.length_eq_zero_iff.mp (Nat.le_zero.mp enough)
    constructor
    · intro scanned
      simp [scanItems] at scanned
    · -- an item takes a character off its text
      intro items
      cases items with
      | last item closed => exact absurd (shrinks _ _ _ item) (Nat.not_lt_zero _)
      | next item comma others => exact absurd (shrinks _ _ _ item) (Nat.not_lt_zero _)
  | succ fuel inductionHypothesis =>
    rw [scanItems, bind_ok_iff]
    constructor
    · rintro ⟨⟨value, after⟩, item, scanned⟩
      have shorter := shrinks _ _ _ item
      have blanks := skipBlanks_length after
      simp only at scanned
      split at scanned
      · rename_i closing shape
        obtain ⟨rfl, rfl⟩ := Prod.mk.inj (Except.ok.inj scanned)
        exact .last item shape
      · rename_i more shape
        obtain ⟨⟨others, last⟩, later, same⟩ := bind_ok_iff.mp scanned
        obtain ⟨rfl, rfl⟩ := Prod.mk.inj (Except.ok.inj same)
        rw [shape, List.length_cons] at blanks
        have fewer := skipBlanks_length more
        exact .next item shape ((inductionHypothesis (by omega)).mp later)
      · cases scanned
    · intro items
      cases items with
      | @last _ after _ value item closed =>
        refine ⟨(value, after), item, ?_⟩
        simp only [closed]
      | @next _ after more _ value values item comma others =>
        have shorter := shrinks _ _ _ item
        have blanks := skipBlanks_length after
        rw [comma, List.length_cons] at blanks
        have fewer := skipBlanks_length more
        refine ⟨(value, after), item, ?_⟩
        simp only [comma]
        exact bind_ok_iff.mpr ⟨(values, rest), (inductionHypothesis (by omega)).mpr others, rfl⟩

/-- It exceeds at an item that it gets to. -/
theorem scanItems_exceeds_iff (empty : ¬ Exceeds (element [])) {fuel : Nat} {text : PyStr}
    (enough : text.length ≤ fuel) :
    Exceeds (scanItems element fuel text) ↔
      ∃ place, ItemAt (Reads element) text place ∧ Exceeds (element place) := by
  induction fuel generalizing text with
  | zero =>
    obtain rfl := List.length_eq_zero_iff.mp (Nat.le_zero.mp enough)
    simp only [scanItems, exceeds_error, ne_eq, not_true_eq_false, false_iff, not_exists, not_and]
    intro place reached
    cases reached with
    | here => exact empty
    | next item comma later => exact absurd (shrinks _ _ _ item) (Nat.not_lt_zero _)
  | succ fuel inductionHypothesis =>
    rw [scanItems, exceeds_bind]
    have later {value : Json} {rest more : PyStr} (item : element text = .ok (value, rest))
        (comma : skipBlanks rest = 44 :: more) : (skipBlanks more).length ≤ fuel := by
      have shorter := shrinks _ _ _ item
      have blanks := skipBlanks_length rest
      rw [comma, List.length_cons] at blanks
      have fewer := skipBlanks_length more
      omega
    constructor
    · rintro (first | ⟨⟨value, after⟩, item, exceeds⟩)
      · exact ⟨text, .here, first⟩
      · simp only at exceeds
        split at exceeds
        · simp at exceeds
        · rename_i more shape
          rw [exceeds_bind] at exceeds
          rcases exceeds with exceeds | ⟨result, -, exceeds⟩
          · obtain ⟨place, reached, there⟩ := (inductionHypothesis (later item shape)).mp exceeds
            exact ⟨place, .next item shape reached, there⟩
          · simp at exceeds
        · simp at exceeds
    · rintro ⟨place, reached, there⟩
      cases reached with
      | here => exact Or.inl there
      | @next _ rest more _ value item comma reached =>
        refine Or.inr ⟨(value, rest), item, ?_⟩
        simp only [comma]
        exact exceeds_bind.mpr
          (Or.inl ((inductionHypothesis (later item comma)).mpr ⟨place, reached, there⟩))

end Elements

/-- A string fails by its syntax only. -/
theorem scanString_exceeds (pending : Option Nat) (text : PyStr) :
    ¬ Exceeds (scanString pending text) := by
  fun_induction scanString pending text with
  | case1 | case2 | case8 | case10 | case12 => simp
  | case3 | case4 | case5 | case7 | case9 | case11 => simpa [prepend]
  | case6 => assumption

/-- The place behind a key is shorter. -/
theorem named_shrinks {text key place : PyStr} (named : Named text key place) :
    place.length < text.length := by
  obtain ⟨quoted, rest, more, rfl, keyed, colon, rfl⟩ := named
  have shorter := scanString_shrinks none _ _ _ keyed
  have blanks := skipBlanks_length rest
  rw [colon, List.length_cons] at blanks
  have fewer := skipBlanks_length more
  rw [List.length_cons]
  omega

/-- The entries of an object by their first one. -/
theorem scanEntries_first {element : PyStr → Scan Json} {fuel : Nat} {before : Dict}
    {text key place : PyStr} (named : Named text key place) :
    scanEntries element (fuel + 1) before text = (do
      let (value, rest) ← element place
      match skipBlanks rest with
      | 125 :: rest => .ok (before.set key value, rest)
      | 44 :: rest => scanEntries element fuel (before.set key value) (skipBlanks rest)
      | _ => .error .jsonDecodeError) := by
  obtain ⟨quoted, rest, more, rfl, keyed, colon, rfl⟩ := named
  rw [scanEntries, keyed]
  simp only [bind, Except.bind, colon]
  all_goals rfl

/-- Without a key and its colon there is a syntax error. -/
theorem scanEntries_unnamed {element : PyStr → Scan Json} {fuel : Nat} {before : Dict}
    {text : PyStr} (unnamed : ¬ ∃ key place, Named text key place) :
    scanEntries element fuel before text = .error .jsonDecodeError := by
  fun_cases scanEntries element fuel before text with
  | case1 fuel before quoted =>
    cases keyed : scanString none quoted with
    | error error =>
      have syntaxError : error = .jsonDecodeError := by
        by_contra other
        exact scanString_exceeds none quoted ⟨error, keyed, other⟩
      rw [syntaxError]
      rfl
    | ok result =>
      simp only [bind, Except.bind]
      split
      · rename_i more colon
        exact absurd ⟨_, _, quoted, _, more, rfl, keyed, colon, rfl⟩ unnamed
      · rfl
  | case2 => rfl

section Entries

variable {element : PyStr → Scan Json} (shrinks : Shrinks element)

include shrinks

/-- What is left after a comma is shorter. -/
theorem comma_shrinks {place rest more : PyStr} {value : Json}
    (entry : element place = .ok (value, rest)) (comma : skipBlanks rest = 44 :: more) :
    (skipBlanks more).length + 1 < place.length := by
  have shorter := shrinks _ _ _ entry
  have blanks := skipBlanks_length rest
  rw [comma, List.length_cons] at blanks
  have fewer := skipBlanks_length more
  omega

/-- The scanner reads the entries of the grammar. -/
theorem scanEntries_ok_iff {fuel : Nat} {before result : Dict} {text rest : PyStr}
    (enough : text.length ≤ fuel) :
    scanEntries element fuel before text = .ok (result, rest) ↔
      Entries (Reads element) before text result rest := by
  induction fuel generalizing before text with
  | zero =>
    obtain rfl := List.length_eq_zero_iff.mp (Nat.le_zero.mp enough)
    constructor
    · intro scanned
      simp [scanEntries] at scanned
    · intro entries
      cases entries with
      | last named => exact absurd (named_shrinks named) (Nat.not_lt_zero _)
      | next named => exact absurd (named_shrinks named) (Nat.not_lt_zero _)
  | succ fuel inductionHypothesis =>
    constructor
    · intro scanned
      by_cases named : ∃ key place, Named text key place
      · obtain ⟨key, place, named⟩ := named
        rw [scanEntries_first named] at scanned
        obtain ⟨⟨value, after⟩, entry, scanned⟩ := bind_ok_iff.mp scanned
        simp only at scanned
        split at scanned
        · rename_i closing shape
          obtain ⟨rfl, rfl⟩ := Prod.mk.inj (Except.ok.inj scanned)
          exact .last named entry shape
        · rename_i more shape
          have shorter := named_shrinks named
          have later := comma_shrinks shrinks entry shape
          exact .next named entry shape ((inductionHypothesis (by omega)).mp scanned)
        · cases scanned
      · rw [scanEntries_unnamed named] at scanned
        cases scanned
    · intro entries
      cases entries with
      | @last _ _ key place after _ value named entry closed =>
        rw [scanEntries_first named]
        refine bind_ok_iff.mpr ⟨(value, after), entry, ?_⟩
        simp only [closed]
      | @next _ _ _ key place after more _ value named entry comma others =>
        have shorter := named_shrinks named
        have later := comma_shrinks shrinks entry comma
        rw [scanEntries_first named]
        refine bind_ok_iff.mpr ⟨(value, after), entry, ?_⟩
        simp only [comma]
        exact (inductionHypothesis (by omega)).mpr others

/-- It exceeds at an entry that it gets to. -/
theorem scanEntries_exceeds_iff {fuel : Nat} {before : Dict} {text : PyStr}
    (enough : text.length ≤ fuel) :
    Exceeds (scanEntries element fuel before text) ↔
      ∃ place, EntryAt (Reads element) text place ∧ Exceeds (element place) := by
  induction fuel generalizing before text with
  | zero =>
    obtain rfl := List.length_eq_zero_iff.mp (Nat.le_zero.mp enough)
    simp only [scanEntries, exceeds_error, ne_eq, not_true_eq_false, false_iff, not_exists, not_and]
    intro place reached
    cases reached with
    | here named => exact absurd (named_shrinks named) (Nat.not_lt_zero _)
    | next named => exact absurd (named_shrinks named) (Nat.not_lt_zero _)
  | succ fuel inductionHypothesis =>
    constructor
    · intro exceeds
      by_cases named : ∃ key place, Named text key place
      · obtain ⟨key, place, named⟩ := named
        rw [scanEntries_first named, exceeds_bind] at exceeds
        rcases exceeds with exceeds | ⟨⟨value, after⟩, entry, exceeds⟩
        · exact ⟨place, .here named, exceeds⟩
        · simp only at exceeds
          split at exceeds
          · simp at exceeds
          · rename_i more shape
            have shorter := named_shrinks named
            have later := comma_shrinks shrinks entry shape
            obtain ⟨other, reached, there⟩ := (inductionHypothesis (by omega)).mp exceeds
            exact ⟨other, .next named entry shape reached, there⟩
          · simp at exceeds
      · rw [scanEntries_unnamed named] at exceeds
        simp at exceeds
    · rintro ⟨other, reached, there⟩
      cases reached with
      | here named =>
        rw [scanEntries_first named, exceeds_bind]
        exact Or.inl there
      | @next _ key place after more _ value named entry comma reached =>
        have shorter := named_shrinks named
        have later := comma_shrinks shrinks entry comma
        rw [scanEntries_first named, exceeds_bind]
        refine Or.inr ⟨(value, after), entry, ?_⟩
        simp only [comma]
        exact (inductionHypothesis (by omega)).mpr ⟨other, reached, there⟩

end Entries

/-! ## Values -/

/-- A quote, a bracket, a brace, or none of them begins a text. -/
theorem text_cases (text : PyStr) : (∃ rest, text = 34 :: rest) ∨ (∃ rest, text = 91 :: rest) ∨
    (∃ rest, text = 123 :: rest) ∨ Unopened text := by
  cases text with
  | nil => simp [Unopened]
  | cons c rest =>
    simp only [List.cons.injEq, exists_eq_right', Unopened, List.head?_cons, ne_eq, Option.some.injEq]
    tauto

/-- A text that opens nothing is read as a scalar. -/
theorem scanValue_unopened {text : PyStr} (plain : Unopened text) (depth : Nat) :
    scanValue depth text = scanScalar text := by
  obtain ⟨quote, bracket, brace⟩ := plain
  unfold scanValue
  split <;> simp_all

/-- Lists and objects that the scanner of their elements reads. -/
theorem scanList_ok_iff {element : PyStr → Scan Json} (shrinks : Shrinks element)
    {opened rest : PyStr} {value : Json} :
    scanList element opened = .ok (value, rest) ↔
      ListText (Reads element) (91 :: opened) value rest := by
  rw [scanList, ListText]
  split
  · rename_i after shape
    constructor
    · intro same
      obtain ⟨rfl, rfl⟩ := Prod.mk.inj (Except.ok.inj same)
      exact ⟨opened, rfl, Or.inl ⟨shape, rfl⟩⟩
    · rintro ⟨_, ⟨⟩, ⟨closed, rfl⟩ | ⟨other, -⟩⟩
      · rw [shape, List.cons.injEq] at closed
        rw [closed.2]
      · simp [shape] at other
  · rename_i unclosed
    rw [map_ok_iff]
    constructor
    · rintro ⟨⟨values, last⟩, scanned, same⟩
      obtain ⟨rfl, rfl⟩ := Prod.mk.inj same
      refine ⟨opened, rfl, Or.inr ⟨?_, values, ?_, rfl⟩⟩
      · intro closes
        obtain ⟨after, shape⟩ := List.head?_eq_some_iff.mp closes
        exact unclosed after shape
      · exact (scanItems_ok_iff shrinks (Nat.le_refl _)).mp scanned
    · rintro ⟨_, ⟨⟩, ⟨closed, -⟩ | ⟨-, values, items, rfl⟩⟩
      · exact absurd closed (unclosed rest)
      · exact ⟨(values, rest), (scanItems_ok_iff shrinks (Nat.le_refl _)).mpr items, rfl⟩

/-- The scanner reads the objects of the grammar. -/
theorem scanObject_ok_iff {element : PyStr → Scan Json} (shrinks : Shrinks element)
    {opened rest : PyStr} {value : Json} :
    scanObject element opened = .ok (value, rest) ↔
      ObjectText (Reads element) (123 :: opened) value rest := by
  rw [scanObject, ObjectText]
  split
  · rename_i after shape
    constructor
    · intro same
      obtain ⟨rfl, rfl⟩ := Prod.mk.inj (Except.ok.inj same)
      exact ⟨opened, rfl, Or.inl ⟨shape, rfl⟩⟩
    · rintro ⟨_, ⟨⟩, ⟨closed, rfl⟩ | ⟨entries, read, -⟩⟩
      · rw [shape, List.cons.injEq] at closed
        rw [closed.2]
      · -- a closing brace is no key
        rw [shape] at read
        cases read with
        | last named =>
          obtain ⟨quoted, _, _, same, -⟩ := named
          simp at same
        | next named =>
          obtain ⟨quoted, _, _, same, -⟩ := named
          simp at same
  · rename_i unclosed
    rw [map_ok_iff]
    constructor
    · rintro ⟨⟨entries, last⟩, scanned, same⟩
      obtain ⟨rfl, rfl⟩ := Prod.mk.inj same
      exact ⟨opened, rfl, Or.inr
        ⟨entries, (scanEntries_ok_iff shrinks (Nat.le_refl _)).mp scanned, rfl⟩⟩
    · rintro ⟨_, ⟨⟩, ⟨closed, -⟩ | ⟨entries, read, rfl⟩⟩
      · exact absurd closed (unclosed rest)
      · exact ⟨(entries, rest), (scanEntries_ok_iff shrinks (Nat.le_refl _)).mpr read, rfl⟩

/-- A quote opens a string. -/
theorem scanValue_string (depth : Nat) (quoted : PyStr) : scanValue depth (34 :: quoted) =
    (scanString none quoted).map fun result => (.str result.1, result.2) := by
  cases depth <;> rfl

/-- The scanner reads the strings of the grammar. -/
theorem stringText_iff {quoted rest : PyStr} {value : Json} :
    (scanString none quoted).map (fun result => (Json.str result.1, result.2)) = .ok (value, rest) ↔
      StringText (34 :: quoted) value rest := by
  rw [map_ok_iff, StringText]
  constructor
  · rintro ⟨⟨read, last⟩, scanned, same⟩
    obtain ⟨rfl, rfl⟩ := Prod.mk.inj same
    exact ⟨quoted, read, rfl, scanned, rfl⟩
  · rintro ⟨_, read, ⟨⟩, scanned, rfl⟩
    exact ⟨(read, rest), scanned, rfl⟩

/-- What opens a string, a list or an object is no scalar. -/
theorem not_scalarText {c : Nat} {after rest : PyStr} {value : Json}
    (opens : c = 34 ∨ c = 91 ∨ c = 123) : ¬ ScalarText (c :: after) value rest := by
  rintro ⟨⟨quote, bracket, brace⟩, -⟩
  simp only [List.head?_cons, ne_eq, Option.some.injEq] at quote bracket brace
  tauto

/-- The scanner reads what the grammar spells. -/
theorem scanValue_ok_iff (depth : Nat) {text rest : PyStr} {value : Json} :
    scanValue depth text = .ok (value, rest) ↔ Spells depth text value rest := by
  induction depth generalizing text value rest with
  | zero =>
    obtain ⟨after, rfl⟩ | ⟨after, rfl⟩ | ⟨after, rfl⟩ | plain := text_cases text
    · rw [scanValue_string, stringText_iff, Spells]
      simp [not_scalarText]
    · simp [scanValue, Spells, StringText, not_scalarText]
    · simp [scanValue, Spells, StringText, not_scalarText]
    · rw [scanValue_unopened plain, Spells, ScalarText, and_iff_right plain, or_iff_right]
      rintro ⟨quoted, _, rfl, -⟩
      exact plain.1 rfl
  | succ depth inductionHypothesis =>
    have elements : Spells depth = Reads (scanValue depth) := by
      funext text value rest
      exact propext inductionHypothesis.symm
    have shrinks := scanValue_shrinks depth
    obtain ⟨after, rfl⟩ | ⟨after, rfl⟩ | ⟨after, rfl⟩ | plain := text_cases text
    · rw [scanValue_string, stringText_iff, Spells]
      simp [not_scalarText, ListText, ObjectText]
    · rw [scanValue, scanList_ok_iff shrinks, Spells, elements]
      simp [not_scalarText, StringText, ObjectText]
    · rw [scanValue, scanObject_ok_iff shrinks, Spells, elements]
      simp [not_scalarText, StringText, ListText]
    · rw [scanValue_unopened plain, Spells, ScalarText, and_iff_right plain]
      constructor
      · intro scanned
        exact Or.inr (Or.inl scanned)
      · rintro (⟨quoted, _, rfl, -⟩ | scanned | ⟨opened, rfl, -⟩ | ⟨opened, rfl, -⟩)
        · exact absurd rfl plain.1
        · exact scanned
        · exact absurd rfl plain.2.1
        · exact absurd rfl plain.2.2

/-! ## Errors -/

/-- An unsigned number exceeds where it has too many digits and no fraction or exponent. -/
theorem scanUnsigned_exceeds_iff (negative : Bool) (text : PyStr) :
    Exceeds (scanUnsigned negative text) ↔ LongDigits text := by
  simp only [scanUnsigned, LongDigits]
  split
  · rename_i empty
    simp [empty]
  · split
    · rename_i exponent rest found
      simp [found]
    · rename_i absent
      split
      · rename_i fractional
        simp [fractional]
      · rename_i whole
        have none : (fractionDigits (wholeDigits text).2).1 = [] := not_not.mp whole
        split
        · rename_i long
          simp [none, absent, long]
        · rename_i short
          simp [short]

/-- Without a sign the digits alone are too many. -/
theorem longInteger_plain {text : PyStr} (unsigned : text.head? ≠ some 45) :
    LongInteger text ↔ LongDigits text := by
  cases text with
  | nil => rfl
  | cons c after =>
    have other : c ≠ 45 := by simpa using unsigned
    rw [LongInteger]
    rintro rest ⟨⟩
    exact other rfl

/-- A long integer begins with a digit, maybe after a minus sign. -/
theorem longInteger_digit {text : PyStr} (long : LongInteger text) :
    ∃ c after, 48 ≤ c ∧ c ≤ 57 ∧ (text = c :: after ∨ text = 45 :: c :: after) := by
  have digits {rest : PyStr} (long : LongDigits rest) :
      ∃ c after, 48 ≤ c ∧ c ≤ 57 ∧ rest = c :: after := by
    cases rest with
    | nil => simp [LongDigits, wholeDigits, leadingDigits] at long
    | cons c after =>
      have digit : 48 ≤ c ∧ c ≤ 57 := by
        by_contra other
        have mark : isAsciiDigit c = false := by
          simp only [isAsciiDigit, Bool.and_eq_false_iff, decide_eq_false_iff_not]
          omega
        have first : c ≠ 48 := by omega
        simp [LongDigits, wholeDigits, leadingDigits, mark, first] at long
      exact ⟨c, after, digit.1, digit.2, rfl⟩
  by_cases signed : text.head? = some 45
  · obtain ⟨rest, rfl⟩ := List.head?_eq_some_iff.mp signed
    obtain ⟨c, after, least, most, rfl⟩ := digits long
    exact ⟨c, after, least, most, Or.inr rfl⟩
  · obtain ⟨c, after, least, most, rfl⟩ := digits ((longInteger_plain signed).mp long)
    exact ⟨c, after, least, most, Or.inl rfl⟩

/-- A long integer is no name. -/
theorem scanLiteral_long {text : PyStr} (long : LongInteger text) : scanLiteral text = none := by
  obtain ⟨c, after, least, most, rfl | rfl⟩ := longInteger_digit long
  · simp [scanLiteral, literals, py]
    omega
  · simp [scanLiteral, literals, py]
    omega

/-- A scalar exceeds where it is an integer of too many digits. -/
theorem scanScalar_exceeds_iff (text : PyStr) : Exceeds (scanScalar text) ↔ LongInteger text := by
  have number : Exceeds (scanNumber text) ↔ LongInteger text := by
    fun_cases scanNumber text with
    | case1 rest => exact scanUnsigned_exceeds_iff true rest
    | case2 =>
      rename_i unsigned
      have plain : text.head? ≠ some 45 := by
        intro signed
        obtain ⟨rest, rfl⟩ := List.head?_eq_some_iff.mp signed
        exact unsigned rest rfl
      rw [longInteger_plain plain]
      exact scanUnsigned_exceeds_iff false text
  rw [scanScalar]
  split
  · rename_i result found
    simp only [exceeds_ok, false_iff]
    intro long
    rw [scanLiteral_long long] at found
    cases found
  · exact number

/-- Neither a quote nor a bracket opens a long integer. -/
theorem not_longInteger {c : Nat} {after : PyStr} (opens : c = 34 ∨ c = 91 ∨ c = 123) :
    ¬ LongInteger (c :: after) := by
  intro long
  obtain ⟨digit, others, least, most, same | same⟩ := longInteger_digit long
  · rw [List.cons.injEq] at same
    omega
  · rw [List.cons.injEq] at same
    omega

/-- A list exceeds at one of its items. -/
theorem scanList_exceeds_iff {element : PyStr → Scan Json} (shrinks : Shrinks element)
    (empty : ¬ Exceeds (element [])) {opened : PyStr} : Exceeds (scanList element opened) ↔
      ∃ place, ((skipBlanks opened).head? ≠ some 93 ∧
        ItemAt (Reads element) (skipBlanks opened) place) ∧ Exceeds (element place) := by
  rw [scanList]
  split
  · rename_i after shape
    simp [shape]
  · rename_i unclosed
    have other : (skipBlanks opened).head? ≠ some 93 := by
      intro closes
      obtain ⟨after, shape⟩ := List.head?_eq_some_iff.mp closes
      exact unclosed after shape
    rw [exceeds_map, scanItems_exceeds_iff shrinks empty (Nat.le_refl _)]
    simp [other]

/-- An object exceeds at one of its entries. -/
theorem scanObject_exceeds_iff {element : PyStr → Scan Json} (shrinks : Shrinks element)
    {opened : PyStr} : Exceeds (scanObject element opened) ↔
      ∃ place, EntryAt (Reads element) (skipBlanks opened) place ∧ Exceeds (element place) := by
  rw [scanObject]
  split
  · rename_i after shape
    simp only [exceeds_ok, false_iff, not_exists, not_and, shape]
    rintro place reached -
    -- a closing brace is no key
    cases reached with
    | here named =>
      obtain ⟨quoted, _, _, same, -⟩ := named
      simp at same
    | next named =>
      obtain ⟨quoted, _, _, same, -⟩ := named
      simp at same
  · rw [exceeds_map, scanEntries_exceeds_iff shrinks (Nat.le_refl _)]

/-- The end of the text is a syntax error. -/
theorem scanValue_empty (depth : Nat) : ¬ Exceeds (scanValue depth []) := by
  have plain : Unopened [] := by simp [Unopened]
  rw [scanValue_unopened plain, scanScalar_exceeds_iff]
  simp [LongInteger, LongDigits, wholeDigits, leadingDigits]

/-- Reading a value exceeds the interpreter where the grammar says so. -/
theorem scanValue_exceeds_iff (depth : Nat) {text : PyStr} :
    Exceeds (scanValue depth text) ↔ TooMuch depth text := by
  induction depth generalizing text with
  | zero =>
    obtain ⟨after, rfl⟩ | ⟨after, rfl⟩ | ⟨after, rfl⟩ | plain := text_cases text
    · simp [scanValue_string, scanString_exceeds, TooMuch, not_longInteger]
    · simp [scanValue, TooMuch]
    · simp [scanValue, TooMuch]
    · rw [scanValue_unopened plain, scanScalar_exceeds_iff, TooMuch, or_iff_right plain.2.1,
        or_iff_right plain.2.2]
  | succ depth inductionHypothesis =>
    have elements : Spells depth = Reads (scanValue depth) := by
      funext text value rest
      exact propext (scanValue_ok_iff depth).symm
    have shrinks := scanValue_shrinks depth
    simp only [TooMuch, InsideAt, elements, ← inductionHypothesis]
    obtain ⟨after, rfl⟩ | ⟨after, rfl⟩ | ⟨after, rfl⟩ | plain := text_cases text
    · simp [scanValue_string, scanString_exceeds, not_longInteger]
    · rw [scanValue, scanList_exceeds_iff shrinks (scanValue_empty depth)]
      simp [not_longInteger]
    · rw [scanValue, scanObject_exceeds_iff shrinks]
      simp [not_longInteger]
    · rw [scanValue_unopened plain, scanScalar_exceeds_iff, or_iff_left]
      rintro ⟨place, ⟨opened, rfl, -⟩ | ⟨opened, rfl, -⟩, -⟩
      · exact absurd rfl plain.2.1
      · exact absurd rfl plain.2.2

end JsonLoads

/-! ## Whole texts -/

open JsonLoads Attempts

variable [PyRuntime]

/-- A text without a byte order mark is one value between blanks. -/
def JsonText (text : PyStr) (value : Json) : Prop :=
  text.head? ≠ some 0xFEFF ∧ ∃ rest, Spells PyRuntime.recursionLimit (skipBlanks text) value rest ∧
    skipBlanks rest = []

/-- Reading a text exceeds the interpreter. -/
def TextExceeds (text : PyStr) : Prop :=
  text.head? ≠ some 0xFEFF ∧ TooMuch PyRuntime.recursionLimit (skipBlanks text)

/-- `json.loads` returns the value that the text spells. -/
theorem loads_ok_iff {text : PyStr} {value : Json} :
    loads text = .ok value ↔ JsonText text value := by
  rw [loads, JsonText]
  split
  · rename_i marked
    simp [marked]
  · rename_i unmarked
    rw [and_iff_right unmarked, bind_ok_iff]
    constructor
    · rintro ⟨⟨read, rest⟩, scanned, ended⟩
      simp only at ended
      split at ended
      · rename_i blank
        obtain rfl := Except.ok.inj ended
        exact ⟨rest, (scanValue_ok_iff _).mp scanned, blank⟩
      · cases ended
    · rintro ⟨rest, spelled, blank⟩
      exact ⟨(value, rest), (scanValue_ok_iff _).mpr spelled, if_pos blank⟩

/-- `json.loads` raises another error than one of syntax where reading exceeds the interpreter. -/
theorem loads_exceeds_iff {text : PyStr} : Exceeds (loads text) ↔ TextExceeds text := by
  rw [loads, TextExceeds]
  split
  · rename_i marked
    simp [marked]
  · rename_i unmarked
    rw [and_iff_right unmarked, exceeds_bind, scanValue_exceeds_iff, or_iff_left]
    rintro ⟨⟨read, rest⟩, -, exceeds⟩
    simp only at exceeds
    split at exceeds <;> simp at exceeds

/-- `json.loads` raises `JSONDecodeError` for all other texts. -/
theorem loads_syntaxError_iff {text : PyStr} : loads text = .error .jsonDecodeError ↔
    (¬ ∃ value, JsonText text value) ∧ ¬ TextExceeds text := by
  simp only [← loads_ok_iff, ← loads_exceeds_iff]
  cases loads text with
  | error error => simp
  | ok value => simp

/-! ## Dictionaries -/

omit [PyRuntime] in
/-- A dictionary has each of its keys once. -/
theorem keys_set {d : Dict} (distinct : (d.map Prod.fst).Nodup) (key : PyStr) (value : Json) :
    ((d.set key value).map Prod.fst).Nodup := by
  by_cases present : key ∈ d.map Prod.fst
  · have same : (d.set key value).map Prod.fst = d.map Prod.fst := by
      clear distinct
      induction d with
      | nil => cases present
      | cons entry rest inductionHypothesis =>
        obtain ⟨k, v⟩ := entry
        rw [Dict.set]
        split
        · rfl
        · rename_i other
          obtain here | later := List.mem_cons.mp present
          · exact absurd here.symm other
          · rw [List.map_cons, List.map_cons, inductionHypothesis later]
    rw [same]
    exact distinct
  · rw [Dict.set_fresh value present, List.map_append, List.map_cons, List.map_nil]
    exact List.nodup_append.mpr ⟨distinct, List.nodup_singleton _, by
      rintro other member _ (_ | ⟨_, ⟨⟩⟩) rfl
      exact present member⟩

omit [PyRuntime] in
/-- The keys of a read object differ. -/
theorem entries_distinct {element : Reading} {before result : Dict} {text rest : PyStr}
    (read : Entries element before text result rest) (distinct : (before.map Prod.fst).Nodup) :
    (result.map Prod.fst).Nodup := by
  induction read with
  | last named entry closed => exact keys_set distinct _ _
  | next named entry comma others inductionHypothesis =>
    exact inductionHypothesis (keys_set distinct _ _)

/-- The object that a text spells has each of its keys once. -/
theorem JsonText.distinct {text : PyStr} {entries : Dict} (spelled : JsonText text (.dict entries)) :
    (entries.map Prod.fst).Nodup := by
  obtain ⟨-, rest, spelled, -⟩ := spelled
  have scalar {text rest : PyStr} : ¬ ScalarText text (.dict entries) rest :=
    fun read => scanScalar_dict _ _ _ read.2
  have string {text rest : PyStr} : ¬ StringText text (.dict entries) rest := by
    rintro ⟨_, _, _, _, ⟨⟩⟩
  cases limit : PyRuntime.recursionLimit with
  | zero =>
    rw [limit] at spelled
    exact absurd spelled (not_or.mpr ⟨string, scalar⟩)
  | succ depth =>
    rw [limit] at spelled
    rcases spelled with read | read | ⟨opened, -, ⟨-, ⟨⟩⟩ | ⟨-, values, -, ⟨⟩⟩⟩ |
      ⟨opened, -, ⟨-, same⟩ | ⟨others, read, same⟩⟩
    · exact absurd read string
    · exact absurd read scalar
    · cases same
      exact List.nodup_nil
    · cases same
      exact entries_distinct read List.nodup_nil

end RcaBackend
