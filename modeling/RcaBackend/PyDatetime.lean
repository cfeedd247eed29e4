import RcaBackend.PyText
import Mathlib.Data.Option.Basic

/-!
# `datetime`: parsing, comparison, conversion to UTC, rendering

A value is its wall-clock time in microseconds since 0001-01-01T00:00:00 and an
optional offset from UTC, also in microseconds. `fromisoformat` is that of CPython 3.11
and 3.12, which reads the UTF-8 bytes of the text as a C string: calendar and week dates,
basic and extended, any one character between date and time, `Z` or a numeric offset.
What it accepts beyond ISO 8601 is kept: fields of the time that end in a separator before
an offset, a fraction after any of them, what follows six digits of a fraction. Comparison
of a naive with an aware value raises `TypeError`; a shift that leaves the years 1 to 9999
raises `OverflowError`.
-/

namespace RcaBackend

/-- A `datetime` value. -/
structure DateTime where
  /-- wall-clock microseconds since 0001-01-01T00:00:00 -/
  wall : Int
  /-- `utcoffset()` in microseconds; `none` for a naive value -/
  offset : Option Int
deriving DecidableEq, Repr

namespace DateTime

/-! ## The proleptic Gregorian calendar -/

def isLeap (year : Nat) : Bool := year % 4 = 0 && (year % 100 ≠ 0 || year % 400 = 0)

def daysInMonth (year month : Nat) : Nat :=
  match month with
  | 2 => if isLeap year then 29 else 28
  | 4 | 6 | 9 | 11 => 30
  | _ => 31

/-- Days before January 1 of the year. -/
def daysBeforeYear (year : Nat) : Nat :=
  let y := year - 1
  y * 365 + y / 4 - y / 100 + y / 400

/-- Days of the year before the first of the month, in a common year. -/
def daysBeforeMonthCommon : Nat → Nat
  | 1 => 0 | 2 => 31 | 3 => 59 | 4 => 90 | 5 => 120 | 6 => 151
  | 7 => 181 | 8 => 212 | 9 => 243 | 10 => 273 | 11 => 304 | _ => 334

def daysBeforeMonth (year month : Nat) : Nat :=
  daysBeforeMonthCommon month + if month > 2 && isLeap year then 1 else 0

/-- The ordinal of a date; January 1 of year 1 is day 1. -/
def ymdToOrdinal (year month day : Nat) : Nat :=
  daysBeforeYear year + daysBeforeMonth year month + day

/-- The date of an ordinal, by the 400-, 100-, 4- and 1-year cycles. -/
def ordinalToYmd (ordinal : Nat) : Nat × Nat × Nat :=
  let n := ordinal - 1
  let n400 := n / 146097
  let n := n % 146097
  let n100 := n / 36524
  let n := n % 36524
  let n4 := n / 1461
  let n := n % 1461
  let n1 := n / 365
  let n := n % 365
  let year := n400 * 400 + 1 + n100 * 100 + n4 * 4 + n1
  if n1 = 4 ∨ n100 = 4 then (year - 1, 12, 31)
  else
    let month := (n + 50) / 32
    let before := daysBeforeMonth year month
    if before > n then
      let month := month - 1
      (year, month, n - daysBeforeMonth year month + 1)
    else (year, month, n - before + 1)

def microsPerDay : Int := 86400000000

/-- The first microsecond after 9999-12-31. -/
def maxWall : Int := 3652059 * microsPerDay

/-- The constructor's range checks on the date. -/
def validDate (year month day : Nat) : Bool :=
  1 ≤ year && year ≤ 9999 && 1 ≤ month && month ≤ 12 && 1 ≤ day && day ≤ daysInMonth year month

/-- The constructor's range checks on the time. -/
def validTime (hour minute second : Nat) : Bool := hour < 24 && minute < 60 && second < 60

/-! ## `fromisoformat` -/

/-- A surrogate at one of the places where a separator can be is taken for a `T`. -/
def sanitized (text : PyStr) : PyStr :=
  match [7, 8, 10].find? fun place => (text[place]?.map isSurrogate) = some true with
  | some place => text.set place 84
  | none => text

/-- `_sanitize_isoformat_str`, and the bytes of the text. -/
def isoBytes (text : PyStr) : Option (List Nat) :=
  (encodeUtf8 (sanitized text)).map fun bytes => bytes.map UInt8.toNat

/-- The byte that a pointer points to; the end of a C string is a NUL. -/
def byteAt (text : List Nat) : Nat := text.headD 0

@[simp] theorem byteAt_cons (c : Nat) (rest : List Nat) : byteAt (c :: rest) = c := rfl

/-- `parse_digits`, of at least one digit, with the rest of the text. -/
def field (count : Nat) (text : List Nat) : Option (Nat × List Nat) :=
  if text.length < count then none
  else (asciiNat (text.take count)).map fun value => (value, text.drop count)

/-- `iso_to_ymd`. The result may lie in year 10000, which the constructor refuses. -/
def isoWeekDate (year week day : Nat) : Option (Nat × Nat × Nat) :=
  let first := ymdToOrdinal year 1 1
  let longYear := first % 7 = 4 || (first % 7 = 3 && isLeap year)
  if year < 1 || 9999 < year || week < 1 || 53 < week || (week = 53 && !longYear) ||
      day < 1 || 7 < day then none
  else
    let weekday := (first + 6) % 7
    let monday : Nat := if weekday > 3 then first + 7 - weekday else first - weekday
    some (ordinalToYmd (monday + (week - 1) * 7 + (day - 1)))

/-- `_find_isoformat_datetime_separator`: where the date part ends. -/
def separatorAt (text : List Nat) : Option Nat :=
  let dash := 45
  let week := 87
  if text.length = 7 then some 7
  else if text[4]? = some dash then
    if text[5]? = some week then
      if text.length > 8 ∧ text[8]? = some dash then
        -- `-1`; no date is read from nine bytes of this form
        if text.length = 9 then none
        else if text.length > 10 ∧ (text[10]?.map isAsciiDigit) = some true then some 8
        else some 10
      else some 8
    else some 10
  else if text[4]? = some week then
    let last := 7 + ((text.drop 7).takeWhile isAsciiDigit).length
    if last < 9 then some last
    else if last % 2 = 0 then some 7
    else some 8
  else some 8

/-- `parse_isoformat_date`, of a date that ends after `size` bytes. -/
def parseDate (size : Nat) (text : List Nat) : Option (Nat × Nat × Nat) := do
  let dash := 45
  let (year, rest) ← field 4 text
  let separated := decide (byteAt rest = dash)
  let rest := if separated then rest.drop 1 else rest
  if byteAt rest = 87 then
    let (week, rest) ← field 2 (rest.drop 1)
    if text.length - rest.length < size then
      if separated && byteAt rest ≠ dash then none
      else
        let (day, _) ← field 1 (if separated then rest.drop 1 else rest)
        isoWeekDate year week day
    else isoWeekDate year week 1
  else
    let (month, rest) ← field 2 rest
    if separated && byteAt rest ≠ dash then none
    else
      let (day, _) ← field 2 (if separated then rest.drop 1 else rest)
      some (year, month, day)

/-- What follows a field of a clock time. -/
inductive AfterField where
  /-- the clock time ends, maybe before a byte that is no NUL -/
  | stop (more : Bool)
  | field (rest : List Nat)
  | fraction (rest : List Nat)

/-- The end of a field, in a clock time that ends `left` bytes before the text does. -/
def afterField (left : Nat) (separated : Bool) (text : List Nat) : Option AfterField :=
  let c := byteAt text
  let rest := text.drop 1
  if rest.length ≤ left then some (.stop (c ≠ 0))
  else if separated && c = 58 then some (.field rest)
  else if c = 46 || c = 44 then some (.fraction rest)
  else if !separated then some (.field text)
  else none

/-- The microseconds of a fraction, of which six digits count, and whether a byte other than
NUL follows its digits. -/
def fraction (left : Nat) (text : List Nat) : Option (Nat × Bool) := do
  let size := min (text.length - left) 6
  let (digits, rest) ← field size text
  return (digits * 10 ^ (6 - size), byteAt (rest.dropWhile isAsciiDigit) ≠ 0)

/-- A clock time with its microseconds. -/
abbrev Clock := Nat × Nat × Nat × Nat

/-- `parse_hh_mm_ss_ff`, of a clock time that ends `left` bytes before the text does: the
clock time, and whether more follows it. -/
def parseClock (left : Nat) (text : List Nat) : Option (Clock × Bool) := do
  let (hour, rest) ← field 2 text
  let separated := decide (byteAt rest = 58)
  match ← afterField left separated rest with
  | .stop more => return ((hour, 0, 0, 0), more)
  | .fraction rest =>
    let (micros, more) ← fraction left rest
    return ((hour, 0, 0, micros), more)
  | .field rest =>
    let (minute, rest) ← field 2 rest
    match ← afterField left separated rest with
    | .stop more => return ((hour, minute, 0, 0), more)
    | .fraction rest =>
      let (micros, more) ← fraction left rest
      return ((hour, minute, 0, micros), more)
    | .field rest =>
      let (second, rest) ← field 2 rest
      match ← afterField left separated rest with
      | .stop more => return ((hour, minute, second, 0), more)
      | .field rest | .fraction rest =>
        let (micros, more) ← fraction left rest
        return ((hour, minute, second, micros), more)

def clockMicros (clock : Clock) : Int :=
  ((clock.1 * 3600 + clock.2.1 * 60 + clock.2.2.1 : Nat) : Int) * 1000000 + clock.2.2.2

/-- A numeric offset, after its sign: `timezone.utc` where its whole seconds are zero, and less
than a day, as `timezone` requires. -/
def parseOffset (negative : Bool) (text : List Nat) : Option Int := do
  let (clock, more) ← parseClock 0 text
  if more then none
  else if clock.1 = 0 ∧ clock.2.1 = 0 ∧ clock.2.2.1 = 0 then some 0
  else if clockMicros clock < microsPerDay then
    some (if negative then -clockMicros clock else clockMicros clock)
  else none

/-- A byte that can open the offset of a time. -/
def opensOffset (c : Nat) : Bool := c = 43 || c = 45 || c = 90

/-- `parse_isoformat_time`, and the constructor's check: microseconds of the day and the offset.
That more follows the clock time matters only where no offset does. -/
def parseTime (text : List Nat) : Option (Int × Option Int) := do
  let zone := text.dropWhile fun c => !opensOffset c
  let (clock, more) ← parseClock zone.length text
  if !validTime clock.1 clock.2.1 clock.2.2.1 then none
  else
    match zone with
    | [] => if more then none else some (clockMicros clock, none)
    | sign :: zone =>
      if sign = 90 then if byteAt zone ≠ 0 then none else some (clockMicros clock, some 0)
      else (parseOffset (sign = 45) zone).map fun offset => (clockMicros clock, some offset)

/-- The bytes of the character between date and time, by its first byte. -/
def separatorSize (first : Nat) : Nat :=
  if first < 128 then 1 else if first / 16 = 14 then 3 else if first / 16 = 15 then 4 else 2

/-- `datetime.fromisoformat`; `none` where it raises `ValueError`. -/
def fromisoformat (text : PyStr) : Option DateTime := do
  if text.length < 7 then none
  else
    let bytes ← isoBytes text
    let split ← separatorAt bytes
    let (year, month, day) ← parseDate split bytes
    if !validDate year month day then none
    else
      let midnight : Int := ((ymdToOrdinal year month day : Nat) - 1 : Int) * microsPerDay
      match bytes.drop split with
      | [] => some ⟨midnight, none⟩
      | first :: rest =>
        let (micros, offset) ← parseTime ((first :: rest).drop (separatorSize first))
        some ⟨midnight + micros, offset⟩

/-- A field may be left out behind its separator, and a point may stand for it. -/
example : ["2026-01-15T10:00:+09:00", "2026-01-15T23:59.59Z", "2026-01-15T10:00:00 Z"].all
    (fun text => (fromisoformat (py text)).isSome) = true := by decide

/-- But something has to follow the date's separator. -/
example : ["2026-01-15T", "2026-01-15x"].all
    (fun text => (fromisoformat (py text)).isNone) = true := by decide

/-! ## Comparison, conversion, rendering -/

/-- The instant a value denotes when a naive one is read as UTC. -/
def instant (dt : DateTime) : Int := dt.wall - dt.offset.getD 0

/-- `left < right`. -/
def lt (left right : DateTime) : Except PyExc Bool :=
  match left.offset, right.offset with
  | none, none | some _, some _ => .ok (left.instant < right.instant)
  | none, some _ | some _, none => .error .typeError

/-- `left - right`, in microseconds. -/
def sub (left right : DateTime) : Except PyExc Int :=
  match left.offset, right.offset with
  | none, none | some _, some _ => .ok (left.instant - right.instant)
  | none, some _ | some _, none => .error .typeError

/-- `replace(tzinfo=utc)` for a naive value, `astimezone(utc)` for an aware one. -/
def toUtc (dt : DateTime) : Except PyExc DateTime :=
  match dt.offset with
  | none => .ok ⟨dt.wall, some 0⟩
  | some _ =>
    if 0 ≤ dt.instant ∧ dt.instant < maxWall then .ok ⟨dt.instant, some 0⟩
    else .error .overflowError

/-- `isoformat` of a UTC value, microseconds only where they are not zero, with
the suffix `+00:00` replaced by `Z`. -/
def isoformatUtc (dt : DateTime) : PyStr :=
  let wall := dt.wall.toNat
  let (year, month, day) := ordinalToYmd (wall / 86400000000 + 1)
  let seconds := wall / 1000000 % 86400
  let micros := wall % 1000000
  padded 4 year ++ py "-" ++ padded 2 month ++ py "-" ++ padded 2 day ++ py "T" ++
    padded 2 (seconds / 3600) ++ py ":" ++ padded 2 (seconds / 60 % 60) ++ py ":" ++
    padded 2 (seconds % 60) ++ (if micros = 0 then [] else py "." ++ padded 6 micros) ++ py "Z"

end DateTime

/-- A timestamp accepted by the contract: text that `datetime.fromisoformat`
parses, kept verbatim. -/
structure Iso8601 where
  text : PyStr
  accepted : (DateTime.fromisoformat text).isSome
deriving DecidableEq

namespace Iso8601

/-- The value of an accepted timestamp. -/
def value (ts : Iso8601) : DateTime := (DateTime.fromisoformat ts.text).get ts.accepted

/-- The start of the epoch. -/
def epoch : Iso8601 := ⟨py "1970-01-01T00:00:00Z", by decide⟩

@[simp] theorem fromisoformat_text (ts : Iso8601) :
    DateTime.fromisoformat ts.text = some ts.value := (Option.some_get ts.accepted).symm

end Iso8601

end RcaBackend
