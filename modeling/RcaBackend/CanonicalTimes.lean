import RcaBackend.CalendarDates
import RcaBackend.PyNumerals
import RcaBackend.Timestamps

/-!
# The canonical form of a timestamp

What `_to_spring_ts` sends is a date and a clock time of fixed width, with six digits of the
second or none, and `Z`. It is read back as the instant that it denotes, so one instant has
one such text.
-/

namespace RcaBackend

/-! ## Numbers of fixed width -/

/-- A text of so many ASCII digits. -/
def Digits (count : Nat) (text : PyStr) : Prop :=
  text.length = count ∧ ∀ c ∈ text, isAsciiDigit c = true

theorem padded_digits {width n : Nat} (positive : 0 < width) (fits : n < 10 ^ width) :
    Digits width (padded width n) := by
  have short : (natText n).length ≤ width := (natText_length_le_iff positive).mpr fits
  constructor
  · rw [padded, List.length_append, List.length_replicate]
    omega
  · intro c member
    obtain zero | digit := List.mem_append.mp member
    · rw [List.eq_of_mem_replicate zero]
      rfl
    · exact natText_digits digit

theorem asciiNat_padded {width n : Nat} (positive : 0 < width) (fits : n < 10 ^ width) :
    asciiNat (padded width n) = some n := by
  obtain ⟨size, digits⟩ := padded_digits positive fits
  have zeros : ∀ count, (List.replicate count 48).foldl
      (fun value c => 10 * value + (c - 48)) 0 = 0 := by
    intro count
    induction count with
    | zero => rfl
    | succ count inductionHypothesis => exact inductionHypothesis
  have value : (padded width n).foldl (fun value c => 10 * value + (c - 48)) 0 = n := by
    rw [padded, List.foldl_append, zeros]
    exact digitsValue_natText n
  have inhabited : padded width n ≠ [] := by
    rw [← List.length_pos_iff, size]
    exact positive
  rw [asciiNat, if_pos ⟨inhabited, List.all_eq_true.mpr digits⟩, value]

/-- A number of fixed width begins with a digit. -/
theorem padded_cons {width n : Nat} (positive : 0 < width) (fits : n < 10 ^ width) :
    ∃ digit others, padded width n = digit :: others ∧ 48 ≤ digit ∧ digit ≤ 57 := by
  obtain ⟨size, digits⟩ := padded_digits positive fits
  cases text : padded width n with
  | nil =>
    rw [text] at size
    exact absurd size (Nat.ne_of_lt positive)
  | cons digit others =>
    have numeric := digits digit (by rw [text]; exact List.mem_cons_self)
    simp only [isAsciiDigit, Bool.and_eq_true, decide_eq_true_eq] at numeric
    exact ⟨digit, others, rfl, numeric⟩

namespace DateTime

/-- A field of fixed width is read back. -/
theorem field_padded {width n : Nat} (positive : 0 < width) (fits : n < 10 ^ width)
    (rest : PyStr) : field width (padded width n ++ rest) = some (n, rest) := by
  have size := (padded_digits positive fits).1
  have long : ¬ (padded width n ++ rest).length < width := by
    rw [List.length_append]
    omega
  rw [field, if_neg long, List.take_left' size, List.drop_left' size, asciiNat_padded positive fits]
  rfl

/-! ## The parts -/

/-- `YYYY-MM-DD` -/
def dateText (year month day : Nat) : PyStr :=
  padded 4 year ++ 45 :: (padded 2 month ++ 45 :: padded 2 day)

/-- `.ffffff`, or nothing. -/
def microsText (micros : Nat) : PyStr := if micros = 0 then [] else 46 :: padded 6 micros

/-- `HH:MM:SS` and the fraction of the second. -/
def clockText (hour minute second micros : Nat) : PyStr :=
  padded 2 hour ++ 58 :: (padded 2 minute ++ 58 :: (padded 2 second ++ microsText micros))

theorem parseDate_text {year month day : Nat} (years : year < 10 ^ 4) (months : month < 10 ^ 2)
    (days : day < 10 ^ 2) (size : Nat) (rest : List Nat) :
    parseDate size (dateText year month day ++ rest) = some (year, month, day) := by
  have first := field_padded (by decide) years
    (45 :: (padded 2 month ++ 45 :: (padded 2 day ++ rest)))
  have second := field_padded (by decide) months (45 :: (padded 2 day ++ rest))
  have third := field_padded (by decide) days rest
  have numeric : byteAt (padded 2 month ++ 45 :: (padded 2 day ++ rest)) ≠ 87 := by
    obtain ⟨digit, others, text, -, most⟩ := padded_cons (by decide) months
    rw [text, List.cons_append, byteAt_cons]
    omega
  have text : dateText year month day ++ rest =
      padded 4 year ++ 45 :: (padded 2 month ++ 45 :: (padded 2 day ++ rest)) := by
    simp [dateText]
  rw [text, parseDate, first]
  simp [second, third, numeric]

/-- A field before a colon. -/
theorem afterField_colon {left : Nat} {rest : List Nat} (more : left < rest.length) :
    afterField left true (58 :: rest) = some (.field rest) := by
  simp [afterField, Nat.not_le.mpr more]

/-- The digits of a fraction before an offset. -/
theorem fraction_text {micros : Nat} (fits : micros < 10 ^ 6) {zone : List Nat} {sign : Nat}
    (opens : opensOffset sign = true) :
    fraction (sign :: zone).length (padded 6 micros ++ sign :: zone) = some (micros, true) := by
  have size : min ((padded 6 micros ++ sign :: zone).length - (sign :: zone).length) 6 = 6 := by
    rw [List.length_append, Nat.add_sub_cancel, (padded_digits (by decide) fits).1, Nat.min_self]
  simp only [opensOffset, Bool.or_eq_true, decide_eq_true_eq] at opens
  have mark : isAsciiDigit sign = false := by
    simp only [isAsciiDigit, Bool.and_eq_false_iff, decide_eq_false_iff_not]
    omega
  have more : sign ≠ 0 := by omega
  rw [fraction, size, field_padded (by decide) fits]
  simp [mark, more]

/-- A clock time before an offset. -/
theorem parseClock_text {hour minute second micros : Nat} (hours : hour < 10 ^ 2)
    (minutes : minute < 10 ^ 2) (seconds : second < 10 ^ 2) (fits : micros < 10 ^ 6)
    {zone : List Nat} {sign : Nat} (opens : opensOffset sign = true) :
    parseClock (sign :: zone).length (clockText hour minute second micros ++ sign :: zone) =
      some ((hour, minute, second, micros), true) := by
  set tail := sign :: zone with known
  have first := field_padded (by decide) hours
    (58 :: (padded 2 minute ++ 58 :: (padded 2 second ++ (microsText micros ++ tail))))
  have next := field_padded (by decide) minutes
    (58 :: (padded 2 second ++ (microsText micros ++ tail)))
  have third := field_padded (by decide) seconds (microsText micros ++ tail)
  have one := (padded_digits (by decide) minutes).1
  have two := (padded_digits (by decide) seconds).1
  have colon : afterField tail.length true
      (58 :: (padded 2 minute ++ 58 :: (padded 2 second ++ (microsText micros ++ tail)))) =
        some (.field (padded 2 minute ++ 58 :: (padded 2 second ++ (microsText micros ++ tail)))) := by
    apply afterField_colon
    simp only [List.length_append, List.length_cons]
    omega
  have again : afterField tail.length true (58 :: (padded 2 second ++ (microsText micros ++ tail))) =
      some (.field (padded 2 second ++ (microsText micros ++ tail))) := by
    apply afterField_colon
    simp only [List.length_append]
    omega
  have text : clockText hour minute second micros ++ tail = padded 2 hour ++ 58 ::
      (padded 2 minute ++ 58 :: (padded 2 second ++ (microsText micros ++ tail))) := by
    simp [clockText]
  have opened : byteAt (58 :: (padded 2 minute ++ 58 ::
      (padded 2 second ++ (microsText micros ++ tail)))) = 58 := rfl
  rw [text, parseClock, first]
  simp only [Option.bind_eq_bind, Option.bind_some, opened, decide_true, colon, next, again, third]
  by_cases whole : micros = 0
  · have more : sign ≠ 0 := by
      simp only [opensOffset, Bool.or_eq_true, decide_eq_true_eq] at opens
      omega
    have stops : afterField tail.length true tail = some (.stop true) := by
      simp [afterField, known, more]
    simp [microsText, whole, stops]
  · have marked : afterField tail.length true (46 :: (padded 6 micros ++ tail)) =
        some (.fraction (padded 6 micros ++ tail)) := by
      have inhabited : padded 6 micros ≠ [] := by
        rw [← List.length_pos_iff, (padded_digits (by decide) fits).1]
        decide
      simp [afterField, inhabited]
    have digits := @fraction_text micros fits zone sign opens
    rw [← known] at digits
    simp [microsText, whole, marked, digits]

/-- No character of a clock time opens an offset. -/
theorem clockText_closed {hour minute second micros : Nat} (hours : hour < 10 ^ 2)
    (minutes : minute < 10 ^ 2) (seconds : second < 10 ^ 2) (fits : micros < 10 ^ 6) :
    ∀ c ∈ clockText hour minute second micros, opensOffset c = false := by
  have closed : ∀ {width n : Nat}, 0 < width → n < 10 ^ width → ∀ c ∈ padded width n,
      opensOffset c = false := by
    intro width n positive small c member
    have digit := (padded_digits positive small).2 c member
    simp only [isAsciiDigit, Bool.and_eq_true, decide_eq_true_eq] at digit
    simp only [opensOffset, Bool.or_eq_false_iff, decide_eq_false_iff_not]
    omega
  have fraction : ∀ c ∈ microsText micros, opensOffset c = false := by
    rw [microsText]
    split
    · simp
    · rintro c (_ | ⟨_, member⟩)
      · rfl
      · exact closed (by decide) fits c member
  intro c member
  simp only [clockText, List.mem_append, List.mem_cons] at member
  obtain here | rfl | here | rfl | here | here := member
  · exact closed (by decide) hours c here
  · rfl
  · exact closed (by decide) minutes c here
  · rfl
  · exact closed (by decide) seconds c here
  · exact fraction c here

theorem parseTime_text {hour minute second micros : Nat} (hours : hour < 24) (minutes : minute < 60)
    (seconds : second < 60) (fits : micros < 10 ^ 6) :
    parseTime (clockText hour minute second micros ++ [90]) =
      some (clockMicros (hour, minute, second, micros), some 0) := by
  have closed := @clockText_closed hour minute second micros (by omega) (by omega) (by omega) fits
  have plain : ∀ c ∈ clockText hour minute second micros, (!opensOffset c) = true := by
    intro c member
    rw [closed c member]
    rfl
  have left : (clockText hour minute second micros ++ [90]).dropWhile (fun c => !opensOffset c) =
      [90] := by
    rw [List.dropWhile_append_of_pos plain]
    simp [opensOffset]
  have valid : validTime hour minute second = true := by
    simp [validTime, hours, minutes, seconds]
  have clock : parseClock [90].length (clockText hour minute second micros ++ [90]) =
      some ((hour, minute, second, micros), true) :=
    parseClock_text (by omega) (by omega) (by omega) fits rfl
  rw [parseTime, left, clock]
  simp [valid, byteAt]

/-! ## The whole text -/

/-- `YYYY-MM-DDTHH:MM:SSZ` or `YYYY-MM-DDTHH:MM:SS.ffffffZ` -/
def utcText (date : Nat × Nat × Nat) (clock : Clock) : PyStr :=
  dateText date.1 date.2.1 date.2.2 ++
    84 :: (clockText clock.1 clock.2.1 clock.2.2.1 clock.2.2.2 ++ [90])

theorem validDate_fits {year month day : Nat} (valid : validDate year month day = true) :
    year < 10 ^ 4 ∧ month < 10 ^ 2 ∧ day < 10 ^ 2 := by
  simp only [validDate, Bool.and_eq_true, decide_eq_true_eq] at valid
  have most : daysInMonth year month ≤ 31 := by
    unfold daysInMonth
    split <;> (try split) <;> omega
  omega

theorem dateText_length {year month day : Nat} (valid : validDate year month day = true) :
    (dateText year month day).length = 10 := by
  obtain ⟨years, months, days⟩ := validDate_fits valid
  simp [dateText, (padded_digits (by decide) years).1, (padded_digits (by decide) months).1,
    (padded_digits (by decide) days).1]

/-- The date part of the text ends before the `T`. -/
theorem separatorAt_utcText {year month day : Nat} (valid : validDate year month day = true)
    (rest : PyStr) : separatorAt (dateText year month day ++ 84 :: rest) = some 10 := by
  obtain ⟨years, months, days⟩ := validDate_fits valid
  have size := (padded_digits (by decide) years).1
  obtain ⟨digit, others, text, -, most⟩ := padded_cons (by decide) months
  have long : ¬ (dateText year month day ++ 84 :: rest).length = 7 := by
    rw [List.length_append, dateText_length valid]
    omega
  have dash : (dateText year month day ++ 84 :: rest)[4]? = some 45 := by
    rw [dateText, List.append_assoc, List.getElem?_append_right (by omega), size]
    rfl
  have month : (dateText year month day ++ 84 :: rest)[5]? = some digit := by
    rw [dateText, List.append_assoc, List.getElem?_append_right (by omega), size, text]
    rfl
  have other : ¬ some digit = some 87 := by
    intro same
    obtain rfl := Option.some.inj same
    omega
  simp only [separatorAt, if_neg long, dash, if_true, month, if_neg other]

/-- The bytes of an ASCII text are its characters. -/
theorem isoBytes_ascii {text : PyStr} (ascii : ∀ c ∈ text, c < 128) :
    isoBytes text = some text := by
  have kept : sanitized text = text := by
    have none : [7, 8, 10].find? (fun place => (text[place]?.map isSurrogate) = some true) = none := by
      rw [List.find?_eq_none]
      intro place _ held
      obtain ⟨c, found, surrogate⟩ := Option.map_eq_some_iff.mp (of_decide_eq_true held)
      have small := ascii c (List.mem_of_getElem? found)
      simp only [isSurrogate, Bool.and_eq_true, decide_eq_true_eq] at surrogate
      omega
    rw [sanitized, none]
  have encoded : encodeUtf8 text = some (text.map UInt8.ofNat) := by
    clear kept
    induction text with
    | nil => rfl
    | cons c rest inductionHypothesis =>
      have small := ascii c List.mem_cons_self
      have others :=
        inductionHypothesis fun other member => ascii other (List.mem_cons_of_mem _ member)
      rw [encodeUtf8, encodeChar, if_pos small, others]
      rfl
  have same : (text.map UInt8.ofNat).map UInt8.toNat = text := by
    rw [List.map_map]
    conv_rhs => rw [← List.map_id text]
    apply List.map_congr_left
    intro c member
    exact UInt8.toNat_ofNat_of_lt' (Nat.lt_trans (ascii c member) (by decide))
  rw [isoBytes, kept, encoded, Option.map_some, same]

/-- A number of fixed width is ASCII. -/
theorem padded_ascii {width n : Nat} (positive : 0 < width) (fits : n < 10 ^ width) :
    ∀ c ∈ padded width n, c < 128 := by
  intro c member
  have digit := (padded_digits positive fits).2 c member
  simp only [isAsciiDigit, Bool.and_eq_true, decide_eq_true_eq] at digit
  omega

theorem utcText_ascii {date : Nat × Nat × Nat} {clock : Clock} (years : date.1 < 10 ^ 4)
    (months : date.2.1 < 10 ^ 2) (days : date.2.2 < 10 ^ 2) (hours : clock.1 < 10 ^ 2)
    (minutes : clock.2.1 < 10 ^ 2) (seconds : clock.2.2.1 < 10 ^ 2) (fits : clock.2.2.2 < 10 ^ 6) :
    ∀ c ∈ utcText date clock, c < 128 := by
  have fraction : ∀ c ∈ microsText clock.2.2.2, c < 128 := by
    rw [microsText]
    split
    · simp
    · rw [List.forall_mem_cons]
      exact ⟨by decide, padded_ascii (by decide) fits⟩
  simp only [utcText, dateText, clockText, List.forall_mem_append, List.forall_mem_cons]
  exact ⟨⟨padded_ascii (by decide) years, by decide, padded_ascii (by decide) months, by decide,
    padded_ascii (by decide) days⟩, by decide, ⟨padded_ascii (by decide) hours, by decide,
    padded_ascii (by decide) minutes, by decide, padded_ascii (by decide) seconds, fraction⟩,
    by simp⟩

theorem fromisoformat_utcText {date : Nat × Nat × Nat} {clock : Clock}
    (dated : validDate date.1 date.2.1 date.2.2 = true)
    (timed : validTime clock.1 clock.2.1 clock.2.2.1 = true) (fits : clock.2.2.2 < 10 ^ 6) :
    fromisoformat (utcText date clock) =
      some ⟨((ymdToOrdinal date.1 date.2.1 date.2.2 : Nat) - 1 : Int) * microsPerDay +
        clockMicros clock, some 0⟩ := by
  obtain ⟨years, months, days⟩ := validDate_fits dated
  simp only [validTime, Bool.and_eq_true, decide_eq_true_eq] at timed
  have size := dateText_length dated
  have long : ¬ (utcText date clock).length < 7 := by
    rw [utcText, List.length_append, size]
    omega
  have bytes : isoBytes (utcText date clock) = some (utcText date clock) :=
    isoBytes_ascii (utcText_ascii years months days (by omega) (by omega) (by omega) fits)
  have separated : separatorAt (utcText date clock) = some 10 := separatorAt_utcText dated _
  have front : parseDate 10 (utcText date clock) = some date := parseDate_text years months days _ _
  have back : (utcText date clock).drop 10 =
      84 :: (clockText clock.1 clock.2.1 clock.2.2.1 clock.2.2.2 ++ [90]) := List.drop_left' size
  have time := parseTime_text timed.1.1 timed.1.2 timed.2 fits
  have one : separatorSize 84 = 1 := rfl
  rw [fromisoformat, if_neg long, bytes]
  simp only [Option.bind_eq_bind, Option.bind_some, separated, front, back, one, List.drop_one,
    List.tail_cons, time, dated]
  rfl

/-- The clock time of microseconds of a day. -/
def clockOf (wall : Nat) : Clock :=
  (wall / 1000000 % 86400 / 3600, wall / 1000000 % 86400 / 60 % 60, wall / 1000000 % 86400 % 60,
    wall % 1000000)

theorem isoformatUtc_eq (wall : Nat) (offset : Option Int) :
    isoformatUtc ⟨wall, offset⟩ =
      utcText (ordinalToYmd (wall / 86400000000 + 1)) (clockOf wall) := by
  have fraction : (if wall % 1000000 = 0 then [] else py "." ++ padded 6 (wall % 1000000)) =
      microsText (wall % 1000000) := rfl
  simp only [isoformatUtc, Int.toNat_natCast, utcText, dateText, clockText, clockOf, fraction,
    List.append_assoc, List.cons_append]
  rfl

/-- A UTC value is read back from its text. -/
theorem fromisoformat_isoformatUtc {wall : Int} (least : 0 ≤ wall) (most : wall < maxWall) :
    fromisoformat (isoformatUtc ⟨wall, some 0⟩) = some ⟨wall, some 0⟩ := by
  obtain ⟨wall, rfl⟩ := Int.eq_ofNat_of_zero_le least
  have days : wall / 86400000000 + 1 ≤ 3652059 := by
    simp only [maxWall, microsPerDay] at most
    omega
  obtain ⟨dated, exact⟩ := ordinalToYmd_exact (Nat.le_add_left 1 _) days
  have timed : validTime (clockOf wall).1 (clockOf wall).2.1 (clockOf wall).2.2.1 = true := by
    have hours : wall / 1000000 % 86400 / 3600 < 24 := by omega
    have minutes : wall / 1000000 % 86400 / 60 % 60 < 60 := by omega
    have seconds : wall / 1000000 % 86400 % 60 < 60 := by omega
    rw [validTime, clockOf, decide_eq_true hours, decide_eq_true minutes, decide_eq_true seconds]
    rfl
  have fits : (clockOf wall).2.2.2 < 10 ^ 6 := Nat.mod_lt _ (by decide)
  rw [isoformatUtc_eq, fromisoformat_utcText dated timed fits, exact]
  have sum : ((wall / 86400000000 + 1 : Nat) - 1 : Int) * microsPerDay + clockMicros (clockOf wall) =
      wall := by
    simp only [microsPerDay, clockMicros, clockOf]
    omega
  rw [sum]

end DateTime

/-! ## The canonical form -/

/-- The instant of a timestamp is within the years 1 to 9999. -/
def Iso8601.InRange (ts : Iso8601) : Prop :=
  0 ≤ ts.value.instant ∧ ts.value.instant < DateTime.maxWall

/-- `YYYY-MM-DDTHH:MM:SSZ` or `YYYY-MM-DDTHH:MM:SS.ffffffZ`, of digits. -/
def Canonical (text : PyStr) : Prop :=
  ∃ year month day hour minute second fraction, Digits 4 year ∧ Digits 2 month ∧ Digits 2 day ∧
    Digits 2 hour ∧ Digits 2 minute ∧ Digits 2 second ∧
    (fraction = [] ∨ ∃ micros, Digits 6 micros ∧ fraction = py "." ++ micros) ∧
    text = year ++ py "-" ++ month ++ py "-" ++ day ++ py "T" ++ hour ++ py ":" ++ minute ++
      py ":" ++ second ++ fraction ++ py "Z"

theorem isoformatUtc_canonical {wall : Int} (least : 0 ≤ wall) (most : wall < DateTime.maxWall) :
    Canonical (DateTime.isoformatUtc ⟨wall, some 0⟩) := by
  obtain ⟨wall, rfl⟩ := Int.eq_ofNat_of_zero_le least
  have days : wall / 86400000000 + 1 ≤ 3652059 := by
    simp only [DateTime.maxWall, DateTime.microsPerDay] at most
    omega
  obtain ⟨dated, -⟩ := DateTime.ordinalToYmd_exact (Nat.le_add_left 1 _) days
  obtain ⟨years, months, dates⟩ := DateTime.validDate_fits dated
  refine ⟨_, _, _, _, _, _, if wall % 1000000 = 0 then [] else py "." ++ padded 6 (wall % 1000000),
    padded_digits (by decide) years, padded_digits (by decide) months,
    padded_digits (by decide) dates,
    @padded_digits 2 (wall / 1000000 % 86400 / 3600) (by decide) (by omega),
    @padded_digits 2 (wall / 1000000 % 86400 / 60 % 60) (by decide) (by omega),
    @padded_digits 2 (wall / 1000000 % 86400 % 60) (by decide) (by omega), ?_, rfl⟩
  split
  · exact Or.inl rfl
  · exact Or.inr ⟨_, padded_digits (by decide) (Nat.mod_lt _ (by decide)), rfl⟩

/-- A timestamp in range is sent as the text of its instant. -/
theorem toSpringTs_inRange {ts : Iso8601} (inRange : ts.InRange) :
    toSpringTs ts.text = .ok (DateTime.isoformatUtc ⟨ts.value.instant, some 0⟩) := by
  have converted : ts.value.toUtc = .ok ⟨ts.value.instant, some 0⟩ := by
    rw [DateTime.toUtc]
    cases offset : ts.value.offset with
    | none => simp [DateTime.instant, offset]
    | some _ => exact if_pos inRange
  rw [toSpringTs, parseTs_text]
  simp only [converted]
  rfl

/-- The text of an instant is sent as it is. -/
theorem toSpringTs_isoformatUtc {wall : Int} (least : 0 ≤ wall) (most : wall < DateTime.maxWall) :
    toSpringTs (DateTime.isoformatUtc ⟨wall, some 0⟩) =
      .ok (DateTime.isoformatUtc ⟨wall, some 0⟩) := by
  have inside : 0 ≤ DateTime.instant ⟨wall, some 0⟩ ∧
      DateTime.instant ⟨wall, some 0⟩ < DateTime.maxWall := by
    simp [DateTime.instant, least, most]
  rw [toSpringTs, parseTs, DateTime.fromisoformat_isoformatUtc least most]
  simp only [DateTime.toUtc, if_pos inside]
  simp [DateTime.instant, Except.map]

/-- A timestamp is sent in the canonical form, which is accepted again and denotes the same
instant; two timestamps are sent as one text exactly if they denote one instant; and what is
sent is sent again as it is. -/
theorem springTs_canonical {s t : Iso8601} (first : s.InRange) (second : t.InRange) :
    ∃ sent other, toSpringTs s.text = .ok sent ∧ toSpringTs t.text = .ok other ∧
      Canonical sent ∧
      (∃ again : Iso8601, again.text = sent ∧ again.value.instant = s.value.instant) ∧
      (sent = other ↔ s.value.instant = t.value.instant) ∧
      toSpringTs sent = .ok sent := by
  have read := DateTime.fromisoformat_isoformatUtc first.1 first.2
  have readOther := DateTime.fromisoformat_isoformatUtc second.1 second.2
  refine ⟨_, _, toSpringTs_inRange first, toSpringTs_inRange second,
    isoformatUtc_canonical first.1 first.2, ?_, ?_, toSpringTs_isoformatUtc first.1 first.2⟩
  · have accepted := Option.isSome_of_eq_some read
    obtain ⟨again, text⟩ : ∃ again : Iso8601,
        again.text = DateTime.isoformatUtc ⟨s.value.instant, some 0⟩ := ⟨⟨_, accepted⟩, rfl⟩
    refine ⟨again, text, ?_⟩
    rw [← text, Iso8601.fromisoformat_text] at read
    rw [Option.some.inj read, DateTime.instant]
    exact Int.sub_zero _
  · constructor
    · intro same
      rw [same, readOther] at read
      simpa using (congrArg DateTime.wall (Option.some.inj read)).symm
    · intro same
      rw [same]

/-- The beginning of a year in two notations. -/
theorem springTs_canonical_newYear :
    ∃ sent other, toSpringTs (py "2026-01-01T08:30+09:00") = .ok sent ∧
      toSpringTs (py "20251231T233000") = .ok other ∧ sent = other := by
  have denoted : (⟨py "2026-01-01T08:30+09:00", by decide⟩ : Iso8601).value.instant =
      (⟨py "20251231T233000", by decide⟩ : Iso8601).value.instant := by decide +kernel
  obtain ⟨sent, other, one, two, -, -, same, -⟩ := springTs_canonical
    (s := ⟨py "2026-01-01T08:30+09:00", by decide⟩) (t := ⟨py "20251231T233000", by decide⟩)
    (by unfold Iso8601.InRange; decide +kernel) (by unfold Iso8601.InRange; decide +kernel)
  exact ⟨sent, other, one, two, same.mpr denoted⟩

end RcaBackend
