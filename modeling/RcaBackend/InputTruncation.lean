import RcaBackend.MetricAgreement
import RcaBackend.ReferenceInterpreter

/-!
# The truncation of the analysis input

An input longer than the limit is cut to a window of the text around the clock time of the
trigger, which is the first one that the text of the trigger shows. The window is clamped to
the text at both ends, and a notice marks each end at which something was cut.
-/

namespace RcaBackend

open SignalPatterns ReferenceInterpreter

/-! ## `text.find(sub)` -/

/-- `text.find(sub)`, nothing for `-1`. -/
def findText (sub : PyStr) : PyStr → Option Nat
  | [] => if sub.isPrefixOf [] then some 0 else none
  | c :: rest =>
    if sub.isPrefixOf (c :: rest) then some 0 else (findText sub rest).map Nat.succ

/-- The first place in a text where another one stands. -/
def FirstOccurrence (sub text : PyStr) (idx : Nat) : Prop :=
  sub <+: text.drop idx ∧ ∀ earlier < idx, ¬ sub <+: text.drop earlier

theorem findText_some {sub text : PyStr} {idx : Nat} (found : findText sub text = some idx) :
    FirstOccurrence sub text idx := by
  induction text generalizing idx with
  | nil =>
    rw [findText] at found
    split at found
    · cases found
      exact ⟨List.isPrefixOf_iff_prefix.mp ‹_›, nofun⟩
    · cases found
  | cons c rest inductionHypothesis =>
    rw [findText] at found
    split at found
    case isTrue here =>
      cases found
      exact ⟨List.isPrefixOf_iff_prefix.mp here, nofun⟩
    case isFalse absent =>
      obtain ⟨place, later, rfl⟩ := Option.map_eq_some_iff.mp found
      obtain ⟨there, none⟩ := inductionHypothesis later
      refine ⟨there, ?_⟩
      intro earlier before
      cases earlier with
      | zero => exact fun stands => absent (List.isPrefixOf_iff_prefix.mpr stands)
      | succ earlier => exact none earlier (Nat.lt_of_succ_lt_succ before)

theorem findText_isSome {sub text : PyStr} (occurs : sub <:+: text) :
    (findText sub text).isSome = true := by
  induction text with
  | nil =>
    obtain rfl := List.infix_nil.mp occurs
    rfl
  | cons c rest inductionHypothesis =>
    rw [findText]
    split
    · rfl
    case isFalse absent =>
      obtain here | later := List.infix_cons_iff.mp occurs
      · exact absurd (List.isPrefixOf_iff_prefix.mpr here) absent
      · rw [Option.isSome_map]
        exact inductionHypothesis later

/-! ## The functions -/

/-- `TRUNCATION_NOTICE` -/
def truncationNotice : PyStr := py "[... 입력 상한 초과로 이 지점의 데이터가 절단됨 ...]"

section Truncation

variable [PyRuntime]

/-- `\d{2}:\d{2}:\d{2}`, as group 0. -/
def triggerClockRe : Regex Nat :=
  .group 0 (.inOrder [.one isDecimal, .one isDecimal, char 58, .one isDecimal, .one isDecimal,
    char 58, .one isDecimal, .one isDecimal])

/-- The clock time in the time of the trigger. -/
def triggerClock (triggerTime : Option PyStr) : Option PyStr :=
  match triggerTime with
  | none | some [] => none
  | some triggerTime => (reSearch triggerClockRe triggerTime).map (groupText · 0)

/-- `_find_focus` -/
def findFocus (text : PyStr) (triggerTime : Option PyStr) : Nat :=
  match triggerClock triggerTime with
  | none => text.length / 2
  | some clock => (findText clock text).getD (text.length / 2)

/-- The notice, if something was cut. -/
def noticeIf (cut : Prop) [Decidable cut] : List PyStr := if cut then [truncationNotice] else []

/-- `truncate_input`, under the setting `openai_max_input_chars`. -/
def truncateInput (openaiMaxInputChars : Int) (text : PyStr) (maxChars : Option Int)
    (triggerTime : Option PyStr) : PyStr :=
  let limit := maxChars.getD openaiMaxInputChars
  if text.length ≤ limit then text
  else
    let budget := max 1 (limit - 2 * (truncationNotice.length + 2))
    let focus : Int := findFocus text triggerTime
    let start := max 0 (focus - budget / 2)
    let stop := min (text.length : Int) (start + budget)
    let start := max 0 (stop - budget)
    let parts := noticeIf (0 < start) ++ [(text.take stop.toNat).drop start.toNat] ++
      noticeIf (stop < text.length)
    (py "\n").intercalate parts

/-! ## The window -/

/-- `HH:MM:SS` -/
def IsClock (clock : PyStr) : Prop :=
  ∃ h h' m m' s s', clock = [h, h', 58, m, m', 58, s, s'] ∧
    ∀ digit ∈ [h, h', m, m', s, s'], isDecimal digit = true

/-- The first clock time in the time of the trigger. -/
def ClockOf (triggerTime clock : PyStr) : Prop :=
  IsClock clock ∧ ∃ idx, clock <+: triggerTime.drop idx ∧
    ∀ earlier < idx, ∀ other, IsClock other → ¬ other <+: triggerTime.drop earlier

theorem IsClock.length {clock : PyStr} (formed : IsClock clock) : clock.length = 8 := by
  obtain ⟨h, h', m, m', s, s', rfl, -⟩ := formed
  rfl

/-- A match is a clock time at its place. -/
theorem clock_matched {previous : Option Nat} {text : PyStr} {found : Regex.Cursor Nat}
    (matched : triggerClockRe.matchAt previous text = some found) :
    IsClock (groupText found 0) ∧ groupText found 0 <+: text := by
  obtain ⟨clock, split, denoted, captured⟩ := Regex.group_whole (Regex.matchAt_ways matched)
  have known : groupText found 0 = clock := by rw [groupText, captured, Option.getD_some]
  rw [known]
  refine ⟨?_, found.rest, split.symm⟩
  obtain ⟨_, _, rfl, ⟨h, first, rfl⟩, _, _, rfl, ⟨h', second, rfl⟩, _, _, rfl, ⟨colon, same, rfl⟩,
    _, _, rfl, ⟨m, third, rfl⟩, _, _, rfl, ⟨m', fourth, rfl⟩, _, _, rfl, ⟨other, also, rfl⟩,
    _, _, rfl, ⟨s, fifth, rfl⟩, s', sixth, rfl⟩ := denoted
  obtain rfl := of_decide_eq_true same
  obtain rfl := of_decide_eq_true also
  exact ⟨h, h', m, m', s, s', rfl, by simp [first, second, third, fourth, fifth, sixth]⟩

/-- A clock time at a place is matched. -/
theorem clock_found {previous : Option Nat} {text clock : PyStr} (formed : IsClock clock)
    (here : clock <+: text) : triggerClockRe.matchAt previous text ≠ none := by
  obtain ⟨h, h', m, m', s, s', rfl, digits⟩ := formed
  obtain ⟨rest, rfl⟩ := here
  simp only [List.forall_mem_cons] at digits
  obtain ⟨first, second, third, fourth, fifth, sixth, -⟩ := digits
  simp [triggerClockRe, Regex.matchAt, Regex.inOrder, Regex.ways, char, first, second, third, fourth,
    fifth, sixth]

/-- The search finds the first clock time. -/
theorem triggerClock_iff {triggerTime clock : PyStr} :
    triggerClock (some triggerTime) = some clock ↔ ClockOf triggerTime clock := by
  have search : triggerClock (some triggerTime) =
      (reSearch triggerClockRe triggerTime).map (groupText · 0) := by
    cases triggerTime <;> rfl
  have none_at {idx : Nat} {other : PyStr} (formed : IsClock other)
      (missed : ∃ previous, triggerClockRe.matchAt previous (triggerTime.drop idx) = none) :
      ¬ other <+: triggerTime.drop idx := by
    obtain ⟨previous, missed⟩ := missed
    exact fun here => clock_found formed here missed
  rw [search]
  cases searched : reSearch triggerClockRe triggerTime with
  | none =>
    simp only [Option.map_none, reduceCtorEq, false_iff]
    rintro ⟨formed, idx, here, -⟩
    exact none_at formed (Regex.search_none searched idx) here
  | some found =>
    obtain ⟨idx, ⟨previous, matched⟩, missed⟩ := Regex.search_some searched
    obtain ⟨formed, here⟩ := clock_matched matched
    rw [Option.map_some, Option.some.injEq]
    constructor
    · rintro rfl
      exact ⟨formed, idx, here, fun earlier early other also => none_at also (missed earlier early)⟩
    · rintro ⟨also, place, there, first⟩
      -- both are the first one, and all have one length
      have same : place = idx := by
        apply Nat.le_antisymm
        · by_contra late
          exact first idx (by omega) _ formed here
        · by_contra early
          exact none_at also (missed place (by omega)) there
      subst same
      exact (List.prefix_of_prefix_length_le here there
        (by rw [formed.length, also.length])).eq_of_length (by rw [formed.length, also.length])

theorem triggerClock_length {triggerTime : Option PyStr} {clock : PyStr}
    (known : triggerClock triggerTime = some clock) : clock.length = 8 := by
  cases triggerTime with
  | none => cases known
  | some triggerTime => exact (triggerClock_iff.mp known).1.length

/-- Where the text is kept: at the first occurrence of the trigger's clock time, or in the
middle if it has none. -/
def Focus (text : PyStr) (triggerTime : Option PyStr) (focus : Nat) : Prop :=
  (∃ moment clock, triggerTime = some moment ∧ ClockOf moment clock ∧
      FirstOccurrence clock text focus) ∨
    focus = text.length / 2 ∧
      ∀ moment clock, triggerTime = some moment → ClockOf moment clock → ¬ clock <:+: text

theorem findFocus_spec (text : PyStr) (triggerTime : Option PyStr) :
    Focus text triggerTime (findFocus text triggerTime) := by
  unfold findFocus
  cases known : triggerClock triggerTime with
  | none =>
    refine Or.inr ⟨rfl, ?_⟩
    rintro moment clock rfl only
    rw [triggerClock_iff.mpr only] at known
    cases known
  | some clock =>
    cases triggerTime with
    | none => cases known
    | some moment =>
      have only := triggerClock_iff.mp known
      cases found : findText clock text with
      | none =>
        refine Or.inr ⟨by simp only [found, Option.getD_none], ?_⟩
        rintro _ other ⟨⟩ also occurs
        obtain rfl := Option.some.inj (known.symm.trans (triggerClock_iff.mpr also))
        simpa [found] using findText_isSome occurs
      | some idx =>
        refine Or.inl ⟨moment, clock, rfl, only, ?_⟩
        simp only [found, Option.getD_some]
        exact findText_some found

/-- The focus is a position of the text. -/
theorem findFocus_lt {text : PyStr} (triggerTime : Option PyStr) (inhabited : text ≠ []) :
    findFocus text triggerTime < text.length := by
  have size := List.length_pos_iff.mpr inhabited
  unfold findFocus
  cases known : triggerClock triggerTime with
  | none =>
    simp only
    omega
  | some clock =>
    cases found : findText clock text with
    | none =>
      simp only [found, Option.getD_none]
      omega
    | some idx =>
      have long := (findText_some found).1.length_le
      rw [triggerClock_length known, List.length_drop] at long
      simp only [found, Option.getD_some]
      omega

/-- What stands before the window: a notice if something was cut there. -/
def leadOf (before : PyStr) : PyStr := if before = [] then [] else truncationNotice ++ py "\n"

/-- What stands after it. -/
def trailOf (after : PyStr) : PyStr := if after = [] then [] else py "\n" ++ truncationNotice

omit [PyRuntime] in
theorem leadOf_length (before : PyStr) : (leadOf before).length ≤ truncationNotice.length + 1 := by
  rw [leadOf]
  split <;> simp [py]

omit [PyRuntime] in
theorem trailOf_length (after : PyStr) : (trailOf after).length ≤ truncationNotice.length + 1 := by
  rw [trailOf]
  split <;> simp [py]

omit [PyRuntime] in
/-- The parts of a window, joined by line ends. -/
theorem window_joined (text : PyStr) {start stop : Int} (first : 0 ≤ start) (last : start < stop)
    (inside : stop ≤ text.length) :
    (py "\n").intercalate (noticeIf (0 < start) ++ [(text.take stop.toNat).drop start.toNat] ++
        noticeIf (stop < text.length)) =
      leadOf (text.take start.toNat) ++ (text.take stop.toNat).drop start.toNat ++
        trailOf (text.drop stop.toNat) := by
  have cutBefore : text.take start.toNat = [] ↔ ¬ 0 < start := by
    rw [List.take_eq_nil_iff, ← List.length_eq_zero_iff]
    omega
  have cutAfter : text.drop stop.toNat = [] ↔ ¬ stop < text.length := by
    rw [List.drop_eq_nil_iff]
    omega
  simp only [leadOf, trailOf, cutBefore, cutAfter, noticeIf]
  by_cases early : 0 < start <;> by_cases late : stop < text.length <;>
    simp [early, late, List.intercalate]

omit [PyRuntime] in
/-- The places at which the window starts and stops. The clamping keeps its size, the focus
inside, and eight characters from the focus if it has sixteen. -/
theorem window_bounds {size budget focus start stop : Int} (least : 1 ≤ budget)
    (long : budget < size) (low : 0 ≤ focus) (high : focus < size)
    (stops : stop = min size (max 0 (focus - budget / 2) + budget))
    (starts : start = max 0 (stop - budget)) :
    0 ≤ start ∧ stop ≤ size ∧ stop = start + budget ∧ start ≤ focus ∧ focus < stop ∧
      (16 ≤ budget → focus + 8 ≤ size → focus + 8 ≤ stop) := by
  omega

/-- Where the text shows the clock time of the trigger, the focus is its first occurrence. -/
theorem findFocus_clock {text moment clock : PyStr} (only : ClockOf moment clock)
    (occurs : clock <:+: text) :
    FirstOccurrence clock text (findFocus text (some moment)) ∧
      findFocus text (some moment) + 8 ≤ text.length := by
  obtain ⟨idx, found⟩ := Option.isSome_iff_exists.mp (findText_isSome occurs)
  have here : findFocus text (some moment) = idx := by
    rw [findFocus, triggerClock_iff.mpr only]
    simp [found]
  have within := (findText_some found).1.length_le
  rw [only.1.length, List.length_drop] at within
  rw [here]
  exact ⟨findText_some found, by omega⟩

omit [PyRuntime] in
/-- A text is what stands before two places in it, between them and behind them. -/
theorem window_split (text : PyStr) {start stop : Nat} (ordered : start ≤ stop) :
    text = text.take start ++ (text.take stop).drop start ++ text.drop stop := by
  have parted := List.take_append_drop start (text.take stop)
  rw [List.take_take, Nat.min_eq_left ordered] at parted
  rw [parted, List.take_append_drop]

/-- An input is returned as it is, or as one window of the text with its notices, around the
clock time of the trigger. -/
theorem truncateInput_window (openaiMaxInputChars : Int) (text : PyStr) (maxChars : Option Int)
    (triggerTime : Option PyStr)
    (roomy : 2 * (truncationNotice.length + 2 : Int) < maxChars.getD openaiMaxInputChars) :
    ((text.length : Int) ≤ maxChars.getD openaiMaxInputChars →
      truncateInput openaiMaxInputChars text maxChars triggerTime = text) ∧
    (maxChars.getD openaiMaxInputChars < text.length →
      ((truncateInput openaiMaxInputChars text maxChars triggerTime).length : Int) ≤
          maxChars.getD openaiMaxInputChars ∧
        ∃ before slice after, text = before ++ slice ++ after ∧
          (slice.length : Int) =
            maxChars.getD openaiMaxInputChars - 2 * (truncationNotice.length + 2) ∧
          truncateInput openaiMaxInputChars text maxChars triggerTime =
            leadOf before ++ slice ++ trailOf after ∧
          (∃ focus, Focus text triggerTime focus ∧ before.length ≤ focus ∧
            focus < before.length + slice.length) ∧
          ∀ moment clock, triggerTime = some moment → ClockOf moment clock → clock <:+: text →
            16 ≤ slice.length → ∃ idx, FirstOccurrence clock text idx ∧ before.length ≤ idx ∧
              idx + clock.length ≤ before.length + slice.length) := by
  constructor
  · intro short
    rw [truncateInput, if_pos short]
  · intro long
    set limit := maxChars.getD openaiMaxInputChars with limited
    set budget := max 1 (limit - 2 * ((truncationNotice.length : Int) + 2)) with budgeted
    set focus := findFocus text triggerTime with focused
    set stop := min (text.length : Int) (max 0 ((focus : Int) - budget / 2) + budget) with stops
    set start := max 0 (stop - budget) with starts
    have room : budget = limit - 2 * ((truncationNotice.length : Int) + 2) := by omega
    have inhabited : text ≠ [] := by
      rintro rfl
      simp only [List.length_nil] at long
      omega
    have high := findFocus_lt triggerTime inhabited
    have fits : budget < text.length := by omega
    have low : (0 : Int) ≤ focus := by omega
    have top : (focus : Int) < text.length := by omega
    obtain ⟨first, last, sized, low, top, whole⟩ :=
      window_bounds (by omega) fits low top stops starts
    have value : truncateInput openaiMaxInputChars text maxChars triggerTime =
        leadOf (text.take start.toNat) ++ (text.take stop.toNat).drop start.toNat ++
          trailOf (text.drop stop.toNat) := by
      rw [truncateInput, if_neg (by omega), ← window_joined text first (by omega) last]
    have size : ((text.take stop.toNat).drop start.toNat).length = budget := by
      rw [List.length_drop, List.length_take]
      omega
    have place : (text.take start.toNat).length = start.toNat := by
      rw [List.length_take]
      omega
    rw [value]
    constructor
    · have lead := leadOf_length (text.take start.toNat)
      have trail := trailOf_length (text.drop stop.toNat)
      rw [List.length_append, List.length_append]
      omega
    · refine ⟨_, _, _, window_split text (by omega), by rw [size, room], rfl,
        ⟨focus, findFocus_spec text triggerTime, by omega, by omega⟩, ?_⟩
      rintro moment clock rfl only occurs wide
      obtain ⟨first, within⟩ := findFocus_clock only occurs
      refine ⟨focus, first, by omega, ?_⟩
      have enough := whole (by omega) (by omega)
      have eight := only.1.length
      omega

end Truncation

/-- A text with the clock time of the trigger between two runs. -/
def crowdedText : PyStr := List.replicate 40 120 ++ py "10:01:30" ++ List.replicate 60 121

/-- A text that is cut at both ends, with the clock time of the trigger inside. -/
theorem truncateInput_window_crowded :
    ((@truncateInput asciiRuntime 120000 crowdedText (some 90)
        (some (py "2026-01-15T10:01:30Z"))).length : Int) ≤ 90 ∧
      ∃ before slice after, crowdedText = before ++ slice ++ after ∧ (slice.length : Int) = 18 ∧
        @truncateInput asciiRuntime 120000 crowdedText (some 90)
            (some (py "2026-01-15T10:01:30Z")) = leadOf before ++ slice ++ trailOf after ∧
        ∃ idx, FirstOccurrence (py "10:01:30") crowdedText idx ∧ before.length ≤ idx ∧
          idx + 8 ≤ before.length + slice.length := by
  have cut := (@truncateInput_window asciiRuntime 120000 crowdedText (some 90)
    (some (py "2026-01-15T10:01:30Z")) (by decide +kernel)).2 (by decide +kernel)
  obtain ⟨short, before, slice, after, split, size, value, -, whole⟩ := cut
  have long : (slice.length : Int) = 18 := by
    rw [size]
    decide +kernel
  have clock : @ClockOf asciiRuntime (py "2026-01-15T10:01:30Z") (py "10:01:30") :=
    (@triggerClock_iff asciiRuntime _ _).mp (by decide +kernel)
  have occurs : py "10:01:30" <:+: crowdedText :=
    ⟨List.replicate 40 120, List.replicate 60 121, rfl⟩
  exact ⟨short, before, slice, after, split, long, value,
    whole _ _ rfl clock occurs (by omega)⟩

end RcaBackend
