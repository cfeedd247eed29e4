import RcaBackend.PayloadImage
import RcaBackend.RawReadability
import RcaBackend.ReportAssembly
import RcaBackend.SelectionCapacity
import RcaBackend.SignalWords

/-!
# The level that is counted and the level that is stored

A log line counts as an error, and is ranked first, by the first level in its raw text,
which may stand in a key or in the message. What is stored is the level field of an object,
and only without one the first level in the message.
-/

namespace RcaBackend

open Attempts Regex

section Levels

variable [PyRuntime]

/-- The first level in a text is that of an error. -/
def ErrorFirst (text : PyStr) : Prop :=
  ∃ level, firstLevel text = some level ∧ isErrorLevel (upperText level) = true

/-- The number of errors of a service. -/
def errorCount (bundle : IngestBundle) (service : PyStr) : Nat :=
  ((serviceErrorCounts bundle).lookup service).getD 0

/-- A line adds one to the errors of its service. -/
def Counted (item : ModalityItem) : Prop :=
  ∀ bundle before after, bundle.logs = before ++ item :: after →
    errorCount bundle item.service =
      errorCount { bundle with logs := before ++ after } item.service + 1

/-- Wherever a line stands, it is of the first rank. -/
def RankedFirst [Drain] (raw : PyStr) : Prop :=
  ∀ items idx, items[idx]?.map Signal.raw = some raw →
    ∃ bucket ∈ logBuckets items, (0, idx) ∈ bucket

/-- The level in a text that is stored. -/
def storedLevel (text : PyStr) : PyStr :=
  match loads text with
  | .ok (.dict sent) =>
    match Dict.get sent (py "level") with
    | .str level => level
    | _ => []
  | _ => []

/-- The stored level, in upper case, is that of an error. -/
def isErrorRow (text : PyStr) : Bool := isErrorLevel (upperText (storedLevel text))

variable (F : Type) [PyFloat F]

/-- The first level in a line is that of an error if and only if its level field is or, where
that is empty, the first level in its message. -/
def SameLevel (raw : PyStr) : Prop :=
  ∀ d ∈ objectOf raw,
    let level := scalarText F (firstValue d logLevelKeys)
    (level ≠ [] → (ErrorFirst raw ↔ isErrorLevel (upperText level) = true)) ∧
    (level = [] → (ErrorFirst raw ↔ ErrorFirst (logMsg F d raw)))

variable {F}

/-! ## What is counted -/

omit [PyFloat F] in
theorem errorCount_eq (bundle : IngestBundle) (service : PyStr) :
    errorCount bundle service = (serviceLines bundle service).length := by
  rw [errorCount, serviceErrorCounts_eq, KeyedFold.lookup_keyedFold, foldl_count, serviceLines]
  split
  · next empty => rw [empty]; rfl
  · simp

section Laws

variable [laws : WordLaws]

theorem isErrorLine_iff (raw : PyStr) : isErrorLine raw = true ↔ ErrorFirst raw := by
  rw [ErrorFirst, ← reSearch_level, isErrorLine]
  cases reSearch SignalPatterns.levelRe raw <;> simp

theorem levelOf_iff (raw : PyStr) : isErrorLevel (levelOf raw) = true ↔ ErrorFirst raw := by
  rw [ErrorFirst, levelOf_first]
  cases firstLevel raw with
  | none => simp [isErrorLevel, py]
  | some level => simp

theorem counted_iff (item : ModalityItem) : Counted item ↔ ErrorFirst item.raw := by
  rw [← isErrorLine_iff]
  constructor
  · intro counted
    have alone := counted { IngestBundle.bare Iso8601.epoch with logs := [item] } [] [] rfl
    by_contra other
    simp [errorCount_eq, serviceLines, other] at alone
  · intro error bundle before after split
    simp [errorCount_eq, serviceLines, split, error]
    omega

omit laws in
/-- A bucket of logs has an entry for each line, with the rank of its level. -/
theorem mem_logBuckets [Drain] {items : List Signal} {entry : Entry} :
    (∃ bucket ∈ logBuckets items, entry ∈ bucket) ↔
      ∃ item, items[entry.2]? = some item ∧ entry.1 = levelOrder (levelOf item.raw) := by
  constructor
  · rintro ⟨bucket, member, listed⟩
    obtain ⟨⟨key, entries⟩, present, rfl⟩ := List.mem_map.mp member
    rw [((KeyedFold.mem_collect _ _ _ _ _).mp present).2] at listed
    obtain ⟨graded, kept, rfl⟩ := List.mem_map.mp listed
    obtain ⟨⟨item, idx⟩, inside, rfl⟩ := List.mem_map.mp (List.mem_filter.mp kept).1
    exact ⟨item, List.mem_zipIdx_iff_getElem?.mp inside, rfl⟩
  · rintro ⟨item, placed, rank⟩
    obtain ⟨grade, idx⟩ := entry
    obtain rfl : grade = levelOrder (levelOf item.raw) := rank
    set entry : Entry := (levelOrder (levelOf item.raw), idx)
    have inside : (item, idx) ∈ items.zipIdx := List.mem_zipIdx_iff_getElem?.mpr placed
    let graded : Nat × Entry := (Drain.clusterId ((items.take (idx + 1)).map Signal.raw),
      (levelOrder (levelOf item.raw), idx))
    have own : entry ∈ ((items.zipIdx.map fun placed =>
        (Drain.clusterId ((items.take (placed.2 + 1)).map Signal.raw),
          ((levelOrder (levelOf placed.1.raw), placed.2) : Entry))).filter fun other =>
            other.1 = graded.1).map Prod.snd :=
      List.mem_map.mpr ⟨graded, List.mem_filter.mpr
        ⟨List.mem_map.mpr ⟨(item, idx), inside, rfl⟩, decide_eq_true rfl⟩, rfl⟩
    have bucket := (KeyedFold.mem_collect _ _ _ _ _).mpr ⟨List.ne_nil_of_mem own, rfl⟩
    exact ⟨_, List.mem_map.mpr ⟨_, bucket, rfl⟩, own⟩

theorem rankedFirst_iff [Drain] (raw : PyStr) : RankedFirst raw ↔ ErrorFirst raw := by
  rw [← levelOf_iff, ← levelOrder_zero]
  constructor
  · intro first
    obtain ⟨item, placed, rank⟩ := mem_logBuckets.mp (first [⟨[], [], raw⟩] 0 rfl)
    obtain rfl := Option.some.inj placed
    exact rank.symm
  · intro zero items idx placed
    obtain ⟨item, stored, rfl⟩ := Option.map_eq_some_iff.mp placed
    exact mem_logBuckets.mpr ⟨item, stored, zero.symm⟩

/-! ## What is stored -/

/-- Without a level field the first level is stored. -/
theorem levelOr_error (text : PyStr) :
    isErrorLevel (upperText (levelOr [] text)) = true ↔ ErrorFirst text := by
  have chosen : levelOr [] text = ((firstLevel text).map upperText).getD [] := by
    rw [← reSearch_level, levelOr, if_neg (not_not.mpr rfl)]
    cases reSearch SignalPatterns.levelRe text <;> rfl
  rw [chosen, ErrorFirst]
  cases first : firstLevel text with
  | none => simp [upperText, isErrorLevel, py]
  | some level => simp [upper_level first]

omit laws in
theorem levelOr_field {level msg : PyStr} (present : level ≠ []) : levelOr level msg = level := by
  rw [levelOr, if_pos present]

variable [PyLaws F]

omit laws in
theorem storedLevel_eq {raw text : PyStr} (returned : normalizeLog F raw = .ok text) :
    ∃ line, logLine F raw = .ok line ∧ storedLevel text = line.level := by
  obtain ⟨line, read, loaded⟩ := normalizeLog_loads F returned
  refine ⟨line, read, ?_⟩
  rw [storedLevel, loaded]
  rfl

/-- The level that is stored is that of an error exactly if the line says so first. -/
theorem error_stored_iff {raw text : PyStr} (returned : normalizeLog F raw = .ok text) :
    (ErrorFirst raw ↔ isErrorRow text = true) ↔ SameLevel F raw := by
  obtain ⟨line, read, stored⟩ := storedLevel_eq returned
  obtain ⟨object, found, same⟩ := bind_ok_iff.mp read
  obtain rfl := Except.ok.inj (found.symm.trans (loadsDict_eq (loads_of_loadsDict found)))
  rw [isErrorRow, stored, SameLevel]
  cases object : objectOf raw with
  | none =>
    rw [object] at same
    obtain rfl := Except.ok.inj same
    simp [levelOr_error]
  | some d =>
    rw [object] at same
    obtain rfl := Except.ok.inj same
    by_cases empty : scalarText F (firstValue d logLevelKeys) = []
    · simp [empty, levelOr_error]
    · simp [empty, levelOr_field]

theorem serviceLines_rows {items : List ModalityItem} {texts : List PyStr}
    (sent : List.Forall₂ (fun item text => normalizeLog F item.raw = .ok text) items texts)
    (same : ∀ item ∈ items, SameLevel F item.raw) (service : PyStr) :
    ((items.filter fun item => isErrorLine item.raw).filter fun item =>
        item.service = service).length =
      (items.zip texts).countP fun row => row.1.service = service && isErrorRow row.2 := by
  induction sent with
  | nil => rfl
  | @cons item text items texts returned _ inductionHypothesis =>
    obtain ⟨here, later⟩ := List.forall_mem_cons.mp same
    have agree : isErrorLine item.raw = isErrorRow text := by
      rw [Bool.eq_iff_iff, isErrorLine_iff]
      exact (error_stored_iff returned).mpr here
    have rest := inductionHypothesis later
    rw [List.zip_cons_cons, List.countP_cons, ← rest, List.filter_cons, agree]
    by_cases own : item.service = service
    · cases isErrorRow text <;> simp [own]
    · cases isErrorRow text <;> simp [own]

/-- A line is counted and ranked by the level that is stored if and only if the line says it
first. Where all lines do, the errors of a service are its rows with such a level. -/
theorem levels_stored_iff [Drain] :
    (∀ item text, normalizeLog F item.raw = .ok text →
      (((Counted item ↔ isErrorRow text = true) ∧
          (RankedFirst item.raw ↔ isErrorRow text = true)) ↔ SameLevel F item.raw)) ∧
    ∀ bundle texts,
      List.Forall₂ (fun item text => normalizeLog F item.raw = .ok text) bundle.logs texts →
      (∀ item ∈ bundle.logs, SameLevel F item.raw) → ∀ service,
        errorCount bundle service = (bundle.logs.zip texts).countP fun row =>
          row.1.service = service && isErrorRow row.2 := by
  constructor
  · intro item text returned
    rw [counted_iff, rankedFirst_iff, and_self, error_stored_iff returned]
  · intro bundle texts sent same service
    rw [errorCount_eq, serviceLines, serviceLines_rows sent same]

end Laws

end Levels

/-- A line that speaks of errors before it gives its level. -/
def errorRateLine : ModalityItem :=
  { timestamp := Iso8601.epoch, service := py "orders",
    raw := py "\x7b\"msg\":\"error rate 0\",\"level\":\"INFO\"\x7d" }

open ReferenceInterpreter in
/-- It is counted as an error and stored as information. -/
theorem counted_not_stored :
    ∃ text, @normalizeLog FloatLit rangedDecimals letteredRuntime errorRateLine.raw = .ok text ∧
      @Counted letteredRuntime errorRateLine ∧ @isErrorRow letteredRuntime text = false := by
  have stored : (@normalizeLog FloatLit rangedDecimals letteredRuntime errorRateLine.raw).map
      (@isErrorRow letteredRuntime) = .ok false := by decide +kernel
  obtain ⟨text, returned, information⟩ := map_ok_iff.mp stored
  refine ⟨text, returned, ?_, information⟩
  apply (@counted_iff letteredRuntime lettered_words errorRateLine).mpr
  exact ⟨py "error", by decide +kernel, by decide +kernel⟩

/-- Objects with level fields: two of one service, of which one is an error. -/
def leveledBundle : IngestBundle :=
  { IngestBundle.bare Iso8601.epoch with
    logs := [⟨Iso8601.epoch, py "orders", py "\x7b\"level\":\"ERROR\",\"msg\":\"no info\"\x7d"⟩,
      ⟨Iso8601.epoch, py "orders", py "\x7b\"level\":\"INFO\",\"msg\":\"error rate 0\"\x7d"⟩,
      ⟨Iso8601.epoch, py "users", py "\x7b\"level\":\"FATAL\",\"msg\":\"down\"\x7d"⟩] }

open ReferenceInterpreter in
/-- Where the level field stands in front, what is counted is what is stored. -/
theorem levels_stored_iff_rate :
    (∀ item ∈ leveledBundle.logs, ∃ text,
        @normalizeLog FloatLit rangedDecimals letteredRuntime item.raw = .ok text ∧
        (@Counted letteredRuntime item ↔ @isErrorRow letteredRuntime text = true)) ∧
      ∃ texts, List.Forall₂ (fun item text => @normalizeLog FloatLit rangedDecimals letteredRuntime
          item.raw = .ok text) leveledBundle.logs texts ∧
        @errorCount letteredRuntime leveledBundle (py "orders") = 1 ∧
        (leveledBundle.logs.zip texts).countP (fun row =>
          row.1.service = py "orders" && @isErrorRow letteredRuntime row.2) = 1 := by
  have field : ∀ item ∈ leveledBundle.logs, ∀ d ∈ @objectOf letteredRuntime item.raw,
      @scalarText FloatLit rangedDecimals (firstValue d logLevelKeys) ≠ [] ∧
        @isErrorLine letteredRuntime item.raw = isErrorLevel (@upperText letteredRuntime
          (@scalarText FloatLit rangedDecimals (firstValue d logLevelKeys))) := by
    decide +kernel
  have same : ∀ item ∈ leveledBundle.logs,
      @SameLevel letteredRuntime FloatLit rangedDecimals item.raw := by
    intro item member d object
    obtain ⟨present, agree⟩ := field item member d object
    refine ⟨fun _ => ?_, fun empty => absurd empty present⟩
    rw [← @isErrorLine_iff letteredRuntime lettered_words, agree]
  obtain ⟨line, counts⟩ := @levels_stored_iff letteredRuntime FloatLit rangedDecimals lettered_words
    lettered_laws oneCluster
  have returns : Returns (leveledBundle.logs.mapM fun item =>
      @normalizeLog FloatLit rangedDecimals letteredRuntime item.raw) := by decide +kernel
  obtain ⟨texts, returned⟩ := returns
  have sent := mapM_ok_iff.mp returned
  constructor
  · intro item member
    obtain ⟨text, -, stored⟩ := exists_right sent member
    exact ⟨text, stored, ((line item text stored).mpr (same item member)).1⟩
  · have one : @errorCount letteredRuntime leveledBundle (py "orders") = 1 := by decide +kernel
    exact ⟨texts, sent, one, (counts leveledBundle texts sent same (py "orders")).symm.trans one⟩

end RcaBackend
