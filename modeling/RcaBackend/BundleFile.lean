import RcaBackend.JsonRoundTrip
import RcaBackend.Redelivery

/-!
# A bundle is restored from what was written

`split_and_save` leaves the light fields of a bundle for the row and writes its three
arrays to a file, as JSON in UTF-8. Every bundle is restored from the two, exactly as it
came in, whatever characters its lines have: control characters are escaped, so reading
with universal newlines changes none. The one thing that prevents the file from being
written is a character that UTF-8 cannot encode; then the request is refused.
-/

namespace RcaBackend

open Attempts

section Writing

variable (F : Type) [PyFloat F]

/-- `_write_sync`, by the bytes of the file. -/
def writeSync (payload : Dict) : Except PyExc (List UInt8) := do
  let text ← dumps F (.dict payload)
  match encodeUtf8 text with
  | some bytes => .ok bytes
  | none => .error .unicodeError

/-- `split_and_save`: what is left for the row, and the bytes of the file. -/
def splitAndSave (bundleDump : Dict) : Except PyExc (Dict × List UInt8) := do
  let bytes ← writeSync F (signalsOf F bundleDump)
  return (lightOf bundleDump, bytes)

/-- The strings of the item can be encoded. -/
def ModalityItem.Unicode (item : ModalityItem) : Prop :=
  ∀ text ∈ [item.timestamp.text, item.service, item.raw], ∀ c ∈ text, IsScalarValue c

instance (item : ModalityItem) : Decidable item.Unicode := inferInstanceAs (Decidable (∀ _ ∈ _, _))

/-! ## Reading a file back -/

/-- A text without carriage returns is read as it is. -/
theorem universalNewlines_eq {text : PyStr} (free : ∀ c ∈ text, c ≠ 13) :
    universalNewlines text = text := by
  fun_induction universalNewlines text with
  | case1 => simp at free
  | case2 => simp at free
  | case3 c rest _ _ inductionHypothesis =>
    rw [inductionHypothesis fun d member => free d (List.mem_cons_of_mem _ member)]
  | case4 => rfl

/-- The file of a value is read as the value. -/
theorem loadFile_writeSync [PyRuntime] {payload : Dict} {bytes : List UInt8}
    (storable : (Json.dict payload).storable = true)
    (shallow : (Json.dict payload).nesting ≤ PyRuntime.recursionLimit)
    (written : writeSync F payload = .ok bytes) : loadFile bytes = .ok (.dict payload) := by
  rw [writeSync] at written
  obtain ⟨text, dumped, written⟩ := bind_ok_iff.mp written
  cases encoded : encodeUtf8 text with
  | none => simp [encoded] at written
  | some encodedBytes =>
    have same : encodedBytes = bytes := by simpa [encoded] using written
    have free : ∀ c ∈ text, c ≠ 13 := by
      apply (dumps_chars F (fun c => c ≠ 13) (by omega) _ text storable dumped).mpr
      apply Json.everywhere_of_all
      rintro (_ | _ | _ | _ | _ | _ | _) <;> simp <;> omega
    rw [loadFile, ← same, decodeUtf8_encodeUtf8 encoded]
    simp only [universalNewlines_eq free, loads_dumps F storable shallow dumped]

/-- A value is written exactly if its strings can be encoded. -/
theorem returns_writeSync_iff {payload : Dict} (storable : (Json.dict payload).storable = true)
    (writable : (Json.dict payload).writable = true) :
    Returns (writeSync F payload) ↔ (Json.dict payload).spelled IsScalarValue = true := by
  have visible : ∀ c, 32 ≤ c → c < 128 → IsScalarValue c :=
    fun c _ ascii => ascii_isScalarValue ascii
  have control : (fun c => c < 32 ∨ IsScalarValue c) = IsScalarValue := by
    funext c
    exact propext (or_iff_right_of_imp fun small => ascii_isScalarValue (by omega))
  obtain ⟨text, dumped⟩ := (returns_dumps_iff F _).mpr writable
  have characters := dumps_chars F IsScalarValue visible _ text storable dumped
  have spelled : (Json.dict payload).spelled (fun c => c < 32 ∨ IsScalarValue c) =
      (Json.dict payload).spelled IsScalarValue := by
    congr
  rw [spelled, ← encodeUtf8_isSome_iff] at characters
  rw [← characters, writeSync, dumped]
  simp only [bind, Except.bind]
  cases encodeUtf8 text <;> simp

/-! ## The arrays of a bundle -/

section Arrays

variable {F}

/-- The dump of an item. -/
theorem modelDump_item (item : ModalityItem) :
    item.modelDump {} = .dict [(py "timestamp", .str item.timestamp.text),
      (py "service", .str item.service), (py "raw", .str item.raw)] :=
  rfl

/-- Items are nested no deeper than each of them. -/
theorem nestingItems_le {items : List Json} {bound : Nat}
    (within : ∀ item ∈ items, item.nesting ≤ bound) : Json.nestingItems items ≤ bound := by
  induction items with
  | nil => exact Nat.zero_le bound
  | cons first rest inductionHypothesis =>
    rw [Json.nestingItems]
    apply Nat.max_le.mpr
    constructor
    · exact within first List.mem_cons_self
    · exact inductionHypothesis fun item member => within item (List.mem_cons_of_mem _ member)

/-- What passes everywhere in the arrays: the objects, the arrays, and every item. -/
theorem everywhere_signals (p : Json → Bool) (bundle : IngestBundle)
    (outer : p (.dict (dumpFields {} (bundle.signalFields {}))) = true)
    (lists : ∀ items, p (.list items) = true) :
    Json.everywhere p (.dict (dumpFields {} (bundle.signalFields {}))) = true ↔
      ∀ m, ∀ item ∈ bundle.items m, Json.everywhere p (item.modelDump {}) = true := by
  have lists_iff : ∀ items : List ModalityItem,
      Json.everywhere p (.list (items.map (ModalityItem.modelDump {}))) = true ↔
        ∀ item ∈ items, Json.everywhere p (item.modelDump {}) = true := by
    intro items
    rw [Json.everywhere_list, List.forall_mem_map]
    exact and_iff_right (lists _)
  rw [Json.everywhere_dict, and_iff_right outer, dump_signalFields]
  simp only [List.forall_mem_cons, lists_iff]
  constructor
  · rintro ⟨logs, metrics, traces, -⟩ m
    cases m with
    | log => exact logs
    | metric => exact metrics
    | trace => exact traces
  · intro all
    exact ⟨all .log, all .metric, all .trace, by simp⟩

/-- The arrays can be stored. -/
theorem storable_signals (bundle : IngestBundle) :
    Json.storable (.dict (dumpFields {} (bundle.signalFields {}))) = true := by
  apply (everywhere_signals _ bundle _ _).mpr
  · intro m item _
    rw [modelDump_item]
    simp [Json.everywhere, Json.everywhereEntries]
  · rw [dump_signalFields]
    simp
  · simp

/-- The arrays can be written. -/
theorem writable_signals (bundle : IngestBundle) :
    Json.writable (.dict (dumpFields {} (bundle.signalFields {}))) = true := by
  apply (everywhere_signals _ bundle rfl fun _ => rfl).mpr
  intro m item _
  rw [modelDump_item]
  simp [Json.everywhere, Json.everywhereEntries]

/-- The arrays are spelled in Unicode where their items are. -/
theorem spelled_signals (bundle : IngestBundle) :
    Json.spelled IsScalarValue (.dict (dumpFields {} (bundle.signalFields {}))) = true ↔
      ∀ m, ∀ item ∈ bundle.items m, item.Unicode := by
  rw [Json.spelled, everywhere_signals]
  · apply forall_congr' fun m => forall₂_congr fun item _ => ?_
    have keys : ∀ key ∈ [py "timestamp", py "service", py "raw"], ∀ c ∈ key, IsScalarValue c := by
      decide
    rw [modelDump_item, Json.everywhere_dict]
    simp only [List.forall_mem_cons] at keys
    simp only [Json.everywhere, ModalityItem.Unicode, List.forall_mem_cons, decide_eq_true_eq]
    constructor
    · rintro ⟨-, time, service, raw, -⟩
      exact ⟨time, service, raw, by simp⟩
    · rintro ⟨time, service, raw, -⟩
      exact ⟨⟨keys.1, keys.2.1, keys.2.2.1, by simp⟩, time, service, raw, by simp⟩
  · rw [dump_signalFields]
    simp
    decide
  · simp

/-- The arrays nest three levels deep. -/
theorem nesting_signals (bundle : IngestBundle) :
    (Json.dict (dumpFields {} (bundle.signalFields {}))).nesting ≤ 3 := by
  have list : ∀ items : List ModalityItem,
      (Json.list (items.map (ModalityItem.modelDump {}))).nesting ≤ 2 := by
    intro items
    rw [Json.nesting]
    apply Nat.succ_le_succ
    apply nestingItems_le
    rw [List.forall_mem_map]
    intro item _
    rw [modelDump_item]
    simp [Json.nesting, Json.nestingEntries]
  rw [dump_signalFields]
  have := list bundle.logs
  have := list bundle.metrics
  have := list bundle.traces
  simp only [Json.nesting, Json.nestingEntries] at *
  omega

end Arrays

/-! ## Splitting and restoring -/

/-- A bundle is written exactly if the strings in its arrays can be encoded. -/
theorem returns_splitAndSave_iff (bundle : IngestBundle) :
    Returns (splitAndSave F (bundle.modelDump {})) ↔
      ∀ m, ∀ item ∈ bundle.items m, item.Unicode := by
  have storable := storable_signals bundle
  have writable := writable_signals bundle
  rw [splitAndSave, signalsOf_dump, ← spelled_signals, ← returns_writeSync_iff F storable writable]
  cases writeSync F (dumpFields {} (bundle.signalFields {})) <;>
    simp [bind, Except.bind, pure, Except.pure]

/-- What was written is what `restore_bundle` expects of a row with a file. -/
theorem storedFor_splitAndSave [PyRuntime] (deep : 3 ≤ PyRuntime.recursionLimit)
    {bundle : IngestBundle} {light : Dict} {bytes : List UInt8}
    (saved : splitAndSave F (bundle.modelDump {}) = .ok (light, bytes)) :
    StoredFor F bundle ⟨.dict light, none, some (some bytes)⟩ := by
  rw [splitAndSave] at saved
  obtain ⟨written, stored, saved⟩ := bind_ok_iff.mp saved
  obtain ⟨rfl, rfl⟩ := Prod.mk.inj (Except.ok.inj saved)
  rw [signalsOf_dump] at stored
  have loaded := loadFile_writeSync F (storable_signals bundle)
    (Nat.le_trans (nesting_signals bundle) deep) stored
  apply StoredFor.split
  rw [signalsOf_dump]
  exact readSync_ok loaded

/-- A bundle is split and saved exactly if the strings of its items can be encoded in UTF-8.
From then on, however often and by whomever its row and its file are read, the bundle is
restored as it came in. -/
theorem splitAndSave_restores [PyRuntime] [LaxInt] (deep : 3 ≤ PyRuntime.recursionLimit)
    (bundle : IngestBundle) :
    (Returns (splitAndSave F (bundle.modelDump {})) ↔
        ∀ m, ∀ item ∈ bundle.items m, item.Unicode) ∧
      ∀ light bytes, splitAndSave F (bundle.modelDump {}) = .ok (light, bytes) →
        light = lightOf (bundle.modelDump {}) ∧
          restoreBundle (.dict light) (some (some bytes)) = .ok bundle := by
  refine ⟨returns_splitAndSave_iff F bundle, fun light bytes saved => ⟨?_, ?_⟩⟩
  · rw [splitAndSave] at saved
    obtain ⟨written, -, saved⟩ := bind_ok_iff.mp saved
    exact (Prod.mk.inj (Except.ok.inj saved)).1.symm
  · exact (storedFor_restores F (storedFor_splitAndSave F deep saved)).2

end Writing

/-- A log line with a line break, a quote, U+D55C and a zero. -/
def brokenLine : IngestBundle :=
  { IngestBundle.bare Iso8601.epoch with
    logs := [⟨Iso8601.epoch, py "gateway", [13, 10, 34, 0xD55C, 0]⟩] }

open ReferenceInterpreter in
/-- A line with escapes is restored. -/
theorem splitAndSave_restores_line : ∃ light bytes,
    @splitAndSave FloatLit rangedDecimals (brokenLine.modelDump {}) = .ok (light, bytes) ∧
      @restoreBundle strictInt asciiRuntime (.dict light) (some (some bytes)) = .ok brokenLine := by
  obtain ⟨saves, restores⟩ :=
    @splitAndSave_restores FloatLit rangedDecimals asciiRuntime strictInt (by decide) brokenLine
  have unicode : ∀ m, ∀ item ∈ brokenLine.items m, item.Unicode := by
    intro m
    cases m <;> decide
  obtain ⟨⟨light, bytes⟩, saved⟩ := saves.mpr unicode
  exact ⟨light, bytes, saved, (restores light bytes saved).2⟩

end RcaBackend
