import RcaBackend.BundleShapes
import RcaBackend.JsonGrammar
import RcaBackend.ReferenceInterpreter
import RcaBackend.SignalParsers

/-!
# The file of a bundle

`split_and_save` leaves the light fields of a bundle for the row and writes the three
arrays to a file; `restore_bundle` puts them together again. Reading the file goes
through the decoding of its bytes, `json.load`, the merge with the row and the
validation of the result. Of what these raise, only a missing file and a
`JSONDecodeError` become `SignalsMissing`. So a file is restored or reported missing
where it is UTF-8, within what the interpreter reads, and, as far as it is JSON, an
object whose entries have the shapes of a bundle's fields.
-/

namespace RcaBackend

open Attempts

/-! ## UTF-8 -/

/-- A character of several bytes that has begun: the bytes it still lacks, the bits read
so far, and the least and the greatest next byte. -/
structure Begun where
  owed : Nat
  bits : Nat
  least : UInt8
  greatest : UInt8

/-- The first byte of a character. -/
def firstByte (byte : UInt8) : Option (Nat ⊕ Begun) :=
  if byte ≤ 0x7F then some (.inl byte.toNat)
  else if 0xC2 ≤ byte ∧ byte ≤ 0xDF then some (.inr ⟨1, byte.toNat - 0xC0, 0x80, 0xBF⟩)
  else if byte = 0xE0 then some (.inr ⟨2, 0, 0xA0, 0xBF⟩)
  else if byte = 0xED then some (.inr ⟨2, 13, 0x80, 0x9F⟩)
  else if 0xE1 ≤ byte ∧ byte ≤ 0xEF then some (.inr ⟨2, byte.toNat - 0xE0, 0x80, 0xBF⟩)
  else if byte = 0xF0 then some (.inr ⟨3, 0, 0x90, 0xBF⟩)
  else if 0xF1 ≤ byte ∧ byte ≤ 0xF3 then some (.inr ⟨3, byte.toNat - 0xF0, 0x80, 0xBF⟩)
  else if byte = 0xF4 then some (.inr ⟨3, 4, 0x80, 0x8F⟩)
  else none

/-- The text of the bytes that follow, after the bytes of a character that has begun. -/
def decodeFrom : Option Begun → List UInt8 → Option PyStr
  | none, [] => some []
  | some _, [] => none
  | none, byte :: rest =>
    match firstByte byte with
    | some (.inl c) => (decodeFrom none rest).map (c :: ·)
    | some (.inr begun) => decodeFrom (some begun) rest
    | none => none
  | some begun, byte :: rest =>
    if begun.least ≤ byte ∧ byte ≤ begun.greatest then
      let bits := begun.bits * 64 + (byte.toNat - 0x80)
      if begun.owed = 1 then (decodeFrom none rest).map (bits :: ·)
      else decodeFrom (some ⟨begun.owed - 1, bits, 0x80, 0xBF⟩) rest
    else none

/-- Strict decoding; `none` where it raises `UnicodeDecodeError`. -/
def decodeUtf8 (bytes : List UInt8) : Option PyStr := decodeFrom none bytes

/-- A text file is read with `\r\n` and `\r` as `\n`. -/
def universalNewlines : PyStr → PyStr
  | 13 :: 10 :: rest => 10 :: universalNewlines rest
  | 13 :: rest => 10 :: universalNewlines rest
  | c :: rest => c :: universalNewlines rest
  | [] => []

/-! ## Splitting -/

/-- `SIGNAL_KEYS` -/
def signalKeys : List PyStr := [py "logs", py "metrics", py "traces"]

/-- The arrays that `split_and_save` writes to the file. -/
def signalsOf (F : Type) [PyFloat F] (bundleDump : Dict) : Dict :=
  signalKeys.map fun key => (key, orElse F (bundleDump.get key) (.list []))

/-- What `split_and_save` leaves for the row. -/
def lightOf (bundleDump : Dict) : Dict := bundleDump.filter fun entry => entry.1 ∉ signalKeys

/-! ## Restoring -/

section Restoring

variable [LaxInt]

/-- `{**stored, **signals}`, validated. -/
def validateMerged : Json → Json → Except PyExc IngestBundle
  | .dict stored, .dict signals => IngestBundle.modelValidate (.dict (Dict.merge stored signals))
  | _, _ => .error .typeError

variable [PyRuntime]

/-- `json.load` of a file, by its bytes. -/
def loadFile (bytes : List UInt8) : Except PyExc Json :=
  match decodeUtf8 bytes with
  | some text => loads (universalNewlines text)
  | none => .error .unicodeError

/-- `_read_sync`, by the bytes of the file if it is there. -/
def readSync : Option (List UInt8) → Except PyExc Json
  | none => .error .signalsMissing
  | some bytes =>
    match loadFile bytes with
    | .error .jsonDecodeError => .error .signalsMissing
    | read => read

/-- `restore_bundle`. A row without a file name has the arrays in it. -/
def restoreBundle (stored : Json) (file : Option (Option (List UInt8))) :
    Except PyExc IngestBundle :=
  match file with
  | none => IngestBundle.modelValidate stored
  | some content => do validateMerged stored (← readSync content)

/-- A bundle is returned, or the file is reported missing. -/
def RestoresOrMissing (restored : Except PyExc IngestBundle) : Prop :=
  Returns restored ∨ restored = .error .signalsMissing

omit [LaxInt] in
theorem readSync_ok {bytes : List UInt8} {json : Json} (read : loadFile bytes = .ok json) :
    readSync (some bytes) = .ok json := by
  rw [readSync, read]

end Restoring

/-! ## The files that restore -/

section Files

variable [LaxInt]

/-- An object that a row can be completed with: what it has of a bundle's fields fits. -/
structure FileFields (signals : Dict) : Prop where
  window : MayHave signals "window" (ObjectOf WindowFields)
  triggerInfo : MayHave signals "trigger_info" (ObjectOf TriggerFields)
  optional : OptionalFields signals

variable [PyRuntime]

/-- The file is absent; or its bytes are the UTF-8 of a text that reading does not exceed the
interpreter on, and that is an object with fitting fields if it is JSON at all. -/
def Restorable : Option (List UInt8) → Prop
  | none => True
  | some bytes => ∃ text, decodeUtf8 bytes = some text ∧ ¬ TextExceeds (universalNewlines text) ∧
      ∀ value, JsonText (universalNewlines text) value → ObjectOf FileFields value

end Files

theorem find_absent {d : Dict} {key : PyStr} (absent : key ∉ d.map Prod.fst) :
    d.find? key = none := by
  rw [Dict.find?, List.lookup_eq_none_iff]
  intro entry member
  have apart : key ≠ entry.1 := by
    intro same
    exact absent (same ▸ List.mem_map_of_mem member)
  simpa using apart

/-- A merged dictionary has the later entry of a key. -/
theorem find_merge {e : Dict} (distinct : (e.map Prod.fst).Nodup) (d : Dict) (key : PyStr) :
    (d.merge e).find? key = (e.find? key).or (d.find? key) := by
  induction e generalizing d with
  | nil => rfl
  | cons entry rest inductionHypothesis =>
    obtain ⟨fresh, others⟩ := List.nodup_cons.mp distinct
    have merged := inductionHypothesis others (d.set entry.1 entry.2)
    rw [Dict.merge] at merged ⊢
    rw [List.foldl_cons, merged, Dict.find?, Dict.find?, Dict.find?, Dict.find?, Dict.lookup_set]
    obtain ⟨k, v⟩ := entry
    rw [Dict.lookup_cons]
    by_cases same : key = k
    · have absent : rest.lookup key = none := find_absent (same ▸ fresh)
      rw [absent, if_pos same, if_pos same]
      rfl
    · rw [if_neg same, if_neg same]

/-- A field of a row is stored under its name, and not under an alias besides. -/
def Unaliased (row : Dict) (name : String) : Prop :=
  toCamel (py name) = py name ∨ toCamel (py name) ∉ row.map Prod.fst

/-- Validation finds what the file has of a field, and else what the row has. -/
theorem lookupField_merge {row signals : Dict} {name : String} (unaliased : Unaliased row name)
    (distinct : (signals.map Prod.fst).Nodup) :
    lookupField (row.merge signals) name =
      (lookupField signals name).or (lookupField row name) := by
  simp only [lookupField, find_merge distinct]
  obtain own | absent := unaliased
  · simp [own]
  · simp [find_absent absent, Option.or_assoc]

section Merged

variable {row signals : Dict} {name : String} {fits : Json → Prop} (unaliased : Unaliased row name)
  (distinct : (signals.map Prod.fst).Nodup)

include unaliased distinct

theorem has_merged (stored : Has row name fits) :
    Has (row.merge signals) name fits ↔ MayHave signals name fits := by
  obtain ⟨value, found, fitting⟩ := stored
  rw [Has, MayHave, lookupField_merge unaliased distinct, found]
  cases lookupField signals name with
  | none => simp [fitting]
  | some other => simp

theorem mayHave_merged (stored : MayHave row name fits) :
    MayHave (row.merge signals) name fits ↔ MayHave signals name fits := by
  rw [MayHave, MayHave, lookupField_merge unaliased distinct]
  cases found : lookupField signals name with
  | none => exact iff_of_true (fun value here => stored value (by simpa using here)) (by simp)
  | some other => simp

end Merged

/-! ## The row of a bundle -/

section Row

variable (bundle : IngestBundle)

/-- A dump is the light fields and then the arrays. -/
theorem modelDump_split :
    bundle.modelDump {} =
      dumpFields {} (bundle.lightFields {}) ++ dumpFields {} (bundle.signalFields {}) :=
  rfl

theorem dump_lightFields :
    dumpFields {} (bundle.lightFields {}) =
      [(py "bundle_version", .str bundle.bundleVersion),
        (py "company_code", .str bundle.companyCode), (py "window", bundle.window.modelDump {}),
        (py "trigger_info", bundle.triggerInfo.modelDump {}),
        (py "modality_info", bundle.modalityInfo.modelDump {})] :=
  rfl

theorem dump_signalFields :
    dumpFields {} (bundle.signalFields {}) =
      [(py "logs", .list (bundle.logs.map (ModalityItem.modelDump {}))),
        (py "metrics", .list (bundle.metrics.map (ModalityItem.modelDump {}))),
        (py "traces", .list (bundle.traces.map (ModalityItem.modelDump {})))] :=
  rfl

theorem lightOf_dump : lightOf (bundle.modelDump {}) = dumpFields {} (bundle.lightFields {}) := by
  rw [modelDump_split, dump_lightFields, dump_signalFields]
  simp [lightOf, signalKeys]

/-- The names under which a bundle has its fields. -/
def bundleNames : List String :=
  ["bundle_version", "company_code", "window", "trigger_info", "modality_info", "logs", "metrics",
    "traces"]

theorem row_keys : (lightOf (bundle.modelDump {})).map Prod.fst =
    [py "bundle_version", py "company_code", py "window", py "trigger_info",
      py "modality_info"] := by
  rw [lightOf_dump, dump_lightFields]
  rfl

theorem row_unaliased : ∀ name ∈ bundleNames, Unaliased (lightOf (bundle.modelDump {})) name := by
  simp only [Unaliased, row_keys, bundleNames]
  decide

/-- Validation finds a light field in the row. -/
theorem row_field {name : String} {value : Json}
    (here : (bundle.lightFields {}).lookup name = some value) :
    lookupField (lightOf (bundle.modelDump {})) name = some value := by
  have named : WellNamed ((bundle.lightFields {}).map Prod.fst) := by
    show WellNamed ["bundle_version", "company_code", "window", "trigger_info", "modality_info"]
    decide
  have member : name ∈ (bundle.lightFields {}).map Prod.fst := by
    by_contra outside
    have absent : (bundle.lightFields {}).lookup name = none := by
      rw [List.lookup_eq_none_iff]
      intro field present
      have apart : name ≠ field.1 := by
        intro same
        exact outside (same ▸ List.mem_map_of_mem present)
      simpa using apart
    rw [absent] at here
    cases here
  rw [lightOf_dump, lookupField_dump {} _ name named member, here]
  simp [DumpOptions.drops]

theorem row_has {name : String} {value : Json} {fits : Json → Prop}
    (here : (bundle.lightFields {}).lookup name = some value) (fitting : fits value) :
    Has (lightOf (bundle.modelDump {})) name fits :=
  ⟨value, row_field bundle here, fitting⟩

theorem row_noArray {name : String} (array : name ∈ ["logs", "metrics", "traces"]) :
    lookupField (lightOf (bundle.modelDump {})) name = none := by
  have apart : ∀ name ∈ ["logs", "metrics", "traces"],
      toCamel (py name) ∉ (lightOf (bundle.modelDump {})).map Prod.fst ∧
        py name ∉ (lightOf (bundle.modelDump {})).map Prod.fst := by
    rw [row_keys]
    decide
  rw [lookupField, find_absent (apart name array).1, find_absent (apart name array).2]
  rfl

variable [LaxInt]

/-- A row has all of a bundle but the arrays. -/
theorem row_fits : BundleFields (lightOf (bundle.modelDump {})) := by
  have window := (Window.returns_iff _).mp ⟨_, Window.modelValidate_dump {} bundle.window⟩
  have triggerInfo :=
    (TriggerInfo.returns_iff _).mp ⟨_, TriggerInfo.modelValidate_dump {} bundle.triggerInfo⟩
  have modalityInfo :=
    (ModalityInfo.returns_iff _).mp ⟨_, ModalityInfo.modelValidate_dump {} bundle.modalityInfo⟩
  have text (name : String) (text : PyStr)
      (here : (bundle.lightFields {}).lookup name = some (.str text)) :
      MayHave (lightOf (bundle.modelDump {})) name IsText :=
    (row_has bundle here ⟨text, rfl⟩).mayHave
  have noArray (name : String) (fits : Json → Prop) (array : name ∈ ["logs", "metrics", "traces"]) :
      MayHave (lightOf (bundle.modelDump {})) name fits := by
    intro value here
    rw [row_noArray bundle array] at here
    cases here
  refine ⟨row_has bundle rfl window, row_has bundle rfl triggerInfo, ?_⟩
  exact ⟨text _ _ rfl, text _ _ rfl, (row_has bundle rfl modalityInfo).mayHave,
    noArray _ _ (by decide), noArray _ _ (by decide), noArray _ _ (by decide)⟩

/-- What completes a row to a bundle. -/
theorem merged_fits {signals : Dict} (distinct : (signals.map Prod.fst).Nodup) :
    BundleFields ((lightOf (bundle.modelDump {})).merge signals) ↔ FileFields signals := by
  have row := row_fits bundle
  have here := fun name member => row_unaliased bundle name member
  have window := has_merged (here "window" (by decide)) distinct row.window
  have triggerInfo := has_merged (here "trigger_info" (by decide)) distinct row.triggerInfo
  have bundleVersion :=
    mayHave_merged (here "bundle_version" (by decide)) distinct row.optional.bundleVersion
  have companyCode :=
    mayHave_merged (here "company_code" (by decide)) distinct row.optional.companyCode
  have modalityInfo :=
    mayHave_merged (here "modality_info" (by decide)) distinct row.optional.modalityInfo
  have logs := mayHave_merged (here "logs" (by decide)) distinct row.optional.logs
  have metrics := mayHave_merged (here "metrics" (by decide)) distinct row.optional.metrics
  have traces := mayHave_merged (here "traces" (by decide)) distinct row.optional.traces
  constructor
  · intro fits
    exact ⟨window.mp fits.window, triggerInfo.mp fits.triggerInfo,
      bundleVersion.mp fits.optional.bundleVersion, companyCode.mp fits.optional.companyCode,
      modalityInfo.mp fits.optional.modalityInfo, logs.mp fits.optional.logs,
      metrics.mp fits.optional.metrics, traces.mp fits.optional.traces⟩
  · intro fits
    exact ⟨window.mpr fits.window, triggerInfo.mpr fits.triggerInfo,
      bundleVersion.mpr fits.optional.bundleVersion, companyCode.mpr fits.optional.companyCode,
      modalityInfo.mpr fits.optional.modalityInfo, logs.mpr fits.optional.logs,
      metrics.mpr fits.optional.metrics, traces.mpr fits.optional.traces⟩

variable [PyRuntime]

/-- Restoring the bundle of a row returns or reports the file missing if and only if the file
is absent, cut or garbled beyond JSON but not beyond UTF-8, or has the fields of a bundle. -/
theorem restore_iff_restorable (content : Option (List UInt8)) :
    RestoresOrMissing (restoreBundle (.dict (lightOf (bundle.modelDump {}))) (some content)) ↔
      Restorable content := by
  cases content with
  | none => exact iff_of_true (Or.inr rfl) trivial
  | some bytes =>
    rw [restoreBundle, Restorable]
    cases decoded : decodeUtf8 bytes with
    | none => simp [readSync, loadFile, decoded, RestoresOrMissing, bind, Except.bind]
    | some text =>
      have loaded : loadFile bytes = loads (universalNewlines text) := by rw [loadFile, decoded]
      simp only [Option.some.injEq, exists_eq_left', readSync, loaded]
      by_cases exceeds : TextExceeds (universalNewlines text)
      · obtain ⟨error, read, other⟩ := loads_exceeds_iff.mpr exceeds
        have known := loads_raises _ error read
        rw [read]
        refine iff_of_false ?_ (fun restorable => restorable.1 exceeds)
        cases error <;> simp_all [RestoresOrMissing, bind, Except.bind, JsonLoads.IsLoadError]
      · rw [and_iff_right exceeds]
        by_cases spelled : ∃ json, JsonText (universalNewlines text) json
        · obtain ⟨json, spelled⟩ := spelled
          have only : ∀ value, JsonText (universalNewlines text) value ↔ value = json := by
            intro value
            rw [← loads_ok_iff, loads_ok_iff.mpr spelled, Except.ok.injEq, eq_comm]
          simp only [loads_ok_iff.mpr spelled, only, forall_eq]
          cases json with
          | dict signals =>
            have known : ∀ merged, IngestBundle.modelValidate merged ≠ .error .signalsMissing := by
              intro merged missing
              exact absurd (IngestBundle.refuses merged _ missing) (by simp)
            have returned := IngestBundle.returns_iff
              (.dict ((lightOf (bundle.modelDump {})).merge signals))
            simp only [ObjectOf, Json.dict.injEq, exists_eq_left',
              merged_fits bundle spelled.distinct] at returned
            simp only [RestoresOrMissing, bind, Except.bind, validateMerged, known, or_false,
              returned, ObjectOf, Json.dict.injEq, exists_eq_left']
          | null | bool _ | int _ | float _ | str _ | list _ =>
            simp [RestoresOrMissing, bind, Except.bind, validateMerged, ObjectOf]
        · rw [loads_syntaxError_iff.mpr ⟨spelled, exceeds⟩]
          refine iff_of_true (Or.inr rfl) fun value here => ?_
          exact absurd ⟨value, here⟩ spelled

end Row

/-- The row of a bundle at the epoch. -/
def epochRow : Json := .dict (lightOf ((IngestBundle.bare .epoch).modelDump {}))

/-- The file of a log line that says U+D55C, cut after the first byte of this character. -/
def cutFile : List UInt8 :=
  ([123] ++ py "\"logs\": [" ++ [123] ++
    py "\"timestamp\": \"1970-01-01T00:00:00Z\", \"service\": \"\", \"raw\": \"" ++
    [0xED]).map UInt8.ofNat

open ReferenceInterpreter in
/-- A file that is cut inside a character, or that holds a list, is not reported missing. -/
theorem restore_escapes :
    (@restoreBundle strictInt asciiRuntime epochRow (some (some cutFile)) = .error .unicodeError ∧
        ¬ RestoresOrMissing
            (@restoreBundle strictInt asciiRuntime epochRow (some (some cutFile)))) ∧
      @restoreBundle strictInt asciiRuntime epochRow (some (some [91, 93])) =
        .error .typeError := by
  have cut : @restoreBundle strictInt asciiRuntime epochRow (some (some cutFile)) =
      .error .unicodeError := by
    decide +kernel
  refine ⟨⟨cut, ?_⟩, by decide +kernel⟩
  rw [cut]
  simp [RestoresOrMissing]

/-! ## A bundle is restored from what it was split into -/

section Inverse

variable (F : Type) [PyFloat F] [LaxInt] (bundle : IngestBundle)

omit [LaxInt] bundle in
theorem orElse_list (items : List Json) : orElse F (.list items) (.list []) = .list items := by
  cases items <;> rfl

omit [LaxInt] in
theorem signalsOf_dump :
    signalsOf F (bundle.modelDump {}) = dumpFields {} (bundle.signalFields {}) := by
  rw [modelDump_split, dump_lightFields, dump_signalFields]
  simp [signalsOf, signalKeys, Dict.get, Dict.lookup_cons, orElse_list]

/-- The light fields and the arrays together are the dump again. -/
theorem validateMerged_split :
    validateMerged (.dict (lightOf (bundle.modelDump {})))
      (.dict (signalsOf F (bundle.modelDump {}))) = .ok bundle := by
  have apart : ((dumpFields {} (bundle.lightFields {})).map Prod.fst ++
      (dumpFields {} (bundle.signalFields {})).map Prod.fst).Nodup := by
    rw [dump_lightFields, dump_signalFields]
    simp
  rw [lightOf_dump, signalsOf_dump, validateMerged, Dict.merge_fresh _ _ apart, ← modelDump_split]
  exact IngestBundle.modelValidate_dump {} bundle

end Inverse

end RcaBackend
