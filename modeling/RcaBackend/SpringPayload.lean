import RcaBackend.Contracts
import RcaBackend.RawNormalizer
import RcaBackend.SignalSelector

/-!
# The payload for Spring

`_result_payload` and `_failure_payload` dump the bundle under its aliases and rewrite the
nested dictionaries of the dump in four passes: the arrays are cut to a selection, the
sources of the evidence get a note on it, every time field gets the form that Spring
accepts, and every raw text becomes a contract row. The dump is made anew for each
payload, so the passes are functions of the payload here.
-/

namespace RcaBackend

/-! ## Nested dictionaries -/

namespace Dict

/-- Assignments inside the dictionary under a key, if there is one. -/
def updateM (d : Dict) (key : PyStr) (inside : Dict → Except PyExc Dict) : Except PyExc Dict :=
  match d.get key with
  | .dict inner => do return d.set key (.dict (← inside inner))
  | _ => .ok d

/-- Assignments that do not fail. -/
def update (d : Dict) (key : PyStr) (inside : Dict → Dict) : Dict :=
  match d.get key with
  | .dict inner => d.set key (.dict (inside inner))
  | _ => d

/-- The dictionaries in the list under a key. -/
def items (d : Dict) (key : PyStr) : List Dict :=
  match d.get key with
  | .list values => values.filterMap fun value =>
      match value with
      | .dict inner => some inner
      | _ => none
  | _ => []

/-- Assignments inside every dictionary in the list under a key. -/
def updateItemsM (d : Dict) (key : PyStr) (inside : Dict → Except PyExc Dict) :
    Except PyExc Dict :=
  match d.get key with
  | .list _ => do return d.set key (.list ((← (d.items key).mapM inside).map .dict))
  | _ => .ok d

end Dict

/-- `PAYLOAD_KEYS` -/
def payloadKeys : List (PyStr × Modality) :=
  [(py "logs", .log), (py "metrics", .metric), (py "traces", .trace)]

/-! ## Times -/

/-- A time field gets the form for Spring; a field that holds no text is left. -/
def rewriteTime (d : Dict) (key : PyStr) : Except PyExc Dict :=
  match d.get key with
  | .str ts => do return d.set key (.str (← toSpringTs ts))
  | _ => .ok d

/-- `for key in ("start", "end")` -/
def rewriteSpan (d : Dict) : Except PyExc Dict := do
  rewriteTime (← rewriteTime d (py "start")) (py "end")

/-- The intervals of each modality. -/
def rewriteIntervals (info : Dict) : Except PyExc Dict :=
  info.mapM fun entry => do
    match entry.2 with
    | .dict detail =>
      return (entry.1, .dict (← Dict.updateItemsM detail (py "intervals") rewriteSpan))
    | other => return (entry.1, other)

/-- `_normalize_timestamps` -/
def normalizeTimestamps (payload : Dict) : Except PyExc Dict := do
  let payload ← payload.updateM (py "window") rewriteSpan
  let payload ← payload.updateM (py "triggerInfo") fun trigger =>
    rewriteTime trigger (py "triggerTime")
  let payload ← payloadKeys.foldlM (fun payload entry =>
    Dict.updateItemsM payload entry.1 fun item => rewriteTime item (py "timestamp")) payload
  payload.updateM (py "modalityInfo") rewriteIntervals

/-! ## Selection and notes -/

/-- The note on what of an array is in the payload. -/
def coverageNote (selection : Selection) : PyStr :=
  if selection.truncated then
    py "전체 " ++ natText selection.total ++ py "건 중 주요 " ++ natText selection.items.length ++
      py "건 수록"
  else py "전체 " ++ natText selection.total ++ py "건 전량 수록"

variable (F : Type) [PyFloat F] [PyRuntime]

/-- `f"{source} ({note})" if source else note` -/
def withNote (source : Json) (note : PyStr) : PyStr :=
  if truthy F source then pyStr F source ++ py " (" ++ note ++ py ")" else note

/-- The evidence of one modality. -/
def annotateSource (evidence : Dict) (entry : Modality × Selection) : Dict :=
  if entry.2.total = 0 then evidence
  else evidence.update entry.1.text fun node =>
    node.set (py "source") (.str (withNote F (node.get (py "source")) (coverageNote entry.2)))

/-- `_annotate_sources` -/
def annotateSources (payload : Dict) (selections : List (Modality × Selection)) : Dict :=
  payload.update (py "result") fun result =>
    result.update (py "evidence") fun evidence => selections.foldl (annotateSource F) evidence

/-- The selection of one array. -/
def selectArray [Drain] (triggerTime : PyStr) (cap : Nat)
    (state : Dict × List (Modality × Selection)) (entry : PyStr × Modality) :
    Except PyExc (Dict × List (Modality × Selection)) := do
  let selection ← selectSignals F entry.2 (state.1.items entry.1) triggerTime cap
  return (state.1.set entry.1 (.list (selection.items.map .dict)),
    state.2 ++ [(entry.2, selection)])

/-- `_apply_selection` -/
def applySelection [Drain] (payload : Dict) (triggerTime : PyStr) (cap : Nat) :
    Except PyExc (Dict × List (Modality × Selection)) :=
  payloadKeys.foldlM (selectArray F triggerTime cap) (payload, [])

/-! ## Raw lines -/

/-- The raw text of an item becomes a contract row. -/
def normalizeItem (modality : Modality) (item : Dict) : Except PyExc Dict :=
  match item.get (py "raw") with
  | .null => .ok item
  | .str raw => do return item.set (py "raw") (.str (← normalizer F modality raw))
  | _ => .error .typeError

/-- `normalize_payload_signals` -/
def normalizePayloadSignals (payload : Dict) : Except PyExc Dict :=
  payloadKeys.foldlM (fun payload entry =>
    Dict.updateItemsM payload entry.1 (normalizeItem F entry.2)) payload

/-! ## Payloads -/

variable [Drain]

/-- The bundle under its aliases. -/
def bundleDump (bundle : IngestBundle) : Dict := bundle.modelDump { byAlias := true }

/-- `_result_payload`, with the cap of the settings. -/
def resultPayload (bundle : IngestBundle) (result : RcaResult) (cap : Nat) : Except PyExc Dict := do
  let detail := result.detail.modelDump { byAlias := true, excludeNone := true }
  let payload := (((bundleDump bundle).set (py "status") (.str (py "DONE"))).set (py "severity")
    (.str result.severity)).set (py "result")
    (.dict (Dict.merge [(py "type", .str result.kind), (py "service", .str result.service)] detail))
  let (payload, selections) ← applySelection F payload bundle.triggerInfo.triggerTime.text cap
  let payload ← normalizeTimestamps (annotateSources F payload selections)
  normalizePayloadSignals F payload

/-- `_failure_payload` -/
def failurePayload (bundle : IngestBundle) (reason : PyStr) (cap : Nat) : Except PyExc Dict := do
  let payload := ((bundleDump bundle).set (py "status") (.str (py "FAILED"))).set (py "reason")
    (.str reason)
  let (payload, _) ← applySelection F payload bundle.triggerInfo.triggerTime.text cap
  let payload ← normalizeTimestamps payload
  normalizePayloadSignals F payload

end RcaBackend
