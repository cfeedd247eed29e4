import RcaBackend.JsonLoads
import RcaBackend.SignalPatterns

/-!
# The judgements on a raw line that analysis and delivery share

The level of a log line, the (label, value) pairs of a metric line, and operation,
duration and error of a span, as `bundle_compression` reads them and
`signal_selector` uses them. What raises is kept: integers beyond the range of a
float, durations that are no number, and a unit that the pattern matches but the
table of units lacks.
-/

namespace RcaBackend

open SignalPatterns

/-- A whole number as a float literal. -/
def wholeLit (n : Nat) : FloatLit := .decimal false n 0

/-! ## Values -/

/-- `bool(value)` -/
def truthy (F : Type) [PyFloat F] : Json → Bool
  | .null => false
  | .bool value => value
  | .int value => value ≠ 0
  | .float value => !PyFloat.eq (PyFloat.ofLit value : F) (PyFloat.ofLit (wholeLit 0))
  | .str text => !text.isEmpty
  | .list items => !items.isEmpty
  | .dict entries => !entries.isEmpty

/-- `value or other` -/
def orElse (F : Type) [PyFloat F] (value other : Json) : Json :=
  if truthy F value then value else other

/-- `str(value)` -/
def pyStr (F : Type) [PyFloat F] [PyRuntime] : Json → PyStr
  | .null => py "None"
  | .bool value => if value then py "True" else py "False"
  | .int value => intText value
  | .float value => PyFloat.text (PyFloat.ofLit value : F)
  | .str text => text
  | .list items => PyRuntime.repr (.list items)
  | .dict entries => PyRuntime.repr (.dict entries)

variable {F : Type} [PyFloat F]

/-- `float(text)` -/
def floatText [PyRuntime] (text : PyStr) : Except PyExc F :=
  match floatOfText text with
  | some value => .ok (PyFloat.ofLit value)
  | none => .error .valueError

/-- `float(value)` -/
def floatValue [PyRuntime] : Json → Except PyExc F
  | .bool value => PyFloat.ofInt (if value then 1 else 0)
  | .int value => PyFloat.ofInt value
  | .float value => .ok (PyFloat.ofLit value)
  | .str text => floatText text
  | .null | .list _ | .dict _ => .error .typeError

/-- `_num`: the float of a number that is no boolean. -/
def num : Json → Except PyExc (Option F)
  | .int value => (PyFloat.ofInt value).map some
  | .float value => .ok (some (PyFloat.ofLit value))
  | _ => .ok none

/-! ## Logs -/

/-- The level of a line: the first level word, or `-`. -/
def levelOf [PyRuntime] (raw : PyStr) : PyStr :=
  match reSearch levelRe raw with
  | some found => upperText (groupText found 1)
  | none => py "-"

/-- `LEVEL_ORDER.get(level, 2)` -/
def levelOrder (level : PyStr) : Nat :=
  if level = py "FATAL" ∨ level = py "CRITICAL" ∨ level = py "ERROR" then 0
  else if level = py "WARN" ∨ level = py "WARNING" then 1
  else 2

/-- `level in _ERROR_LEVELS` -/
def isErrorLevel (level : PyStr) : Bool :=
  level = py "FATAL" || level = py "CRITICAL" || level = py "ERROR"

theorem levelOrder_zero (level : PyStr) : levelOrder level = 0 ↔ isErrorLevel level = true := by
  simp only [levelOrder, isErrorLevel, Bool.or_eq_true, decide_eq_true_eq, or_assoc]
  constructor
  · intro zero
    by_contra other
    rw [if_neg other] at zero
    split at zero <;> simp at zero
  · intro member
    rw [if_pos member]

/-- What a new miner of `make_miner` answers to the last of the messages fed to it: the
id of the message's cluster, and the template of that cluster after the message. -/
class Drain where
  clusterId : List PyStr → Nat
  templateMined : List PyStr → PyStr

/-! ## Metrics -/

/-- `_METRIC_NAME_KEYS` -/
def metricNameKeys : List PyStr := [py "metric", py "name", py "__name__", py "metric_name"]

/-- `_METRIC_VALUE_KEYS` -/
def metricValueKeys : List PyStr := [py "value", py "val", py "v"]

/-- The first of the keys with a nonempty string. -/
def firstName (d : Dict) : List PyStr → Option PyStr
  | [] => none
  | key :: rest =>
    match d.get key with
    | .str (c :: text) => some (c :: text)
    | _ => firstName d rest

/-- The first of the keys with a number. -/
def firstNum (d : Dict) : List PyStr → Except PyExc (Option F)
  | [] => .ok none
  | key :: rest => do
    match ← num (d.get key) with
    | some value => .ok (some value)
    | none => firstNum d rest

/-- The entries with a number, as floats. -/
def numericPairs : Dict → Except PyExc (List (PyStr × F))
  | [] => .ok []
  | (key, value) :: rest => do
    let converted ← num value
    let pairs ← numericPairs rest
    match converted with
    | some n => .ok ((key, n) :: pairs)
    | none => .ok pairs

variable [PyRuntime]

/-- The 3-sigma judgement on a value after the trigger, against mean and deviation of
the values before it. -/
def isDeviant (mu sigma value : F) : Bool :=
  PyFloat.lt (PyFloat.mul (PyFloat.ofLit (wholeLit 3)) sigma) (PyFloat.abs (PyFloat.sub value mu)) ||
    (PyFloat.eq sigma (PyFloat.ofLit (wholeLit 0)) && !PyFloat.eq value mu)

/-- `pstdev(base) if len(base) > 1 else 0.0` -/
def deviation (base : List F) : Except PyExc F :=
  if base.length > 1 then PyFloat.pstdev base else .ok (PyFloat.ofLit (wholeLit 0))

/-- The pairs of a line that gives none as JSON: the exposition form, or else
`key=value` texts. -/
def textPairs (raw : PyStr) : Except PyExc (List (PyStr × F)) :=
  match reMatch promRe (strip raw) with
  | some found => do return [(groupText found 1, ← floatText (groupText found 2))]
  | none => (reFindall pairRe raw).mapM fun pair => do return (pair.1, ← floatText pair.2)

/-- The value that the parsers take a raw line for: `json.loads` without a
`JSONDecodeError`. -/
def jsonOrNone (raw : PyStr) : Except PyExc (Option Json) :=
  match loads raw with
  | .ok value => .ok (some value)
  | .error .jsonDecodeError => .ok none
  | .error other => .error other

/-- `metric_pairs` -/
def metricPairs (raw : PyStr) : Except PyExc (List (PyStr × F)) := do
  match ← jsonOrNone raw with
  | some (.dict d) =>
    let name := firstName d metricNameKeys
    let value ← firstNum d metricValueKeys
    match name, value with
    | some name, some value => return [(name, value)]
    | _, _ =>
      let pairs ← numericPairs d
      if pairs ≠ [] then return pairs else textPairs raw
  | _ => textPairs raw

/-! ## Traces -/

/-- The milliseconds of a unit of duration. -/
def durationUnit (unit : PyStr) : Option FloatLit :=
  if unit = py "us" ∨ unit = py "µs" then some (.decimal false 1 (-3))
  else if unit = py "ms" then some (wholeLit 1)
  else if unit = py "s" then some (wholeLit 1000)
  else none

/-- The duration in a text, in milliseconds; a unit outside the table raises `KeyError`. -/
def textDuration (raw : PyStr) : Except PyExc (Option F) :=
  match reSearch durationRe raw with
  | none => .ok none
  | some found => do
    let value ← floatText (groupText found 1)
    match durationUnit (lowerText (groupText found 2)) with
    | some scale => return some (PyFloat.mul value (PyFloat.ofLit scale))
    | none => .error .keyError

/-- The duration of a JSON span, in milliseconds. -/
def spanDuration (d : Dict) : Except PyExc (Option F) :=
  if d.get (py "duration_us") ≠ .null then do
    return some (PyFloat.div (← floatValue (d.get (py "duration_us"))) (PyFloat.ofLit (wholeLit 1000)))
  else if d.get (py "duration_ms") ≠ .null then (floatValue (d.get (py "duration_ms"))).map some
  else if d.get (py "duration") ≠ .null then (floatValue (d.get (py "duration"))).map some
  else .ok none

/-- What `span_fields` reads off a span. -/
structure SpanFields (F : Type) where
  operation : PyStr
  durationMs : Option F
  isErr : Bool

/-- `TRACE_ERR_RE.search(text)` finds an error. -/
def showsError (text : PyStr) : Bool := (reSearch traceErrRe text).isSome

/-- The operation of a JSON span: the first truthy of its names. -/
def spanOperation (F : Type) [PyFloat F] (d : Dict) : Json :=
  orElse F (d.get (py "operation")) (orElse F (d.get (py "operationName"))
    (orElse F (d.get (py "name")) (orElse F (d.get (py "to")) (.str (py "?")))))

/-- The status of a JSON span. -/
def spanStatus (F : Type) [PyFloat F] (d : Dict) : Json :=
  orElse F (d.get (py "status")) (orElse F (d.get (py "http_status_code")) (.str []))

/-- `span_fields` -/
def spanFields (raw : PyStr) : Except PyExc (SpanFields F) := do
  match ← jsonOrNone raw with
  | some (.dict d) =>
    let durationMs ← spanDuration d
    return { operation := pyStr F (spanOperation F d), durationMs,
             isErr := showsError (pyStr F (spanStatus F d)) }
  | _ =>
    let durationMs ← textDuration raw
    return { operation := py "?", durationMs, isErr := showsError raw }

end RcaBackend
