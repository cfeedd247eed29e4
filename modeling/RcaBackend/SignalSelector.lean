import RcaBackend.Columns
import RcaBackend.KeyedFold
import RcaBackend.SignalParsers
import RcaBackend.Timestamps
import RcaBackend.Contracts
import Mathlib.Data.Prod.Lex

/-!
# Selection of the signals of a payload

`select_signals` keeps at most a given number of the items of a modality: the items are
put into buckets, the buckets are ordered, and items are taken from them in turn. An
item is the dictionary of a dumped `ModalityItem`; the values it has under the three
keys that the selection reads are strings or missing.

Grades are natural numbers, the smaller the earlier. A bucket holds pairs of a grade
and a position in the list of items.
-/

namespace RcaBackend

open KeyedFold

/-- What the selection reads of an item. -/
structure Signal where
  timestamp : PyStr
  service : PyStr
  raw : PyStr
deriving DecidableEq

/-- `item.get(key) or ""` -/
def textOr (item : Dict) (key : PyStr) : PyStr :=
  match item.get key with
  | .str text => text
  | _ => []

def signalOf (item : Dict) : Signal :=
  ⟨textOr item (py "timestamp"), textOr item (py "service"), textOr item (py "raw")⟩

/-- The entries of an item that the selection reads. -/
def Signal.item (signal : Signal) : Dict :=
  [(py "timestamp", .str signal.timestamp), (py "service", .str signal.service),
    (py "raw", .str signal.raw)]

@[simp] theorem signalOf_item (signal : Signal) : signalOf signal.item = signal := by
  simp only [signalOf, textOr, Signal.item, Dict.get, Dict.lookup_cons, py_inj, String.reduceEq,
    if_true, if_false, Option.getD_some]

/-- What the selection reads of a dumped item. -/
def ModalityItem.signal (item : ModalityItem) : Signal :=
  ⟨item.timestamp.text, item.service, item.raw⟩

/-- The grades `_PRIOR` and `_NORMAL`. -/
def priorGrade : Nat := 0

def normalGrade : Nat := 1

/-- A grade and a position. -/
abbrev Entry := Nat × Nat

/-! ## Taking turns -/

/-- The state of a pass over the groups. A group is kept as what its cursor has not
passed. -/
structure Pass where
  picked : List Nat
  groups : List (List Nat)
  advanced : Bool

/-- One `for` over the groups, left as soon as the limit is reached. -/
def passOver (limit : Int) : (picked : List Nat) → List (List Nat) → Pass
  | picked, [] => ⟨picked, [], false⟩
  | picked, [] :: groups =>
    let rest := passOver limit picked groups
    ⟨rest.picked, [] :: rest.groups, rest.advanced⟩
  | picked, (position :: group) :: groups =>
    if limit ≤ (picked ++ [position]).length then
      ⟨picked ++ [position], group :: groups, true⟩
    else
      let rest := passOver limit (picked ++ [position]) groups
      ⟨rest.picked, group :: rest.groups, true⟩

/-- `while advanced and len(picked) < limit` -/
def passes (limit : Int) : Nat → Pass → List Nat
  | 0, pass => pass.picked
  | fuel + 1, pass =>
    if pass.advanced ∧ (pass.picked.length : Int) < limit then
      passes limit fuel (passOver limit pass.picked pass.groups)
    else pass.picked

/-- `_round_robin`. Every pass but the last takes an item. -/
def roundRobin (groups : List (List Nat)) (limit : Int) : List Nat :=
  passes limit (groups.flatten.length + 2) ⟨[], groups, true⟩

section Buckets

variable [PyRuntime]

/-- The key by which groups are ordered: best grade, then size, then first position. -/
def groupKey (entries : List Entry) : Nat ×ₗ Int ×ₗ Nat :=
  let first := entries.head?.getD (0, 0)
  toLex (first.1, toLex (-(entries.length : Int), first.2))

/-- `_ordered_groups`, of the buckets without their keys, none of them empty. -/
def orderedGroups (buckets : List (List Entry)) : List (List Nat) :=
  (sortBy groupKey (buckets.map (sortBy fun entry => toLex entry))).map (List.map Prod.snd)

/-! ## Grouping -/

/-- `_log_buckets` -/
def logBuckets [Drain] (items : List Signal) : List (List Entry) :=
  let graded := items.zipIdx.map fun (item, idx) =>
    (Drain.clusterId ((items.take (idx + 1)).map Signal.raw),
      ((levelOrder (levelOf item.raw), idx) : Entry))
  (collect Prod.fst Prod.snd graded).map Prod.snd

variable {F : Type} [PyFloat F]

/-- A point of a metric series. -/
structure MetricPoint (F : Type) where
  index : Nat
  series : PyStr × PyStr
  value : F
  isBase : Bool

/-- The point of an item, by its first pair; `none` where the raw line has no pair. -/
def metricPoint (trigger : Option DateTime) (item : Signal) (idx : Nat) :
    Except PyExc (Option (MetricPoint F)) := do
  match ← metricPairs item.raw with
  | [] => return none
  | (label, value) :: _ =>
    let isBase ← beforeTrigger trigger (parseTs item.timestamp)
    return some { index := idx, series := (item.service, label), value, isBase }

/-- `mean(base) if base else None` -/
def meanOrNone (base : List F) : Except PyExc (Option F) :=
  if base = [] then .ok none else (PyFloat.mean base).map some

/-- The grades of the points of one series. -/
def gradeSeries (points : List (MetricPoint F)) : Except PyExc (List Entry) := do
  let base := (points.filter MetricPoint.isBase).map MetricPoint.value
  let mu ← meanOrNone base
  let sigma ← deviation base
  return points.map fun point =>
    (if mu.any (fun mu => !point.isBase && isDeviant mu sigma point.value) then priorGrade
      else normalGrade, point.index)

/-- The key for items without a pair. -/
def unparsedKey : PyStr × PyStr := ([], py "(미파싱)")

/-- The points of the items that have one, and the positions of the others. -/
def metricPoints (items : List Signal) (triggerTime : PyStr) :
    Except PyExc (List (MetricPoint F) × List Nat) := do
  let points ← items.zipIdx.mapM fun (item, idx) => metricPoint (triggerDt triggerTime) item idx
  let unparsed := (points.zipIdx.filter fun point => point.1.isNone).map Prod.snd
  return (points.filterMap id, unparsed)

/-- `_metric_buckets`. The items without a pair take the place of a series that has
their key. -/
def metricBuckets (F : Type) [PyFloat F] (items : List Signal) (triggerTime : PyStr) :
    Except PyExc (List ((PyStr × PyStr) × List Entry)) := do
  let (points, unparsed) ← metricPoints (F := F) items triggerTime
  let buckets ← (collect MetricPoint.series id points).mapM fun (key, points) => do
    return (key, ← gradeSeries points)
  return if unparsed = [] then buckets
    else upsert unparsedKey (fun _ => unparsed.map fun idx => (normalGrade, idx)) buckets

/-- A span in its bucket: the grade, the negated duration, the position. -/
abbrev GradedSpan (F : Type) := Nat × F × Nat

/-- The order of tuples. -/
def spanLt (left right : GradedSpan F) : Bool :=
  left.1 < right.1 || left.1 = right.1 &&
    if PyFloat.eq left.2.1 right.2.1 then decide (left.2.2 < right.2.2)
    else PyFloat.lt left.2.1 right.2.1

/-- The bucket of a span, and the span as it is sorted there. -/
def gradedSpan (item : Signal) (idx : Nat) :
    Except PyExc ((PyStr × PyStr) × GradedSpan F) := do
  let fields ← spanFields item.raw
  let zero : F := PyFloat.ofLit (wholeLit 0)
  let duration := (fields.durationMs.filter fun duration => !PyFloat.eq duration zero).getD zero
  return ((item.service, fields.operation),
    (if fields.isErr then priorGrade else normalGrade, PyFloat.neg duration, idx))

/-- The spans of each service and operation, errors first and slow ones before fast ones. -/
def spanGroups (F : Type) [PyFloat F] (items : List Signal) :
    Except PyExc (List (List (GradedSpan F))) := do
  let graded ← items.zipIdx.mapM fun (item, idx) => gradedSpan (F := F) item idx
  return (collect Prod.fst Prod.snd graded).map fun bucket => PyRuntime.sort spanLt bucket.2

/-- The ranks of the spans of a bucket as their grades. -/
def rankSpans (spans : List (GradedSpan F)) : List Entry :=
  spans.zipIdx.map fun (span, rank) => (rank, span.2.2)

/-- `_trace_buckets` -/
def traceBuckets (F : Type) [PyFloat F] (items : List Signal) :
    Except PyExc (List (List Entry)) :=
  (spanGroups F items).map fun groups => groups.map rankSpans

/-- `_BUCKETERS[modality](items, trigger_time)`, without the keys. -/
def bucketsOf (F : Type) [PyFloat F] [Drain] (modality : Modality) (items : List Signal)
    (triggerTime : PyStr) : Except PyExc (List (List Entry)) :=
  match modality with
  | .log => .ok (logBuckets items)
  | .metric => (metricBuckets F items triggerTime).map fun buckets => buckets.map Prod.snd
  | .trace => traceBuckets F items

/-! ## The selection -/

/-- `Selection` -/
structure Selection where
  items : List Dict
  total : Nat
deriving DecidableEq

/-- `Selection.truncated` -/
def Selection.truncated (selection : Selection) : Bool := selection.items.length < selection.total

/-- `(_chron(items[i]["timestamp"]), i)` -/
def chronKey (items : List Signal) (i : Nat) : Int ×ₗ Nat :=
  toLex (((items[i]?).map fun item => chron item.timestamp).getD 0, i)

/-- The positions that are kept of a list longer than the cap. -/
def pickedPositions (F : Type) [PyFloat F] [Drain] (modality : Modality) (items : List Signal)
    (triggerTime : PyStr) (cap : Int) : Except PyExc (List Nat) := do
  let buckets ← bucketsOf F modality items triggerTime
  return sortBy (chronKey items) (roundRobin (orderedGroups buckets) cap)

/-- `select_signals`, with the cap that it takes from its argument or the settings. -/
def selectSignals (F : Type) [PyFloat F] [Drain] (modality : Modality) (items : List Dict)
    (triggerTime : PyStr) (cap : Int) : Except PyExc Selection :=
  if (items.length : Int) ≤ cap then .ok ⟨items, items.length⟩
  else do
    let picked ← pickedPositions F modality (items.map signalOf) triggerTime cap
    return ⟨picked.filterMap fun i => items[i]?, items.length⟩

end Buckets

end RcaBackend
