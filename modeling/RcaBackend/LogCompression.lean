import RcaBackend.Contracts
import RcaBackend.KeyedFold
import RcaBackend.SignalParsers
import RcaBackend.Timestamps
import Mathlib.Data.List.Lex
import Mathlib.Data.Prod.Lex

/-!
# Compression of the log lines

`compress_logs` feeds the lines of each service to a miner of that service, counts them
by service, level and cluster, before and after the trigger, and writes one row per
group. Rows are ordered by how much the count after the trigger exceeds what the lines
before it and the profile of normal operation would explain. A block in front of the rows
points out lines near the trigger and groups that tell of a restart.

An absent trigger time, or an empty one, is the empty text here.
-/

namespace RcaBackend

open KeyedFold SignalPatterns

section Texts

variable [PyRuntime]

/-- `short_ts` -/
def shortTs (ts : PyStr) : PyStr :=
  match reSearch clockRe ts with
  | some found => groupText found 1
  | none => ts

end Texts

/-- `service or "?"` -/
def serviceOr (service : PyStr) : PyStr := if service = [] then py "?" else service

/-- `"\n".join(lines)` -/
def joinLines (lines : List PyStr) : PyStr := [10].intercalate lines

/-- `"\t".join(cells)` -/
def row (cells : List PyStr) : PyStr := [9].intercalate cells

/-- `_EMPTY` -/
def emptyText : PyStr := py "(없음)"

/-! ## Reading the lines -/

/-- A line with what is read off it. -/
structure LogRecord where
  service : PyStr
  level : PyStr
  clusterId : Nat
  template : PyStr
  ts : PyStr
  tsDt : Option DateTime
  isBase : Bool
  raw : PyStr
deriving DecidableEq

/-- `miners`: the messages that the miner of each service has been fed. -/
abbrev Miners := PyStr → List PyStr

/-- `miners.setdefault(service, make_miner()).add_log_message(raw)`, as the messages that
this miner has been fed afterwards. -/
def Miners.fed (miners : Miners) (item : ModalityItem) : List PyStr :=
  miners item.service ++ [item.raw]

def Miners.add (miners : Miners) (item : ModalityItem) : Miners :=
  Function.update miners item.service (miners.fed item)

section Lines

variable [PyRuntime] [Drain]

/-- A line, whose message is the last of those that its miner has been fed. -/
def logRecord (trigger : Option DateTime) (fed : List PyStr) (item : ModalityItem) :
    Except PyExc LogRecord := do
  let tsDt := parseTs item.timestamp.text
  let isBase ← beforeTrigger trigger tsDt
  return { service := item.service, level := levelOf item.raw, clusterId := Drain.clusterId fed,
           template := Drain.templateMined fed, ts := item.timestamp.text, tsDt, isBase,
           raw := item.raw }

/-- The loop over the lines. -/
def readLines (trigger : Option DateTime) : Miners → List ModalityItem → Except PyExc (List LogRecord)
  | _, [] => .ok []
  | miners, item :: rest => do
    let line ← logRecord trigger (miners.fed item) item
    let lines ← readLines trigger (miners.add item) rest
    return line :: lines

end Lines

/-! ## Groups -/

/-- The lines of one service, level and cluster. -/
structure LogGroup where
  count : Nat
  base : Nat
  incid : Nat
  first : PyStr
  last : PyStr
  sample : PyStr
  template : PyStr
deriving DecidableEq

/-- Service, level and cluster. -/
abbrev LogKey := PyStr × PyStr × Nat

def LogRecord.key (line : LogRecord) : LogKey := (line.service, line.level, line.clusterId)

/-- A line is added to its group. -/
def addLine (old : Option LogGroup) (line : LogRecord) : LogGroup :=
  match old with
  | none =>
    { count := 1, base := if line.isBase then 1 else 0, incid := if line.isBase then 0 else 1,
      first := line.ts, last := line.ts, sample := line.raw, template := line.template }
  | some group =>
    { group with
      count := group.count + 1
      base := group.base + if line.isBase then 1 else 0
      incid := group.incid + if line.isBase then 0 else 1
      last := line.ts }

def logGroups (lines : List LogRecord) : List (LogKey × LogGroup) :=
  keyedFold LogRecord.key addLine lines

/-- The group of some lines, the first of them apart. -/
def groupOf (first : LogRecord) (rest : List LogRecord) : LogGroup :=
  { count := rest.length + 1
    base := (first :: rest).countP LogRecord.isBase
    incid := (first :: rest).countP fun line => !line.isBase
    first := first.ts
    last := (rest.getLast?.map LogRecord.ts).getD first.ts
    sample := first.raw
    template := first.template }

theorem addLine_fold (first : LogRecord) (before after : List LogRecord) :
    after.foldl (fun old line => some (addLine old line)) (some (groupOf first before)) =
      some (groupOf first (before ++ after)) := by
  induction after generalizing before with
  | nil => simp
  | cons line rest inductionHypothesis =>
    have added : addLine (some (groupOf first before)) line = groupOf first (before ++ [line]) := by
      cases judged : line.isBase <;>
        simp [addLine, groupOf, judged, List.countP_cons, List.countP_append, Nat.add_right_comm]
    rw [List.foldl_cons, added, inductionHypothesis, List.append_assoc, List.singleton_append]

/-- The groups are those of the lines of each key. -/
theorem mem_logGroups {lines : List LogRecord} {key : LogKey} {group : LogGroup} :
    (key, group) ∈ logGroups lines ↔
      ∃ first rest, (lines.filter fun line => line.key = key) = first :: rest ∧
        groupOf first rest = group := by
  rw [logGroups, mem_keyedFold]
  cases lines.filter fun line => line.key = key with
  | nil => simp
  | cons first rest =>
    have started : addLine none first = groupOf first [] := by
      cases judged : first.isBase <;> simp [addLine, groupOf, judged]
    rw [List.foldl_cons, started, addLine_fold, List.nil_append]
    constructor
    · intro same
      exact ⟨first, rest, rfl, Option.some.inj same⟩
    · rintro ⟨other, others, listed, same⟩
      obtain ⟨rfl, rfl⟩ := List.cons.inj listed
      rw [same]

/-- Service, level and template, with the number of their lines in normal operation. -/
abbrev BaselineProfile := List ((PyStr × PyStr × PyStr) × Nat)

/-- `g["baseline"]` -/
def baselineCount (profile : BaselineProfile) (key : LogKey) (group : LogGroup) : Option Nat :=
  if profile = [] then none else profile.lookup (key.1, key.2.1, group.template)

/-- A group with what orders its row. -/
structure RankedGroup (F : Type) where
  key : LogKey
  group : LogGroup
  baseline : Option Nat
  surprise : F

section Ranking

variable {F : Type} [PyFloat F]

/-- `surprise = incid / (base + (baseline_count or 0) + 1)` -/
def rankGroup (profile : BaselineProfile) (entry : LogKey × LogGroup) : RankedGroup F :=
  let baseline := baselineCount profile entry.1 entry.2
  { key := entry.1, group := entry.2, baseline,
    surprise := PyFloat.ratio entry.2.incid (entry.2.base + baseline.getD 0 + 1) }

/-- The later parts of `sort_key`. -/
def levelCountKey (ranked : RankedGroup F) : Nat ×ₗ Int :=
  toLex (levelOrder ranked.key.2.1, -(ranked.group.count : Int))

/-- The order of `sort_key`, with a trigger. -/
def moreSurprising (left right : RankedGroup F) : Bool :=
  if PyFloat.eq (PyFloat.neg left.surprise) (PyFloat.neg right.surprise) then
    decide (levelCountKey left < levelCountKey right)
  else PyFloat.lt (PyFloat.neg left.surprise) (PyFloat.neg right.surprise)

/-- `sorted(groups.items(), key=sort_key)` -/
def sortGroups [PyRuntime] (trigger : Option DateTime) (groups : List (RankedGroup F)) :
    List (RankedGroup F) :=
  match trigger with
  | none => sortBy levelCountKey groups
  | some _ => PyRuntime.sort moreSurprising groups

end Ranking

/-! ## Rows -/

section Rows

variable {F : Type} [PyRuntime]

/-- The times of a group. -/
def groupSpan (group : LogGroup) : PyStr :=
  if group.count = 1 then shortTs group.first
  else shortTs group.first ++ py "~" ++ shortTs group.last

/-- The counts of a group. -/
def countTag (hasProfile : Bool) (ranked : RankedGroup F) : PyStr :=
  py "base=" ++ natText ranked.group.base ++ py " incid=" ++ natText ranked.group.incid ++
    if hasProfile then py " baseline=" ++ natText (ranked.baseline.getD 0) else []

/-- The row of a group. -/
def groupRow (hasProfile : Bool) (ranked : RankedGroup F) : PyStr :=
  row [serviceOr ranked.key.1, ranked.key.2.1,
    py "×" ++ natText ranked.group.count ++ py "(" ++ countTag hasProfile ranked ++ py ")",
    groupSpan ranked.group, ranked.group.sample]

/-! ## The highlights -/

/-- `_TRIGGER_WINDOW_S`, in microseconds. -/
def triggerWindow : Nat := 3000000

/-- `_HIGHLIGHT_CAP` -/
def highlightCap : Nat := 8

/-- A group that tells of a start or a stop. -/
def isLifecycle (group : LogGroup) : Bool :=
  (reSearch lifecycleRe group.template).isSome || (reSearch lifecycleRe group.sample).isSome

/-- The block on starts and stops. -/
def lifecycleBlock (hasProfile : Bool) (groups : List (RankedGroup F)) : Option PyStr :=
  let life := groups.filter fun ranked => isLifecycle ranked.group
  if life = [] then none
  else
    let ordered := sortBy (fun ranked =>
      toLex (-(ranked.group.incid : Int), -(ranked.group.count : Int))) life
    some (joinLines (py "## 진원 후보 — 서비스 lifecycle(시작/재시작/종료) 로그" ::
      (ordered.take highlightCap).map (groupRow hasProfile)))

/-- The line is in the window around the trigger. -/
def nearTrigger (trigger : DateTime) (line : LogRecord) : Except PyExc Bool :=
  match line.tsDt with
  | none => .ok false
  | some dt => (dt.sub trigger).map fun distance => distance.natAbs ≤ triggerWindow

/-- The lines near the trigger, one of each service and cluster, errors first. -/
def nearLines (trigger : DateTime) (lines : List LogRecord) : Except PyExc (List LogRecord) := do
  let judged ← lines.mapM fun line => do return (line, ← nearTrigger trigger line)
  let near := (judged.filter Prod.snd).map Prod.fst
  let seen := keyedFold (fun line => (line.service, line.clusterId))
    (fun old line => old.getD line) near
  return sortBy (fun line => toLex (levelOrder line.level, line.ts)) (seen.map Prod.snd)

/-- The lines of the block on the trigger, if a log triggered. -/
def triggerLines (trigger : DateTime) (triggeredBy : List PyStr) (lines : List LogRecord) :
    Except PyExc (List LogRecord) :=
  if py "log" ∈ triggeredBy then nearLines trigger lines else .ok []

/-- The block on the lines near the trigger. -/
def triggerBlock (triggeredBy : List PyStr) (near : List LogRecord) : Option PyStr :=
  if near = [] then none
  else some (joinLines ((py "## 진원 후보 — 트리거 시각(±3s) 로그 [트리거: " ++
      (py ", ").intercalate triggeredBy ++ py "]") ::
    (near.take highlightCap).map fun line =>
      row [serviceOr line.service, line.level, shortTs line.ts, line.raw]))

/-- `_build_highlight` -/
def buildHighlight (groups : List (RankedGroup F)) (lines : List LogRecord)
    (trigger : Option DateTime) (triggeredBy : List PyStr) (hasProfile : Bool) :
    Except PyExc PyStr :=
  match trigger with
  | none => .ok []
  | some trigger => do
    let near ← triggerLines trigger triggeredBy lines
    let parts := (lifecycleBlock hasProfile groups).toList ++ (triggerBlock triggeredBy near).toList
    return if parts = [] then []
      else py "# ▼ 진원 후보 하이라이트 (surprise 정렬과 무관하게 부각 — 최우선 검토)\n" ++
        joinLines parts

end Rows

/-! ## The whole -/

section Whole

variable [PyRuntime] [Drain]

/-- The lines, and their groups. -/
def analyzeLogs (items : List ModalityItem) (triggerTime : PyStr) :
    Except PyExc (List LogRecord × List (LogKey × LogGroup)) := do
  let lines ← readLines (triggerDt triggerTime) (fun _ => []) items
  return (lines, logGroups lines)

/-- The line above the rows. -/
def logHeader (items groups : Nat) (triggered hasProfile : Bool) : PyStr :=
  py "# 로그 패턴 dedup (" ++ natText items ++ py "건 → " ++ natText groups ++ py "패턴, " ++
    (if triggered then py "평소와 다른 정도순 정렬" else py "레벨·횟수순 정렬") ++
    py ") — 서비스<TAB>레벨<TAB>횟수(base=트리거이전/incid=이후" ++
    (if hasProfile then py "/baseline=정상운영 발생횟수" else []) ++
    py ")<TAB>최초~최후<TAB>샘플 원문"

/-- `compress_logs` -/
def compressLogs (F : Type) [PyFloat F] (profile : BaselineProfile) (items : List ModalityItem)
    (triggerTime : PyStr) (triggeredBy : List PyStr) : Except PyExc PyStr :=
  if items = [] then .ok emptyText
  else do
    let trigger := triggerDt triggerTime
    let hasProfile := profile ≠ []
    let (lines, groups) ← analyzeLogs items triggerTime
    let ranked : List (RankedGroup F) := groups.map (rankGroup profile)
    let body := joinLines (logHeader items.length groups.length trigger.isSome hasProfile ::
      (sortGroups trigger ranked).map (groupRow hasProfile))
    let highlight ← buildHighlight ranked lines trigger triggeredBy hasProfile
    return if highlight = [] then body else highlight ++ py "\n\n" ++ body

end Whole

end RcaBackend
