import RcaBackend.PyDatetime

/-!
# Timestamps of the bundle and their Spring form

`parse_ts` is shared by analysis and delivery, `_chron` orders items, and
`_to_spring_ts` rewrites every time field of a payload. The rewritten trigger
time is the idempotency key of a report.
-/

namespace RcaBackend

/-- `parse_ts`: `None` where `fromisoformat` raises `ValueError`. -/
def parseTs (ts : PyStr) : Option DateTime := DateTime.fromisoformat ts

/-- `_chron` as an instant in UTC microseconds; an unparsable text sorts first. -/
def chron (ts : PyStr) : Int :=
  match parseTs ts with
  | none => 0
  | some dt => dt.instant

/-- `_to_spring_ts`: a naive value is UTC, an aware one is converted. -/
def toSpringTs (ts : PyStr) : Except PyExc PyStr :=
  match parseTs ts with
  | none => .error .valueError
  | some dt => dt.toUtc.map DateTime.isoformatUtc

/-- `parse_ts(trigger_time) if trigger_time else None` -/
def triggerDt (triggerTime : PyStr) : Option DateTime :=
  if triggerTime = [] then none else parseTs triggerTime

/-- `bool(trigger_dt and dt and dt < trigger_dt)` -/
def beforeTrigger (trigger dt : Option DateTime) : Except PyExc Bool :=
  match trigger, dt with
  | some trigger, some dt => dt.lt trigger
  | _, _ => .ok false

/-- An accepted timestamp is parsed by `parse_ts`. -/
@[simp] theorem parseTs_text (ts : Iso8601) : parseTs ts.text = some ts.value :=
  ts.fromisoformat_text

theorem triggerDt_eq (triggerTime : PyStr) : triggerDt triggerTime = parseTs triggerTime := by
  rw [triggerDt]
  split
  · next empty =>
    rw [empty]
    decide
  · rfl

end RcaBackend
