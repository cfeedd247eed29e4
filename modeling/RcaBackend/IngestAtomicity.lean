import RcaBackend.JobSteps

/-!
# Ingest: both stores or neither

One request alone, from any table and storage directory whose next id and file
name are unused, with at most one of its awaits failing: every such list of answers
is that of no fault or of one of four. The except block undoes
a write or a commit that raised. It does not undo a commit that returned before
`refresh` raised, and it does not know the temporary file of a torn write.
-/

namespace RcaBackend

open World

/-- The await of `ingest_bundle` that raises, if one does. -/
inductive Fault where
  | nothing
  /-- `split_and_save`, before its temporary file has been opened -/
  | unwritten (reason : PyStr)
  /-- `split_and_save`, afterwards -/
  | torn
  | uncommitted (reason : PyStr)
  | unrefreshed (reason : PyStr)

namespace Fault

/-- What the awaits do in order, with those of the except block. -/
def outcomes : Fault → List Outcome
  | .nothing => [.returns, .returns, .returns, .returns]
  | .unwritten reason => [.raises reason, .returns, .returns]
  | .torn => [.torn, .returns, .returns]
  | .uncommitted reason => [.returns, .raises reason, .returns, .returns]
  | .unrefreshed reason => [.returns, .returns, .raises reason, .returns, .returns]

/-- The except block leaves nothing behind. -/
def compensated : Fault → Bool
  | .nothing | .unwritten _ | .uncommitted _ => true
  | .torn | .unrefreshed _ => false

end Fault

/-- The await raised. -/
def Outcome.failed : Outcome → Bool
  | .raises _ | .torn => true
  | _ => false

/-- `ingest_bundle` by itself: its awaits, one after the other. -/
def ingest (s : World) (bundle : IngestBundle) (outcomes : List Outcome) :
    Option (World × Request) :=
  TransitionSystem.run (fun position => position.1.stepRequest position.2)
    (s, .writing bundle) outcomes

/-- The id and the file name that the next request uses are new. -/
structure Unused (s : World) : Prop where
  row : s.jobs s.nextJob = none
  file : ∀ suffix, s.files ⟨s.nextFile, suffix⟩ = none

/-- The one new row is PENDING, names a new file with the three arrays of the
bundle, and is queued. -/
structure Recorded (s : World) (bundle : IngestBundle) (s' : World) (job : JobId) : Prop where
  created : s.jobs job = none
  only : ∀ other, other ≠ job → s'.jobs other = s.jobs other
  stored : ∃ row name file, s'.jobs job = some row ∧ row.status = .pending ∧
    row.signalsPath = some name ∧ s.files name = none ∧ s'.files name = some file ∧
    file.content = some bundle.signals ∧ ∀ other, other ≠ name → s'.files other = s.files other
  queued : job ∈ s'.queue

/-- What the response promises: all of it with 201, nothing with 503. -/
def AllOrNothing (s : World) (bundle : IngestBundle) (s' : World) : Request → Prop
  | .created job => Recorded s bundle s' job
  | .refused => s'.jobs = s.jobs ∧ s'.files = s.files
  | _ => False

section Ingest

variable {s s' : World} {bundle : IngestBundle} {response : Request}

/-- A run of a request is over, or takes a rule first. -/
theorem ingest_next {request : Request} {outcomes : List Outcome}
    (executed : TransitionSystem.run (fun position : World × Request =>
      position.1.stepRequest position.2) (s, request) outcomes = some (s', response)) :
    (outcomes = [] ∧ response = request) ∨
      ∃ outcome rest after next, outcomes = outcome :: rest ∧
        s.RequestStep request outcome after next ∧
        TransitionSystem.run (fun position : World × Request =>
          position.1.stepRequest position.2) (after, next) rest = some (s', response) := by
  cases outcomes with
  | nil =>
    cases executed
    exact Or.inl ⟨rfl, rfl⟩
  | cons outcome rest =>
    obtain ⟨⟨after, next⟩, taken, remaining⟩ := Option.bind_eq_some_iff.mp executed
    exact Or.inr ⟨outcome, rest, after, next, rfl, stepRequest_rule taken, remaining⟩

/-- The except block, when nothing more raises. -/
theorem except_outcomes {path : Option FileName} {outcomes : List Outcome}
    (executed : TransitionSystem.run (fun position : World × Request =>
      position.1.stepRequest position.2) (s, .rollingBack path) outcomes = some (s', response))
    (answered : response.answered = true) (calm : outcomes.countP Outcome.failed = 0) :
    outcomes = [.returns, .returns] := by
  obtain ⟨-, rfl⟩ | ⟨outcome, rest, after, next, rfl, moved, executed⟩ := ingest_next executed
  · cases answered
  cases moved with
  | stuck => simp [Outcome.failed] at calm
  | rollback =>
    obtain ⟨-, rfl⟩ | ⟨outcome, rest, after, next, rfl, moved, executed⟩ := ingest_next executed
    · cases answered
    cases moved with
    | keep => simp [Outcome.failed] at calm
    | discard =>
      obtain ⟨rfl, -⟩ | ⟨_, _, _, _, -, moved, -⟩ := ingest_next executed
      · rfl
      · cases moved

/-- After the one await that raises no other does. -/
theorem calm_after (earlier : List Outcome) {outcome : Outcome} {rest : List Outcome}
    (raised : outcome.failed = true)
    (single : (earlier ++ outcome :: rest).countP Outcome.failed ≤ 1) :
    rest.countP Outcome.failed = 0 := by
  rw [List.countP_append, List.countP_cons_of_pos raised] at single
  omega

/-- A request that raises once at most before it answers has one of the faults. -/
theorem single_fault {outcomes : List Outcome}
    (executed : ingest s bundle outcomes = some (s', response))
    (answered : response.answered = true) (single : outcomes.countP Outcome.failed ≤ 1) :
    ∃ fault : Fault, outcomes = fault.outcomes := by
  obtain ⟨-, rfl⟩ | ⟨first, rest, after, next, rfl, moved, executed⟩ := ingest_next executed
  · cases answered
  cases moved with
  | unwritten =>
    have calm := calm_after [] rfl single
    rw [except_outcomes executed answered calm]
    exact ⟨.unwritten _, rfl⟩
  | torn =>
    have calm := calm_after [] rfl single
    rw [except_outcomes executed answered calm]
    exact ⟨.torn, rfl⟩
  | write =>
    obtain ⟨-, rfl⟩ | ⟨second, rest, after, next, rfl, moved, executed⟩ := ingest_next executed
    · cases answered
    cases moved with
    | uncommitted =>
      have calm := calm_after [.returns] rfl single
      rw [except_outcomes executed answered calm]
      exact ⟨.uncommitted _, rfl⟩
    | insert =>
      obtain ⟨-, rfl⟩ | ⟨third, rest, after, next, rfl, moved, executed⟩ := ingest_next executed
      · cases answered
      cases moved with
      | unrefreshed =>
        have calm := calm_after [.returns, .returns] rfl single
        rw [except_outcomes executed answered calm]
        exact ⟨.unrefreshed _, rfl⟩
      | refresh =>
        obtain ⟨-, rfl⟩ | ⟨fourth, rest, after, next, rfl, moved, executed⟩ :=
          ingest_next executed
        · cases answered
        cases moved with
        | enqueue =>
          obtain ⟨rfl, -⟩ | ⟨_, _, _, _, -, moved, -⟩ := ingest_next executed
          · exact ⟨.nothing, rfl⟩
          · cases moved

/-- Deleting a file that has just been written restores the directory. -/
theorem discard_written {files : FileName → Option StoredFile} {name : FileName}
    {file : StoredFile} (unused : files name = none) :
    Function.update (Function.update files name (some file)) name none = files := by
  rw [Function.update_idem, ← unused]
  exact Function.update_eq_self name files

/-- Under each fault ingest answers, and is all or nothing exactly if it compensates the fault. -/
theorem fault_atomic (unused : Unused s) (bundle : IngestBundle) (fault : Fault) :
    ∃ s' response, ingest s bundle fault.outcomes = some (s', response) ∧
      response.answered = true ∧
      (AllOrNothing s bundle s' response ↔ fault.compensated = true) := by
  cases fault with
  | nothing =>
    refine ⟨_, _, rfl, rfl, iff_of_true ?_ rfl⟩
    refine ⟨unused.row, fun other different => Function.update_of_ne different _ _,
      ⟨newRow bundle ⟨s.nextFile, .json⟩, ⟨s.nextFile, .json⟩, ⟨some bundle.signals, s.clock⟩,
        Function.update_self _ _ _, rfl, rfl, unused.file .json, Function.update_self _ _ _, rfl,
        fun other different => Function.update_of_ne different _ _⟩, ?_⟩
    exact List.mem_append_right _ List.mem_cons_self
  | unwritten reason => exact ⟨_, _, rfl, rfl, iff_of_true ⟨rfl, rfl⟩ rfl⟩
  | torn =>
    refine ⟨_, _, rfl, rfl, iff_of_false ?_ Bool.false_ne_true⟩
    intro nothing
    -- the temporary file is still there
    have left := congrFun nothing.2 ⟨s.nextFile, .tmp⟩
    rw [unused.file .tmp] at left
    simp [World.discard] at left
  | uncommitted reason =>
    refine ⟨_, _, rfl, rfl, iff_of_true ⟨rfl, ?_⟩ rfl⟩
    exact discard_written (unused.file .json)
  | unrefreshed reason =>
    refine ⟨_, _, rfl, rfl, iff_of_false ?_ Bool.false_ne_true⟩
    intro nothing
    -- the row is committed
    have left := congrFun nothing.1 s.nextJob
    rw [unused.row] at left
    simp [World.discard] at left

/-- Ingest is all or nothing exactly if the failing await, if there is one, is the
commit or a write that has not opened its temporary file: under each fault, and in every
run that answers after one failure at most. -/
theorem ingest_atomic (unused : Unused s) (bundle : IngestBundle) :
    (∀ fault : Fault, ∃ s' response, ingest s bundle fault.outcomes = some (s', response) ∧
        response.answered = true ∧
        (AllOrNothing s bundle s' response ↔ fault.compensated = true)) ∧
      ∀ outcomes s' response, ingest s bundle outcomes = some (s', response) →
        response.answered = true → outcomes.countP Outcome.failed ≤ 1 →
        ∃ fault : Fault, outcomes = fault.outcomes ∧
          (AllOrNothing s bundle s' response ↔ fault.compensated = true) := by
  refine ⟨fault_atomic unused bundle, ?_⟩
  intro outcomes s' response executed answered single
  obtain ⟨fault, rfl⟩ := single_fault executed answered single
  obtain ⟨after, reply, again, -, decided⟩ := fault_atomic unused bundle fault
  obtain ⟨rfl, rfl⟩ := Prod.mk.inj (Option.some.inj (executed.symm.trans again))
  exact ⟨fault, rfl, decided⟩

end Ingest

theorem initial_unused (workers : Nat) : Unused (World.initial workers) :=
  ⟨rfl, fun _ => rfl⟩

/-- The commit raises, and the request leaves nothing behind. -/
theorem ingest_atomic_initial :
    ∃ s' response, ingest (World.initial 1) (.bare .epoch) [.returns, .raises [], .returns,
        .returns] = some (s', response) ∧
      response.answered = true ∧ AllOrNothing (World.initial 1) (.bare .epoch) s' response ∧
      ∃ fault : Fault, [Outcome.returns, .raises [], .returns, .returns] = fault.outcomes := by
  obtain ⟨each, all⟩ := ingest_atomic (initial_unused 1) (.bare .epoch)
  obtain ⟨s', response, executed, answered, decided⟩ := each (.uncommitted [])
  obtain ⟨fault, same, -⟩ := all _ s' response executed answered (by decide)
  exact ⟨s', response, executed, answered, decided.mpr rfl, fault, same⟩

/-- `refresh` raises: the response is 503, the PENDING row stays, and its file is
gone. -/
theorem refused_recorded :
    ∃ s', ingest (World.initial 1) (.bare .epoch) [.returns, .returns, .raises [], .returns,
        .returns] = some (s', .refused) ∧
      (World.initial 1).jobs 1 = none ∧ s'.jobs 1 = some (newRow (.bare .epoch) ⟨0, .json⟩) ∧
      s'.files ⟨0, .json⟩ = none ∧ ¬ AllOrNothing (World.initial 1) (.bare .epoch) s' .refused := by
  refine ⟨_, rfl, rfl, rfl, rfl, ?_⟩
  intro nothing
  have left := congrFun nothing.1 1
  cases left

end RcaBackend
