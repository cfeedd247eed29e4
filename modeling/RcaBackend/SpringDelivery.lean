import RcaBackend.JobInvariants

/-!
# What Spring holds when a job is DONE

Spring stores the first report posted under a `triggerTime` and answers 409 to the
others, which `_post` counts as success. So DONE means that the job itself has
posted a DONE report under the key of its bundle, and that Spring stores the first
report that anyone posted under it: the job's own if nobody posted before.
-/

namespace RcaBackend

open World

/-! ## The bundle on its way -/

namespace Worker

/-- The job that a worker is inside `_process` for, with the bundle it would send. -/
def carried : Worker → Option (JobId × IngestBundle)
  | .restoring job row | .committingMissing job row _ => some (job, row.bundle)
  | .committingRunning job _ bundle | .analysing job _ bundle _
  | .committingDelivering job _ bundle _ | .committingDone job _ bundle
  | .committingFailed job _ bundle _ | .delivering job _ bundle => some (job, bundle)
  | _ => none

/-- The job whose `save_result` has returned. -/
def delivered : Worker → Option JobId
  | .marking job _ .done | .committingMark job _ _ .done => some job
  | _ => none

end Worker

namespace Reconciler

/-- The jobs that the reconciler will send, with the bundles of their rows. -/
def carried : Reconciler → List (JobId × IngestBundle)
  | .sleeping => []
  | .posting job _ bundle rest => (job, bundle) :: rest.map fun entry => (entry.1, entry.2.1.bundle)
  | .redelivering rest | .marking _ _ _ rest | .committingMark _ _ _ _ rest
  | .discarding _ _ rest => rest.map fun entry => (entry.1, entry.2.1.bundle)

/-- The job whose `save_result` has returned. -/
def delivered : Reconciler → Option JobId
  | .marking job _ .done _ | .committingMark job _ _ .done _ => some job
  | _ => none

end Reconciler

namespace World

/-- The bundle goes out under the key of the job's row, if the row still exists. -/
def Carries (s : World) (entry : JobId × IngestBundle) : Prop :=
  entry.1 < s.nextJob ∧
    ∀ row, s.jobs entry.1 = some row → entry.2.triggerKey = row.bundle.triggerKey

/-- The job has posted a DONE report under the key of its row. -/
def Reported (s : World) (job : JobId) : Prop :=
  job < s.nextJob ∧ ∀ row, s.jobs job = some row →
    ∃ key, row.bundle.triggerKey = .ok key ∧ (key, ⟨job, .done⟩) ∈ s.posted

end World

/-- Every delivery on its way is the job's own, and Spring's store follows the
posts. -/
structure Accurate (s : World) : Prop where
  recorded : FirstWriteStore.Records s.reports s.posted
  workers : ∀ worker ∈ s.workers, ∀ entry, worker.carried = some entry → s.Carries entry
  reconciler : ∀ entry ∈ s.reconciler.carried, s.Carries entry
  worked : ∀ worker ∈ s.workers, ∀ job, worker.delivered = some job → s.Reported job
  reconciled : ∀ job, s.reconciler.delivered = some job → s.Reported job

section Steps

variable {cfg : Settings} {s s' : World} {action : Action} {job : JobId}

theorem restored_key {row : IngestJob} {bundle : IngestBundle}
    (usable : s.restored row = some bundle) : bundle.triggerKey = row.bundle.triggerKey := by
  unfold restored at usable
  split at usable
  · cases usable
    rfl
  · obtain ⟨file, -, rest⟩ := Option.bind_eq_some_iff.mp usable
    obtain ⟨content, -, same⟩ := Option.bind_eq_some_iff.mp rest
    cases same
    rfl

theorem carries_step (taken : Step cfg s action s') {entry : JobId × IngestBundle}
    (carries : s.Carries entry) : s'.Carries entry := by
  refine ⟨Nat.lt_of_lt_of_le carries.1 (nextJob_mono taken), fun row' now => ?_⟩
  obtain ⟨row, present, same, -⟩ := columns_step taken carries.1 now
  rw [same]
  exact carries.2 row present

/-- The history of posts only grows. -/
theorem posted_step (taken : Step cfg s action s') :
    (s'.reports = s.reports ∧ s'.posted = s.posted) ∨
      ∃ key report, s'.reports = FirstWriteStore.put s.reports key report ∧
        s'.posted = (key, report) :: s.posted := by
  have sent {bundle : IngestBundle} {report : Report} {outcome : Outcome} {after : World}
      {delivery : Delivery}
      (answered : s.deliver bundle report outcome = some (after, delivery)) :
      (after.reports = s.reports ∧ after.posted = s.posted) ∨
        ∃ key report, after.reports = FirstWriteStore.put s.reports key report ∧
          after.posted = (key, report) :: s.posted := by
    rcases deliver_posts answered with rfl | ⟨key, -, rfl⟩
    · exact Or.inl ⟨rfl, rfl⟩
    · exact Or.inr ⟨key, report, rfl, rfl⟩
  cases taken with
  | crash => exact Or.inl ⟨rfl, rfl⟩
  | tick => exact Or.inl ⟨rfl, rfl⟩
  | receive booted => exact Or.inl ⟨rfl, rfl⟩
  | worker found moved =>
    cases moved with
    | delivered | unanswered => exact Or.inr ⟨_, _, rfl, rfl⟩
    | notify answered =>
      have posted := sent answered
      exact posted
    | _ => exact Or.inl ⟨rfl, rfl⟩
  | request found moved =>
    cases moved with
    | _ => exact Or.inl ⟨rfl, rfl⟩
  | reaper moved =>
    generalize s.reaper = old at moved
    cases moved with
    | notify answered =>
      have posted := sent answered
      exact posted
    | _ => exact Or.inl ⟨rfl, rfl⟩
  | reconciler moved =>
    generalize s.reconciler = old at moved
    cases moved with
    | delivered | unanswered => exact Or.inr ⟨_, _, rfl, rfl⟩
    | _ => exact Or.inl ⟨rfl, rfl⟩
  | cleaner moved =>
    generalize s.cleaner = old at moved
    cases moved with
    | _ => exact Or.inl ⟨rfl, rfl⟩

theorem posted_grows (taken : Step cfg s action s') {entry : PyStr × Report}
    (member : entry ∈ s.posted) : entry ∈ s'.posted := by
  rcases posted_step taken with ⟨-, same⟩ | ⟨key, report, -, grown⟩
  · exact same ▸ member
  · rw [grown]
    exact List.mem_cons_of_mem _ member

theorem reported_step (taken : Step cfg s action s') (reported : s.Reported job) :
    s'.Reported job := by
  refine ⟨Nat.lt_of_lt_of_le reported.1 (nextJob_mono taken), fun row' now => ?_⟩
  obtain ⟨row, present, same, -⟩ := columns_step taken reported.1 now
  obtain ⟨key, keyed, posted⟩ := reported.2 row present
  exact ⟨key, same ▸ keyed, posted_grows taken posted⟩

/-- What a worker carries it carried before, up to the restored arrays, or is the
bundle of the row it has just read. -/
theorem World.WorkerStep.carried {outcome : Outcome} {old new : Worker} {after : World}
    {bundle : IngestBundle} (moved : s.WorkerStep old outcome after new)
    (carried : new.carried = some (job, bundle)) :
    (∃ before, old.carried = some (job, before) ∧ bundle.triggerKey = before.triggerKey) ∨
      ∃ row, s.jobs job = some row ∧ bundle = row.bundle := by
  cases moved with
  | load present =>
    cases carried
    exact Or.inr ⟨_, present, rfl⟩
  | restore usable =>
    cases carried
    exact Or.inl ⟨_, rfl, restored_key usable⟩
  | lack | start | restart | exhaust | conclude | nothing | store | unstored | unfinished =>
    exact Or.inl ⟨bundle, carried, rfl⟩
  | _ => cases carried

/-- A worker's `save_result` has returned before, or has just posted the report. -/
theorem World.WorkerStep.reported {outcome : Outcome} {old new : Worker} {after : World}
    (moved : s.WorkerStep old outcome after new) (delivered : new.delivered = some job) :
    old.delivered = some job ∨ ∃ bundle key, old.carried = some (job, bundle) ∧
      bundle.triggerKey = .ok key ∧ (key, ⟨job, .done⟩) ∈ after.posted := by
  cases moved with
  | delivered keyed =>
    cases delivered
    exact Or.inr ⟨_, _, rfl, keyed, List.mem_cons_self⟩
  | @observe _ _ verdict =>
    cases verdict with
    | done => exact Or.inl delivered
    | failed => cases delivered
  | _ => cases delivered

theorem World.ReconcilerStep.carried {outcome : Outcome} {old new : Reconciler} {after : World}
    {entry : JobId × IngestBundle} (moved : s.ReconcilerStep old outcome after new)
    (carried : entry ∈ new.carried) :
    (∃ before, (entry.1, before) ∈ old.carried ∧ entry.2.triggerKey = before.triggerKey) ∨
      ∃ row, s.jobs entry.1 = some row ∧ entry.2 = row.bundle ∧ entry.1 < s.nextJob := by
  cases moved with
  | select =>
    obtain ⟨selected, member, rfl⟩ := List.mem_map.mp carried
    obtain ⟨present, below⟩ := JobTable.mem_select (List.mem_filter.mp member).1
    exact Or.inr ⟨_, present, rfl, below⟩
  | skip | unanswered | unavailable =>
    exact Or.inl ⟨entry.2, List.mem_cons_of_mem _ carried, rfl⟩
  | @restore own row rest bundle _ _ _ usable =>
    rcases List.mem_cons.mp carried with rfl | later
    · refine Or.inl ⟨row.1.bundle, List.mem_cons_self, ?_⟩
      rcases usable with restored | rfl
      · exact restored_key restored
      · rfl
    · exact Or.inl ⟨entry.2, List.mem_cons_of_mem _ later, rfl⟩
  | delivered | rejected => exact Or.inl ⟨entry.2, List.mem_cons_of_mem _ carried, rfl⟩
  | finish | unread | unmarked => cases carried
  | _ => exact Or.inl ⟨entry.2, carried, rfl⟩

theorem World.ReconcilerStep.reported {outcome : Outcome} {old new : Reconciler} {after : World}
    (moved : s.ReconcilerStep old outcome after new) (delivered : new.delivered = some job) :
    old.delivered = some job ∨ ∃ bundle key, (job, bundle) ∈ old.carried ∧
      bundle.triggerKey = .ok key ∧ (key, ⟨job, .done⟩) ∈ after.posted := by
  cases moved with
  | delivered keyed =>
    cases delivered
    exact Or.inr ⟨_, _, List.mem_cons_self, keyed, List.mem_cons_self⟩
  | @observe _ _ verdict =>
    cases verdict with
    | done => exact Or.inl delivered
    | failed => cases delivered
  | _ => cases delivered

theorem accurate_step (taken : Step cfg s action s') (sound : Sound s) (accurate : Accurate s) :
    Accurate s' := by
  obtain ⟨recorded, workers, reconciler, worked, reconciled⟩ := accurate
  -- a carried bundle keeps its key, and a bundle just read is the row's own
  have carries {entry : JobId × IngestBundle} {before : IngestBundle}
      (earlier : s.Carries (entry.1, before)) (same : entry.2.triggerKey = before.triggerKey) :
      s.Carries entry :=
    ⟨earlier.1, fun row present => same.trans (earlier.2 row present)⟩
  have read {entry : JobId × IngestBundle} {row : IngestJob}
      (present : s.jobs entry.1 = some row) (own : entry.2 = row.bundle) : s.Carries entry :=
    ⟨sound.inserted present, fun other same => by
      rw [present] at same
      cases same
      rw [own]⟩
  refine ⟨?_, fun worker member entry carried => ?_, fun entry member => ?_,
    fun worker member job delivered => ?_, fun job delivered => ?_⟩
  · rcases posted_step taken with ⟨same, history⟩ | ⟨key, report, put, history⟩
    · rw [same, history]
      exact recorded
    · rw [put, history]
      exact recorded.put key report
  · refine carries_step taken ?_
    rcases workers_step taken member with kept | rfl | ⟨_, _, old, _, -, found, moved, -⟩
    · exact workers worker kept entry carried
    · cases carried
    · rcases moved.carried carried with ⟨before, earlier, same⟩ | ⟨row, present, own⟩
      · exact carries (workers old (List.mem_of_getElem? found) _ earlier) same
      · exact read present own
  · refine carries_step taken ?_
    rcases reconciler_step taken with same | rfl | ⟨outcome, after, rfl, form, moved⟩
    · exact reconciler entry (same ▸ member)
    · cases member
    · rcases moved.carried member with ⟨before, earlier, same⟩ | ⟨row, present, own, -⟩
      · exact carries (reconciler _ earlier) same
      · exact read present own
  · rcases workers_step taken member with kept | rfl | ⟨_, _, old, _, -, found, moved, form⟩
    · exact reported_step taken (worked worker kept job delivered)
    · cases delivered
    · have present := List.mem_of_getElem? found
      rcases moved.reported delivered with before | ⟨bundle, key, earlier, keyed, posted⟩
      · exact reported_step taken (worked old present job before)
      · have sent := carries_step taken (workers old present _ earlier)
        refine ⟨sent.1, fun row now => ⟨key, (sent.2 row now).symm.trans keyed, ?_⟩⟩
        rw [form]
        exact posted
  · rcases reconciler_step taken with same | rfl | ⟨outcome, after, rfl, form, moved⟩
    · exact reported_step taken (reconciled job (same ▸ delivered))
    · cases delivered
    · rcases moved.reported delivered with before | ⟨bundle, key, earlier, keyed, posted⟩
      · exact reported_step taken (reconciled job before)
      · have sent := carries_step taken (reconciler _ earlier)
        refine ⟨sent.1, fun row now => ⟨key, (sent.2 row now).symm.trans keyed, ?_⟩⟩
        rw [form]
        exact posted

end Steps

/-! ## DONE -/

theorem reached_accurate {cfg : Settings} {allowed : World → Action → Prop} {start s : World}
    (starting : Starting start) (recorded : FirstWriteStore.Records start.reports start.posted)
    (reached : TransitionSystem.Reaches (step cfg) allowed start s) : Accurate s := by
  refine reached.invariant Accurate ⟨recorded, fun worker member entry carried => ?_,
    fun entry member => ?_, fun worker member job delivered => ?_, fun job delivered => ?_⟩ ?_
  · rw [starting.booting] at member
    obtain ⟨old, -, rfl⟩ := List.mem_map.mp member
    cases carried
  · rw [starting.booting] at member
    cases member
  · rw [starting.booting] at member
    obtain ⟨old, -, rfl⟩ := List.mem_map.mp member
    cases delivered
  · rw [starting.booting] at delivered
    cases delivered
  · intro state action next before accurate _ taken
    exact accurate_step (step_rule taken) (reached_sound starting before).2 accurate

/-- The step commits DONE for the job after `save_result` has returned. -/
def marksDone (s : World) (job : JobId) : Action → Bool
  | .worker index .returns =>
    match s.workers[index]? with
    | some (.committingMark own _ _ .done) => decide (own = job)
    | _ => false
  | .reconciler .returns =>
    match s.reconciler with
    | .committingMark own _ _ .done _ => decide (own = job)
    | _ => false
  | _ => false

/-- Such a step has a report to show, and commits the row DONE. -/
theorem marked_done {cfg : Settings} {s s' : World} {action : Action} {job : JobId}
    (accurate : Accurate s) (marks : marksDone s job action = true) (taken : Step cfg s action s') :
    s.Reported job ∧ s'.reports = s.reports ∧ s'.posted = s.posted ∧
      ∃ row, s'.jobs job = some row ∧ row.status = .done := by
  have done {row : RowIn .delivering} {jobs : JobTable}
      (committed : s.jobs.commit (.mark job row .done) = some jobs) :
      ∃ stored, jobs job = some stored ∧ stored.status = .done := by
    have changed : (Write.mark job row .done).target.status ≠
        (Write.mark job row .done).loaded.status := fun same => nomatch same.trans row.2
    obtain ⟨before, present⟩ := JobTable.commit_found committed fun same =>
      changed (congrArg (·.status) same)
    have status := JobTable.commit_status committed changed
    rw [present] at status
    exact Option.map_eq_some_iff.mp status
  cases taken with
  | @worker index outcome old new after found moved =>
    cases outcome with
    | returns =>
      simp only [marksDone, found] at marks
      split at marks
      · rename_i own path row position
        obtain rfl : old = .committingMark own path row .done := Option.some.inj position
        obtain rfl : own = job := of_decide_eq_true marks
        have reported := accurate.worked _ (List.mem_of_getElem? found) own rfl
        cases moved with
        | mark committed => exact ⟨reported, rfl, rfl, done committed⟩
      · cases marks
    | _ => cases marks
  | @reconciler outcome new after moved =>
    cases outcome with
    | returns =>
      simp only [marksDone] at marks
      split at marks
      · rename_i own path row rest position
        obtain rfl : own = job := of_decide_eq_true marks
        have reported := accurate.reconciled own (by rw [position]; rfl)
        rw [position] at moved
        cases moved with
        | mark committed => exact ⟨reported, rfl, rfl, done committed⟩
      · cases marks
    | _ => cases marks
  | _ => cases marks

/-- When DONE is committed after a delivery, the job has posted a DONE report under
the key of its bundle, and Spring stores the first report posted under that key:
the job's own, if its first such post came before any other post with that key. -/
theorem done_reported {cfg : Settings} {start s s' : World} {action : Action} {job : JobId}
    (starting : Starting start) (recorded : FirstWriteStore.Records start.reports start.posted)
    (reached : TransitionSystem.Reaches (step cfg) (fun _ _ => True) start s)
    (marks : marksDone s job action = true) (taken : step cfg s action = some s') :
    ∃ row key, s'.jobs job = some row ∧ row.status = .done ∧ row.bundle.triggerKey = .ok key ∧
      (key, ⟨job, .done⟩) ∈ s'.posted ∧
      (∃ report, s'.reports key = some report ∧
        FirstWriteStore.first s'.posted key = some report) ∧
      ∀ later earlier, s'.posted = later ++ (key, ⟨job, .done⟩) :: earlier →
        (∀ other, (key, other) ∉ earlier) → s'.reports key = some ⟨job, .done⟩ := by
  have accurate := reached_accurate starting recorded reached
  have rule := step_rule taken
  obtain ⟨reported, reports, history, row, present, done⟩ := marked_done accurate marks rule
  have still := reported_step rule reported
  obtain ⟨key, keyed, posted⟩ := still.2 row present
  have known : s'.reports key = FirstWriteStore.first s'.posted key := by
    rw [reports, history]
    exact accurate.recorded key
  refine ⟨row, key, present, done, keyed, posted, ?_, fun later earlier split unused => ?_⟩
  · obtain ⟨report, oldest⟩ := FirstWriteStore.first_of_mem posted
    exact ⟨report, known.trans oldest, oldest⟩
  · rw [known, split]
    exact FirstWriteStore.first_after unused

/-- Startup, one ingest, and its delivery up to the commit of DONE. -/
def doneRun : List Action :=
  [.reaper (.raises []), .receive (.bare .epoch), .request 0 .returns, .request 0 .returns,
    .request 0 .returns, .request 0 .returns, .worker 0 .returns, .worker 0 .returns,
    .worker 0 .returns, .worker 0 .returns, .worker 0 (.produced (.bare [])),
    .worker 0 .returns, .worker 0 .processed, .worker 0 .returns]

theorem done_reported_doneRun :
    ∃ s s', TransitionSystem.run (step ⟨1, 0⟩) (World.initial 1) doneRun = some s ∧
      step ⟨1, 0⟩ s (.worker 0 .returns) = some s' ∧
      ∃ row key, s'.jobs 1 = some row ∧ row.status = .done ∧ row.bundle.triggerKey = .ok key ∧
        (key, ⟨1, .done⟩) ∈ s'.posted ∧
        (∃ report, s'.reports key = some report ∧
          FirstWriteStore.first s'.posted key = some report) ∧
        ∀ later earlier, s'.posted = later ++ (key, ⟨1, .done⟩) :: earlier →
          (∀ other, (key, other) ∉ earlier) → s'.reports key = some ⟨1, .done⟩ := by
  obtain ⟨s, executed, passed⟩ := TransitionSystem.run_passes (step ⟨1, 0⟩) (World.initial 1)
    doneRun (fun s => marksDone s 1 (.worker 0 .returns) &&
      (step ⟨1, 0⟩ s (.worker 0 .returns)).any fun _ : World => true) (by decide)
  rw [Bool.and_eq_true, Option.any_eq_true] at passed
  obtain ⟨marks, s', taken, -⟩ := passed
  exact ⟨s, s', executed, taken, done_reported (initial_starting 1) (fun _ => rfl)
    (.of_any_run executed) marks taken⟩

/-- Two jobs with one `triggerTime`: the second is marked DONE on Spring's 409, while
Spring stores the report of the first. -/
theorem done_for_another :
    ∃ s key, TransitionSystem.run (step ⟨1, 0⟩) (World.initial 1)
        (doneRun ++ [.worker 0 .returns, .worker 0 .returns, .receive (.bare .epoch),
          .request 1 .returns, .request 1 .returns, .request 1 .returns, .request 1 .returns,
          .worker 0 .returns, .worker 0 .returns, .worker 0 .returns, .worker 0 .returns,
          .worker 0 (.produced (.bare [])), .worker 0 .returns, .worker 0 .processed,
          .worker 0 .returns, .worker 0 .returns]) = some s ∧
      s.jobs.statusOf 2 = some .done ∧ (IngestBundle.bare .epoch).triggerKey = .ok key ∧
      s.reports key = some ⟨1, .done⟩ := by
  obtain ⟨s, executed, passed⟩ := TransitionSystem.run_passes (step ⟨1, 0⟩) (World.initial 1)
    (doneRun ++ [.worker 0 .returns, .worker 0 .returns, .receive (.bare .epoch),
      .request 1 .returns, .request 1 .returns, .request 1 .returns, .request 1 .returns,
      .worker 0 .returns, .worker 0 .returns, .worker 0 .returns, .worker 0 .returns,
      .worker 0 (.produced (.bare [])), .worker 0 .returns, .worker 0 .processed,
      .worker 0 .returns, .worker 0 .returns])
    (fun s => decide (s.jobs.statusOf 2 = some .done) &&
      (IngestBundle.bare .epoch).triggerKey.toOption.any fun key =>
        decide (s.reports key = some ⟨1, .done⟩)) (by decide)
  rw [Bool.and_eq_true] at passed
  obtain ⟨done, stored⟩ := passed
  obtain ⟨key, known, stored⟩ := (Option.any_eq_true _ _).mp stored
  cases keyed : (IngestBundle.bare .epoch).triggerKey with
  | error raised =>
    rw [keyed] at known
    cases known
  | ok own =>
    rw [keyed] at known
    cases known
    exact ⟨s, key, executed, of_decide_eq_true done, rfl, of_decide_eq_true stored⟩

end RcaBackend
