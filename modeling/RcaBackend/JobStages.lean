import RcaBackend.SingleOwnership

/-!
# The statuses that each holder of a job relies on

Once startup is over and every job has one owner, a job's status follows its
holder: PENDING while a claim on it is unstarted, RUNNING while a worker analyses
it or the reaper is about to recover it, DELIVERING or later while somebody sends
its report, and terminal for good once somebody has set out to delete its file.
-/

namespace RcaBackend

open World

/-! ## Positions -/

/-- DELIVERING or later. -/
def Status.handed : Status → Bool
  | .delivering | .done | .failed => true
  | .pending | .running => false

namespace Worker

/-- The job whose report a worker is sending. -/
def handed : Worker → Option JobId
  | .delivering job _ _ | .marking job _ _ | .committingMark job _ _ _ => some job
  | _ => none

/-- The job that a worker has finished with. -/
def closed : Worker → Option JobId
  | .notifying job _ _ | .discarding job _ => some job
  | _ => none

end Worker

namespace Reconciler

/-- The jobs whose reports the reconciler is sending. -/
def handed : Reconciler → List JobId
  | .sleeping => []
  | .redelivering rest | .discarding _ _ rest => rest.map Prod.fst
  | .posting job _ _ rest | .marking job _ _ rest | .committingMark job _ _ _ rest =>
    job :: rest.map Prod.fst

/-- The job that the reconciler has finished with. -/
def closed : Reconciler → Option JobId
  | .discarding job _ _ => some job
  | _ => none

end Reconciler

/-- The jobs that the reaper has failed. -/
def Reaper.closed : Reaper → List JobId
  | .enqueuing _ failing | .notifying failing => failing.map Prod.fst
  | .posting job _ _ failing | .discarding job _ failing => job :: failing.map Prod.fst
  | _ => []

namespace World

/-- The job has been inserted, and its status is one of these as long as its row exists. -/
def Within (s : World) (allowed : Status → Bool) (job : JobId) : Prop :=
  job < s.nextJob ∧ ∀ status, s.jobs.statusOf job = some status → allowed status = true

end World

/-- Every holder finds its job at the stage that its own position tells. -/
structure Staged (s : World) : Prop where
  unstarted : ∀ job, 0 < s.unstarted job → s.jobs.statusOf job = some .pending
  running : ∀ worker ∈ s.workers, ∀ job row, worker.running = some (job, row) →
    s.jobs.statusOf job = some .running
  batch : ∀ entry ∈ s.reaper.batch, s.jobs.statusOf entry.1 = some .running
  handed : ∀ worker ∈ s.workers, ∀ job, worker.handed = some job → s.Within Status.handed job
  sent : ∀ job ∈ s.reconciler.handed, s.Within Status.handed job
  closed : ∀ worker ∈ s.workers, ∀ job, worker.closed = some job → s.Within Status.terminal job
  settled : ∀ job, s.reconciler.closed = some job → s.Within Status.terminal job
  failed : ∀ job ∈ s.reaper.closed, s.Within Status.terminal job

section Changes

variable {cfg : Settings} {s s' : World} {action : Action} {job : JobId}

@[simp] theorem Write.mark_job (job : JobId) (row : RowIn .delivering) (verdict : Verdict) :
    (Write.mark job row verdict).job = job := by
  cases verdict <;> rfl

/-- `_mark_done` and `_mark_failed` assign a terminal status to a DELIVERING row. -/
theorem Write.mark_status (job : JobId) (row : RowIn .delivering) (verdict : Verdict) :
    (Write.mark job row verdict).target.status ≠ (Write.mark job row verdict).loaded.status ∧
      (Write.mark job row verdict).target.status.terminal = true := by
  cases verdict with
  | done => exact ⟨fun same => (nomatch same.trans row.2), rfl⟩
  | failed reason => exact ⟨fun same => (nomatch same.trans row.2), rfl⟩

/-- A late write ends the analysis, or marks a row that was DELIVERING. -/
theorem Worker.late_write {worker : Worker} {w : Write} (late : worker.fresh = none)
    (writing : worker.write = some w) :
    w.target.status ≠ w.loaded.status ∧
      ((∃ row, worker.running = some (w.job, row)) ∧ w.target.status.handed = true ∨
        worker.handed = some w.job ∧ w.target.status.terminal = true) := by
  cases worker with
  | committingDelivering | committingDone | committingFailed =>
    cases writing
    exact ⟨nofun, Or.inl ⟨⟨_, rfl⟩, rfl⟩⟩
  | committingMark own path row verdict =>
    cases writing
    obtain ⟨changed, terminal⟩ := Write.mark_status own row verdict
    exact ⟨changed, Or.inr ⟨congrArg some (Write.mark_job own row verdict).symm, terminal⟩⟩
  | committingMissing | committingRunning => cases late
  | _ => cases writing

/-- The reconciler's write marks a row that was DELIVERING. -/
theorem Reconciler.mark_write {reconciler : Reconciler} {w : Write}
    (writing : reconciler.write = some w) :
    w.target.status ≠ w.loaded.status ∧ w.job ∈ reconciler.handed ∧
      w.target.status.terminal = true := by
  cases reconciler with
  | committingMark own path row verdict rest =>
    cases writing
    obtain ⟨changed, terminal⟩ := Write.mark_status own row verdict
    refine ⟨changed, ?_, terminal⟩
    rw [Write.mark_job]
    exact List.mem_cons_self
  | _ => cases writing

/-- How a step can change the status of a row that has been inserted before. -/
inductive StatusChange (s : World) (action : Action) (job : JobId) : Status → Status → Prop where
  | same {status : Status} : StatusChange s action job status status
  | taken {index : Nat} {worker : Worker} {after : Status}
      (acting : action = .worker index .returns) (found : s.workers[index]? = some worker)
      (fresh : worker.fresh = some job) (late : after = .running ∨ after = .failed) :
      StatusChange s action job .pending after
  | concluded {index : Nat} {worker : Worker} {row : IngestJob} {after : Status}
      (acting : action = .worker index .returns) (found : s.workers[index]? = some worker)
      (running : worker.running = some (job, row)) (handed : after.handed = true) :
      StatusChange s action job .running after
  | recovered {entry : JobId × RowIn .running} {after : Status} (acting : action = .reaper .returns)
      (selected : entry ∈ s.reaper.batch) (here : entry.1 = job)
      (left : after = .pending ∨ after = .failed) : StatusChange s action job .running after
  | marked {before after : Status} (handed : before.handed = true)
      (terminal : after.terminal = true) : StatusChange s action job before after

theorem statusOf_of_row (row : s'.jobs job = s.jobs job) :
    s'.jobs.statusOf job = s.jobs.statusOf job := congrArg (Option.map _) row

/-- A write has found the row, whose status it replaces if it assigns one. -/
theorem World.Applies.before {w : Write} {after : Status} (applied : s.Applies s' w job)
    (now : s'.jobs.statusOf job = some after) : ∃ before, s.jobs.statusOf job = some before := by
  obtain ⟨row', present, -⟩ := Option.map_eq_some_iff.mp now
  obtain ⟨row, found, -⟩ := applied.found present
  exact ⟨row.status, by simp [JobTable.statusOf, found]⟩

theorem Worker.fresh_pending (sound : Sound s) (staged : Staged s) {worker : Worker}
    {row : IngestJob} (member : worker ∈ s.workers) (fresh : worker.fresh = some job)
    (loaded : worker.loaded = some row) : row.status = .pending :=
  sound.current worker member job row fresh loaded
    (staged.unstarted job (unstarted_pos member fresh))

theorem status_step (taken : Step cfg s action s') (sound : Sound s) (staged : Staged s)
    (issued : job < s.nextJob) {after : Status} (now : s'.jobs.statusOf job = some after) :
    ∃ before, s.jobs.statusOf job = some before ∧ StatusChange s action job before after := by
  cases step_change taken job with
  | idle row | crashed _ row | abandoned _ _ _ row | unlisted _ _ row | requeued _ _ _ row =>
    exact ⟨after, (statusOf_of_row row).symm.trans now, .same⟩
  | vanished _ row | purged _ _ _ row => simp [JobTable.statusOf, row] at now
  | @forgone _ loaded _ acting found applied =>
    have member := List.mem_of_getElem? found
    have pending := staged.unstarted job (unstarted_pos member rfl)
    have read : loaded.status = .pending := Worker.fresh_pending sound staged member rfl rfl
    have assigned := applied.assigned (fun same => by cases same.trans read) now
    exact ⟨.pending, pending, .taken acting found rfl (Or.inr assigned)⟩
  | started acting found _ applied =>
    have pending := staged.unstarted job (unstarted_pos (List.mem_of_getElem? found) rfl)
    have assigned := applied.assigned (sound.start_changed found) now
    exact ⟨.pending, pending, .taken acting found rfl (Or.inl assigned)⟩
  | @concluded _ worker w acting found late writing applied =>
    obtain ⟨changed, kind⟩ := Worker.late_write late writing
    obtain rfl := applied.assigned changed now
    have here : w.job = job := applied.1
    rw [here] at kind
    have member := List.mem_of_getElem? found
    rcases kind with ⟨⟨row, running⟩, handed⟩ | ⟨sending, terminal⟩
    · exact ⟨.running, staged.running worker member job row running,
        .concluded acting found running handed⟩
    · obtain ⟨before, known⟩ := applied.before now
      exact ⟨before, known, .marked ((staged.handed worker member job sending).2 before known)
        terminal⟩
  | @reconciled w _ writing applied =>
    obtain ⟨changed, sending, terminal⟩ := Reconciler.mark_write writing
    obtain rfl := applied.assigned changed now
    have here : w.job = job := applied.1
    rw [here] at sending
    obtain ⟨before, known⟩ := applied.before now
    exact ⟨before, known, .marked ((staged.sent job sending).2 before known) terminal⟩
  | @recovered entry acting selected applied =>
    have here : entry.1 = job := applied.1
    have assigned := applied.assigned (recovery_changed _) now
    rw [recovery_target] at assigned
    refine ⟨.running, here ▸ staged.batch entry selected, .recovered acting selected here ?_⟩
    split at assigned
    · exact Or.inl assigned
    · exact Or.inr assigned
  | inserted _ _ next => exact absurd next (Nat.ne_of_lt issued)

/-- Only a terminal row is deleted. -/
theorem present_step (taken : Step cfg s action s') {status : Status}
    (known : s.jobs.statusOf job = some status) (unfinished : status.terminal = false) :
    ∃ after, s'.jobs.statusOf job = some after := by
  obtain ⟨row, present, rfl⟩ := Option.map_eq_some_iff.mp known
  refine Option.ne_none_iff_exists'.mp fun gone => ?_
  have missing : s'.jobs job = none := Option.map_eq_none_iff.mp gone
  cases step_jobs taken job with
  | kept same => simp [same, present] at missing
  | written _ _ value => simp [value, present] at missing
  | inserted _ value => simp [value] at missing
  | purged stored terminal =>
    rw [present] at stored
    cases stored
    rw [terminal] at unfinished
    cases unfinished

/-- A job that has been handed over stays so. -/
theorem handed_step (taken : Step cfg s action s') (sound : Sound s) (staged : Staged s)
    (handed : s.Within Status.handed job) : s'.Within Status.handed job := by
  refine ⟨Nat.lt_of_lt_of_le handed.1 (nextJob_mono taken), fun after now => ?_⟩
  obtain ⟨before, known, change⟩ := status_step taken sound staged handed.1 now
  have earlier := handed.2 before known
  cases change with
  | same => exact earlier
  | taken => cases earlier
  | concluded => cases earlier
  | recovered => cases earlier
  | marked _ terminal => cases after <;> first | rfl | cases terminal

/-- A finished job stays so. -/
theorem closed_step (taken : Step cfg s action s') (sound : Sound s) (staged : Staged s)
    (closed : s.Within Status.terminal job) : s'.Within Status.terminal job := by
  refine ⟨Nat.lt_of_lt_of_le closed.1 (nextJob_mono taken), fun after now => ?_⟩
  obtain ⟨before, known, change⟩ := status_step taken sound staged closed.1 now
  have earlier := closed.2 before known
  cases change with
  | same => exact earlier
  | taken => cases earlier
  | concluded => cases earlier
  | recovered => cases earlier
  | marked _ terminal => exact terminal

/-- No step brings a finished job back. -/
theorem unfinished_step (taken : Step cfg s action s') (sound : Sound s) (staged : Staged s)
    (issued : job < s.nextJob) {after : Status} (now : s'.jobs.statusOf job = some after)
    (unfinished : after.terminal = false) :
    ∃ before, s.jobs.statusOf job = some before ∧ before.terminal = false := by
  obtain ⟨before, known, change⟩ := status_step taken sound staged issued now
  refine ⟨before, known, ?_⟩
  cases change with
  | same => exact unfinished
  | taken => rfl
  | concluded => rfl
  | recovered => rfl
  | marked _ terminal =>
    rw [terminal] at unfinished
    cases unfinished

end Changes

/-! ## `Staged` is inductive -/

section Staged

variable {cfg : Settings} {s s' : World} {action : Action} {job : JobId}

/-- The owner of a job is one worker. -/
theorem Exclusive.index_eq (exclusive : Exclusive s) {i j : Nat} {first second : Worker}
    (here : s.workers[i]? = some first) (there : s.workers[j]? = some second)
    (held : first.held = some job) (also : second.held = some job) : i = j := by
  have once := exclusive.once job
  refine TransitionSystem.index_unique (p := fun worker => decide (worker.held = some job)) ?_
    here there (decide_eq_true held) (decide_eq_true also)
  unfold World.prospects World.claims at once
  omega

/-- A job that the reaper is about to recover has no worker. -/
theorem Exclusive.batch_free (exclusive : Exclusive s) {entry : JobId × RowIn .running}
    (selected : entry ∈ s.reaper.batch) {worker : Worker} (member : worker ∈ s.workers) :
    worker.held ≠ some entry.1 := by
  intro held
  have once := exclusive.once entry.1
  have working : 0 < s.workers.countP fun worker => decide (worker.held = some entry.1) :=
    List.countP_pos_iff.mpr ⟨worker, member, decide_eq_true held⟩
  have batched : 0 < (s.reaper.batch.map Prod.fst).count entry.1 :=
    List.count_pos_iff.mpr (List.mem_map_of_mem selected)
  unfold World.prospects World.claims at once
  omega

/-- A RUNNING row stays so while neither its worker nor the reaper acts on it. -/
theorem still_running (taken : Step cfg s action s') (sound : Sound s) (staged : Staged s)
    (issued : job < s.nextJob) (running : s.jobs.statusOf job = some .running)
    (worked : ∀ index worker, action = .worker index .returns →
      s.workers[index]? = some worker → worker.held ≠ some job)
    (reaped : ∀ entry ∈ s.reaper.batch, action = .reaper .returns → entry.1 ≠ job) :
    s'.jobs.statusOf job = some .running := by
  obtain ⟨after, now⟩ := present_step taken running rfl
  obtain ⟨before, known, change⟩ := status_step taken sound staged issued now
  rw [running] at known
  cases known
  cases change with
  | same => exact now
  | concluded acting found analysing =>
    exact absurd (Worker.held_of_running analysing) (worked _ _ acting found)
  | recovered acting selected here => exact absurd here (reaped _ selected acting)
  | marked handed => cases handed

theorem staged_unstarted (taken : Step cfg s action s') (sound : Sound s) (staged : Staged s)
    (claimed : 0 < s'.unstarted job) : s'.jobs.statusOf job = some .pending := by
  have once := sound.once job
  have kept (row : s'.jobs job = s.jobs job) (claims : s'.unstarted job = s.unstarted job) :
      s'.jobs.statusOf job = some .pending := by
    rw [statusOf_of_row row]
    exact staged.unstarted job (claims ▸ claimed)
  -- a claim on the job before the step excludes every writer but its own worker
  have early (claims : s'.unstarted job = s.unstarted job) :
      s.jobs.statusOf job = some .pending := staged.unstarted job (claims ▸ claimed)
  cases step_change taken job with
  | idle row claims => exact kept row claims
  | crashed | abandoned | vanished | forgone | started | unlisted => omega
  | concluded _ found late writing applied claims =>
    have pending := early claims
    have member := List.mem_of_getElem? found
    have here := applied.1
    obtain ⟨-, ⟨⟨row, running⟩, -⟩ | ⟨sending, -⟩⟩ := Worker.late_write late writing
    · have running := staged.running _ member _ row running
      rw [here, pending] at running
      cases running
    · have handed := (staged.handed _ member _ sending).2 .pending (here ▸ pending)
      cases handed
  | reconciled _ writing applied claims =>
    have pending := early claims
    have here := applied.1
    obtain ⟨-, sending, -⟩ := Reconciler.mark_write writing
    have handed := (staged.sent _ sending).2 .pending (here ▸ pending)
    cases handed
  | @recovered entry _ selected applied claims =>
    have here : entry.1 = job := applied.1
    have running := staged.batch entry selected
    rw [here] at running
    have rested := sound.running job running
    obtain ⟨after, now⟩ := present_step taken running rfl
    have assigned := applied.assigned (recovery_changed _) now
    rw [recovery_target] at assigned
    split at claims
    · rename_i requeued
      rw [if_pos requeued] at assigned
      rw [now, assigned]
    · omega
  | requeued _ _ pending row =>
    rw [statusOf_of_row row]
    exact pending
  | inserted _ _ _ _ row => simp [JobTable.statusOf, row, newRow]
  | purged _ present terminal _ claims =>
    have pending := early claims
    simp only [JobTable.statusOf, present, Option.map_some, Option.some.injEq] at pending
    rw [pending] at terminal
    cases terminal

/-- A worker that analyses was analysing before, or has just committed RUNNING. -/
theorem World.WorkerStep.analysed {outcome : Outcome} {old new : Worker} {after : World}
    {row : IngestJob} (moved : s.WorkerStep old outcome after new)
    (analysing : new.running = some (job, row)) :
    (old.running = some (job, row) ∧ after.jobs = s.jobs) ∨
      ∃ bundle, old = .committingRunning job row bundle ∧
        s.jobs.commit (.running job row) = some after.jobs := by
  cases moved with
  | start committed =>
    cases analysing
    exact Or.inr ⟨_, rfl, committed⟩
  | restart | exhaust | conclude | nothing | unstored | unfinished =>
    exact Or.inl ⟨analysing, rfl⟩
  | _ => cases analysing

theorem staged_running (taken : Step cfg s action s') (sound : Sound s) (exclusive : Exclusive s)
    (staged : Staged s) {worker : Worker} (member : worker ∈ s'.workers) {row : IngestJob}
    (analysing : worker.running = some (job, row)) : s'.jobs.statusOf job = some .running := by
  obtain ⟨index, found⟩ := List.mem_iff_getElem?.mp member
  rcases worker_step taken found with ⟨kept, other⟩ | rfl | ⟨outcome, old, after, rfl, here, moved, form⟩
  · have present := List.mem_of_getElem? kept
    have held := Worker.held_of_running analysing
    refine still_running taken sound staged (exclusive.issued worker present job held)
      (staged.running worker present job row analysing) ?_ ?_
    · intro acting own acted there also
      obtain rfl := exclusive.index_eq kept there held also
      exact other _ acted
    · rintro entry selected - rfl
      exact exclusive.batch_free selected present held
  · cases analysing
  · have present := List.mem_of_getElem? here
    rcases moved.analysed analysing with ⟨before, same⟩ | ⟨bundle, rfl, committed⟩
    · have running := staged.running old present job row before
      rw [form]
      exact (congrArg (fun jobs => JobTable.statusOf jobs job) same).trans running
    · have pending := staged.unstarted job (unstarted_pos present rfl)
      obtain ⟨stored, known, -⟩ := Option.map_eq_some_iff.mp pending
      have status := JobTable.commit_status committed (sound.start_changed here)
      rw [form]
      refine status.trans ?_
      simp only [Write.running] at known ⊢
      rw [known]
      rfl

theorem staged_batch (taken : Step cfg s action s') (sound : Sound s) (exclusive : Exclusive s)
    (staged : Staged s) {entry : JobId × RowIn .running} (member : entry ∈ s'.reaper.batch) :
    s'.jobs.statusOf entry.1 = some .running := by
  rcases batch_step taken member with ⟨kept, other⟩ | ⟨present, below, origin⟩
  · refine still_running taken sound staged (sound.batch entry kept).1 (staged.batch entry kept)
      ?_ ?_
    · rintro index worker - found held
      exact exclusive.batch_free kept (List.mem_of_getElem? found) held
    · intro entry _ acting
      exact absurd acting (other _)
  · have empty : s.reaper.batch = [] := by
      rcases origin with ⟨sweeping, -⟩ | ⟨due, sleeping, -, -⟩
      · rw [sweeping]
        rfl
      · rw [sleeping]
        rfl
    refine still_running taken sound staged below
      (by simp [JobTable.statusOf, present, entry.2.2]) ?_ ?_
    · intro index worker acting
      rcases origin with ⟨-, reaping⟩ | ⟨due, -, reaping, -⟩
      · rw [reaping] at acting
        cases acting
      · rw [reaping] at acting
        cases acting
    · intro other selected
      rw [empty] at selected
      cases selected

/-- A commit that assigns a status leaves no other. -/
theorem committed_status {jobs : JobTable} {w : Write} (committed : s.jobs.commit w = some jobs)
    (changed : w.target.status ≠ w.loaded.status) {status : Status}
    (now : jobs.statusOf w.job = some status) : status = w.target.status := by
  rw [JobTable.commit_status committed changed] at now
  obtain ⟨row, -, same⟩ := Option.map_eq_some_iff.mp now
  exact same.symm

/-- A worker that sends a report was sending it, or has just committed DELIVERING. -/
theorem World.WorkerStep.handed {outcome : Outcome} {old new : Worker} {after : World}
    (moved : s.WorkerStep old outcome after new) (sending : new.handed = some job) :
    old.handed = some job ∨
      old.held = some job ∧ ∀ status, after.jobs.statusOf job = some status →
        status.handed = true := by
  cases moved with
  | store committed =>
    cases sending
    refine Or.inr ⟨rfl, fun status now => ?_⟩
    have assigned := committed_status committed nofun now
    rw [assigned]
    rfl
  | delivered | rejected | observe => exact Or.inl sending
  | _ => cases sending

/-- A worker that has finished had finished, or its row is terminal now. -/
theorem World.WorkerStep.closed {outcome : Outcome} {old new : Worker} {after : World}
    (moved : s.WorkerStep old outcome after new) (sound : Sound s) (staged : Staged s)
    (member : old ∈ s.workers) (finished : new.closed = some job) :
    old.closed = some job ∨
      old.held = some job ∧ ∀ status, after.jobs.statusOf job = some status →
        status.terminal = true := by
  cases moved with
  | @forgo own row reason jobs committed =>
    cases finished
    have read : row.status = .pending := Worker.fresh_pending sound staged member rfl rfl
    refine Or.inr ⟨rfl, fun status now => ?_⟩
    have assigned := committed_status committed (fun same => nomatch same.trans read) now
    rw [assigned]
    rfl
  | finish committed | fail committed =>
    cases finished
    refine Or.inr ⟨rfl, fun status now => ?_⟩
    have assigned := committed_status committed nofun now
    rw [assigned]
    rfl
  | settled other =>
    cases finished
    refine Or.inr ⟨rfl, fun status now => ?_⟩
    have handed := (staged.handed _ member job rfl).2 status now
    cases status with
    | done | failed => rfl
    | delivering => exact absurd now other
    | pending | running => cases handed
  | @mark own path row verdict jobs committed =>
    cases finished
    refine Or.inr ⟨rfl, fun status now => ?_⟩
    obtain ⟨changed, terminal⟩ := Write.mark_status job row verdict
    rw [← Write.mark_job job row verdict] at now
    rw [committed_status committed changed now]
    exact terminal
  | notify => exact Or.inl finished
  | _ => cases finished

theorem World.ReconcilerStep.handed {outcome : Outcome} {old new : Reconciler} {after : World}
    (moved : s.ReconcilerStep old outcome after new) (sending : job ∈ new.handed) :
    job ∈ old.handed ∨ job < s.nextJob ∧ s.jobs.statusOf job = some .delivering := by
  cases moved with
  | select booted =>
    obtain ⟨entry, member, rfl⟩ := List.mem_map.mp sending
    obtain ⟨present, below⟩ := JobTable.mem_select (List.mem_filter.mp member).1
    exact Or.inr ⟨below, by simp [JobTable.statusOf, present, entry.2.2]⟩
  | skip | unanswered | unavailable | settled | mark | restore =>
    exact Or.inl (by first | exact sending | exact List.mem_cons_of_mem _ sending)
  | delivered | rejected | observe | discard | keep => exact Or.inl sending
  | finish | unread | unmarked => cases sending

theorem World.ReconcilerStep.closed {outcome : Outcome} {old new : Reconciler} {after : World}
    (moved : s.ReconcilerStep old outcome after new) (finished : new.closed = some job) :
    job ∈ old.handed ∧ ∀ status, after.jobs.statusOf job = some status →
      status.terminal = true := by
  cases moved with
  | @mark own path row verdict rest jobs committed =>
    cases finished
    refine ⟨List.mem_cons_self, fun status now => ?_⟩
    obtain ⟨changed, terminal⟩ := Write.mark_status job row verdict
    rw [← Write.mark_job job row verdict] at now
    rw [committed_status committed changed now]
    exact terminal
  | _ => cases finished

theorem World.ReaperStep.closed {outcome : Outcome} {old new : Reaper} {after : World}
    (moved : s.ReaperStep cfg old outcome after new) (finished : job ∈ new.closed) :
    job ∈ old.closed ∨ (∃ entry ∈ old.batch, entry.1 = job) ∧
      ∀ status, after.jobs.statusOf job = some status → status.terminal = true := by
  cases moved with
  | sweep | reap =>
    unfold afterSelect at finished
    split at finished <;> cases finished
  | @recover batch jobs committed =>
    obtain ⟨entry, member, rfl⟩ := List.mem_map.mp finished
    obtain ⟨selected, exhausted⟩ := List.mem_filter.mp member
    refine Or.inr ⟨⟨entry, selected, rfl⟩, fun status now => ?_⟩
    have distinct : ((batch.rows.map (recovery cfg)).map Write.job).Nodup := by
      rw [List.map_map]
      exact batch.distinct
    have value := JobTable.commitAll_mem committed distinct (List.mem_map_of_mem selected)
    have applied : s.Applies { s with jobs } (recovery cfg entry) entry.1 := ⟨rfl, value⟩
    have assigned := applied.assigned (recovery_changed _) now
    have refused : requeues cfg entry.2 = false := by simpa using exhausted
    rw [assigned, recovery_target, refused]
    rfl
  | enqueue | requeued | restore | unrestored | notify | discard | keep =>
    exact Or.inl (by first | exact finished | exact List.mem_cons_of_mem _ finished)
  | requeue | unread | enqueuePending | enqueued | unswept | unrecovered | finish =>
    cases finished

/-- Status facts about the world after a task's step hold of the world with the
task's position replaced, too. -/
theorem within_of_after {after : World} {allowed : Status → Bool} (jobs : s'.jobs = after.jobs)
    (issued : job < s'.nextJob)
    (known : ∀ status, after.jobs.statusOf job = some status → allowed status = true) :
    s'.Within allowed job := by
  refine ⟨issued, fun status now => known status ?_⟩
  rw [← jobs]
  exact now

theorem staged_step (taken : Step cfg s action s') (sound : Sound s) (exclusive : Exclusive s)
    (staged : Staged s) : Staged s' := by
  have grown := nextJob_mono taken
  refine ⟨fun job claimed => staged_unstarted taken sound staged claimed,
    fun worker member job row analysing =>
      staged_running taken sound exclusive staged member analysing,
    fun entry member => staged_batch taken sound exclusive staged member,
    fun worker member job sending => ?_, fun job sending => ?_,
    fun worker member job finished => ?_, fun job finished => ?_, fun job finished => ?_⟩
  · rcases workers_step taken member with kept | rfl | ⟨_, _, old, after, -, found, moved, form⟩
    · exact handed_step taken sound staged (staged.handed worker kept job sending)
    · cases sending
    · have present := List.mem_of_getElem? found
      rcases moved.handed sending with before | ⟨held, known⟩
      · exact handed_step taken sound staged (staged.handed old present job before)
      · have issued := exclusive.issued old present job held
        exact within_of_after (by rw [form]) (Nat.lt_of_lt_of_le issued grown) known
  · rcases reconciler_step taken with same | rfl | ⟨outcome, after, -, form, moved⟩
    · exact handed_step taken sound staged (staged.sent job (same ▸ sending))
    · cases sending
    · refine handed_step taken sound staged ?_
      rcases moved.handed sending with before | ⟨issued, delivering⟩
      · exact staged.sent job before
      · refine ⟨issued, fun status now => ?_⟩
        rw [delivering] at now
        cases now
        rfl
  · rcases workers_step taken member with kept | rfl | ⟨_, _, old, after, -, found, moved, form⟩
    · exact closed_step taken sound staged (staged.closed worker kept job finished)
    · cases finished
    · have present := List.mem_of_getElem? found
      rcases moved.closed sound staged present finished with before | ⟨held, known⟩
      · exact closed_step taken sound staged (staged.closed old present job before)
      · have issued := exclusive.issued old present job held
        exact within_of_after (by rw [form]) (Nat.lt_of_lt_of_le issued grown) known
  · rcases reconciler_step taken with same | rfl | ⟨outcome, after, -, form, moved⟩
    · exact closed_step taken sound staged (staged.settled job (same ▸ finished))
    · cases finished
    · obtain ⟨before, known⟩ := moved.closed finished
      have issued := (staged.sent job before).1
      exact within_of_after (by rw [form]) (Nat.lt_of_lt_of_le issued grown) known
  · rcases reaper_step taken with ⟨same, -⟩ | rfl | ⟨outcome, after, -, form, moved⟩
    · exact closed_step taken sound staged (staged.failed job (same ▸ finished))
    · cases finished
    · rcases moved.closed finished with before | ⟨⟨entry, selected, rfl⟩, known⟩
      · exact closed_step taken sound staged (staged.failed job before)
      · have issued := (sound.batch entry selected).1
        exact within_of_after (by rw [form]) (Nat.lt_of_lt_of_le issued grown) known

end Staged

end RcaBackend
