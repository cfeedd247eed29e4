import RcaBackend.PendingOwnership
import RcaBackend.RetryBound

/-!
# No job is lost across crashes

While database operations go through and `restore_bundle` raises nothing but
`SignalsMissing`, a RUNNING row is held by a worker between its RUNNING commit and
the end of its analysis, or the startup sweep has yet to collect it; a DELIVERING
row has a result that validates. The process may die at any step.
-/

namespace RcaBackend

open World

/-! ## Stores that answer -/

/-- The worker waits for a database operation that can be carried out (a commit
whose row has been deleted cannot), or for `restore_bundle`. -/
def Worker.Depends (s : World) : Worker → Prop
  | .selecting _ | .restoring _ _ | .marking _ _ _ => True
  | worker => ∃ w, worker.write = some w ∧ s.jobs w.job ≠ none

/-- The reconciler waits for a database operation that can be carried out. -/
def Reconciler.Depends (s : World) : Reconciler → Prop
  | .redelivering _ | .marking _ _ _ _ => True
  | reconciler => ∃ w, reconciler.write = some w ∧ s.jobs w.job ≠ none

/-- So does the reaper. -/
def Reaper.Depends (s : World) : Reaper → Prop
  | .requeuing | .sweeping | .notifying _ => True
  | .committing batch => ∀ entry ∈ batch.rows, s.jobs entry.1 ≠ none
  | _ => False

/-- So does a request. -/
def Request.Depends : Request → Prop
  | .committing _ _ | .refreshing _ _ | .rollingBack _ => True
  | _ => False

/-- No database operation that can be carried out raises, and `restore_bundle`
returns or raises `SignalsMissing`. Crashes are unrestricted. -/
def Answered (s : World) : Action → Prop
  | .worker index (.raises _) =>
    ∀ worker, s.workers[index]? = some worker → ¬ worker.Depends s
  | .request index (.raises _) =>
    ∀ request, s.requests[index]? = some request → ¬ request.Depends
  | .reaper (.raises _) => ¬ s.reaper.Depends s
  | .reconciler (.raises _) => ¬ s.reconciler.Depends s
  | .cleaner (.raises _) => False
  | _ => True

/-- Stores that answer strand no PENDING job. -/
theorem Answered.keeps {s : World} {action : Action} (answered : Answered s action) :
    ¬ Strands s action := by
  intro strands
  match action with
  | .worker index (.raises _) =>
    obtain ⟨worker, job, found, fresh, pending⟩ := strands
    refine answered worker found ?_
    have present : s.jobs job ≠ none := fun missing => by
      simp [JobTable.statusOf, missing] at pending
    cases worker with
    | selecting | restoring => trivial
    | committingMissing | committingRunning =>
      cases fresh
      exact ⟨_, rfl, present⟩
    | _ => cases fresh
  | .request index (.raises _) =>
    obtain ⟨job, path, found, -⟩ := strands
    exact answered _ found trivial
  | .reaper (.raises _) =>
    obtain ⟨reading, -⟩ := strands
    refine answered ?_
    rw [reading]
    trivial

/-! ## The invariant -/

/-- The row that a worker's session holds. -/
def Worker.session : Worker → Option (JobId × IngestJob)
  | .restoring job row | .committingMissing job row _ | .committingRunning job row _
  | .analysing job row _ _ | .committingDelivering job row _ _ | .committingDone job row _
  | .committingFailed job row _ _ => some (job, row)
  | _ => none

/-- Every unfinished row has a task that will go on with it. -/
structure Recoverable (s : World) : Prop where
  owned : s.Owned
  running : ∀ job, s.jobs.statusOf job = some .running → s.reaper.unswept = true ∨
    (s.booted = false ∧ ∃ entry ∈ s.reaper.batch, entry.1 = job) ∨
    ∃ (index : Nat) (worker : Worker) (row : IngestJob),
      s.workers[index]? = some worker ∧ worker.running = some (job, row)
  present : s.booted = false → ∀ entry ∈ s.reaper.batch, s.jobs entry.1 ≠ none
  valid : ∀ job row stored, s.jobs job = some row → row.result = some stored →
    ∃ result, RcaResult.modelValidate stored = .ok result
  kept : ∀ worker ∈ s.workers, ∀ job row, worker.session = some (job, row) → job < s.nextJob ∧
    (row.result ≠ none → ∀ row', s.jobs job = some row' → row'.result ≠ none)
  delivering : ∀ job row, s.jobs job = some row → row.status = .delivering → row.result ≠ none

/-! ## RUNNING rows -/

section Running

variable {cfg : Settings} {s s' : World} {action : Action}

/-- A worker in the analysis stays there, commits an outcome, or fails to. -/
theorem World.WorkerStep.running {outcome : Outcome} {old new : Worker} {after : World}
    {job : JobId} {row : IngestJob} (moved : s.WorkerStep old outcome after new)
    (running : old.running = some (job, row)) :
    new.running = some (job, row) ∨ after.jobs.statusOf job ≠ some .running ∨
      ∃ reason w, outcome = .raises reason ∧ old.write = some w ∧ w.job = job := by
  have ended {w : Write} {jobs : JobTable} (committed : s.jobs.commit w = some jobs)
      (changed : w.target.status ≠ w.loaded.status) (finished : w.target.status ≠ .running) :
      jobs.statusOf w.job ≠ some .running := by
    rw [JobTable.commit_status committed changed]
    cases s.jobs w.job with
    | none => exact nofun
    | some present => exact fun same => finished (Option.some.inj same)
  cases moved with
  | restart | exhaust | conclude | nothing | unstored | unfinished => exact Or.inl running
  | store committed | finish committed | fail committed =>
    cases running
    exact Or.inr (Or.inl (ended committed nofun nofun))
  | strand =>
    cases running
    exact Or.inr (Or.inr ⟨_, _, rfl, rfl, rfl⟩)
  | abandon fresh =>
    cases old with
    | selecting | restoring | committingMissing | committingRunning => cases running
    | _ => cases fresh
  | _ => cases running

/-- A worker's analysis goes on, while the stores answer, until its job is not
RUNNING any more. -/
theorem running_worker_step (taken : Step cfg s action s') (answered : Answered s action)
    {job : JobId} (present : s.jobs job ≠ none) (running : s'.jobs.statusOf job = some .running)
    {index : Nat} {worker : Worker} {row : IngestJob} (found : s.workers[index]? = some worker)
    (analysing : worker.running = some (job, row)) (up : action ≠ .crash) :
    ∃ new, s'.workers[index]? = some new ∧ new.running = some (job, row) := by
  cases taken with
  | crash => exact absurd rfl up
  | tick => exact ⟨worker, found, analysing⟩
  | receive booted => exact ⟨worker, found, analysing⟩
  | request _ moved => exact ⟨worker, moved.frame.workers ▸ found, analysing⟩
  | reaper moved => exact ⟨worker, moved.frame.workers ▸ found, analysing⟩
  | reconciler moved => exact ⟨worker, moved.frame.workers ▸ found, analysing⟩
  | cleaner moved => exact ⟨worker, moved.frame.workers ▸ found, analysing⟩
  | @worker acting outcome old new after here moved =>
    by_cases same : acting = index
    · subst same
      rw [found] at here
      cases here
      rcases moved.running analysing with goes | ends | ⟨reason, w, rfl, writing, own⟩
      · refine ⟨new, ?_, goes⟩
        simp only [moved.frame.workers]
        exact List.getElem?_set_self (List.getElem?_eq_some_iff.mp found).1
      · exact absurd running ends
      · refine absurd ?_ (answered worker found)
        cases worker with
        | committingMissing | committingRunning | committingDelivering | committingDone
        | committingFailed | committingMark => exact ⟨w, writing, own ▸ present⟩
        | _ => cases writing
    · refine ⟨worker, ?_, analysing⟩
      simp only [moved.frame.workers]
      rw [List.getElem?_set_ne same]
      exact found

/-- The startup sweep collects every RUNNING row. -/
theorem swept_at_startup (sound : Sound s) {job : JobId}
    (running : s.jobs.statusOf job = some .running) :
    ∃ entry ∈ (afterSelect (s.runningRows fun _ => true)).batch, entry.1 = job := by
  obtain ⟨row, present, status⟩ := Option.map_eq_some_iff.mp running
  have below : job < s.nextJob := by
    by_contra beyond
    rw [(sound.beyond job (Nat.le_of_not_lt beyond)).1] at present
    cases present
  have selected : (job, ⟨row, status⟩) ∈ (s.runningRows fun _ => true).rows :=
    List.mem_filter.mpr ⟨JobTable.select_complete present status below, rfl⟩
  refine ⟨(job, ⟨row, status⟩), ?_, rfl⟩
  rw [afterSelect, if_neg (List.ne_nil_of_mem selected)]
  exact selected

/-- A sweep that commits leaves none of its rows RUNNING. -/
theorem recovered_not_running {batch : Batch} {jobs : JobTable}
    (committed : s.jobs.commitAll (batch.rows.map (recovery cfg)) = some jobs)
    {entry : JobId × RowIn .running} (member : entry ∈ batch.rows) :
    jobs.statusOf entry.1 ≠ some .running := by
  have distinct : ((batch.rows.map (recovery cfg)).map Write.job).Nodup := by
    rw [List.map_map]
    exact batch.distinct
  have value := JobTable.commitAll_mem committed distinct (List.mem_map_of_mem member)
  have value : jobs entry.1 = (s.jobs entry.1).map
      (IngestJob.overwrite (recovery cfg entry).loaded (recovery cfg entry).target) := value
  rw [JobTable.statusOf, value]
  cases s.jobs entry.1 with
  | none => simp
  | some row =>
    rw [Option.map_some, Option.map_some, IngestJob.overwrite_status,
      if_neg (recovery_changed entry), recovery_target]
    split <;> simp

/-- A RUNNING row is yet to be swept, is being recovered or has a worker. -/
theorem recoverable_running (taken : Step cfg s action s') (phased : Phased s) (sound : Sound s)
    (answered : Answered s action) (recoverable : Recoverable s) (job : JobId)
    (running : s'.jobs.statusOf job = some .running) :
    s'.reaper.unswept = true ∨
      (s'.booted = false ∧ ∃ entry ∈ s'.reaper.batch, entry.1 = job) ∨
      ∃ (index : Nat) (worker : Worker) (row : IngestJob),
        s'.workers[index]? = some worker ∧ worker.running = some (job, row) := by
  by_cases up : action = .crash
  · subst up
    cases taken
    exact Or.inl rfl
  rcases running_step taken running with before | ⟨index, loaded, bundle, rfl, found⟩
  · have present : s.jobs job ≠ none := fun missing => by
      simp [JobTable.statusOf, missing] at before
    rcases recoverable.running job before with
      unswept | ⟨down, entry, batched, own⟩ | ⟨index, worker, row, found, analysing⟩
    · -- the startup sweep is still to come
      rcases reaper_step taken with ⟨same, -⟩ | rfl | ⟨outcome, after, rfl, form, moved⟩
      · exact Or.inl (same ▸ unswept)
      · exact Or.inl rfl
      · have down := phased.recovering unswept
        have after_down := moved.booted
        generalize s'.reaper = new at moved form ⊢
        generalize position : s.reaper = old at moved unswept
        cases moved with
        | requeue | enqueuePending | enqueued => exact Or.inl rfl
        | unread | unswept =>
          refine absurd ?_ answered
          rw [position]
          trivial
        | sweep =>
          refine Or.inr (Or.inl ⟨?_, swept_at_startup sound before⟩)
          rw [form]
          exact down
        | _ => cases unswept
    · -- the startup sweep is about to commit
      rcases reaper_step taken with ⟨same, quiet⟩ | rfl | ⟨outcome, after, rfl, form, moved⟩
      · rcases booted_step taken with still | rfl | ⟨⟨outcome, moving⟩, -⟩
        · exact Or.inr (Or.inl ⟨still.trans down, entry, same ▸ batched, own⟩)
        · exact Or.inl rfl
        · exact absurd moving (quiet outcome)
      · exact Or.inl rfl
      · generalize s'.reaper = new at moved form ⊢
        generalize position : s.reaper = old at moved batched
        cases moved with
        | recover committed =>
          rw [form] at running
          exact absurd running (own ▸ recovered_not_running committed batched)
        | unrecovered =>
          refine absurd ?_ answered
          have rows := recoverable.present down
          rw [position] at rows ⊢
          exact rows
        | _ => cases batched
    · obtain ⟨new, there, goes⟩ :=
        running_worker_step taken answered present running found analysing up
      exact Or.inr (Or.inr ⟨index, new, row, there, goes⟩)
  · cases taken with
    | worker here moved =>
      rw [found] at here
      cases here
      cases moved with
      | start committed =>
        refine Or.inr (Or.inr ⟨index, .analysing job loaded bundle 1, loaded, ?_, rfl⟩)
        exact List.getElem?_set_self (List.getElem?_eq_some_iff.mp found).1

end Running

/-! ## Results -/

section Results

variable {cfg : Settings} {s s' : World} {action : Action} {job : JobId} {w : Write}

/-- A write assigns no result, or that of a validated report. -/
def Write.Stores (w : Write) : Prop :=
  w.target.result = w.loaded.result ∨ ∃ result : RcaResult, w.target.result = some result.stored

/-- A worker stores the result of a validated analysis only. -/
theorem Worker.write_stores {worker : Worker} (writing : worker.write = some w) : w.Stores := by
  cases worker with
  | committingDelivering _ _ _ result =>
    cases writing
    exact Or.inr ⟨result, rfl⟩
  | committingMark _ _ _ verdict =>
    cases writing
    cases verdict <;> exact Or.inl rfl
  | committingMissing | committingRunning | committingDone | committingFailed =>
    cases writing
    exact Or.inl rfl
  | _ => cases writing

/-- The reconciler stores no result. -/
theorem Reconciler.write_stores {reconciler : Reconciler} (writing : reconciler.write = some w) :
    w.Stores := by
  cases reconciler with
  | committingMark _ _ _ verdict =>
    cases writing
    cases verdict <;> exact Or.inl rfl
  | _ => cases writing

/-- Nor does the reaper. -/
theorem recovery_stores (entry : JobId × RowIn .running) : (recovery cfg entry).Stores := by
  left
  unfold recovery
  split <;> rfl

/-- A row keeps its result, or gets that of a validated report. -/
theorem World.Applies.result {row' : IngestJob} (applied : s.Applies s' w job) (stores : w.Stores)
    (now : s'.jobs job = some row') :
    ∃ row, s.jobs job = some row ∧
      (row'.result = row.result ∨ ∃ result : RcaResult, row'.result = some result.stored) := by
  obtain ⟨row, present, rfl⟩ := applied.found now
  refine ⟨row, present, ?_⟩
  rcases stores with same | ⟨result, stored⟩
  · exact Or.inl (if_pos same)
  · by_cases same : w.target.result = w.loaded.result
    · exact Or.inl (if_pos same)
    · exact Or.inr ⟨result, (if_neg same).trans stored⟩

/-- How a step changes a row's result. -/
theorem result_step (taken : Step cfg s action s') {row' : IngestJob}
    (now : s'.jobs job = some row') :
    (∃ row, s.jobs job = some row ∧ row'.result = row.result) ∨
      (∃ result : RcaResult, row'.result = some result.stored) ∨
      (job = s.nextJob ∧ row'.status = .pending ∧ row'.result = none) := by
  have written {w : Write} (applied : s.Applies s' w job) (stores : w.Stores) :
      (∃ row, s.jobs job = some row ∧ row'.result = row.result) ∨
        (∃ result : RcaResult, row'.result = some result.stored) ∨
        (job = s.nextJob ∧ row'.status = .pending ∧ row'.result = none) := by
    obtain ⟨row, present, same | stored⟩ := applied.result stores now
    · exact Or.inl ⟨row, present, same⟩
    · exact Or.inr (Or.inl stored)
  cases step_change taken job with
  | idle row | crashed _ row | abandoned _ _ _ row | unlisted _ _ row | requeued _ _ _ row =>
    exact Or.inl ⟨row', row ▸ now, rfl⟩
  | vanished _ row | purged _ _ _ row =>
    rw [row] at now
    cases now
  | forgone _ _ applied | started _ _ _ applied => exact written applied (Or.inl rfl)
  | concluded _ _ _ writing applied => exact written applied (Worker.write_stores writing)
  | reconciled _ writing applied => exact written applied (Reconciler.write_stores writing)
  | recovered _ _ applied => exact written applied (recovery_stores _)
  | inserted _ _ next _ row =>
    rw [row] at now
    cases now
    exact Or.inr (Or.inr ⟨next, rfl, rfl⟩)

/-- A stored result validates. -/
theorem recoverable_valid (taken : Step cfg s action s') (recoverable : Recoverable s)
    (job : JobId) (row' : IngestJob) (stored : Json) (now : s'.jobs job = some row')
    (has : row'.result = some stored) : ∃ result, RcaResult.modelValidate stored = .ok result := by
  rcases result_step taken now with ⟨row, present, same⟩ | ⟨result, fresh⟩ | ⟨-, -, absent⟩
  · exact recoverable.valid job row stored present (same ▸ has)
  · rw [fresh] at has
    cases has
    exact ⟨result, result.modelValidate_stored⟩
  · rw [absent] at has
    cases has

/-- A session's row was loaded before, or has just been. -/
theorem World.WorkerStep.session {outcome : Outcome} {old new : Worker} {after : World}
    {row : IngestJob} (moved : s.WorkerStep old outcome after new)
    (session : new.session = some (job, row)) :
    old.session = some (job, row) ∨ s.jobs job = some row := by
  cases moved with
  | load present =>
    cases session
    exact Or.inr present
  | restore | lack | start | restart | exhaust | conclude | nothing | unstored | unfinished =>
    exact Or.inl session
  | _ => cases session

/-- A row that a worker has read keeps its result. -/
theorem recoverable_kept (taken : Step cfg s action s') (sound : Sound s)
    (recoverable : Recoverable s) (worker : Worker) (member : worker ∈ s'.workers) (job : JobId)
    (row : IngestJob) (session : worker.session = some (job, row)) : job < s'.nextJob ∧
      (row.result ≠ none → ∀ row', s'.jobs job = some row' → row'.result ≠ none) := by
  -- before the step the row was in the table, with a result if the session has one
  have before : job < s.nextJob ∧
      (row.result ≠ none → ∀ row', s.jobs job = some row' → row'.result ≠ none) := by
    have read (present : s.jobs job = some row) : job < s.nextJob ∧
        (row.result ≠ none → ∀ row', s.jobs job = some row' → row'.result ≠ none) := by
      refine ⟨?_, fun has row' same => ?_⟩
      · by_contra beyond
        rw [(sound.beyond job (Nat.le_of_not_lt beyond)).1] at present
        cases present
      · rw [present] at same
        cases same
        exact has
    rcases workers_step taken member with kept | rfl | ⟨_, _, old, _, -, found, moved, -⟩
    · exact recoverable.kept worker kept job row session
    · cases session
    · rcases moved.session session with same | present
      · exact recoverable.kept old (List.mem_of_getElem? found) job row same
      · exact read present
  refine ⟨Nat.lt_of_lt_of_le before.1 (nextJob_mono taken), fun has row' now => ?_⟩
  rcases result_step taken now with ⟨older, present, same⟩ | ⟨result, fresh⟩ | ⟨next, -⟩
  · rw [same]
    exact before.2 has older present
  · rw [fresh]
    exact nofun
  · exact absurd next (Nat.ne_of_lt before.1)

/-- A DELIVERING row has its result. -/
theorem recoverable_delivering (taken : Step cfg s action s') (recoverable : Recoverable s)
    (job : JobId) (row' : IngestJob) (now : s'.jobs job = some row')
    (sending : row'.status = .delivering) : row'.result ≠ none := by
  have status : s'.jobs.statusOf job = some .delivering := by
    simp [JobTable.statusOf, now, sending]
  -- a row that was DELIVERING before the step had a result, and keeps one
  have before (same : s.jobs.statusOf job = some .delivering) : row'.result ≠ none := by
    obtain ⟨row, present, sent⟩ := Option.map_eq_some_iff.mp same
    rcases result_step taken now with ⟨older, there, kept⟩ | ⟨result, fresh⟩ | ⟨-, waiting, -⟩
    · rw [kept]
      exact recoverable.delivering job older there (by rw [present] at there; cases there; exact sent)
    · simp [fresh]
    · rw [waiting] at sending
      cases sending
  cases step_change taken job with
  | idle row | crashed _ row | abandoned _ _ _ row | unlisted _ _ row | requeued _ _ _ row =>
    exact before ((congrArg (Option.map _) row.symm).trans status)
  | vanished _ row | purged _ _ _ row =>
    rw [row] at now
    cases now
  | forgone _ _ applied | started _ _ _ applied =>
    exact before ((applied.statusOf status).resolve_left fun same => by cases same)
  | @concluded index worker w _ found late writing applied =>
    cases worker with
    | committingDelivering own loaded bundle result =>
      cases writing
      obtain rfl : own = job := applied.1
      have member := List.mem_of_getElem? found
      have kept := (recoverable.kept _ member own loaded rfl).2
      obtain ⟨row, present, rfl⟩ := applied.found now
      by_cases same : some result.stored = loaded.result
      · have has : row.result ≠ none := kept (by simp [← same]) row present
        simpa [Write.delivering, IngestJob.overwrite, same] using has
      · simp [Write.delivering, IngestJob.overwrite, same]
    | committingMark _ _ _ verdict =>
      cases writing
      exact before ((applied.statusOf status).resolve_left fun same => by cases verdict <;> cases same)
    | committingDone | committingFailed =>
      cases writing
      exact before ((applied.statusOf status).resolve_left fun same => by cases same)
    | committingMissing | committingRunning => cases late
    | _ => cases writing
  | reconciled _ writing applied =>
    rcases applied.statusOf status with assigned | same
    · have := Reconciler.target writing
      simp [← assigned] at this
    · exact before same
  | recovered _ _ applied =>
    have assigned := applied.assigned (recovery_changed _) status
    rw [recovery_target] at assigned
    split at assigned <;> cases assigned
  | inserted _ _ _ _ row =>
    rw [row] at now
    cases now
    cases sending

/-- Rows are deleted only while the process is up. -/
theorem gone_step (taken : Step cfg s action s') (present : s.jobs job ≠ none)
    (gone : s'.jobs job = none) : s.booted = true := by
  cases step_change taken job with
  | idle row | crashed _ row | abandoned _ _ _ row | unlisted _ _ row | requeued _ _ _ row =>
    exact absurd (row.symm.trans gone) present
  | vanished missing => exact absurd missing present
  | forgone _ _ applied | started _ _ _ applied | concluded _ _ _ _ applied
  | reconciled _ _ applied | recovered _ _ applied =>
    exact absurd (applied.none_iff.mp gone) present
  | inserted _ _ _ _ row =>
    rw [row] at gone
    cases gone
  | purged booted => exact booted

/-- The rows that are being recovered are in the table. -/
theorem recoverable_present (taken : Step cfg s action s') (recoverable : Recoverable s)
    (down : s'.booted = false) (entry : JobId × RowIn .running) (member : entry ∈ s'.reaper.batch) :
    s'.jobs entry.1 ≠ none := by
  intro gone
  rcases booted_step taken with same | rfl | ⟨-, up, -⟩
  · have still : s.booted = false := same ▸ down
    have present : s.jobs entry.1 ≠ none := by
      rcases batch_step taken member with ⟨kept, -⟩ | ⟨read, -⟩
      · exact recoverable.present still entry kept
      · rw [read]
        exact nofun
    have up := gone_step taken present gone
    simp [still] at up
  · cases member
  · simp [up] at down

end Results

/-! ## The end of a startup -/

/-- Every step keeps the jobs recoverable. -/
theorem recoverable_step {cfg : Settings} {s s' : World} {action : Action}
    (taken : Step cfg s action s') (phased : Phased s) (sound : Sound s)
    (answered : Answered s action) (recoverable : Recoverable s) : Recoverable s' :=
  ⟨owned_step taken sound recoverable.owned answered.keeps,
    recoverable_running taken phased sound answered recoverable,
    recoverable_present taken recoverable, recoverable_valid taken recoverable,
    recoverable_kept taken sound recoverable, recoverable_delivering taken recoverable⟩

/-- Without jobs there is nothing to recover. -/
theorem Initial.recoverable {s : World} (initial : Initial s) : Recoverable s := by
  have empty (job : JobId) (status : Status) : s.jobs.statusOf job ≠ some status := by
    simp [JobTable.statusOf, initial.empty]
  refine ⟨fun job pending => absurd pending (empty _ _), fun job running => absurd running (empty _ _),
    fun _ entry member => ?_, fun job row stored present => ?_, fun worker member job row has => ?_,
    fun job row present => ?_⟩
  · rw [initial.booting] at member
    cases member
  · rw [initial.empty] at present
    cases present
  · rw [initial.booting] at member
    obtain ⟨old, -, rfl⟩ := List.mem_map.mp member
    cases has
  · rw [initial.empty] at present
    cases present

/-- Over any number of crashes, at the step where `recover_on_startup` returns
every unfinished row is queued, held by a worker, or DELIVERING with a result
that the reconciler can send. -/
theorem recovery_complete {cfg : Settings} {start s s' : World} {action : Action}
    (initial : Initial start) (reached : TransitionSystem.Reaches (step cfg) Answered start s)
    (answered : Answered s action) (taken : step cfg s action = some s')
    (recovering : s.booted = false) (returned : s'.booted = true) (job : JobId) (row : IngestJob)
    (present : s'.jobs job = some row) (unfinished : row.status.terminal = false) :
    job ∈ s'.queue ∨ (∃ worker ∈ s'.workers, worker.held = some job) ∨
      (row.status = .delivering ∧ ∃ stored result, row.result = some stored ∧
        RcaResult.modelValidate stored = .ok result) := by
  have recoverable : Recoverable s' := by
    have reached' := reached.step answered taken
    refine reached'.invariant Recoverable initial.recoverable ?_
    intro state action next before recoverable answered taken
    obtain ⟨phased, sound⟩ := reached_sound initial.toStarting before
    exact recoverable_step (step_rule taken) phased sound answered recoverable
  -- the step is the reaper's, and leaves no request and no backlog
  have settled : s'.reaper = .sleeping ∧ s'.requests = [] := by
    have rule := step_rule taken
    rcases booted_step rule with same | rfl | ⟨⟨outcome, rfl⟩, -, asleep⟩
    · rw [same, recovering] at returned
      cases returned
    · cases returned
    · refine ⟨asleep, ?_⟩
      have quiet := (reached_sound initial.toStarting reached).1.quiet recovering
      cases rule with
      | reaper moved => exact moved.frame.requests.trans quiet.1
  obtain ⟨asleep, none⟩ := settled
  have status : s'.jobs.statusOf job = some row.status := by simp [JobTable.statusOf, present]
  cases stage : row.status with
  | pending =>
    rw [stage] at status
    have claimed := (recoverable.owned job status).resolve_left (by simp [asleep])
    rcases accounted_of_unstarted claimed with queued | held | listed | ⟨request, member, -⟩
    · exact Or.inl queued
    · exact Or.inr (Or.inl held)
    · simp [asleep, Reaper.listing, Reaper.backlog] at listed
    · simp [none] at member
  | running =>
    rw [stage] at status
    rcases recoverable.running job status with
      unswept | ⟨down, -⟩ | ⟨index, worker, loaded, found, analysing⟩
    · simp [asleep, Reaper.unswept] at unswept
    · simp [returned] at down
    · exact Or.inr (Or.inl ⟨worker, List.mem_of_getElem? found, Worker.held_of_running analysing⟩)
  | delivering =>
    obtain ⟨stored, has⟩ :=
      Option.ne_none_iff_exists'.mp (recoverable.delivering job row present stage)
    obtain ⟨result, valid⟩ := recoverable.valid job row stored present has
    exact Or.inr (Or.inr ⟨rfl, stored, result, has, valid⟩)
  | done | failed =>
    rw [stage] at unfinished
    cases unfinished

/-- A crash in the analysis of a job, and startup up to its last step. -/
def sweepRun : List Action :=
  ingestRun ++ [.worker 0 .returns, .worker 0 .returns, .worker 0 .returns, .worker 0 .returns,
    .crash, .reaper .returns, .reaper .returns, .reaper .returns, .reaper .returns,
    .reaper .returns, .reaper .returns]

/-- A job is lost in a crash and swept by the next process. -/
theorem recovery_complete_sweepRun :
    ∃ s s' row, TransitionSystem.run (step ⟨1, 0⟩) (World.initial 1) sweepRun = some s ∧
      step ⟨1, 0⟩ s (.reaper .returns) = some s' ∧ s'.jobs 1 = some row ∧
      (1 ∈ s'.queue ∨ (∃ worker ∈ s'.workers, worker.held = some 1) ∨
        (row.status = .delivering ∧ ∃ stored result, row.result = some stored ∧
          RcaResult.modelValidate stored = .ok result)) := by
  obtain ⟨s, executed, passed⟩ := TransitionSystem.run_passes (step ⟨1, 0⟩) (World.initial 1)
    sweepRun (fun s => !s.booted && (step ⟨1, 0⟩ s (.reaper .returns)).any fun s' =>
      s'.booted && (s'.jobs 1).any fun row => !row.status.terminal) (by decide)
  rw [Bool.and_eq_true, Bool.not_eq_true', Option.any_eq_true] at passed
  obtain ⟨recovering, s', taken, passed⟩ := passed
  rw [Bool.and_eq_true, Option.any_eq_true] at passed
  obtain ⟨returned, row, present, unfinished⟩ := passed
  rw [Bool.not_eq_true'] at unfinished
  refine ⟨s, s', row, executed, taken, present, ?_⟩
  refine recovery_complete (initial_initial 1) (.of_run executed ?_) (by trivial) taken recovering
    returned 1 row present unfinished
  apply TransitionSystem.allows_of_forall
  intro action member state
  simp only [sweepRun, ingestRun, List.cons_append, List.nil_append, List.mem_cons,
    List.not_mem_nil, or_false] at member
  rcases member with rfl | rfl | rfl | rfl | rfl | rfl | rfl | rfl | rfl | rfl | rfl | rfl | rfl |
    rfl | rfl | rfl | rfl | rfl | rfl | rfl | rfl <;> trivial

end RcaBackend
