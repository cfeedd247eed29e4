import RcaBackend.JobClaims

/-!
# Invariants of every run

`Phased` ties the tasks to the stages of `lifespan`. `Sound` bounds the
unstarted claims. Both hold in every state that a new process reaches from any
table, with no condition on crashes, failing operations or interleavings.
-/

namespace RcaBackend

open World

/-- A process that has just entered `lifespan`, with any rows. -/
structure Starting (s : World) : Prop where
  booting : s = s.boot
  unused : ∀ job, s.nextJob ≤ job → s.jobs job = none

/-- A first process starts. -/
theorem initial_starting (workers : Nat) : Starting (World.initial workers) := by
  refine ⟨?_, fun _ _ => rfl⟩
  simp [World.initial, boot]

/-- The reaper has not swept the RUNNING rows yet. -/
def Reaper.unswept : Reaper → Bool
  | .requeuing | .enqueuingPending _ | .sweeping => true
  | _ => false

/-- The stages of `lifespan`. -/
structure Phased (s : World) : Prop where
  quiet : s.booted = false →
    s.requests = [] ∧ s.reconciler = .sleeping ∧ s.cleaner = .sleeping
  recovering : s.reaper.unswept = true → s.booted = false
  asleep : s.reaper = .sleeping → s.booted = true

/-- Unstarted claims are unique, and a RUNNING row has none. -/
structure Sound (s : World) : Prop where
  once : ∀ job, s.unstarted job ≤ 1
  running : ∀ job, s.jobs.statusOf job = some .running → s.unstarted job = 0
  batch : ∀ entry ∈ s.reaper.batch, entry.1 < s.nextJob ∧ s.unstarted entry.1 = 0
  loaded : ∀ worker ∈ s.workers, ∀ row, worker.loaded = some row → row.status ≠ .running
  current : ∀ worker ∈ s.workers, ∀ job row, worker.fresh = some job → worker.loaded = some row →
    s.jobs.statusOf job = some .pending → row.status = .pending
  beyond : ∀ job, s.nextJob ≤ job → s.jobs job = none ∧ s.unstarted job = 0
  requeuing : s.reaper = .requeuing → ∀ job, s.unstarted job = 0

section Frames

variable {cfg : Settings} {s s' : World} {action : Action}

/-- A worker of the next state was one before, is idle after a crash, or has
just taken the step. -/
theorem workers_step (taken : Step cfg s action s') {worker : Worker}
    (member : worker ∈ s'.workers) :
    worker ∈ s.workers ∨ worker = .idle ∨
      ∃ index outcome old after, action = .worker index outcome ∧
        s.workers[index]? = some old ∧ s.WorkerStep old outcome after worker ∧
        s' = { after with workers := after.workers.set index worker } := by
  cases taken with
  | crash =>
    obtain ⟨old, -, idle⟩ := List.mem_map.mp member
    exact Or.inr (Or.inl idle.symm)
  | tick => exact Or.inl member
  | receive booted => exact Or.inl member
  | worker found moved =>
    rcases List.mem_or_eq_of_mem_set member with kept | rfl
    · rw [moved.frame.workers] at kept
      exact Or.inl kept
    · exact Or.inr (Or.inr ⟨_, _, _, _, rfl, found, moved, rfl⟩)
  | request found moved => exact Or.inl (moved.frame.workers ▸ member)
  | reaper moved => exact Or.inl (moved.frame.workers ▸ member)
  | reconciler moved => exact Or.inl (moved.frame.workers ▸ member)
  | cleaner moved => exact Or.inl (moved.frame.workers ▸ member)

/-- The same for one place of the pool. -/
theorem worker_step (taken : Step cfg s action s') {index : Nat} {worker : Worker}
    (found : s'.workers[index]? = some worker) :
    (s.workers[index]? = some worker ∧ ∀ outcome, action ≠ .worker index outcome) ∨
      worker = .idle ∨
      ∃ outcome old after, action = .worker index outcome ∧
        s.workers[index]? = some old ∧ s.WorkerStep old outcome after worker ∧
        s' = { after with workers := after.workers.set index worker } := by
  cases taken with
  | crash =>
    obtain ⟨old, -, idle⟩ := List.mem_map.mp (List.mem_of_getElem? found)
    exact Or.inr (Or.inl idle.symm)
  | tick => exact Or.inl ⟨found, fun _ => nofun⟩
  | receive booted => exact Or.inl ⟨found, fun _ => nofun⟩
  | @worker acting outcome old new after here moved =>
    by_cases same : acting = index
    · subst same
      have bound : acting < after.workers.length := by
        rw [moved.frame.workers]
        exact (List.getElem?_eq_some_iff.mp here).1
      simp only [List.getElem?_set_self bound] at found
      cases found
      exact Or.inr (Or.inr ⟨_, _, _, rfl, here, moved, rfl⟩)
    · simp only [List.getElem?_set_ne same, moved.frame.workers] at found
      exact Or.inl ⟨found, fun _ acted => same (Action.worker.inj acted).1⟩
  | request _ moved => exact Or.inl ⟨moved.frame.workers ▸ found, fun _ => nofun⟩
  | reaper moved => exact Or.inl ⟨moved.frame.workers ▸ found, fun _ => nofun⟩
  | reconciler moved => exact Or.inl ⟨moved.frame.workers ▸ found, fun _ => nofun⟩
  | cleaner moved => exact Or.inl ⟨moved.frame.workers ▸ found, fun _ => nofun⟩

/-- The reaper's position changes by its own steps and by a crash only. -/
theorem reaper_step (taken : Step cfg s action s') :
    (s'.reaper = s.reaper ∧ ∀ outcome, action ≠ .reaper outcome) ∨ s' = s.boot ∨
      ∃ outcome after, action = .reaper outcome ∧ s' = { after with reaper := s'.reaper } ∧
        s.ReaperStep cfg s.reaper outcome after s'.reaper := by
  cases taken with
  | crash => exact Or.inr (Or.inl rfl)
  | tick => exact Or.inl ⟨rfl, fun _ => nofun⟩
  | receive booted => exact Or.inl ⟨rfl, fun _ => nofun⟩
  | worker found moved => exact Or.inl ⟨moved.frame.reaper, fun _ => nofun⟩
  | request found moved => exact Or.inl ⟨moved.frame.reaper, fun _ => nofun⟩
  | reaper moved => exact Or.inr (Or.inr ⟨_, _, rfl, rfl, moved⟩)
  | reconciler moved => exact Or.inl ⟨moved.frame.reaper, fun _ => nofun⟩
  | cleaner moved => exact Or.inl ⟨moved.frame.reaper, fun _ => nofun⟩

/-- The reconciler's position changes by its own steps and by a crash only. -/
theorem reconciler_step (taken : Step cfg s action s') :
    s'.reconciler = s.reconciler ∨ s' = s.boot ∨
      ∃ outcome after, action = .reconciler outcome ∧
        s' = { after with reconciler := s'.reconciler } ∧
        s.ReconcilerStep s.reconciler outcome after s'.reconciler := by
  cases taken with
  | crash => exact Or.inr (Or.inl rfl)
  | tick => exact Or.inl rfl
  | receive booted => exact Or.inl rfl
  | worker found moved => exact Or.inl moved.frame.reconciler
  | request found moved => exact Or.inl moved.frame.reconciler
  | reaper moved => exact Or.inl moved.frame.reconciler
  | reconciler moved => exact Or.inr (Or.inr ⟨_, _, rfl, rfl, moved⟩)
  | cleaner moved => exact Or.inl moved.frame.reconciler

/-- The cleaner's position changes by its own steps and by a crash only. -/
theorem cleaner_step (taken : Step cfg s action s') :
    (s'.cleaner = s.cleaner ∧ ∀ outcome, action ≠ .cleaner outcome) ∨
      (action = .crash ∧ s' = s.boot) ∨
      ∃ outcome after, action = .cleaner outcome ∧
        s' = { after with cleaner := s'.cleaner } ∧
        s.CleanerStep cfg s.cleaner outcome after s'.cleaner := by
  cases taken with
  | crash => exact Or.inr (Or.inl ⟨rfl, rfl⟩)
  | tick => exact Or.inl ⟨rfl, fun _ => nofun⟩
  | receive booted => exact Or.inl ⟨rfl, fun _ => nofun⟩
  | worker found moved => exact Or.inl ⟨moved.frame.cleaner, fun _ => nofun⟩
  | request found moved => exact Or.inl ⟨moved.frame.cleaner, fun _ => nofun⟩
  | reaper moved => exact Or.inl ⟨moved.frame.cleaner, fun _ => nofun⟩
  | reconciler moved => exact Or.inl ⟨moved.frame.cleaner, fun _ => nofun⟩
  | cleaner moved => exact Or.inr (Or.inr ⟨_, _, rfl, rfl, moved⟩)

/-- A request of the next state was one before, has just arrived, or has just taken
the step. -/
theorem requests_step (taken : Step cfg s action s') {request : Request}
    (member : request ∈ s'.requests) :
    request ∈ s.requests ∨ (∃ bundle, request = .writing bundle) ∨
      ∃ index outcome old after, action = .request index outcome ∧
        s.requests[index]? = some old ∧ s.RequestStep old outcome after request ∧
        s' = { after with requests := after.requests.set index request } := by
  cases taken with
  | crash => cases member
  | tick => exact Or.inl member
  | receive booted =>
    rcases List.mem_append.mp member with kept | arrived
    · exact Or.inl kept
    · exact Or.inr (Or.inl ⟨_, List.mem_singleton.mp arrived⟩)
  | worker found moved => exact Or.inl (moved.frame.requests ▸ member)
  | request found moved =>
    rcases List.mem_or_eq_of_mem_set member with kept | rfl
    · rw [moved.frame.requests] at kept
      exact Or.inl kept
    · exact Or.inr (Or.inr ⟨_, _, _, _, rfl, found, moved, rfl⟩)
  | reaper moved => exact Or.inl (moved.frame.requests ▸ member)
  | reconciler moved => exact Or.inl (moved.frame.requests ▸ member)
  | cleaner moved => exact Or.inl (moved.frame.requests ▸ member)

/-- The clock does not go back. -/
theorem clock_mono (taken : Step cfg s action s') : s.clock ≤ s'.clock := by
  cases taken with
  | crash => exact Nat.le_refl _
  | tick => exact Nat.le_succ _
  | receive booted => exact Nat.le_refl _
  | worker found moved => exact Nat.le_of_eq moved.frame.clock.symm
  | request found moved => exact Nat.le_of_eq moved.frame.clock.symm
  | reaper moved => exact Nat.le_of_eq moved.frame.clock.symm
  | reconciler moved => exact Nat.le_of_eq moved.frame.clock.symm
  | cleaner moved => exact Nat.le_of_eq moved.frame.clock.symm

/-- File names are not given out again. -/
theorem nextFile_mono (taken : Step cfg s action s') : s.nextFile ≤ s'.nextFile := by
  cases taken with
  | crash => exact Nat.le_refl _
  | tick => exact Nat.le_refl _
  | receive booted => exact Nat.le_refl _
  | worker found moved => exact moved.frame.nextFile
  | request found moved => exact moved.frame.nextFile
  | reaper moved => exact moved.frame.nextFile
  | reconciler moved => exact moved.frame.nextFile
  | cleaner moved => exact moved.frame.nextFile

/-- Ids are not given out again. -/
theorem nextJob_mono (taken : Step cfg s action s') : s.nextJob ≤ s'.nextJob := by
  cases taken with
  | crash => exact Nat.le_refl _
  | tick => exact Nat.le_refl _
  | receive booted => exact Nat.le_refl _
  | worker found moved => exact moved.frame.nextJob
  | request found moved => exact moved.frame.nextJob
  | reaper moved => exact moved.frame.nextJob
  | reconciler moved => exact moved.frame.nextJob
  | cleaner moved => exact moved.frame.nextJob

/-- A selected row is in the table, RUNNING and due. -/
theorem mem_runningRows {due : JobId → Bool} {entry : JobId × RowIn .running}
    (selected : entry ∈ (s.runningRows due).rows) :
    s.jobs entry.1 = some entry.2.1 ∧ entry.1 < s.nextJob ∧ due entry.1 = true := by
  obtain ⟨member, wanted⟩ := List.mem_filter.mp selected
  obtain ⟨present, below⟩ := JobTable.mem_select member
  exact ⟨present, below, wanted⟩

/-- What is to be committed after a SELECT was selected. -/
theorem mem_afterSelect {batch : Batch} {entry : JobId × RowIn .running}
    (member : entry ∈ (afterSelect batch).batch) : entry ∈ batch.rows := by
  unfold afterSelect at member
  split at member
  · cases member
  · exact member

/-- A row about to be recovered was so before, or a sweep has just selected it. -/
theorem batch_step (taken : Step cfg s action s') {entry : JobId × RowIn .running}
    (member : entry ∈ s'.reaper.batch) :
    (entry ∈ s.reaper.batch ∧ ∀ outcome, action ≠ .reaper outcome) ∨
      (s.jobs entry.1 = some entry.2.1 ∧ entry.1 < s.nextJob ∧
        ((s.reaper = .sweeping ∧ action = .reaper .returns) ∨
          ∃ due, s.reaper = .sleeping ∧ action = .reaper (.selected due) ∧ entry.1 ∈ due)) := by
  cases taken with
  | crash => cases member
  | tick => exact Or.inl ⟨member, fun _ => nofun⟩
  | receive booted => exact Or.inl ⟨member, fun _ => nofun⟩
  | worker found moved => exact Or.inl ⟨moved.frame.reaper ▸ member, fun _ => nofun⟩
  | request found moved => exact Or.inl ⟨moved.frame.reaper ▸ member, fun _ => nofun⟩
  | reconciler moved => exact Or.inl ⟨moved.frame.reaper ▸ member, fun _ => nofun⟩
  | cleaner moved => exact Or.inl ⟨moved.frame.reaper ▸ member, fun _ => nofun⟩
  | reaper moved =>
    generalize position : s.reaper = old at moved
    cases moved with
    | sweep =>
      obtain ⟨present, below, -⟩ := mem_runningRows (mem_afterSelect member)
      exact Or.inr ⟨present, below, Or.inl ⟨rfl, rfl⟩⟩
    | reap booted =>
      obtain ⟨present, below, wanted⟩ := mem_runningRows (mem_afterSelect member)
      exact Or.inr ⟨present, below, Or.inr ⟨_, rfl, rfl, of_decide_eq_true wanted⟩⟩
    | _ => cases member

/-- After a SELECT the sweep is done. -/
@[simp] theorem afterSelect_unswept (batch : Batch) : (afterSelect batch).unswept = false := by
  unfold afterSelect
  split <;> rfl

/-- After a SELECT the reaper is awake. -/
theorem afterSelect_awake (batch : Batch) : afterSelect batch ≠ .sleeping := by
  unfold afterSelect
  split <;> exact nofun

/-- The reaper does not go back to the requeue. -/
theorem World.ReaperStep.not_requeuing {outcome : Outcome} {old new : Reaper}
    (moved : s.ReaperStep cfg old outcome s' new) : new ≠ .requeuing := by
  cases moved with
  | sweep | reap =>
    unfold afterSelect
    split <;> exact nofun
  | _ => exact nofun

/-- Every step keeps the phases of the startup. -/
theorem phased_step (taken : Step cfg s action s') (phased : Phased s) : Phased s' := by
  obtain ⟨quiet, recovering, asleep⟩ := phased
  cases taken with
  | crash => exact ⟨fun _ => ⟨rfl, rfl, rfl⟩, fun _ => rfl, nofun⟩
  | tick => exact ⟨quiet, recovering, asleep⟩
  | receive booted =>
    refine ⟨fun down => ?_, recovering, asleep⟩
    exact absurd booted (by rw [down]; exact Bool.false_ne_true)
  | worker found moved =>
    have kept := moved.frame
    refine ⟨fun down => ?_, fun unswept => ?_, fun sleeping => ?_⟩
    · rw [kept.booted] at down
      obtain ⟨requests, reconciler, cleaner⟩ := quiet down
      exact ⟨kept.requests.trans requests, kept.reconciler.trans reconciler,
        kept.cleaner.trans cleaner⟩
    · exact kept.booted.trans (recovering (kept.reaper ▸ unswept))
    · exact kept.booted.trans (asleep (kept.reaper ▸ sleeping))
  | request found moved =>
    have kept := moved.frame
    refine ⟨fun down => ?_, fun unswept => ?_, fun sleeping => ?_⟩
    · rw [kept.booted] at down
      rw [(quiet down).1] at found
      cases found
    · exact kept.booted.trans (recovering (kept.reaper ▸ unswept))
    · exact kept.booted.trans (asleep (kept.reaper ▸ sleeping))
  | reconciler moved =>
    have kept := moved.frame
    refine ⟨fun down => ?_, fun unswept => ?_, fun sleeping => ?_⟩
    · rw [kept.booted] at down
      rw [(quiet down).2.1] at moved
      cases moved with
      | select booted => simp [down] at booted
    · exact kept.booted.trans (recovering (kept.reaper ▸ unswept))
    · exact kept.booted.trans (asleep (kept.reaper ▸ sleeping))
  | cleaner moved =>
    have kept := moved.frame
    refine ⟨fun down => ?_, fun unswept => ?_, fun sleeping => ?_⟩
    · rw [kept.booted] at down
      rw [(quiet down).2.2] at moved
      cases moved with
      | purge booted => simp [down] at booted
    · exact kept.booted.trans (recovering (kept.reaper ▸ unswept))
    · exact kept.booted.trans (asleep (kept.reaper ▸ sleeping))
  | reaper moved =>
    have kept := moved.frame
    refine ⟨fun down => ?_, fun unswept => ?_, fun sleeping => ?_⟩
    · rcases moved.booted with same | ⟨up, -⟩
      · rw [same] at down
        obtain ⟨requests, reconciler, cleaner⟩ := quiet down
        exact ⟨kept.requests.trans requests, kept.reconciler.trans reconciler,
          kept.cleaner.trans cleaner⟩
      · simp [up] at down
    · generalize position : s.reaper = old at moved
      rw [position] at recovering
      cases moved with
      | requeue | enqueuePending | enqueued => exact recovering rfl
      | sweep | reap => simp at unswept
      | _ => cases unswept
    · generalize position : s.reaper = old at moved
      cases moved with
      | unread | unswept | unrecovered | finish => rfl
      | sweep | reap => exact absurd sleeping (afterSelect_awake _)
      | _ => cases sleeping

end Frames

/-! ## The statuses that a write assigns -/

section Targets

variable {cfg : Settings} {s s' : World} {job : JobId} {w : Write}

/-- The row that a write has found. -/
theorem World.Applies.found (applied : s.Applies s' w job) {row' : IngestJob}
    (now : s'.jobs job = some row') :
    ∃ row, s.jobs job = some row ∧ row' = IngestJob.overwrite w.loaded w.target row := by
  rw [applied.2] at now
  obtain ⟨row, present, same⟩ := Option.map_eq_some_iff.mp now
  exact ⟨row, present, same.symm⟩

/-- After a write the status is the one it assigns, or the one before. -/
theorem World.Applies.statusOf {status : Status} (applied : s.Applies s' w job)
    (now : s'.jobs.statusOf job = some status) :
    status = w.target.status ∨ s.jobs.statusOf job = some status := by
  unfold JobTable.statusOf at now ⊢
  rw [applied.2] at now
  cases present : s.jobs job with
  | none => simp [present] at now
  | some row =>
    simp only [present, Option.map_some, IngestJob.overwrite_status, Option.some.injEq] at now ⊢
    split at now
    · exact Or.inr now
    · exact Or.inl now.symm

/-- After a write that changes the status, the status is the one it assigns. -/
theorem World.Applies.assigned {status : Status} (applied : s.Applies s' w job)
    (changed : w.target.status ≠ w.loaded.status) (now : s'.jobs.statusOf job = some status) :
    status = w.target.status := by
  unfold JobTable.statusOf at now
  rw [applied.2] at now
  cases present : s.jobs job with
  | none => simp [present] at now
  | some row =>
    simp only [present, Option.map_some, IngestJob.overwrite_status, if_neg changed,
      Option.some.injEq] at now
    exact now.symm

/-- A write neither creates nor deletes a row. -/
theorem World.Applies.none_iff (applied : s.Applies s' w job) :
    s'.jobs job = none ↔ s.jobs job = none := by
  rw [applied.2]
  exact Option.map_eq_none_iff

/-- No write after the first of a worker's session starts an analysis again. -/
theorem Worker.late_target {worker : Worker} (late : worker.fresh = none)
    (pending : worker.write = some w) :
    w.target.status = .delivering ∨ w.target.status = .done ∨ w.target.status = .failed := by
  cases worker with
  | committingDelivering | committingDone | committingFailed =>
    cases pending
    simp [Write.delivering, Write.finished, Write.failed]
  | committingMark _ _ _ verdict =>
    cases pending
    cases verdict <;> simp [Write.mark]
  | committingMissing | committingRunning => cases late
  | _ => cases pending

/-- The reconciler marks a row DONE or FAILED. -/
theorem Reconciler.target {reconciler : Reconciler} (pending : reconciler.write = some w) :
    w.target.status = .done ∨ w.target.status = .failed := by
  cases reconciler with
  | committingMark _ _ _ verdict =>
    cases pending
    cases verdict <;> simp [Write.mark]
  | _ => cases pending

/-- A recovered row is PENDING or FAILED. -/
theorem recovery_target (entry : JobId × RowIn .running) :
    (recovery cfg entry).target.status = if requeues cfg entry.2 then .pending else .failed := by
  unfold recovery
  split <;> rfl

/-- A recovery changes the status. -/
theorem recovery_changed (entry : JobId × RowIn .running) :
    (recovery cfg entry).target.status ≠ (recovery cfg entry).loaded.status := by
  have before : (recovery cfg entry).loaded.status = .running := entry.2.2
  rw [recovery_target, before]
  split <;> exact nofun

/-- The claim of a worker before its first commit is counted. -/
theorem unstarted_pos {worker : Worker} (member : worker ∈ s.workers)
    (fresh : worker.fresh = some job) : 0 < s.unstarted job := by
  have counted : 0 < s.workers.countP fun worker => worker.fresh = some job :=
    List.countP_pos_iff.mpr ⟨worker, member, by simpa using fresh⟩
  unfold unstarted
  omega

/-- A job that a worker has taken it holds. -/
theorem Worker.held_of_fresh {worker : Worker} {job : JobId} (fresh : worker.fresh = some job) :
    worker.held = some job := by
  cases worker with
  | selecting | restoring | committingMissing | committingRunning => exact fresh
  | _ => cases fresh

/-- A job that a worker runs it holds. -/
theorem Worker.held_of_running {worker : Worker} {job : JobId} {row : IngestJob}
    (running : worker.running = some (job, row)) : worker.held = some job := by
  cases worker with
  | analysing | committingDelivering | committingDone | committingFailed =>
    cases running
    rfl
  | _ => cases running

/-- A worker that has a row loaded kept it, or has just read it. -/
theorem World.WorkerStep.loaded {outcome : Outcome} {old new : Worker} {row : IngestJob}
    (moved : s.WorkerStep old outcome s' new) (loaded : new.loaded = some row) :
    (old.loaded = some row ∧ old.fresh = new.fresh) ∨
      ∃ job, old.fresh = some job ∧ new.fresh = some job ∧ s.jobs job = some row := by
  cases moved with
  | load present =>
    cases loaded
    exact Or.inr ⟨_, rfl, rfl, present⟩
  | restore | lack => exact Or.inl ⟨loaded, rfl⟩
  | _ => cases loaded

end Targets

/-! ## `Sound` is inductive -/

section Sound

variable {cfg : Settings} {s s' : World} {action : Action}

/-- A job is to be started by one task at most. -/
theorem sound_once (taken : Step cfg s action s') (sound : Sound s) (job : JobId) :
    s'.unstarted job ≤ 1 := by
  have before := sound.once job
  cases step_change taken job with
  | @recovered entry _ selected applied claims =>
    have here : entry.1 = job := applied.1
    have rested : s.unstarted job = 0 := here ▸ (sound.batch entry selected).2
    split at claims <;> omega
  | requeued _ reading _ _ claims =>
    have := sound.requeuing reading job
    omega
  | inserted _ _ next _ _ claims =>
    have := (sound.beyond job (Nat.le_of_eq next.symm)).2
    omega
  | _ => omega

/-- A RUNNING job is to be started by none. -/
theorem sound_running (taken : Step cfg s action s') (sound : Sound s) (job : JobId)
    (running : s'.jobs.statusOf job = some .running) : s'.unstarted job = 0 := by
  have before := sound.once job
  have rested := sound.running job
  have kept (row : s'.jobs job = s.jobs job) : s.unstarted job = 0 := by
    apply rested
    rw [← running]
    exact congrArg (Option.map _) row.symm
  cases step_change taken job with
  | idle row | crashed _ row | abandoned _ _ _ row | unlisted _ _ row =>
    have := kept row
    omega
  | vanished _ row | purged _ _ _ row => simp [JobTable.statusOf, row] at running
  | started => omega
  | forgone _ _ applied =>
    rcases applied.statusOf running with same | same
    · cases same
    · have := rested same
      omega
  | concluded _ _ late pending applied =>
    rcases applied.statusOf running with same | same
    · have := Worker.late_target late pending
      simp [← same] at this
    · have := rested same
      omega
  | reconciled _ pending applied =>
    rcases applied.statusOf running with same | same
    · have := Reconciler.target pending
      simp [← same] at this
    · have := rested same
      omega
  | recovered _ _ applied claims =>
    have same := applied.assigned (recovery_changed _) running
    rw [recovery_target] at same
    split at same <;> cases same
  | requeued _ _ pending row =>
    rw [show s'.jobs.statusOf job = s.jobs.statusOf job from congrArg (Option.map _) row,
      pending] at running
    cases running
  | inserted _ _ _ _ row => simp [JobTable.statusOf, row, newRow] at running

/-- Nor is a job that is being recovered. -/
theorem sound_batch (taken : Step cfg s action s') (sound : Sound s)
    (entry : JobId × RowIn .running) (member : entry ∈ s'.reaper.batch) :
    entry.1 < s'.nextJob ∧ s'.unstarted entry.1 = 0 := by
  have grown := nextJob_mono taken
  -- a batch that stays keeps its rows unstarted; a sweep has selected RUNNING rows
  have rested : entry.1 < s.nextJob ∧ s.unstarted entry.1 = 0 := by
    rcases batch_step taken member with ⟨kept, -⟩ | ⟨present, below, -⟩
    · exact sound.batch entry kept
    · refine ⟨below, sound.running _ ?_⟩
      simp [JobTable.statusOf, present, entry.2.2]
  refine ⟨Nat.lt_of_lt_of_le rested.1 grown, ?_⟩
  cases step_change taken entry.1 with
  | recovered committing selected =>
    rcases batch_step taken member with ⟨-, other⟩ | ⟨-, -, ⟨reading, -⟩ | ⟨due, reading, -⟩⟩
    · exact absurd committing (other _)
    · rw [reading] at selected
      cases selected
    · rw [reading] at selected
      cases selected
  | requeued listing reading =>
    rcases batch_step taken member with ⟨-, other⟩ | ⟨-, -, ⟨sweeping, -⟩ | ⟨due, sleeping, -⟩⟩
    · exact absurd listing (other _)
    · rw [reading] at sweeping
      cases sweeping
    · rw [reading] at sleeping
      cases sleeping
  | inserted _ _ next => exact absurd next (Nat.ne_of_lt rested.1)
  | _ => omega

/-- A row that a worker has read was not RUNNING. -/
theorem sound_loaded (taken : Step cfg s action s') (sound : Sound s) (worker : Worker)
    (member : worker ∈ s'.workers) (row : IngestJob) (loaded : worker.loaded = some row) :
    row.status ≠ .running := by
  rcases workers_step taken member with before | rfl | ⟨_, _, old, _, -, found, moved, -⟩
  · exact sound.loaded worker before row loaded
  · cases loaded
  · have present := List.mem_of_getElem? found
    rcases moved.loaded loaded with ⟨kept, -⟩ | ⟨job, fresh, -, read⟩
    · exact sound.loaded old present row kept
    · intro running
      have claimed := unstarted_pos present fresh
      have rested := sound.running job (by simp [JobTable.statusOf, read, running])
      omega

/-- A job becomes PENDING only while nothing claims it unstarted. -/
theorem pending_step (taken : Step cfg s action s') (sound : Sound s) {job : JobId}
    (claimed : 0 < s.unstarted job) (pending : s'.jobs.statusOf job = some .pending) :
    s.jobs.statusOf job = some .pending := by
  have kept (row : s'.jobs job = s.jobs job) : s.jobs.statusOf job = some .pending :=
    (congrArg (Option.map _) row.symm).trans pending
  cases step_change taken job with
  | idle row | crashed _ row | abandoned _ _ _ row | unlisted _ _ row | requeued _ _ _ row =>
    exact kept row
  | vanished _ row | purged _ _ _ row => simp [JobTable.statusOf, row] at pending
  | forgone _ _ applied | started _ _ _ applied =>
    rcases applied.statusOf pending with assigned | before
    · cases assigned
    · exact before
  | concluded _ _ late writing applied =>
    rcases applied.statusOf pending with assigned | before
    · have := Worker.late_target late writing
      simp [← assigned] at this
    · exact before
  | reconciled _ writing applied =>
    rcases applied.statusOf pending with assigned | before
    · have := Reconciler.target writing
      simp [← assigned] at this
    · exact before
  | @recovered entry _ selected applied =>
    have here : entry.1 = job := applied.1
    have rested := (sound.batch entry selected).2
    rw [here] at rested
    omega
  | inserted _ _ next =>
    have := (sound.beyond job (Nat.le_of_eq next.symm)).2
    omega

/-- A worker that takes a PENDING job has read it so. -/
theorem sound_current (taken : Step cfg s action s') (sound : Sound s) (worker : Worker)
    (member : worker ∈ s'.workers) (job : JobId) (row : IngestJob)
    (fresh : worker.fresh = some job) (loaded : worker.loaded = some row)
    (pending : s'.jobs.statusOf job = some .pending) : row.status = .pending := by
  rcases workers_step taken member with before | rfl | ⟨_, _, old, _, -, found, moved, -⟩
  · have claimed := unstarted_pos before fresh
    exact sound.current worker before job row fresh loaded (pending_step taken sound claimed pending)
  · cases loaded
  · have present := List.mem_of_getElem? found
    rcases moved.loaded loaded with ⟨kept, same⟩ | ⟨own, claimed, moving, read⟩
    · have claimed := unstarted_pos present (same.trans fresh)
      exact sound.current old present job row (same.trans fresh) kept
        (pending_step taken sound claimed pending)
    · rw [fresh] at moving
      cases moving
      have before := pending_step taken sound (unstarted_pos present claimed) pending
      simpa [JobTable.statusOf, read] using before

/-- The RUNNING commit of `_process` changes the status, and so finds a row. -/
theorem Sound.start_changed (sound : Sound s) {index : Nat} {job : JobId} {row : IngestJob}
    {bundle : IngestBundle} (found : s.workers[index]? = some (.committingRunning job row bundle)) :
    (Write.running job row).target.status ≠ (Write.running job row).loaded.status := by
  have loaded := sound.loaded _ (List.mem_of_getElem? found) row rfl
  exact fun same => loaded same.symm

/-- An id that has not been given out has no row and no task. -/
theorem sound_beyond (taken : Step cfg s action s') (sound : Sound s) (job : JobId)
    (beyond : s'.nextJob ≤ job) : s'.jobs job = none ∧ s'.unstarted job = 0 := by
  obtain ⟨missing, rested⟩ := sound.beyond job (Nat.le_trans (nextJob_mono taken) beyond)
  cases step_change taken job with
  | idle row | crashed _ row => exact ⟨row.trans missing, by omega⟩
  | abandoned | vanished | forgone | started | unlisted => omega
  | concluded _ _ _ _ applied | reconciled _ _ applied =>
    exact ⟨applied.none_iff.mpr missing, by omega⟩
  | @recovered entry _ selected applied =>
    have here : entry.1 = job := applied.1
    have below := (sound.batch entry selected).1
    rw [here] at below
    exact absurd below (Nat.not_lt.mpr (Nat.le_trans (nextJob_mono taken) beyond))
  | requeued _ _ pending => simp [JobTable.statusOf, missing] at pending
  | inserted _ _ next advanced =>
    rw [advanced, next] at beyond
    exact absurd beyond (Nat.not_succ_le_self _)
  | purged _ present => simp [missing] at present

/-- No job is to be started before the requeue has read the table. -/
theorem sound_requeuing (taken : Step cfg s action s') (phased : Phased s) (sound : Sound s)
    (reading : s'.reaper = .requeuing) (job : JobId) : s'.unstarted job = 0 := by
  rcases reaper_step taken with ⟨same, other⟩ | rfl | ⟨_, _, _, _, moved⟩
  · rw [same] at reading
    have rested := sound.requeuing reading job
    have before := phased.quiet (phased.recovering (by rw [reading]; rfl))
    cases step_change taken job with
    | recovered committing => exact absurd committing (other _)
    | requeued listing => exact absurd listing (other _)
    | inserted _ found =>
      rw [before.1] at found
      cases found
    | _ => omega
  · exact unstarted_boot s job
  · exact absurd reading moved.not_requeuing

/-- Every step keeps the world sound. -/
theorem sound_step (taken : Step cfg s action s') (phased : Phased s) (sound : Sound s) :
    Sound s' :=
  ⟨sound_once taken sound, sound_running taken sound, sound_batch taken sound,
    sound_loaded taken sound, sound_current taken sound, sound_beyond taken sound,
    sound_requeuing taken phased sound⟩

end Sound

/-! ## Consequences -/

section Consequences

variable {cfg : Settings} {s s' : World} {action : Action}

/-- A row becomes RUNNING by the commit of `_process` only. -/
theorem running_step (taken : Step cfg s action s') {job : JobId}
    (running : s'.jobs.statusOf job = some .running) :
    s.jobs.statusOf job = some .running ∨
      ∃ index loaded bundle, action = .worker index .returns ∧
        s.workers[index]? = some (.committingRunning job loaded bundle) := by
  have kept (row : s'.jobs job = s.jobs job) : s.jobs.statusOf job = some .running :=
    (congrArg (Option.map _) row.symm).trans running
  cases step_change taken job with
  | idle row | crashed _ row | abandoned _ _ _ row | unlisted _ _ row | requeued _ _ _ row =>
    exact Or.inl (kept row)
  | vanished _ row | purged _ _ _ row => simp [JobTable.statusOf, row] at running
  | forgone _ _ applied => exact Or.inl ((applied.statusOf running).resolve_left fun same => by cases same)
  | started committing found => exact Or.inr ⟨_, _, _, committing, found⟩
  | concluded _ _ late writing applied =>
    rcases applied.statusOf running with assigned | before
    · have := Worker.late_target late writing
      simp [← assigned] at this
    · exact Or.inl before
  | reconciled _ writing applied =>
    rcases applied.statusOf running with assigned | before
    · have := Reconciler.target writing
      simp [← assigned] at this
    · exact Or.inl before
  | recovered _ _ applied =>
    have assigned := applied.assigned (recovery_changed _) running
    rw [recovery_target] at assigned
    split at assigned <;> cases assigned
  | inserted _ _ _ _ row => simp [JobTable.statusOf, row, newRow] at running

/-- A row was there before, with the same `bundle` and `signals_path`, or has just
been inserted. -/
theorem row_step (taken : Step cfg s action s') {job : JobId} {row' : IngestJob}
    (now : s'.jobs job = some row') :
    (∃ row, s.jobs job = some row ∧ row'.bundle = row.bundle ∧
      row'.signalsPath = row.signalsPath) ∨
    ∃ index bundle path, action = .request index .returns ∧
      s.requests[index]? = some (.committing bundle path) ∧ job = s.nextJob ∧
      row' = newRow bundle path := by
  have written {w : Write} (applied : s.Applies s' w job) : ∃ row, s.jobs job = some row ∧
      row'.bundle = row.bundle ∧ row'.signalsPath = row.signalsPath := by
    obtain ⟨row, present, rfl⟩ := applied.found now
    exact ⟨row, present, rfl, rfl⟩
  cases step_change taken job with
  | idle row | crashed _ row | abandoned _ _ _ row | unlisted _ _ row | requeued _ _ _ row =>
    exact Or.inl ⟨row', row ▸ now, rfl, rfl⟩
  | vanished _ row | purged _ _ _ row =>
    rw [row] at now
    cases now
  | forgone _ _ applied | started _ _ _ applied | concluded _ _ _ _ applied
  | reconciled _ _ applied | recovered _ _ applied => exact Or.inl (written applied)
  | inserted committing found next _ row =>
    rw [row] at now
    exact Or.inr ⟨_, _, _, committing, found, next, (Option.some.inj now).symm⟩

/-- No step assigns `bundle` or `signals_path`. -/
theorem columns_step (taken : Step cfg s action s') {job : JobId} (issued : job < s.nextJob)
    {row' : IngestJob} (now : s'.jobs job = some row') : ∃ row, s.jobs job = some row ∧
      row'.bundle = row.bundle ∧ row'.signalsPath = row.signalsPath := by
  rcases row_step taken now with before | ⟨_, _, _, -, -, next, -⟩
  · exact before
  · exact absurd next (Nat.ne_of_lt issued)

/-- A job with an unstarted claim has been inserted. -/
theorem Sound.issued (sound : Sound s) {job : JobId} (claimed : 0 < s.unstarted job) :
    job < s.nextJob := by
  by_contra beyond
  have rested := (sound.beyond job (Nat.le_of_not_lt beyond)).2
  omega

/-- Only the reaper moves the stage on, and only a crash moves it back. -/
theorem booted_step (taken : Step cfg s action s') :
    s'.booted = s.booted ∨ s' = s.boot ∨
      ((∃ outcome, action = .reaper outcome) ∧ s'.booted = true ∧ s'.reaper = .sleeping) := by
  cases taken with
  | crash => exact Or.inr (Or.inl rfl)
  | tick => exact Or.inl rfl
  | receive booted => exact Or.inl rfl
  | worker _ moved => exact Or.inl moved.frame.booted
  | request _ moved => exact Or.inl moved.frame.booted
  | reconciler moved => exact Or.inl moved.frame.booted
  | cleaner moved => exact Or.inl moved.frame.booted
  | reaper moved =>
    rcases moved.booted with same | ⟨up, asleep⟩
    · exact Or.inl same
    · exact Or.inr (Or.inr ⟨⟨_, rfl⟩, up, asleep⟩)

/-- A job with a row has been inserted. -/
theorem Sound.inserted (sound : Sound s) {job : JobId} {row : IngestJob}
    (present : s.jobs job = some row) : job < s.nextJob := by
  by_contra beyond
  rw [(sound.beyond job (Nat.le_of_not_lt beyond)).1] at present
  cases present

end Consequences

/-! ## Runs -/

/-- A process starts in the first phase. -/
theorem Starting.phased {s : World} (starting : Starting s) : Phased s := by
  rw [starting.booting]
  exact ⟨fun _ => ⟨rfl, rfl, rfl⟩, fun _ => rfl, nofun⟩

/-- A process starts sound. -/
theorem Starting.sound {s : World} (starting : Starting s) : Sound s := by
  have rested (job : JobId) : s.unstarted job = 0 := by
    rw [starting.booting]
    exact unstarted_boot s job
  refine ⟨fun job => ?_, fun job _ => rested job, fun entry member => ?_,
    fun worker member row loaded => ?_, fun worker member job row fresh => ?_, fun job beyond => ⟨starting.unused job beyond, rested job⟩,
    fun _ => rested⟩
  · have := rested job
    omega
  · rw [starting.booting] at member
    cases member
  · rw [starting.booting] at member
    obtain ⟨old, -, rfl⟩ := List.mem_map.mp member
    cases loaded
  · rw [starting.booting] at member
    obtain ⟨old, -, rfl⟩ := List.mem_map.mp member
    cases fresh

/-- The invariants hold wherever a new process gets to. -/
theorem reached_sound {cfg : Settings} {allowed : World → Action → Prop} {start s : World}
    (starting : Starting start)
    (reached : TransitionSystem.Reaches (step cfg) allowed start s) : Phased s ∧ Sound s := by
  refine reached.invariant (fun s => Phased s ∧ Sound s) ⟨starting.phased, starting.sound⟩ ?_
  intro state action next _ invariant _ taken
  have rule := step_rule taken
  exact ⟨phased_step rule invariant.1, sound_step rule invariant.1 invariant.2⟩

end RcaBackend
