import RcaBackend.JobInvariants

/-!
# Terminal states

The check "only a DELIVERING job" of `_mark_done` and `_mark_failed` reads the row
in one await and commits in a later one. Another commit in between is overwritten,
and so a DONE job can become FAILED. Where every commit still finds the status its
session read, DONE and FAILED are final: only the cleaner removes such rows.
-/

namespace RcaBackend

open World

/-- Every write of the step finds its row with the status that its session read,
or with the one it assigns. -/
def Undisturbed (cfg : Settings) (s : World) (action : Action) : Prop :=
  ∀ w ∈ writes cfg s action, ∀ row ∈ s.jobs w.job,
    row.status = w.loaded.status ∨ row.status = w.target.status

instance (cfg : Settings) (s : World) (action : Action) : Decidable (Undisturbed cfg s action) :=
  inferInstanceAs (Decidable (∀ _ ∈ _, _))

/-- A job that may still be started is PENDING, and was when its row was read. -/
structure Untouched (s : World) : Prop where
  pending : ∀ job, 0 < s.unstarted job → ∀ row, s.jobs job = some row → row.status = .pending
  loaded : ∀ worker ∈ s.workers, ∀ row, worker.loaded = some row → row.status = .pending

section Writes

variable {cfg : Settings} {s s' : World} {action : Action} {job : JobId} {w : Write}

/-- The status that a session has read before a write that is not its first. -/
theorem Worker.late_loaded {worker : Worker} (late : worker.fresh = none)
    (writing : worker.write = some w) :
    w.loaded.status = .running ∨ w.loaded.status = .delivering := by
  cases worker with
  | committingDelivering | committingDone | committingFailed =>
    cases writing
    exact Or.inl rfl
  | committingMark _ _ row verdict =>
    cases writing
    cases verdict <;> exact Or.inr row.2
  | committingMissing | committingRunning => cases late
  | _ => cases writing

theorem Reconciler.loaded {reconciler : Reconciler} (writing : reconciler.write = some w) :
    w.loaded.status = .delivering := by
  cases reconciler with
  | committingMark _ _ row verdict _ =>
    cases writing
    cases verdict <;> exact row.2
  | _ => cases writing

/-- Where the writes are undisturbed, a job that may still be started stays
PENDING. -/
theorem untouched_pending (taken : Step cfg s action s') (sound : Sound s)
    (untouched : Untouched s) (undisturbed : Undisturbed cfg s action) (job : JobId)
    (claimed : 0 < s'.unstarted job) (row' : IngestJob) (now : s'.jobs job = some row') :
    row'.status = .pending := by
  have once := sound.once job
  cases step_change taken job with
  | idle row claims => exact untouched.pending job (by omega) row' (row ▸ now)
  | crashed | abandoned | vanished | forgone | started | unlisted => omega
  | purged _ _ _ row =>
    rw [row] at now
    cases now
  | concluded committing found late writing applied claims =>
    -- a later write has read RUNNING or DELIVERING, and would be disturbed
    obtain ⟨row, present, -⟩ := applied.found now
    have waiting := untouched.pending job (by omega) row present
    have member := mem_writes_worker cfg found writing
    rcases undisturbed _ (committing ▸ member) row (applied.1 ▸ present) with same | same
    · rcases Worker.late_loaded late writing with before | before <;>
        simp [before, waiting] at same
    · rcases Worker.late_target late writing with after | after | after <;>
        simp [after, waiting] at same
  | reconciled committing writing applied claims =>
    obtain ⟨row, present, -⟩ := applied.found now
    have waiting := untouched.pending job (by omega) row present
    have member := mem_writes_reconciler cfg writing
    rcases undisturbed _ (committing ▸ member) row (applied.1 ▸ present) with same | same
    · simp [Reconciler.loaded writing, waiting] at same
    · rcases Reconciler.target writing with after | after <;> simp [after, waiting] at same
  | @recovered entry _ selected applied claims =>
    have here : entry.1 = job := applied.1
    have rested := (sound.batch entry selected).2
    rw [here] at rested
    have status : s'.jobs.statusOf job = some row'.status := by simp [JobTable.statusOf, now]
    have assigned := applied.assigned (recovery_changed _) status
    rw [recovery_target] at assigned
    by_cases wanted : requeues cfg entry.2 = true
    · exact assigned.trans (if_pos wanted)
    · rw [if_neg wanted] at claims
      omega
  | requeued _ _ pending row =>
    simpa [JobTable.statusOf, ← row, now] using pending
  | inserted _ _ _ _ row =>
    rw [row] at now
    cases now
    rfl

theorem untouched_loaded (taken : Step cfg s action s') (untouched : Untouched s)
    (worker : Worker) (member : worker ∈ s'.workers) (row : IngestJob)
    (loaded : worker.loaded = some row) : row.status = .pending := by
  rcases workers_step taken member with before | rfl | ⟨_, _, old, _, -, found, moved, -⟩
  · exact untouched.loaded worker before row loaded
  · cases loaded
  · have present := List.mem_of_getElem? found
    rcases moved.loaded loaded with ⟨kept, -⟩ | ⟨job, fresh, -, read⟩
    · exact untouched.loaded old present row kept
    · exact untouched.pending job (unstarted_pos present fresh) row read

end Writes

/-! ## DONE and FAILED are final -/

section Terminal

variable {cfg : Settings} {s s' : World} {action : Action} {job : JobId} {status : Status}

/-- An undisturbed write of a session that has read an unfinished row changes no
finished one. -/
theorem finished_write {w : Write} (undisturbed : Undisturbed cfg s action)
    (member : w ∈ writes cfg s action) (unfinished : w.loaded.status.terminal = false)
    (applied : s.Applies s' w job) (terminal : status.terminal = true)
    (finished : s.jobs.statusOf job = some status) : s'.jobs.statusOf job = some status := by
  obtain ⟨row, present, rfl⟩ := Option.map_eq_some_iff.mp finished
  rw [JobTable.statusOf, applied.2, present]
  rcases undisturbed w member row (applied.1 ▸ present) with same | same
  · simp [same, unfinished] at terminal
  · simp [IngestJob.overwrite_status, same]

/-- A step keeps a finished row's status, or removes the row. -/
theorem terminal_step (taken : Step cfg s action s') (sound : Sound s) (untouched : Untouched s)
    (undisturbed : Undisturbed cfg s action) (terminal : status.terminal = true)
    (finished : s.jobs.statusOf job = some status) :
    s'.jobs.statusOf job = some status ∨ s'.jobs job = none := by
  have kept (row : s'.jobs job = s.jobs job) : s'.jobs.statusOf job = some status :=
    (congrArg (Option.map _) row).trans finished
  cases step_change taken job with
  | idle row | crashed _ row | abandoned _ _ _ row | unlisted _ _ row | requeued _ _ _ row =>
    exact Or.inl (kept row)
  | vanished _ row | purged _ _ _ row => exact Or.inr row
  | forgone committing found applied =>
    have waiting := untouched.loaded _ (List.mem_of_getElem? found) _ rfl
    have member := mem_writes_worker cfg found rfl
    refine Or.inl (finished_write undisturbed (committing ▸ member) ?_ applied terminal finished)
    simp [Write.missing, waiting, Status.terminal]
  | started committing found _ applied =>
    have waiting := untouched.loaded _ (List.mem_of_getElem? found) _ rfl
    have member := mem_writes_worker cfg found rfl
    refine Or.inl (finished_write undisturbed (committing ▸ member) ?_ applied terminal finished)
    simp [Write.running, waiting, Status.terminal]
  | concluded committing found late writing applied =>
    have member := mem_writes_worker cfg found writing
    refine Or.inl (finished_write undisturbed (committing ▸ member) ?_ applied terminal finished)
    rcases Worker.late_loaded late writing with same | same <;> rw [same] <;> rfl
  | reconciled committing writing applied =>
    have member := mem_writes_reconciler cfg writing
    refine Or.inl (finished_write undisturbed (committing ▸ member) ?_ applied terminal finished)
    rw [Reconciler.loaded writing]
    rfl
  | @recovered entry committing selected applied =>
    have member : recovery cfg entry ∈ writes cfg s (.reaper .returns) :=
      List.mem_map_of_mem selected
    refine Or.inl (finished_write undisturbed (committing ▸ member) ?_ applied terminal finished)
    rw [show (recovery cfg entry).loaded.status = .running from entry.2.2]
    rfl
  | inserted _ _ next =>
    have missing := (sound.beyond job (Nat.le_of_eq next.symm)).1
    simp [JobTable.statusOf, missing] at finished

/-- A deleted job's id is not used again. -/
theorem deleted_step (taken : Step cfg s action s') (below : job < s.nextJob)
    (deleted : s.jobs job = none) : s'.jobs job = none := by
  cases step_change taken job with
  | idle row | crashed _ row | abandoned _ _ _ row | unlisted _ _ row | requeued _ _ _ row =>
    exact row.trans deleted
  | vanished _ row | purged _ _ _ row => exact row
  | forgone _ _ applied | started _ _ _ applied | concluded _ _ _ _ applied
  | reconciled _ _ applied | recovered _ _ applied => exact applied.none_iff.mpr deleted
  | inserted _ _ next => exact absurd next (Nat.ne_of_lt below)

theorem Starting.untouched {s : World} (starting : Starting s) : Untouched s := by
  refine ⟨fun job claimed => ?_, fun worker member row loaded => ?_⟩
  · rw [starting.booting, unstarted_boot] at claimed
    exact absurd claimed (Nat.lt_irrefl 0)
  · rw [starting.booting] at member
    obtain ⟨old, -, rfl⟩ := List.mem_map.mp member
    cases loaded

theorem reached_untouched {start : World} (starting : Starting start)
    (reached : TransitionSystem.Reaches (step cfg) (Undisturbed cfg) start s) : Untouched s := by
  refine reached.invariant Untouched starting.untouched ?_
  intro state action next before untouched undisturbed taken
  have rule := step_rule taken
  have sound := (reached_sound starting before).2
  exact ⟨untouched_pending rule sound untouched undisturbed, untouched_loaded rule untouched⟩

/-- Where every write finds the status that its session read, a job that is DONE
or FAILED stays so until its row is deleted. -/
theorem terminal_absorbing {start : World} (starting : Starting start)
    (reached : TransitionSystem.Reaches (step cfg) (Undisturbed cfg) start s)
    (terminal : status.terminal = true) (finished : s.jobs.statusOf job = some status)
    (continued : TransitionSystem.Reaches (step cfg) (Undisturbed cfg) s s') :
    s'.jobs.statusOf job = some status ∨ s'.jobs job = none := by
  have below : job < s.nextJob := by
    by_contra beyond
    have missing := ((reached_sound starting reached).2.beyond job (Nat.le_of_not_lt beyond)).1
    simp [JobTable.statusOf, missing] at finished
  have invariant : job < s'.nextJob ∧
      (s'.jobs.statusOf job = some status ∨ s'.jobs job = none) := by
    refine continued.invariant (fun state => job < state.nextJob ∧
      (state.jobs.statusOf job = some status ∨ state.jobs job = none)) ⟨below, Or.inl finished⟩ ?_
    rintro state action next before ⟨issued, still⟩ undisturbed taken
    have rule := step_rule taken
    have whole := reached.trans before
    refine ⟨Nat.lt_of_lt_of_le issued (nextJob_mono rule), ?_⟩
    rcases still with same | deleted
    · exact terminal_step rule (reached_sound starting whole).2 (reached_untouched starting whole)
        undisturbed terminal same
    · exact Or.inr (deleted_step rule issued deleted)
  exact invariant.2

end Terminal

/-- Startup on an empty table, one ingest, and its delivery up to the worker's
look at the row. -/
def deliveryRun : List Action :=
  [.reaper (.raises []), .receive (.bare .epoch), .request 0 .returns, .request 0 .returns,
    .request 0 .returns, .request 0 .returns, .worker 0 .returns, .worker 0 .returns,
    .worker 0 .returns, .worker 0 .returns, .worker 0 (.produced (.bare [])),
    .worker 0 .returns, .worker 0 .processed, .worker 0 .returns]

/-- Nobody disturbs the worker's mark, and the reconciler finds nothing to send. -/
theorem terminal_absorbing_deliveryRun :
    ∃ s s', TransitionSystem.run (step ⟨1, 0⟩) (World.initial 1)
        (deliveryRun ++ [.worker 0 .returns]) = some s ∧
      s.jobs.statusOf 1 = some .done ∧
      TransitionSystem.run (step ⟨1, 0⟩) s [.worker 0 .returns, .reconciler (.selected [1])] =
        some s' ∧
      (s'.jobs.statusOf 1 = some .done ∨ s'.jobs 1 = none) := by
  obtain ⟨s, executed, passed⟩ := TransitionSystem.run_passes (step ⟨1, 0⟩) (World.initial 1)
    (deliveryRun ++ [.worker 0 .returns])
    (fun s => decide (s.jobs.statusOf 1 = some .done) &&
      decide (TransitionSystem.allows (step ⟨1, 0⟩) (Undisturbed ⟨1, 0⟩) s
        [.worker 0 .returns, .reconciler (.selected [1])]) &&
      (TransitionSystem.run (step ⟨1, 0⟩) s [.worker 0 .returns, .reconciler (.selected [1])]).any
        fun _ : World => true) (by decide)
  rw [Bool.and_eq_true, Bool.and_eq_true, Option.any_eq_true] at passed
  obtain ⟨⟨done, permitted⟩, s', continued, -⟩ := passed
  refine ⟨s, s', executed, of_decide_eq_true done, continued, ?_⟩
  exact terminal_absorbing (initial_starting 1) (.of_run executed (by decide)) rfl
    (of_decide_eq_true done) (.of_run continued (of_decide_eq_true permitted))

/-- The reconciler sends the same report before the worker commits DONE, and is
refused. -/
def refusalRun : List Action :=
  [.reconciler (.selected [1]), .reconciler .returns, .reconciler (.rejected []),
    .reconciler .returns]

/-- Both have seen DELIVERING: the job becomes DONE, and then FAILED. -/
theorem done_overwritten :
    ∃ s s', TransitionSystem.run (step ⟨1, 0⟩) (World.initial 1)
        (deliveryRun ++ refusalRun ++ [.worker 0 .returns]) = some s ∧
      s.jobs.statusOf 1 = some .done ∧ step ⟨1, 0⟩ s (.reconciler .returns) = some s' ∧
      s'.jobs.statusOf 1 = some .failed := by
  obtain ⟨s, executed, passed⟩ := TransitionSystem.run_passes (step ⟨1, 0⟩) (World.initial 1)
    (deliveryRun ++ refusalRun ++ [.worker 0 .returns])
    (fun s => decide (s.jobs.statusOf 1 = some .done) && (step ⟨1, 0⟩ s (.reconciler .returns)).any
      fun s' : World => decide (s'.jobs.statusOf 1 = some .failed)) (by decide)
  rw [Bool.and_eq_true, Option.any_eq_true] at passed
  obtain ⟨done, s', taken, failed⟩ := passed
  exact ⟨s, s', executed, of_decide_eq_true done, taken, of_decide_eq_true failed⟩

end RcaBackend
