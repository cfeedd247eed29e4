import RcaBackend.JobInvariants

/-!
# One owner per job within a process

The startup sweep takes every RUNNING row for one that the last process left
behind. But the workers are already running, and the PENDING rows were enqueued
before: a job that a worker has just committed RUNNING is swept as well, and gets
a second queue entry. Where the sweep finds no such row, and the periodic reaper
none that a worker holds, each job has at most one queue entry or worker.
-/

namespace RcaBackend

open World

/-- The rows that the SELECT of a sweep is about to collect. -/
def World.collected (s : World) (outcome : Outcome) : List (JobId × RowIn .running) :=
  match s.reaper, outcome with
  | .sweeping, .returns => (s.runningRows fun _ => true).rows
  | .sleeping, .selected due => (s.runningRows fun job => decide (job ∈ due)).rows
  | _, _ => []

/-- The startup sweep finds no row that this process has committed RUNNING, the
periodic reaper none that a worker holds; and the process lives on. -/
def Undisputed (s : World) : Action → Prop
  | .crash => False
  | .reaper outcome => ∀ entry ∈ s.collected outcome,
      if s.booted then ∀ worker ∈ s.workers, worker.held ≠ some entry.1
      else s.startsHere entry.1 = 0
  | .tick | .receive _ | .worker _ _ | .request _ _ | .reconciler _ | .cleaner _ => True

instance (s : World) : ∀ action, Decidable (Undisputed s action)
  | .crash => isFalse id
  | .reaper _ => inferInstanceAs (Decidable (∀ _ ∈ _, ite _ _ _))
  | .tick | .receive _ | .worker _ _ | .request _ _ | .reconciler _ | .cleaner _ =>
    isTrue trivial

namespace World

/-- Queue entries of the job, and workers inside `_process` for it. -/
def claims (s : World) (job : JobId) : Nat :=
  s.queue.count job + s.workers.countP fun worker => worker.held = some job

/-- The claims, and what a reaper or request will turn into a queue entry. -/
def prospects (s : World) (job : JobId) : Nat :=
  s.claims job + s.reaper.backlog.count job + (s.reaper.batch.map Prod.fst).count job +
    s.requests.countP fun request => request.backlog = some job

end World

/-- Every job has one owner at most, and workers past their first commit know it. -/
structure Exclusive (s : World) : Prop where
  once : ∀ job, s.prospects job ≤ 1
  issued : ∀ worker ∈ s.workers, ∀ job, worker.held = some job → job < s.nextJob
  own : ∀ worker ∈ s.workers, ∀ job, worker.held = some job → worker.fresh = none →
    s.jobs.statusOf job = some .running → 0 < s.startsHere job
  idle : s.reaper = .requeuing → ∀ worker ∈ s.workers, worker.held = none

section Prospects

variable {cfg : Settings} {s s' : World} {action : Action}

/-- A worker's step moves a claim from the queue to itself, or drops it. -/
theorem World.WorkerStep.claims {outcome : Outcome} {old new : Worker} {after : World}
    (moved : s.WorkerStep old outcome after new) (job : JobId) :
    after.queue.count job + claim new.held job ≤ s.queue.count job + claim old.held job := by
  cases moved with
  | take queued =>
    simp only [queued, List.count_cons, Worker.held, claim, beq_iff_eq, Option.some.injEq,
      reduceCtorEq, if_false]
    omega
  | abandon | absent | strand | unanswered | unavailable | unread | unmarked | discard | keep =>
    exact Nat.add_le_add_left (Nat.zero_le _) _
  | notify sent =>
    rcases deliver_posts sent with rfl | ⟨key, keyed, rfl⟩ <;> exact Nat.le_refl _
  | _ => exact Nat.le_refl _

/-- A request's step adds a prospect for the row it inserts only. -/
theorem World.RequestStep.prospects {outcome : Outcome} {old new : Request} {after : World}
    (moved : s.RequestStep old outcome after new) (job : JobId) :
    after.queue.count job + claim new.backlog job ≤
      s.queue.count job + claim old.backlog job + if job = s.nextJob then 1 else 0 := by
  cases moved with
  | insert =>
    simp only [Request.backlog, claim, Option.some.injEq, reduceCtorEq, if_false, eq_comm]
    omega
  | enqueue =>
    simp only [World.enqueue, List.count_append, List.count_singleton, Request.backlog, claim,
      beq_iff_eq, Option.some.injEq, reduceCtorEq, if_false]
    omega
  | _ =>
    simp only [Request.backlog, claim_none, World.discard]
    omega

/-- After a SELECT each selected job has one prospect. -/
theorem afterSelect_prospects (batch : Batch) (job : JobId) :
    (afterSelect batch).backlog.count job + ((afterSelect batch).batch.map Prod.fst).count job = 0 ∨
      (∃ entry ∈ batch.rows, entry.1 = job) ∧
        (afterSelect batch).backlog.count job +
          ((afterSelect batch).batch.map Prod.fst).count job ≤ 1 := by
  rw [afterSelect_backlog, List.count_nil, Nat.zero_add]
  by_cases found : job ∈ (afterSelect batch).batch.map Prod.fst
  · obtain ⟨entry, member, same⟩ := List.mem_map.mp found
    refine Or.inr ⟨⟨entry, mem_afterSelect member, same⟩, ?_⟩
    have distinct : ((afterSelect batch).batch.map Prod.fst).Nodup := by
      unfold afterSelect
      split
      · exact List.nodup_nil
      · exact batch.distinct
    exact List.nodup_iff_count_le_one.mp distinct job
  · exact Or.inl (List.count_eq_zero.mpr found)

/-- A reaper's step turns a batch into a backlog and a backlog into queue entries;
its SELECTs add a prospect for each row found. -/
theorem World.ReaperStep.prospects {outcome : Outcome} {new : Reaper} {after : World}
    (moved : s.ReaperStep cfg s.reaper outcome after new) (job : JobId) :
    after.queue.count job + new.backlog.count job + (new.batch.map Prod.fst).count job ≤
        s.queue.count job + s.reaper.backlog.count job +
          (s.reaper.batch.map Prod.fst).count job ∨
      ((s.reaper = .requeuing ∨ ∃ entry ∈ s.collected outcome, entry.1 = job) ∧
        after.queue.count job + new.backlog.count job + (new.batch.map Prod.fst).count job ≤
          s.queue.count job + 1) := by
  generalize position : s.reaper = old at moved
  cases moved with
  | requeue =>
    refine Or.inr ⟨Or.inl rfl, ?_⟩
    have once := List.nodup_iff_count_le_one.mp (s.jobs.select_nodup s.nextJob .pending) job
    simp only [Reaper.backlog, Reaper.batch, List.map_nil, List.count_nil]
    omega
  | sweep =>
    rcases afterSelect_prospects (s.runningRows fun _ => true) job with none | ⟨found, once⟩
    · exact Or.inl (by rw [Nat.add_assoc, none]; exact Nat.le_add_right _ _)
    · refine Or.inr ⟨Or.inr ?_, by rw [Nat.add_assoc]; exact Nat.add_le_add_left once _⟩
      simpa only [collected, position] using found
  | reap =>
    rename_i due _
    rcases afterSelect_prospects (s.runningRows fun job => decide (job ∈ due)) job with
      none | ⟨found, once⟩
    · exact Or.inl (by rw [Nat.add_assoc, none]; exact Nat.le_add_right _ _)
    · refine Or.inr ⟨Or.inr ?_, by rw [Nat.add_assoc]; exact Nat.add_le_add_left once _⟩
      simpa only [collected, position] using found
  | recover =>
    rename_i batch jobs _
    have fewer : (toEnqueue cfg batch.rows).count job ≤ (batch.rows.map Prod.fst).count job :=
      (List.filter_sublist.map _).count_le job
    left
    simp only [Reaper.backlog, Reaper.batch, List.map_nil, List.count_nil]
    omega
  | enqueuePending | enqueue =>
    left
    simp only [World.enqueue, List.count_append, Reaper.backlog, List.count_cons,
      List.count_nil, Reaper.batch, List.map_nil]
    omega
  | notify sent =>
    rcases deliver_posts sent with rfl | ⟨key, keyed, rfl⟩ <;> exact Or.inl (Nat.le_refl _)
  | unrecovered =>
    left
    simp only [Reaper.backlog, Reaper.batch, List.map_nil, List.count_nil]
    omega
  | _ => exact Or.inl (Nat.le_refl _)

/-- The reconciler leaves the queue alone. -/
theorem World.ReconcilerStep.queue {outcome : Outcome} {old new : Reconciler} {after : World}
    (moved : s.ReconcilerStep old outcome after new) : after.queue = s.queue := by
  cases moved with
  | _ => rfl

/-- So does the cleaner. -/
theorem World.CleanerStep.queue {outcome : Outcome} {old new : Cleaner} {after : World}
    (moved : s.CleanerStep cfg old outcome after new) : after.queue = s.queue := by
  cases moved with
  | _ => rfl

/-- A new process has no prospects. -/
theorem prospects_boot (s : World) (job : JobId) : s.boot.prospects job = 0 := by
  have rested : (s.workers.map fun _ => Worker.idle).countP
      (fun worker => decide (worker.held = some job)) = 0 := by
    refine List.countP_eq_zero.mpr fun worker member => ?_
    obtain ⟨old, -, rfl⟩ := List.mem_map.mp member
    exact Bool.false_ne_true
  simp only [World.prospects, World.claims, boot, rested, Reaper.backlog, Reaper.batch,
    List.map_nil, List.count_nil, List.countP_nil]

/-- A step adds at most one prospect, for a row that a SELECT has found or that
has just been inserted. -/
theorem prospects_step (taken : Step cfg s action s') (job : JobId) :
    s'.prospects job ≤ s.prospects job ∨
      (s'.prospects job ≤ s.prospects job + 1 ∧
        (job = s.nextJob ∨ (∃ outcome, action = .reaper outcome ∧
          (s.reaper = .requeuing ∨ ∃ entry ∈ s.collected outcome, entry.1 = job)))) := by
  cases taken with
  | crash => exact Or.inl (by rw [prospects_boot]; exact Nat.zero_le _)
  | tick => exact Or.inl (Nat.le_refl _)
  | receive booted =>
    left
    simp [World.prospects, World.claims, Request.backlog]
  | @worker index outcome old new after found moved =>
    left
    have kept := moved.frame
    have claimed := moved.claims job
    have counted := TransitionSystem.countP_set (fun worker => decide (worker.held = some job))
      s.workers index old new found
    simp only [decide_eq_true_eq] at counted
    simp only [claim] at claimed
    simp only [World.prospects, World.claims, kept.workers, kept.requests, kept.reaper]
    omega
  | @request index outcome old new after found moved =>
    have kept := moved.frame
    have claimed := moved.prospects job
    have counted := TransitionSystem.countP_set
      (fun request => decide (request.backlog = some job)) s.requests index old new found
    simp only [decide_eq_true_eq] at counted
    simp only [claim] at claimed
    simp only [World.prospects, World.claims, kept.workers, kept.requests, kept.reaper]
    by_cases next : job = s.nextJob
    · rw [if_pos next] at claimed
      exact Or.inr ⟨by omega, Or.inl next⟩
    · rw [if_neg next] at claimed
      exact Or.inl (by omega)
  | reaper moved =>
    have kept := moved.frame
    simp only [World.prospects, World.claims, kept.workers, kept.requests]
    rcases moved.prospects job with fewer | ⟨origin, more⟩
    · exact Or.inl (by omega)
    · exact Or.inr ⟨by omega, Or.inr ⟨_, rfl, origin⟩⟩
  | reconciler moved =>
    have kept := moved.frame
    left
    simp only [World.prospects, World.claims, kept.workers, kept.requests, kept.reaper, moved.queue]
    exact Nat.le_refl _
  | cleaner moved =>
    have kept := moved.frame
    left
    simp only [World.prospects, World.claims, kept.workers, kept.requests, kept.reaper, moved.queue]
    exact Nat.le_refl _

/-- Without unstarted claims, a worker or a batch a job has no prospect. -/
theorem prospects_none {job : JobId} (rested : s.unstarted job = 0)
    (free : ∀ worker ∈ s.workers, worker.held ≠ some job)
    (unswept : ∀ entry ∈ s.reaper.batch, entry.1 ≠ job) : s.prospects job = 0 := by
  have working : s.workers.countP (fun worker => decide (worker.held = some job)) = 0 :=
    List.countP_eq_zero.mpr fun worker member held => free worker member (of_decide_eq_true held)
  have batched : (s.reaper.batch.map Prod.fst).count job = 0 := by
    refine List.count_eq_zero.mpr fun listed => ?_
    obtain ⟨entry, member, same⟩ := List.mem_map.mp listed
    exact unswept entry member same
  unfold unstarted at rested
  simp only [World.prospects, World.claims, working, batched]
  omega

/-- A collected row is RUNNING, and the reaper holds no other. -/
theorem collected_running {outcome : Outcome} {entry : JobId × RowIn .running}
    (member : entry ∈ s.collected outcome) :
    s.jobs.statusOf entry.1 = some .running ∧ s.reaper.batch = [] := by
  have status {due : JobId → Bool} (selected : entry ∈ (s.runningRows due).rows) :
      s.jobs.statusOf entry.1 = some .running := by
    obtain ⟨present, -, -⟩ := mem_runningRows selected
    simp [JobTable.statusOf, present, entry.2.2]
  unfold World.collected at member
  split at member
  · rename_i position
    exact ⟨status member, by rw [position]; rfl⟩
  · rename_i position
    exact ⟨status member, by rw [position]; rfl⟩
  · cases member

end Prospects

/-! ## Exclusive ownership is inductive -/

section Exclusive

variable {cfg : Settings} {s s' : World} {action : Action}

/-- A worker's job was its own before, or the head of the queue. -/
theorem World.WorkerStep.held {outcome : Outcome} {old new : Worker} {after : World} {job : JobId}
    (moved : s.WorkerStep old outcome after new) (held : new.held = some job) :
    old.held = some job ∨ (old = .idle ∧ job ∈ s.queue ∧ new.fresh = some job) := by
  cases moved with
  | take queued =>
    cases held
    refine Or.inr ⟨rfl, ?_, rfl⟩
    rw [queued]
    exact List.mem_cons_self
  | absent | abandon | strand | unanswered | unavailable | unread | unmarked | discard | keep =>
    cases held
  | _ => exact Or.inl held

/-- A queued job is yet to be started. -/
theorem unstarted_of_queued {job : JobId} (queued : job ∈ s.queue) : 0 < s.unstarted job := by
  have counted := List.count_pos_iff.mpr queued
  unfold unstarted
  omega

/-- A worker holds a job whose id has been given out. -/
theorem exclusive_issued (taken : Step cfg s action s') (sound : Sound s) (exclusive : Exclusive s)
    (worker : Worker) (member : worker ∈ s'.workers) (job : JobId)
    (held : worker.held = some job) : job < s'.nextJob := by
  have before : job < s.nextJob := by
    rcases workers_step taken member with kept | rfl | ⟨_, _, old, _, -, found, moved, -⟩
    · exact exclusive.issued worker kept job held
    · cases held
    · rcases moved.held held with same | ⟨-, queued, -⟩
      · exact exclusive.issued old (List.mem_of_getElem? found) job same
      · exact sound.issued (unstarted_of_queued queued)
  exact Nat.lt_of_lt_of_le before (nextJob_mono taken)

/-- No worker holds a job before the requeue has been committed. -/
theorem exclusive_idle (taken : Step cfg s action s') (sound : Sound s) (exclusive : Exclusive s)
    (reading : s'.reaper = .requeuing) (worker : Worker) (member : worker ∈ s'.workers) :
    worker.held = none := by
  rcases reaper_step taken with ⟨same, -⟩ | rfl | ⟨_, _, _, _, moved⟩
  · rw [same] at reading
    rcases workers_step taken member with kept | rfl | ⟨_, _, old, _, -, found, moved, -⟩
    · exact exclusive.idle reading worker kept
    · rfl
    · have resting := exclusive.idle reading old (List.mem_of_getElem? found)
      by_contra busy
      obtain ⟨job, held⟩ := Option.ne_none_iff_exists'.mp busy
      rcases moved.held held with same | ⟨-, queued, -⟩
      · rw [resting] at same
        cases same
      · have claimed := unstarted_of_queued queued
        have rested := sound.requeuing reading job
        omega
  · obtain ⟨old, -, rfl⟩ := List.mem_map.mp member
    rfl
  · exact absurd reading moved.not_requeuing

/-- A job has one prospect at most. -/
theorem exclusive_once (taken : Step cfg s action s') (sound : Sound s) (exclusive : Exclusive s)
    (undisputed : Undisputed s action) (job : JobId) : s'.prospects job ≤ 1 := by
  have once := exclusive.once job
  -- a prospect is added only to a job that has none
  rcases prospects_step taken job with
    fewer | ⟨more, next | ⟨outcome, rfl, reading | ⟨entry, found, rfl⟩⟩⟩
  · omega
  · have none : s.prospects job = 0 := by
      refine prospects_none (sound.beyond job (Nat.le_of_eq next.symm)).2 ?_ ?_
      · intro worker member held
        exact absurd next (Nat.ne_of_lt (exclusive.issued worker member job held))
      · intro entry member same
        exact absurd next (Nat.ne_of_lt (same ▸ (sound.batch entry member).1))
    omega
  · have none : s.prospects job = 0 := by
      refine prospects_none (sound.requeuing reading job) ?_ ?_
      · intro worker member held
        rw [exclusive.idle reading worker member] at held
        cases held
      · intro entry member
        rw [reading] at member
        cases member
    omega
  · obtain ⟨running, unswept⟩ := collected_running found
    have rested := sound.running entry.1 running
    have none : s.prospects entry.1 = 0 := by
      refine prospects_none rested ?_ ?_
      · intro worker member held
        have free := undisputed entry found
        split at free
        · exact free worker member held
        · -- the startup sweep: a worker past its first commit has committed RUNNING
          have late : worker.fresh = none := by
            by_contra early
            obtain ⟨own, fresh⟩ := Option.ne_none_iff_exists'.mp early
            rw [Worker.held_of_fresh fresh] at held
            cases held
            have claimed := unstarted_pos member fresh
            omega
          have started := exclusive.own worker member entry.1 held late running
          omega
      · intro other member
        rw [unswept] at member
        cases member
    omega

/-- A start counts. -/
theorem countStart_pos (s : World) (job : JobId) : 0 < (s.countStart job).startsHere job := by
  simp [countStart]

/-- And takes no count away. -/
theorem countStart_grows (s : World) (own job : JobId) :
    s.startsHere job ≤ (s.countStart own).startsHere job := by
  by_cases here : job = own
  · subst here
    simp [countStart]
  · simp [countStart, here]

/-- The starts in a process only grow. -/
theorem startsHere_step (taken : Step cfg s action s') (up : action ≠ .crash) (job : JobId) :
    s.startsHere job ≤ s'.startsHere job := by
  cases taken with
  | crash => exact absurd rfl up
  | tick => exact Nat.le_refl _
  | receive booted => exact Nat.le_refl _
  | worker found moved =>
    cases moved with
    | @start own => exact countStart_grows s own job
    | notify sent => rcases deliver_posts sent with rfl | ⟨key, keyed, rfl⟩ <;> exact Nat.le_refl _
    | _ => exact Nat.le_refl _
  | request found moved =>
    cases moved with
    | _ => exact Nat.le_refl _
  | reaper moved =>
    generalize s.reaper = old at moved
    cases moved with
    | notify sent => rcases deliver_posts sent with rfl | ⟨key, keyed, rfl⟩ <;> exact Nat.le_refl _
    | _ => exact Nat.le_refl _
  | reconciler moved =>
    generalize s.reconciler = old at moved
    cases moved with
    | _ => exact Nat.le_refl _
  | cleaner moved =>
    generalize s.cleaner = old at moved
    cases moved with
    | _ => exact Nat.le_refl _

/-- The RUNNING commit counts a start of this process. -/
theorem startsHere_started {index : Nat} {job : JobId} {row : IngestJob} {bundle : IngestBundle}
    (taken : Step cfg s (.worker index .returns) s')
    (found : s.workers[index]? = some (.committingRunning job row bundle)) :
    0 < s'.startsHere job := by
  cases taken with
  | worker here moved =>
    rw [found] at here
    cases here
    cases moved with
    | start committed => exact countStart_pos s job

/-- A RUNNING job that a worker holds was started in this process. -/
theorem exclusive_own (taken : Step cfg s action s') (sound : Sound s) (exclusive : Exclusive s)
    (up : action ≠ .crash) (worker : Worker) (member : worker ∈ s'.workers)
    (job : JobId) (held : worker.held = some job) (late : worker.fresh = none)
    (running : s'.jobs.statusOf job = some .running) : 0 < s'.startsHere job := by
  have grown := startsHere_step taken up job
  rcases running_step taken running with before | ⟨index, loaded, bundle, rfl, found⟩
  · rcases workers_step taken member with kept | rfl | ⟨_, _, old, _, -, found, moved, -⟩
    · exact Nat.lt_of_lt_of_le (exclusive.own worker kept job held late before) grown
    · cases held
    · have present := List.mem_of_getElem? found
      rcases moved.held held with same | ⟨-, -, fresh⟩
      · by_cases resting : old.fresh = none
        · exact Nat.lt_of_lt_of_le (exclusive.own old present job same resting before) grown
        · -- a worker before its first commit claims a job that is not RUNNING
          obtain ⟨own, fresh⟩ := Option.ne_none_iff_exists'.mp resting
          rw [Worker.held_of_fresh fresh] at same
          cases same
          have claimed := unstarted_pos present fresh
          have rested := sound.running job before
          omega
      · rw [late] at fresh
        cases fresh
  · exact startsHere_started taken found

/-- Every step keeps the jobs exclusive. -/
theorem exclusive_step (taken : Step cfg s action s') (sound : Sound s) (exclusive : Exclusive s)
    (undisputed : Undisputed s action) : Exclusive s' := by
  have up : action ≠ .crash := fun crash => by
    rw [crash] at undisputed
    exact undisputed
  exact ⟨exclusive_once taken sound exclusive undisputed, exclusive_issued taken sound exclusive,
    exclusive_own taken sound exclusive up, exclusive_idle taken sound exclusive⟩

/-- They are exclusive when a process starts. -/
theorem Starting.exclusive {start : World} (starting : Starting start) : Exclusive start := by
  rw [starting.booting]
  refine ⟨fun job => ?_, fun worker member job held => ?_, fun worker member job held => ?_,
    fun _ worker member => ?_⟩
  · rw [prospects_boot]
    exact Nat.zero_le _
  all_goals
    obtain ⟨old, -, rfl⟩ := List.mem_map.mp member
  · cases held
  · cases held
  · rfl

end Exclusive

/-! ## The rows of the startup sweep -/

section Startup

variable {cfg : Settings} {start s s' : World} {action : Action}

/-- The RUNNING rows of a startup are those that the process has found, and those
that its workers have committed. -/
structure Inherited (start s : World) : Prop where
  running : ∀ job, s.jobs.statusOf job = some .running → s.startsHere job = 0 →
    start.jobs.statusOf job = some .running
  swept : s.booted = false → ∀ entry ∈ s.reaper.batch,
    start.jobs.statusOf entry.1 = some .running

/-- Every step of a startup keeps its RUNNING rows inherited. -/
theorem inherited_step (taken : Step cfg s action s') (phased : Phased s)
    (inherited : Inherited start s) (undisputed : Undisputed s action) : Inherited start s' := by
  have up : action ≠ .crash := fun crash => by
    rw [crash] at undisputed
    exact undisputed
  refine ⟨fun job running none => ?_, fun down entry member => ?_⟩
  · rcases running_step taken running with before | ⟨index, loaded, bundle, rfl, found⟩
    · have grown := startsHere_step taken up job
      exact inherited.running job before (by omega)
    · have started := startsHere_started taken found
      omega
  · rcases booted_step taken with same | rfl | ⟨-, returned, -⟩
    · have recovering : s.booted = false := same ▸ down
      rcases batch_step taken member with
        ⟨kept, -⟩ | ⟨present, below, ⟨sweeping, rfl⟩ | ⟨due, sleeping, -⟩⟩
      · exact inherited.swept recovering entry kept
      · have found : entry ∈ s.collected .returns := by
          simp only [World.collected, sweeping]
          exact List.mem_filter.mpr ⟨JobTable.select_complete present entry.2.2 below, rfl⟩
        have fresh := undisputed entry found
        rw [recovering] at fresh
        exact inherited.running entry.1 (collected_running found).1 fresh
      · rw [phased.asleep sleeping] at recovering
        cases recovering
    · cases member
    · rw [down] at returned
      cases returned

end Startup

/-- In one process whose sweeps select no row that it is working on itself, every
job has at most one queue entry or worker, and the startup sweep collects only
rows that were RUNNING before. -/
theorem single_ownership {cfg : Settings} {start s : World} (starting : Starting start)
    (reached : TransitionSystem.Reaches (step cfg) Undisputed start s) :
    (∀ job, s.claims job ≤ 1) ∧
      (s.booted = false → ∀ entry ∈ s.reaper.batch,
        start.jobs.statusOf entry.1 = some .running) := by
  have invariant : Exclusive s ∧ Inherited start s := by
    refine reached.invariant (fun s => Exclusive s ∧ Inherited start s)
      ⟨starting.exclusive, fun _ running _ => running, fun _ entry member => ?_⟩ ?_
    · rw [starting.booting] at member
      cases member
    · intro state action next before ⟨exclusive, inherited⟩ undisputed taken
      obtain ⟨phased, sound⟩ := reached_sound starting before
      have rule := step_rule taken
      exact ⟨exclusive_step rule sound exclusive undisputed,
        inherited_step rule phased inherited undisputed⟩
  refine ⟨fun job => ?_, invariant.2.swept⟩
  have once := invariant.1.once job
  unfold World.prospects at once
  omega

/-- A restart that finds one PENDING job. -/
def World.restarted : World :=
  { World.initial 1 with
    jobs := Function.update (fun _ => none) 1 (some (newRow (.bare .epoch) ⟨0, .json⟩))
    nextJob := 2
    files := Function.update (fun _ => none) ⟨0, .json⟩
      (some ⟨some (IngestBundle.bare .epoch).signals, 0⟩)
    nextFile := 1 }

/-- The world after the restart is one in which a process starts. -/
theorem restarted_starting : Starting World.restarted := by
  refine ⟨by simp [World.restarted, World.initial, boot], fun job beyond => ?_⟩
  have other : job ≠ 1 := Nat.ne_of_gt beyond
  simp [World.restarted, other]

/-- The startup ends before the worker commits RUNNING. -/
theorem single_ownership_restarted :
    ∃ s, TransitionSystem.run (step ⟨1, 0⟩) World.restarted
        [.reaper .returns, .reaper .returns, .worker 0 .returns, .worker 0 .returns,
          .reaper .returns, .reaper .returns, .worker 0 .returns, .worker 0 .returns] = some s ∧
      (∀ job, s.claims job ≤ 1) ∧
      (s.booted = false → ∀ entry ∈ s.reaper.batch,
        World.restarted.jobs.statusOf entry.1 = some .running) := by
  obtain ⟨s, executed, -⟩ := TransitionSystem.run_passes (step ⟨1, 0⟩) World.restarted
    [.reaper .returns, .reaper .returns, .worker 0 .returns, .worker 0 .returns,
      .reaper .returns, .reaper .returns, .worker 0 .returns, .worker 0 .returns]
    (fun _ => true) (by decide)
  exact ⟨s, executed, single_ownership restarted_starting (.of_run executed (by decide))⟩

/-- The worker commits RUNNING between the two phases of the startup: the sweep
puts its job back into the queue while it goes on. -/
theorem ownership_doubled :
    ∃ s, TransitionSystem.run (step ⟨1, 0⟩) World.restarted
        [.reaper .returns, .reaper .returns, .worker 0 .returns, .worker 0 .returns,
          .worker 0 .returns, .worker 0 .returns, .reaper .returns, .reaper .returns,
          .reaper .returns, .reaper .returns] = some s ∧
      s.claims 1 = 2 ∧ World.restarted.jobs.statusOf 1 = some .pending := by
  obtain ⟨s, executed, doubled⟩ := TransitionSystem.run_passes (step ⟨1, 0⟩) World.restarted
    [.reaper .returns, .reaper .returns, .worker 0 .returns, .worker 0 .returns,
      .worker 0 .returns, .worker 0 .returns, .reaper .returns, .reaper .returns,
      .reaper .returns, .reaper .returns]
    (fun s => decide (s.claims 1 = 2)) (by decide)
  exact ⟨s, executed, of_decide_eq_true doubled, rfl⟩

end RcaBackend
