import RcaBackend.CrashRecovery
import RcaBackend.FileSafety

/-!
# The graceful stop

When `lifespan` goes on after its `yield`, every request has its answer. It then
cancels the reaper, the reconciler and the cleaner, one after the other, and waits
in `join` until `task_done` has been called for every job ever put into the queue;
only then it cancels the workers. A task is cancelled at an await, and takes no
step any more: its position says what it leaves undone.
-/

namespace RcaBackend

open World

/-- How far `lifespan` has come after its `yield`. -/
inductive Stage where
  | serving
  | reaperStopped
  | reconcilerStopped
  /-- the cleaner has been stopped as well, and `job_queue.stop` waits in `join` -/
  | joining
  | stopped
deriving DecidableEq, Repr

/-- The job system with the counter of unfinished tasks of its `asyncio.Queue`. -/
structure Service where
  world : World
  unfinished : Nat
  stage : Stage

/-- What happens next. -/
inductive ServiceAction where
  | act (action : Action)
  | stop

/-- The request has an answer. -/
def Request.ended : Request → Bool
  | .created _ | .refused | .errored => true
  | _ => false

/-- The tasks that run at a stage. A crash, also that of a stopped process, is
followed by a new one. -/
def Stage.permits (stage : Stage) : Action → Bool
  | .crash | .tick => true
  | .receive _ | .request _ _ | .reaper _ => stage = .serving
  | .reconciler _ => stage = .serving ∨ stage = .reaperStopped
  | .cleaner _ => stage ≠ .joining ∧ stage ≠ .stopped
  | .worker _ _ => stage ≠ .stopped

/-- A new process serves again. -/
def Stage.after (stage : Stage) : Action → Stage
  | .crash => .serving
  | _ => stage

namespace World

/-- The worker is inside `_process`. -/
def busyAt (s : World) (index : Nat) : Bool := (s.workers[index]?.bind Worker.held).isSome

/-- The calls of `put` in a step. -/
def puts (s : World) : Action → Nat
  | .request index .returns =>
    match s.requests[index]? with
    | some (.enqueuing _) => 1
    | _ => 0
  | .reaper .returns =>
    match s.reaper with
    | .enqueuingPending (_ :: _) | .enqueuing (_ :: _) _ => 1
    | _ => 0
  | _ => 0

/-- The calls of `task_done` in a step: the `finally` of `_worker`. -/
def finishes (s s' : World) : Action → Nat
  | .worker index _ => if s.busyAt index && !s'.busyAt index then 1 else 0
  | _ => 0

end World

/-- The counter after a step; a new process has a new queue. -/
def Service.counted (v : Service) (next : World) : Action → Nat
  | .crash => 0
  | action => v.unfinished + v.world.puts action - v.world.finishes next action

/-- One step of the system, or of `lifespan` after its `yield`. -/
def serviceStep (cfg : Settings) (v : Service) : ServiceAction → Option Service
  | .act action =>
    if v.stage.permits action then
      (step cfg v.world action).map fun next =>
        { world := next
          unfinished := v.counted next action
          stage := v.stage.after action }
    else none
  | .stop =>
    match v.stage with
    | .serving =>
      if v.world.booted ∧ ∀ request ∈ v.world.requests, request.ended then
        some { v with stage := .reaperStopped }
      else none
    | .reaperStopped => some { v with stage := .reconcilerStopped }
    | .reconcilerStopped => some { v with stage := .joining }
    | .joining => if v.unfinished = 0 then some { v with stage := .stopped } else none
    | .stopped => none

/-! ## The counter -/

section Counter

variable {cfg : Settings} {s s' : World} {action : Action}

/-- The workers inside `_process`. -/
def World.busy (s : World) : Nat := s.workers.countP fun worker => worker.held.isSome

/-- A worker takes a job out of the queue, keeps it, or is done with it. -/
theorem World.WorkerStep.tally {outcome : Outcome} {old new : Worker} {after : World}
    (moved : s.WorkerStep old outcome after new) :
    after.queue.length + (if new.held.isSome then 1 else 0) +
        (if old.held.isSome && !new.held.isSome then 1 else 0) =
      s.queue.length + if old.held.isSome then 1 else 0 := by
  cases moved with
  | take queued =>
    rw [queued]
    rfl
  | abandon fresh =>
    rw [Worker.held_of_fresh fresh]
    rfl
  | notify sent =>
    rcases deliver_posts sent with rfl | ⟨key, keyed, rfl⟩ <;> rfl
  | _ => rfl

theorem World.RequestStep.tally {index : Nat} {outcome : Outcome} {old new : Request}
    {after : World} (found : s.requests[index]? = some old)
    (moved : s.RequestStep old outcome after new) :
    after.queue.length = s.queue.length + s.puts (.request index outcome) := by
  cases moved with
  | enqueue => simp [World.enqueue, puts, found]
  | write | insert | refresh | rollback | discard => simp [puts, found, World.discard]
  | _ => rfl

theorem World.ReaperStep.tally {outcome : Outcome} {new : Reaper} {after : World}
    (moved : s.ReaperStep cfg s.reaper outcome after new) :
    after.queue.length = s.queue.length + s.puts (.reaper outcome) := by
  generalize position : s.reaper = old at moved
  cases moved with
  | enqueuePending | enqueue => simp [World.enqueue, puts, position]
  | requeue | enqueued | sweep | recover | requeued | finish | discard =>
    simp [puts, position, World.discard]
  | @restore job row rest bundle outcome =>
    cases outcome with
    | returns => simp [puts, position]
    | _ => rfl
  | @notify job path bundle rest outcome after delivery sent =>
    have kept : s.puts (.reaper outcome) = 0 := by
      cases outcome with
      | returns => simp [puts, position]
      | _ => rfl
    rw [kept]
    rcases deliver_posts sent with rfl | ⟨key, keyed, rfl⟩ <;> rfl
  | _ => rfl

/-- Jobs in the queue and jobs in process change by what a step puts and finishes. -/
theorem tally_step (taken : Step cfg s action s') (up : action ≠ .crash) :
    s'.queue.length + s'.busy + s.finishes s' action = s.queue.length + s.busy + s.puts action := by
  cases taken with
  | crash => exact absurd rfl up
  | tick => rfl
  | receive booted => rfl
  | @worker index outcome old new after found moved =>
    have counted := TransitionSystem.countP_set (fun worker => worker.held.isSome)
      s.workers index old new found
    have tally := moved.tally
    have bound : index < after.workers.length := by
      rw [moved.frame.workers]
      exact (List.getElem?_eq_some_iff.mp found).1
    simp only [World.busy, finishes, busyAt, puts, moved.frame.workers, found,
      List.getElem?_set_self (moved.frame.workers ▸ bound), Option.bind_some]
    omega
  | request found moved =>
    have kept := moved.frame
    have tally := moved.tally found
    simp only [World.busy, finishes, kept.workers]
    omega
  | reaper moved =>
    have kept := moved.frame
    have tally := moved.tally
    simp only [World.busy, finishes, kept.workers]
    omega
  | reconciler moved =>
    have kept := moved.frame
    simp only [World.busy, finishes, puts, kept.workers]
    generalize s.reconciler = old at moved
    cases moved with
    | _ => rfl
  | cleaner moved =>
    have kept := moved.frame
    simp only [World.busy, finishes, puts, kept.workers]
    generalize s.cleaner = old at moved
    cases moved with
    | _ => rfl

end Counter

/-! ## Runs of the service -/

/-- The stores answer in the system's steps. -/
def ServiceAnswered (v : Service) : ServiceAction → Prop
  | .act action => Answered v.world action
  | .stop => True

/-- A process that has just entered `lifespan`. -/
def Service.entering (s : World) : Service := ⟨s, 0, .serving⟩

/-- The counter is what is queued or in process; a stop finds the startup over and
the requests answered, and ends with nothing unfinished. -/
structure Tallied (v : Service) : Prop where
  counter : v.unfinished = v.world.queue.length + v.world.busy
  halting : v.stage ≠ .serving →
    v.world.booted = true ∧ ∀ request ∈ v.world.requests, request.ended = true
  stopped : v.stage = .stopped → v.unfinished = 0

section Service

variable {cfg : Settings} {start v v' : Service} {s : World} {event : ServiceAction}

/-- An action of a system that is stopping starts no request and is none of the reaper. -/
theorem Stage.permits_halting {stage : Stage} {action : Action} (allowed : stage.permits action)
    (halting : stage ≠ .serving) :
    (∀ bundle, action ≠ .receive bundle) ∧ (∀ index outcome, action ≠ .request index outcome) ∧
      ∀ outcome, action ≠ .reaper outcome := by
  cases action with
  | receive | request | reaper => exact absurd (of_decide_eq_true allowed) halting
  | _ => simp

theorem serviceStep_act {action : Action} (taken : serviceStep cfg v (.act action) = some v') :
    v.stage.permits action = true ∧ step cfg v.world action = some v'.world ∧
      v'.unfinished = v.counted v'.world action ∧
      v'.stage = v.stage.after action := by
  simp only [serviceStep] at taken
  split at taken
  · rename_i allowed
    obtain ⟨next, moved, same⟩ := Option.map_eq_some_iff.mp taken
    cases same
    exact ⟨allowed, moved, rfl, rfl⟩
  · cases taken

/-- A step of `lifespan` changes the stage only. -/
theorem serviceStep_stop (taken : serviceStep cfg v .stop = some v') :
    v'.world = v.world ∧ v'.unfinished = v.unfinished ∧ v'.stage ≠ .serving ∧
      (v.stage = .serving →
        v.world.booted = true ∧ ∀ request ∈ v.world.requests, request.ended = true) ∧
      (v'.stage = .stopped → v.unfinished = 0) := by
  simp only [serviceStep] at taken
  split at taken
  · split at taken
    · rename_i ready
      cases taken
      exact ⟨rfl, rfl, nofun, fun _ => ready, nofun⟩
    · cases taken
  · rename_i position
    cases taken
    exact ⟨rfl, rfl, nofun, fun serving => by simp [position] at serving, nofun⟩
  · rename_i position
    cases taken
    exact ⟨rfl, rfl, nofun, fun serving => by simp [position] at serving, nofun⟩
  · rename_i position
    split at taken
    · rename_i finished
      cases taken
      exact ⟨rfl, rfl, nofun, fun serving => by simp [position] at serving, fun _ => finished⟩
    · cases taken
  · cases taken

/-- Without a new request and a reaper the requests and the stage of `lifespan` stay. -/
theorem service_kept {action : Action} {s' : World} (taken : Step cfg s action s')
    (up : action ≠ .crash) (unrequested : ∀ bundle, action ≠ .receive bundle)
    (unanswered : ∀ index outcome, action ≠ .request index outcome)
    (unreaped : ∀ outcome, action ≠ .reaper outcome) :
    s'.requests = s.requests ∧ s'.booted = s.booted := by
  cases taken with
  | crash => exact absurd rfl up
  | tick => exact ⟨rfl, rfl⟩
  | receive booted => exact absurd rfl (unrequested _)
  | worker found moved => exact ⟨moved.frame.requests, moved.frame.booted⟩
  | request found moved => exact absurd rfl (unanswered _ _)
  | reaper moved => exact absurd rfl (unreaped _)
  | reconciler moved => exact ⟨moved.frame.requests, moved.frame.booted⟩
  | cleaner moved => exact ⟨moved.frame.requests, moved.frame.booted⟩

theorem busy_boot (s : World) : s.boot.busy = 0 := by
  refine List.countP_eq_zero.mpr fun worker member => ?_
  obtain ⟨old, -, rfl⟩ := List.mem_map.mp member
  exact Bool.false_ne_true

theorem tallied_crash {next : World} (tallied : v'.unfinished = v.counted next .crash)
    (crashed : v'.world = v.world.boot) (serving : v'.stage = .serving) : Tallied v' := by
  refine ⟨?_, fun halting => absurd serving halting, fun _ => tallied⟩
  rw [tallied, crashed, busy_boot]
  rfl

theorem tallied_step (taken : serviceStep cfg v event = some v') (tallied : Tallied v) :
    Tallied v' := by
  cases event with
  | stop =>
    obtain ⟨same, kept, halting, ready, finished⟩ := serviceStep_stop taken
    refine ⟨?_, fun _ => ?_, fun ended => kept.trans (finished ended)⟩
    · rw [kept, same]
      exact tallied.counter
    · rw [same]
      by_cases serving : v.stage = .serving
      · exact ready serving
      · exact tallied.halting serving
  | act action =>
    obtain ⟨allowed, moved, counted, stage⟩ := serviceStep_act taken
    have rule := step_rule moved
    by_cases up : action = .crash
    · subst up
      exact tallied_crash counted (Option.some.inj moved).symm stage
    · have same : v'.stage = v.stage := by
        rw [stage]
        cases action with
        | crash => exact absurd rfl up
        | _ => rfl
      have value : v'.unfinished =
          v.unfinished + v.world.puts action - v.world.finishes v'.world action := by
        rw [counted]
        cases action with
        | crash => exact absurd rfl up
        | _ => rfl
      have tally := tally_step rule up
      have known := tallied.counter
      refine ⟨by omega, fun halting => ?_, fun ended => ?_⟩
      · rw [same] at halting
        obtain ⟨unrequested, unanswered, unreaped⟩ := Stage.permits_halting allowed halting
        obtain ⟨requests, booted⟩ := service_kept rule up unrequested unanswered unreaped
        rw [requests, booted]
        exact tallied.halting halting
      · rw [same] at ended
        have before := tallied.stopped ended
        rw [ended] at allowed
        cases action with
        | tick => exact value.trans (by rw [before]; rfl)
        | crash => exact absurd rfl up
        | _ => simp [Stage.permits] at allowed

theorem Starting.tallied (starting : Starting s) : Tallied (Service.entering s) := by
  refine ⟨?_, fun halting => absurd rfl halting, fun _ => rfl⟩
  simp only [Service.entering]
  rw [starting.booting, busy_boot]
  rfl

theorem reached_tallied {allowed : Service → ServiceAction → Prop} (starting : Starting s)
    (reached : TransitionSystem.Reaches (serviceStep cfg) allowed (.entering s) v) : Tallied v := by
  refine reached.invariant Tallied starting.tallied ?_
  intro state event next _ tallied _ taken
  exact tallied_step taken tallied

/-- A run of the service is a run of the job system. -/
theorem service_world
    (reached : TransitionSystem.Reaches (serviceStep cfg) ServiceAnswered start v) :
    TransitionSystem.Reaches (step cfg) Answered start.world v.world := by
  refine reached.view Service.world ?_
  intro state event next answered taken
  cases event with
  | act action => exact .step .refl answered (serviceStep_act taken).2.1
  | stop =>
    rw [(serviceStep_stop taken).1]
    exact .refl

theorem reached_recoverable (initial : Initial s) {t : World}
    (reached : TransitionSystem.Reaches (step cfg) Answered s t) : Recoverable t := by
  refine reached.invariant Recoverable initial.recoverable ?_
  intro state action next before recoverable answered taken
  obtain ⟨phased, sound⟩ := reached_sound initial.toStarting before
  exact recoverable_step (step_rule taken) phased sound answered recoverable

/-- Nothing unfinished: the queue is empty, and every worker idle. -/
theorem Tallied.settled (tallied : Tallied v) (stopped : v.stage = .stopped) :
    v.world.queue = [] ∧ ∀ worker ∈ v.world.workers, worker = .idle := by
  have nothing : v.world.queue.length + v.world.busy = 0 :=
    tallied.counter.symm.trans (tallied.stopped stopped)
  have resting : v.world.busy = 0 := by omega
  refine ⟨List.eq_nil_of_length_eq_zero (by omega), fun worker member => Worker.idle_of_held ?_⟩
  exact Option.not_isSome_iff_eq_none.mp (List.countP_eq_zero.mp resting worker member)

/-- Where the stores answer, a stop leaves no job behind but those that the reaper had put
back and not enqueued. -/
theorem stopped_rows (initial : Initial s)
    (reached : TransitionSystem.Reaches (serviceStep cfg) ServiceAnswered (.entering s) v)
    (stopped : v.stage = .stopped) {job : JobId} {row : IngestJob}
    (present : v.world.jobs job = some row) :
    row.status.terminal = true ∨ (row.status = .delivering ∧ row.result ≠ none) ∨
      (row.status = .pending ∧ job ∈ v.world.reaper.backlog) := by
  have tallied : Tallied v := reached_tallied initial.toStarting reached
  have reachedWorld := service_world reached
  obtain ⟨phased, sound⟩ := reached_sound initial.toStarting reachedWorld
  have recoverable : Recoverable v.world := reached_recoverable initial reachedWorld
  obtain ⟨booted, ended⟩ := tallied.halting (by rw [stopped]; exact nofun)
  obtain ⟨empty, idle⟩ := tallied.settled stopped
  have swept : v.world.reaper.unswept ≠ true := fun unswept => by
    have down := phased.recovering unswept
    rw [booted] at down
    cases down
  have free (worker : Worker) (member : worker ∈ v.world.workers) : worker.held = none := by
    rw [idle worker member]
    rfl
  have status : v.world.jobs.statusOf job = some row.status := by
    simp [JobTable.statusOf, present]
  cases stage : row.status with
  | pending =>
    rw [stage] at status
    rcases recoverable.owned job status with reading | claimed
    · exact absurd (by rw [reading]; rfl) swept
    rcases accounted_of_unstarted claimed with
      queued | ⟨worker, member, held⟩ | (listing | listed) | ⟨request, member, waiting⟩
    · rw [empty] at queued
      cases queued
    · rw [free worker member] at held
      cases held
    · refine absurd ?_ swept
      cases position : v.world.reaper with
      | requeuing => rfl
      | _ => simp [position, Reaper.listing] at listing
    · exact Or.inr (Or.inr ⟨rfl, listed⟩)
    · have finished := ended request member
      cases request with
      | refreshing | enqueuing => cases finished
      | _ => cases waiting
  | running =>
    rw [stage] at status
    rcases recoverable.running job status with
      unswept | ⟨down, -⟩ | ⟨index, worker, loaded, found, analysing⟩
    · exact absurd unswept swept
    · rw [booted] at down
      cases down
    · have held := Worker.held_of_running analysing
      rw [free worker (List.mem_of_getElem? found)] at held
      cases held
  | delivering => exact Or.inr (Or.inl ⟨rfl, recoverable.delivering job row present stage⟩)
  | done | failed => exact Or.inl rfl

/-- In every run the counter is what is queued or in process, and a stop interrupts no job:
when the workers are cancelled, the queue is empty and every worker idle. And where the
stores answer, every row is terminal, or DELIVERING with its result, or one that the reaper,
when it was cancelled, had put back and not enqueued. -/
theorem graceful_stop_settles (starting : Starting s)
    (reached : TransitionSystem.Reaches (serviceStep cfg) (fun _ _ => True) (.entering s) v) :
    v.unfinished = v.world.queue.length + v.world.busy ∧
      (v.stage = .stopped →
        v.world.queue = [] ∧ (∀ worker ∈ v.world.workers, worker = .idle) ∧
          (Initial s →
            TransitionSystem.Reaches (serviceStep cfg) ServiceAnswered (.entering s) v →
            ∀ job row, v.world.jobs job = some row →
              row.status.terminal = true ∨ (row.status = .delivering ∧ row.result ≠ none) ∨
                (row.status = .pending ∧ job ∈ v.world.reaper.backlog))) := by
  have tallied : Tallied v := reached_tallied starting reached
  refine ⟨tallied.counter, fun stopped => ?_⟩
  obtain ⟨empty, idle⟩ := tallied.settled stopped
  refine ⟨empty, idle, ?_⟩
  intro initial answered job row present
  exact stopped_rows initial answered stopped present

end Service

/-! ## The stop comes to its end -/

/-- A bound on the steps that a worker takes until it is idle. -/
def Worker.remaining : Worker → Nat
  | .idle => 0
  | .discarding _ _ => 1
  | .notifying _ _ _ | .committingMark _ _ _ _ => 2
  | .committingMissing _ _ _ | .committingFailed _ _ _ _ | .marking _ _ _ => 3
  | .delivering _ _ _ | .committingDone _ _ _ => 4
  | .committingDelivering _ _ _ _ => 5
  | .analysing _ _ _ attempt => if attempt = 1 then 7 else 6
  | .committingRunning _ _ _ => 8
  | .restoring _ _ => 9
  | .selecting _ => 10

/-- A bound on the steps that the workers have to take. -/
def World.toil (s : World) : Nat :=
  (s.workers.map Worker.remaining).sum + 11 * s.queue.length

/-- A step of a worker. -/
def ServiceAction.works : ServiceAction → Bool
  | .act (.worker _ _) => true
  | _ => false

section Ending

variable {cfg : Settings} {v v' : Service} {s s' : World}

theorem World.WorkerStep.toils {outcome : Outcome} {old new : Worker} {after : World}
    (moved : s.WorkerStep old outcome after new) :
    new.remaining + 11 * after.queue.length < old.remaining + 11 * s.queue.length := by
  cases moved with
  | take queued =>
    rw [queued]
    simp only [Worker.remaining, List.length_cons]
    omega
  | abandon fresh =>
    have positive : 0 < old.remaining := by
      cases old with
      | selecting | restoring | committingMissing | committingRunning => exact Nat.succ_pos _
      | _ => cases fresh
    exact Nat.add_lt_add_right positive _
  | restart => simp [Worker.remaining]
  | start => simp [Worker.remaining, countStart]
  | exhaust | conclude | nothing =>
    simp only [Worker.remaining]
    split <;> omega
  | notify sent =>
    rcases deliver_posts sent with rfl | ⟨key, keyed, rfl⟩ <;> simp [Worker.remaining, World.post]
  | discard => simp [Worker.remaining, World.discard]
  | delivered | unanswered => simp [Worker.remaining, World.post]
  | _ => simp [Worker.remaining]

theorem worker_toils {index : Nat} {outcome : Outcome}
    (taken : Step cfg s (.worker index outcome) s') : s'.toil < s.toil := by
  cases taken with
  | @worker _ _ old new after found moved =>
    have summed := TransitionSystem.sum_set Worker.remaining s.workers index old new found
    have toils := moved.toils
    simp only [World.toil, moved.frame.workers]
    omega

/-- While the stop waits in `join`, only workers and the clock go on. -/
theorem joining_step {event : ServiceAction} (taken : serviceStep cfg v event = some v')
    (waiting : v.stage = .joining ∨ v.stage = .stopped) (up : event ≠ .act .crash) :
    (v'.stage = .joining ∨ v'.stage = .stopped) ∧
      v'.world.toil + (if event.works then 1 else 0) ≤ v.world.toil ∧
      v'.world.workers.length = v.world.workers.length := by
  cases event with
  | stop =>
    obtain ⟨same, -⟩ := serviceStep_stop taken
    rw [same]
    refine ⟨?_, Nat.le_refl _, rfl⟩
    simp only [serviceStep] at taken
    rcases waiting with joining | stopped
    · rw [joining] at taken
      simp only at taken
      split at taken
      · cases taken
        exact Or.inr rfl
      · cases taken
    · rw [stopped] at taken
      cases taken
  | act action =>
    obtain ⟨allowed, moved, -, stage⟩ := serviceStep_act taken
    have rule := step_rule moved
    have same : v'.stage = v.stage := by
      rw [stage]
      cases action with
      | crash => exact absurd rfl up
      | _ => rfl
    rw [same]
    refine ⟨waiting, ?_⟩
    cases action with
    | worker index outcome =>
      refine ⟨worker_toils rule, ?_⟩
      generalize v'.world = next at rule
      cases rule with
      | worker found moved => simp [moved.frame.workers]
    | tick =>
      rw [← Option.some.inj moved]
      exact ⟨Nat.le_refl _, rfl⟩
    | crash => exact absurd rfl up
    | _ => rcases waiting with joining | stopped <;> simp_all [Stage.permits]

/-- As long as a worker is in process, or one is idle and a job is queued, a worker
can take a step. -/
theorem worker_goes_on (cfg : Settings) (manned : s.workers ≠ [])
    (unfinished : 0 < s.queue.length + s.busy) :
    ∃ index outcome, (step cfg s (.worker index outcome)).isSome := by
  have goes {index : Nat} {worker : Worker} (found : s.workers[index]? = some worker)
      (outcome : Outcome) (able : (s.stepWorker worker outcome).isSome) :
      ∃ index outcome, (step cfg s (.worker index outcome)).isSome := by
    obtain ⟨after, moved⟩ := Option.isSome_iff_exists.mp able
    refine ⟨index, outcome, ?_⟩
    simp [step, found, moved]
  by_cases resting : s.busy = 0
  · -- all workers are idle, and the queue is not empty
    obtain ⟨worker, rest, pool⟩ := List.exists_cons_of_ne_nil manned
    have found : s.workers[0]? = some worker := by rw [pool]; rfl
    have free : worker.held = none :=
      Option.not_isSome_iff_eq_none.mp
        (List.countP_eq_zero.mp resting worker (List.mem_of_getElem? found))
    refine goes found .returns ?_
    rw [Worker.idle_of_held free]
    cases queued : s.queue with
    | nil => simp [queued, resting] at unfinished
    | cons job rest => simp [stepWorker, queued]
  · obtain ⟨worker, member, held⟩ := List.countP_pos_iff.mp (Nat.pos_of_ne_zero resting)
    obtain ⟨index, found⟩ := List.mem_iff_getElem?.mp member
    cases worker with
    | idle => cases held
    | selecting | restoring | committingMissing | committingRunning | committingDelivering
    | committingDone | committingFailed | marking | committingMark | discarding =>
      exact goes found (.raises []) rfl
    | analysing => exact goes found .returns rfl
    | delivering | notifying => exact goes found .unavailable rfl

/-- The wait in `join` ends: while it lasts, the workers take no more steps than the
jobs in the queue and in process allow, and as long as it cannot end yet, a worker
can take one. -/
theorem graceful_stop_ends {start : World} (starting : Starting start)
    (reached : TransitionSystem.Reaches (serviceStep cfg) (fun _ _ => True) (.entering start) v)
    (joining : v.stage = .joining) (manned : v.world.workers ≠ []) {events : List ServiceAction}
    (executed : TransitionSystem.run (serviceStep cfg) v events = some v')
    (up : ∀ event ∈ events, event ≠ .act .crash) :
    events.countP ServiceAction.works ≤ v.world.toil ∧
      (v'.stage = .stopped ∨ (serviceStep cfg v' .stop).isSome ∨
        ∃ index outcome, (serviceStep cfg v' (.act (.worker index outcome))).isSome) := by
  have history : (∀ event ∈ events, event ≠ .act .crash) →
      (v'.stage = .joining ∨ v'.stage = .stopped) ∧
        events.countP ServiceAction.works + v'.world.toil ≤ v.world.toil ∧
        v'.world.workers.length = v.world.workers.length := by
    refine TransitionSystem.run_history (fun before state =>
      (∀ event ∈ before, event ≠ .act .crash) →
        (state.stage = .joining ∨ state.stage = .stopped) ∧
          before.countP ServiceAction.works + state.world.toil ≤ v.world.toil ∧
          state.world.workers.length = v.world.workers.length) ?_ ?_ executed
    · intro _
      exact ⟨Or.inl joining, by simp, rfl⟩
    · intro before state event next known taken up
      have earlier := known fun other member => up other (List.mem_append_left _ member)
      obtain ⟨waiting, bounded, kept⟩ := earlier
      obtain ⟨after, toils, same⟩ :=
        joining_step taken waiting (up event (List.mem_append_right _ List.mem_cons_self))
      refine ⟨after, ?_, same.trans kept⟩
      simp only [List.countP_append, List.countP_singleton]
      omega
  obtain ⟨waiting, bounded, kept⟩ := history up
  refine ⟨by omega, ?_⟩
  rcases waiting with waiting | stopped
  · right
    by_cases finished : v'.unfinished = 0
    · left
      simp [serviceStep, waiting, finished]
    · right
      have tallied : Tallied v' := reached_tallied starting (reached.trans (.of_any_run executed))
      have peopled : v'.world.workers ≠ [] := by
        intro none
        rw [none] at kept
        exact manned (List.eq_nil_of_length_eq_zero kept.symm)
      have counter := tallied.counter
      obtain ⟨index, outcome, able⟩ := worker_goes_on cfg peopled (by omega)
      refine ⟨index, outcome, ?_⟩
      simpa [serviceStep, waiting, Stage.permits] using able
  · exact Or.inl stopped

/-- Events in which nothing raises are those of stores that answer. -/
def ServiceAction.quiet : ServiceAction → Bool
  | .act (.worker _ (.raises _)) | .act (.request _ (.raises _)) | .act (.reaper (.raises _))
  | .act (.reconciler (.raises _)) | .act (.cleaner (.raises _)) => false
  | _ => true

theorem answered_of_quiet {event : ServiceAction} (quiet : event.quiet = true) (v : Service) :
    ServiceAnswered v event := by
  unfold ServiceAction.quiet at quiet
  split at quiet
  · cases quiet
  · cases quiet
  · cases quiet
  · cases quiet
  · cases quiet
  · cases event with
    | stop => trivial
    | act action =>
      simp only [ServiceAnswered, Answered]
      split <;> simp_all

/-- One job is analysed while the service stops. -/
def stoppingRun : List ServiceAction :=
  ingestRun.map .act ++ [.act (.worker 0 .returns), .act (.worker 0 .returns),
    .act (.worker 0 .returns), .act (.worker 0 .returns), .stop, .stop, .stop]

/-- The analysis ends, Spring does not answer, and the workers are cancelled. -/
def joinedRun : List ServiceAction :=
  [.act (.worker 0 (.produced (.bare []))), .act (.worker 0 .returns),
    .act (.worker 0 .unavailable), .stop]

theorem graceful_stop_settles_joinedRun :
    ∃ v, TransitionSystem.run (serviceStep ⟨1, 0⟩) (.entering (World.initial 1))
        (stoppingRun ++ joinedRun) = some v ∧ v.world.jobs.statusOf 1 = some .delivering ∧
      v.unfinished = v.world.queue.length + v.world.busy ∧
      v.world.queue = [] ∧ (∀ worker ∈ v.world.workers, worker = .idle) ∧
        ∀ job row, v.world.jobs job = some row →
          row.status.terminal = true ∨ (row.status = .delivering ∧ row.result ≠ none) ∨
            (row.status = .pending ∧ job ∈ v.world.reaper.backlog) := by
  obtain ⟨v, executed, passed⟩ := TransitionSystem.run_passes (serviceStep ⟨1, 0⟩)
    (.entering (World.initial 1)) (stoppingRun ++ joinedRun)
    (fun v => decide (v.world.jobs.statusOf 1 = some .delivering ∧ v.stage = .stopped)) (by decide)
  obtain ⟨sending, stopped⟩ := of_decide_eq_true passed
  have quiet : ∀ event ∈ stoppingRun ++ joinedRun, event.quiet = true := by decide
  have permitted : TransitionSystem.allows (serviceStep ⟨1, 0⟩) ServiceAnswered
      (.entering (World.initial 1)) (stoppingRun ++ joinedRun) :=
    TransitionSystem.allows_of_forall fun event member => answered_of_quiet (quiet event member)
  obtain ⟨counter, settled⟩ :=
    graceful_stop_settles (initial_starting 1) (.of_any_run executed)
  obtain ⟨empty, idle, rows⟩ := settled stopped
  exact ⟨v, executed, sending, counter, empty, idle,
    rows (initial_initial 1) (.of_run executed permitted)⟩

theorem graceful_stop_ends_joinedRun :
    ∃ v v', TransitionSystem.run (serviceStep ⟨1, 0⟩) (.entering (World.initial 1)) stoppingRun =
        some v ∧
      TransitionSystem.run (serviceStep ⟨1, 0⟩) v joinedRun = some v' ∧
      joinedRun.countP ServiceAction.works ≤ v.world.toil ∧
      (v'.stage = .stopped ∨ (serviceStep ⟨1, 0⟩ v' .stop).isSome ∨
        ∃ index outcome, (serviceStep ⟨1, 0⟩ v' (.act (.worker index outcome))).isSome) := by
  obtain ⟨v, executed, passed⟩ := TransitionSystem.run_passes (serviceStep ⟨1, 0⟩)
    (.entering (World.initial 1)) stoppingRun
    (fun v => decide (v.stage = .joining) && decide (0 < v.world.workers.length) &&
      (TransitionSystem.run (serviceStep ⟨1, 0⟩) v joinedRun).isSome) (by decide)
  simp only [Bool.and_eq_true, decide_eq_true_eq] at passed
  obtain ⟨⟨joining, manned⟩, later⟩ := passed
  obtain ⟨v', finished⟩ := Option.isSome_iff_exists.mp later
  refine ⟨v, v', executed, finished, graceful_stop_ends (initial_starting 1)
    (.of_any_run executed) joining (List.length_pos_iff.mp manned) finished ?_⟩
  intro event member
  simp only [joinedRun, List.mem_cons, List.not_mem_nil, or_false] at member
  rcases member with rfl | rfl | rfl | rfl <;> simp

end Ending

end RcaBackend
