import RcaBackend.CrashRecovery
import RcaBackend.JobStages
import RcaBackend.TerminalStates

/-!
# What a client polls

`GET /ingest/{job_id}` answers with the committed columns of the row. Where every
commit finds its row with the status that its session has read, each answer agrees
with itself, and later answers agree with earlier ones: a job that has been handed over
is not taken back and keeps its result, and the answer for a finished job is the last one.
-/

namespace RcaBackend

open World

/-- `JobStatusResponse` -/
structure JobStatusResponse where
  jobId : JobId
  status : Status
  result : Option Json
  error : Option PyStr
deriving DecidableEq

/-- `get_job_status`; `none` is the 404. -/
def World.getJobStatus (s : World) (job : JobId) : Option JobStatusResponse :=
  (s.jobs job).map fun row => ⟨job, row.status, row.result, row.error⟩

/-- Every write of the step finds its row with the status that its session read. -/
def Uncontended (cfg : Settings) (s : World) (action : Action) : Prop :=
  ∀ w ∈ writes cfg s action, ∀ row ∈ s.jobs w.job, row.status = w.loaded.status

instance (cfg : Settings) (s : World) (action : Action) : Decidable (Uncontended cfg s action) :=
  inferInstanceAs (Decidable (∀ _ ∈ _, _))

/-- Where each commit finds the status that its session has read, none is disturbed. -/
theorem Uncontended.undisturbed {cfg : Settings} {s : World} {action : Action}
    (uncontended : Uncontended cfg s action) : Undisturbed cfg s action :=
  fun w member row present => Or.inl (uncontended w member row present)

/-! ## Columns -/

/-- The columns that a status goes with. -/
def Agrees (status : Status) (result : Option Json) (error : Option PyStr) : Prop :=
  match status with
  | .pending | .running => result = none ∧ error = none
  | .delivering => result ≠ none ∧ error = none
  | .done => error = none
  | .failed => error ≠ none

/-- The columns of a row go with its status. -/
def IngestJob.Coherent (row : IngestJob) : Prop := Agrees row.status row.result row.error

/-- What a session assigns, by the status that it has read. -/
inductive Assigns (loaded : IngestJob) : IngestJob → Prop where
  | take (pending : loaded.status = .pending) : Assigns loaded { loaded with status := .running }
  | forgo (reason : PyStr) (pending : loaded.status = .pending) :
      Assigns loaded { loaded with status := .failed, error := some reason }
  | deliver (stored : Json) (running : loaded.status = .running) :
      Assigns loaded { loaded with status := .delivering, result := some stored, error := none }
  | finish (running : loaded.status = .running) :
      Assigns loaded { loaded with status := .done, error := none }
  | requeue (running : loaded.status = .running) :
      Assigns loaded
        { loaded with requeueCount := loaded.requeueCount + 1, status := .pending }
  | done (delivering : loaded.status = .delivering) : Assigns loaded { loaded with status := .done }
  | fail (reason : PyStr) (unfinished : loaded.status = .running ∨ loaded.status = .delivering) :
      Assigns loaded { loaded with status := .failed, error := some reason }

/-- What is assigned to a coherent row is coherent, and written over a coherent row of the same
status it leaves a coherent one. -/
theorem Assigns.coherent {loaded target row : IngestJob} (assigns : Assigns loaded target)
    (read : loaded.Coherent) (current : row.Coherent) (same : row.status = loaded.status) :
    (IngestJob.overwrite loaded target row).Coherent := by
  unfold IngestJob.Coherent at *
  cases assigns with
  | take known | forgo _ known | deliver _ known | finish known | requeue known | done known =>
    simp only [known] at same read
    simp only [same] at current
    simp_all [Agrees, IngestJob.overwrite]
  | fail reason known =>
    rcases known with known | known <;>
    · simp only [known] at same read
      simp only [same] at current
      simp_all [Agrees, IngestJob.overwrite]

/-- A session that writes over a row that has been handed over only marks it. -/
theorem Assigns.handed {loaded target row : IngestJob} (assigns : Assigns loaded target)
    (same : row.status = loaded.status) (handed : row.status.handed = true) :
    row.status = .delivering ∧ target.status.handed = true ∧ target.result = loaded.result := by
  cases assigns with
  | take known | forgo _ known | deliver _ known | finish known | requeue known =>
    rw [same, known] at handed
    cases handed
  | done known => exact ⟨same.trans known, rfl, rfl⟩
  | fail reason known =>
    rcases known with known | known
    · rw [same, known] at handed
      cases handed
    · exact ⟨same.trans known, rfl, rfl⟩

/-! ## Sessions -/

/-- Every session has read a coherent row, and one of a worker before its last commit a row
without result and error. -/
structure Legible (s : World) : Prop where
  rows : ∀ job row, s.jobs job = some row → row.Coherent
  sessions : ∀ worker ∈ s.workers, ∀ job row, worker.session = some (job, row) →
    row.result = none ∧ row.error = none
  marks : ∀ worker ∈ s.workers, ∀ job path row verdict,
    worker = .committingMark job path row verdict → row.1.Coherent
  marked : ∀ job path row verdict rest,
    s.reconciler = .committingMark job path row verdict rest → row.1.Coherent
  batch : ∀ entry ∈ s.reaper.batch, entry.2.1.Coherent

section Sessions

variable {cfg : Settings} {s s' : World} {action : Action} {job : JobId} {w : Write}

/-- A mark assigns what its verdict says. -/
theorem mark_assigns (job : JobId) (row : RowIn .delivering) (verdict : Verdict) :
    Assigns (Write.mark job row verdict).loaded (Write.mark job row verdict).target := by
  cases verdict with
  | done => exact .done row.2
  | failed reason => exact .fail reason (Or.inr row.2)

/-- What a worker commits. -/
theorem worker_assigns (untouched : Untouched s) (legible : Legible s) {worker : Worker}
    (member : worker ∈ s.workers) (writing : worker.write = some w) :
    w.loaded.Coherent ∧ Assigns w.loaded w.target := by
  -- a session in the analysis has committed RUNNING over the row that it has read
  have started {job : JobId} {row : IngestJob} (session : worker.session = some (job, row)) :
      IngestJob.Coherent { row with status := .running } :=
    legible.sessions worker member job row session
  have fresh {job : JobId} {row : IngestJob} (session : worker.session = some (job, row))
      (loaded : worker.loaded = some row) : row.Coherent ∧ row.status = .pending := by
    have pending := untouched.loaded worker member row loaded
    refine ⟨?_, pending⟩
    unfold IngestJob.Coherent
    rw [pending]
    exact legible.sessions worker member job row session
  cases worker with
  | committingMissing job row reason =>
    cases writing
    obtain ⟨coherent, pending⟩ := fresh rfl rfl
    exact ⟨coherent, .forgo reason pending⟩
  | committingRunning job row bundle =>
    cases writing
    obtain ⟨coherent, pending⟩ := fresh rfl rfl
    exact ⟨coherent, .take pending⟩
  | committingDelivering job row bundle result =>
    cases writing
    exact ⟨started rfl, .deliver result.stored rfl⟩
  | committingDone job row bundle =>
    cases writing
    exact ⟨started rfl, .finish rfl⟩
  | committingFailed job row bundle reason =>
    cases writing
    exact ⟨started rfl, .fail reason (Or.inl rfl)⟩
  | committingMark job path row verdict =>
    cases writing
    have coherent := legible.marks _ member job path row verdict rfl
    exact ⟨by cases verdict <;> exact coherent, mark_assigns job row verdict⟩
  | _ => cases writing

/-- The reconciler assigns over a coherent row. -/
theorem reconciler_assigns (legible : Legible s) (writing : s.reconciler.write = some w) :
    w.loaded.Coherent ∧ Assigns w.loaded w.target := by
  generalize position : s.reconciler = reconciler at writing
  cases reconciler with
  | committingMark job path row verdict rest =>
    cases writing
    have coherent := legible.marked job path row verdict rest position
    exact ⟨by cases verdict <;> exact coherent, mark_assigns job row verdict⟩
  | _ => cases writing

/-- The reaper assigns over the row that it has selected. -/
theorem recovery_assigns (entry : JobId × RowIn .running) :
    Assigns (recovery cfg entry).loaded (recovery cfg entry).target := by
  unfold recovery
  dsimp only
  split
  · exact .requeue entry.2.2
  · exact .fail stuckReason (Or.inl entry.2.2)

/-- A step leaves the row of a job alone, inserts it, or assigns to it what a session may. -/
inductive Revision (s : World) (job : JobId) (row' : IngestJob) : Prop where
  | kept (same : s.jobs job = some row')
  | inserted (next : job = s.nextJob) (coherent : row'.Coherent)
  | assigned {loaded target row : IngestJob} (present : s.jobs job = some row)
      (read : loaded.Coherent) (assigns : Assigns loaded target)
      (same : row.status = loaded.status) (value : row' = IngestJob.overwrite loaded target row)

/-- What a step can make of the row of a job. -/
theorem revision_step (taken : Step cfg s action s') (untouched : Untouched s)
    (legible : Legible s) (uncontended : Uncontended cfg s action) {row' : IngestJob}
    (now : s'.jobs job = some row') : Revision s job row' := by
  have written {w : Write} (applied : s.Applies s' w job) (member : w ∈ writes cfg s action)
      (session : w.loaded.Coherent ∧ Assigns w.loaded w.target) : Revision s job row' := by
    obtain ⟨row, present, value⟩ := applied.found now
    have same := uncontended w member row (applied.1 ▸ present)
    exact .assigned present session.1 session.2 same value
  cases step_change taken job with
  | idle row | crashed _ row | abandoned _ _ _ row | unlisted _ _ row | requeued _ _ _ row =>
    exact .kept (row ▸ now)
  | vanished _ row | purged _ _ _ row =>
    rw [row] at now
    cases now
  | forgone committing found applied | started committing found _ applied =>
    exact written applied (committing ▸ mem_writes_worker cfg found rfl)
      (worker_assigns untouched legible (List.mem_of_getElem? found) rfl)
  | concluded committing found _ writing applied =>
    exact written applied (committing ▸ mem_writes_worker cfg found writing)
      (worker_assigns untouched legible (List.mem_of_getElem? found) writing)
  | reconciled committing writing applied =>
    exact written applied (committing ▸ mem_writes_reconciler cfg writing)
      (reconciler_assigns legible writing)
  | @recovered entry committing selected applied =>
    have member : recovery cfg entry ∈ writes cfg s (.reaper .returns) :=
      List.mem_map_of_mem selected
    exact written applied (committing ▸ member)
      ⟨legible.batch entry selected, recovery_assigns entry⟩
  | inserted _ _ next _ row =>
    rw [row] at now
    cases now
    exact .inserted next ⟨rfl, rfl⟩

/-! ## `Legible` is inductive -/

/-- The rows stay coherent. -/
theorem legible_rows (taken : Step cfg s action s') (untouched : Untouched s)
    (legible : Legible s) (uncontended : Uncontended cfg s action) {row' : IngestJob}
    (now : s'.jobs job = some row') : row'.Coherent := by
  cases revision_step taken untouched legible uncontended now with
  | kept same => exact legible.rows job row' same
  | inserted _ coherent => exact coherent
  | assigned present read assigns same value =>
    exact value ▸ assigns.coherent read (legible.rows job _ present) same

/-- The rows that the workers have read hold neither a result nor an error. -/
theorem legible_sessions (taken : Step cfg s action s') (untouched : Untouched s)
    (legible : Legible s) {worker : Worker} (member : worker ∈ s'.workers) {row : IngestJob}
    (session : worker.session = some (job, row)) : row.result = none ∧ row.error = none := by
  rcases workers_step taken member with kept | rfl | ⟨_, _, old, after, -, found, moved, -⟩
  · exact legible.sessions worker kept job row session
  · cases session
  · have present := List.mem_of_getElem? found
    rcases moved.session session with before | read
    · exact legible.sessions old present job row before
    · by_cases known : old.session = some (job, row)
      · exact legible.sessions old present job row known
      · -- the row has just been read, for a claim on a PENDING job
        have pending : row.status = .pending := by
          cases moved with
          | load stored =>
            cases session
            exact untouched.pending job (unstarted_pos present rfl) row read
          | restore | lack | start | restart | exhaust | conclude | nothing | unstored
          | unfinished => exact absurd session known
          | _ => cases session
        have coherent := legible.rows job row read
        unfold IngestJob.Coherent at coherent
        rw [pending] at coherent
        exact coherent

/-- The rows that the workers mark are coherent. -/
theorem legible_marks (taken : Step cfg s action s') (legible : Legible s) {path : Option FileName}
    {row : RowIn .delivering} {verdict : Verdict}
    (member : .committingMark job path row verdict ∈ s'.workers) : row.1.Coherent := by
  rcases workers_step taken member with kept | idle | ⟨_, _, old, after, -, found, moved, -⟩
  · exact legible.marks _ kept job path row verdict rfl
  · cases idle
  · cases moved with
    | observe present => exact legible.rows job row.1 present

/-- So is the row that the reconciler marks. -/
theorem legible_marked (taken : Step cfg s action s') (legible : Legible s)
    {path : Option FileName} {row : RowIn .delivering} {verdict : Verdict}
    {rest : List (JobId × RowIn .delivering)}
    (position : s'.reconciler = .committingMark job path row verdict rest) : row.1.Coherent := by
  rcases reconciler_step taken with same | booted | ⟨outcome, after, -, -, moved⟩
  · exact legible.marked job path row verdict rest (same ▸ position)
  · rw [booted] at position
    cases position
  · rw [position] at moved
    generalize s.reconciler = old at moved
    cases moved with
    | observe present => exact legible.rows job row.1 present

/-- Every step keeps what can be read coherent. -/
theorem legible_step (taken : Step cfg s action s') (untouched : Untouched s)
    (legible : Legible s) (uncontended : Uncontended cfg s action) : Legible s' := by
  refine ⟨fun job row now => legible_rows taken untouched legible uncontended now,
    fun worker member job row session => legible_sessions taken untouched legible member session,
    ?_, fun job path row verdict rest position => legible_marked taken legible position, ?_⟩
  · rintro worker member job path row verdict rfl
    exact legible_marks taken legible member
  · intro entry member
    rcases batch_step taken member with ⟨kept, -⟩ | ⟨present, -⟩
    · exact legible.batch entry kept
    · exact legible.rows entry.1 entry.2.1 present

/-- It is coherent on an empty table. -/
theorem Initial.legible {s : World} (initial : Initial s) : Legible s := by
  have idle {worker : Worker} (member : worker ∈ s.workers) : worker = .idle := by
    rw [initial.booting] at member
    obtain ⟨old, -, same⟩ := List.mem_map.mp member
    exact same.symm
  refine ⟨fun job row present => ?_, fun worker member job row session => ?_,
    fun worker member job path row verdict position => ?_,
    fun job path row verdict rest position => ?_, fun entry member => ?_⟩
  · rw [initial.empty] at present
    cases present
  · rw [idle member] at session
    cases session
  · rw [idle member] at position
    cases position
  · rw [initial.booting] at position
    cases position
  · rw [initial.booting] at member
    cases member

/-- It is coherent in every run. -/
theorem reached_legible {start : World} (initial : Initial start)
    (reached : TransitionSystem.Reaches (step cfg) (Uncontended cfg) start s) :
    Untouched s ∧ Legible s := by
  have weaker {s : World}
      (reached : TransitionSystem.Reaches (step cfg) (Uncontended cfg) start s) : Untouched s := by
    have relaxed : TransitionSystem.Reaches (step cfg) (Undisturbed cfg) start s :=
      reached.weaken fun _ _ uncontended => uncontended.undisturbed
    exact reached_untouched initial.toStarting relaxed
  refine ⟨weaker reached, ?_⟩
  refine reached.invariant Legible initial.legible ?_
  intro state action next before legible uncontended taken
  exact legible_step (step_rule taken) (weaker before) legible uncontended

end Sessions

/-! ## Polls -/

/-- What a later row may be: a job that has been handed over stays so and keeps its result, and
a finished one keeps all columns. -/
structure Succeeds (row row' : IngestJob) : Prop where
  handed : row.status.handed = true →
    row'.status.handed = true ∧ row'.result = row.result
  finished : row.status.terminal = true →
    row'.status = row.status ∧ row'.result = row.result ∧ row'.error = row.error

/-- A row succeeds itself. -/
theorem Succeeds.refl (row : IngestJob) : Succeeds row row :=
  ⟨fun handed => ⟨handed, rfl⟩, fun _ => ⟨rfl, rfl, rfl⟩⟩

/-- What succeeds a successor is a successor. -/
theorem Succeeds.trans {row middle row' : IngestJob} (first : Succeeds row middle)
    (second : Succeeds middle row') : Succeeds row row' := by
  constructor
  · intro handed
    obtain ⟨still, result⟩ := first.handed handed
    obtain ⟨later, same⟩ := second.handed still
    exact ⟨later, same.trans result⟩
  · intro finished
    obtain ⟨status, result, error⟩ := first.finished finished
    obtain ⟨later, same, text⟩ := second.finished (status ▸ finished)
    exact ⟨later.trans status, same.trans result, text.trans error⟩

/-- A row that is overwritten is succeeded by what is assigned. -/
theorem Assigns.succeeds {loaded target row : IngestJob} (assigns : Assigns loaded target)
    (same : row.status = loaded.status) : Succeeds row (IngestJob.overwrite loaded target row) := by
  constructor
  · intro handed
    obtain ⟨delivering, still, result⟩ := assigns.handed same handed
    refine ⟨?_, if_pos result⟩
    rw [IngestJob.overwrite_status]
    split
    · exact handed
    · exact still
  · intro finished
    have handed : row.status.handed = true := by
      cases known : row.status with
      | done | failed => rfl
      | _ =>
        rw [known] at finished
        cases finished
    rw [(assigns.handed same handed).1] at finished
    cases finished

section Runs

variable {cfg : Settings} {start s s' : World}

/-- A row that is there in the end has succeeded the one before. -/
theorem rows_succeed (initial : Initial start)
    (reached : TransitionSystem.Reaches (step cfg) (Uncontended cfg) start s)
    (continued : TransitionSystem.Reaches (step cfg) (Uncontended cfg) s s') {job : JobId}
    {row : IngestJob} (present : s.jobs job = some row) :
    s'.jobs job = none ∨ ∃ row', s'.jobs job = some row' ∧ Succeeds row row' := by
  have below : job < s.nextJob := by
    by_contra beyond
    have sound := (reached_sound initial.toStarting reached).2
    have missing := (sound.beyond job (Nat.le_of_not_lt beyond)).1
    rw [missing] at present
    cases present
  have invariant : job < s'.nextJob ∧
      (s'.jobs job = none ∨ ∃ row', s'.jobs job = some row' ∧ Succeeds row row') := by
    refine continued.invariant (fun state => job < state.nextJob ∧
      (state.jobs job = none ∨ ∃ row', state.jobs job = some row' ∧ Succeeds row row'))
      ⟨below, Or.inr ⟨row, present, .refl row⟩⟩ ?_
    rintro state action next before ⟨issued, still⟩ uncontended taken
    have rule := step_rule taken
    have ⟨untouched, legible⟩ := reached_legible initial (reached.trans before)
    refine ⟨Nat.lt_of_lt_of_le issued (nextJob_mono rule), ?_⟩
    rcases still with deleted | ⟨middle, known, succeeds⟩
    · exact Or.inl (deleted_step rule issued deleted)
    · cases now : next.jobs job with
      | none => exact Or.inl rfl
      | some row' =>
        refine Or.inr ⟨row', rfl, ?_⟩
        cases revision_step rule untouched legible uncontended now with
        | kept same =>
          obtain rfl := Option.some.inj (known.symm.trans same)
          exact succeeds
        | inserted fresh => exact absurd fresh (Nat.ne_of_lt issued)
        | assigned found _ assigns same value =>
          obtain rfl := Option.some.inj (known.symm.trans found)
          exact value ▸ succeeds.trans (assigns.succeeds same)
  exact invariant.2

/-- Two polls of a job, the second one any number of steps later and in any later process: each
answer has the columns of its status; once the job has been handed over it stays so with the
result that was answered, and once it is finished the answer stays the same, until the row is
deleted. -/
theorem polls_agree (initial : Initial start)
    (reached : TransitionSystem.Reaches (step cfg) (Uncontended cfg) start s)
    (continued : TransitionSystem.Reaches (step cfg) (Uncontended cfg) s s') {job : JobId}
    {earlier : JobStatusResponse} (answered : s.getJobStatus job = some earlier) :
    Agrees earlier.status earlier.result earlier.error ∧
      ∀ later, s'.getJobStatus job = some later →
        (earlier.status.handed = true →
          later.status.handed = true ∧ later.result = earlier.result) ∧
        (earlier.status.terminal = true → later = earlier) := by
  obtain ⟨row, present, rfl⟩ := Option.map_eq_some_iff.mp answered
  refine ⟨(reached_legible initial reached).2.rows job row present, ?_⟩
  intro later again
  obtain ⟨row', now, rfl⟩ := Option.map_eq_some_iff.mp again
  rcases rows_succeed initial reached continued present with gone | ⟨other, found, succeeds⟩
  · rw [gone] at now
    cases now
  · obtain rfl := Option.some.inj (now.symm.trans found)
    refine ⟨succeeds.handed, ?_⟩
    intro finished
    obtain ⟨status, result, error⟩ := succeeds.finished finished
    simp [status, result, error]

end Runs

/-- The worker's mark and a second look. -/
def polledRun : List Action := [.worker 0 .returns, .worker 0 .returns, .reconciler (.selected [1])]

/-- Two polls of a job that has been delivered in between. -/
theorem polls_agree_deliveryRun : ∃ s s',
    TransitionSystem.run (step ⟨1, 0⟩) (World.initial 1) deliveryRun = some s ∧
      TransitionSystem.run (step ⟨1, 0⟩) s polledRun = some s' ∧
      ∃ earlier, s.getJobStatus 1 = some earlier ∧ earlier.status = .delivering ∧
        ∀ later, s'.getJobStatus 1 = some later → later.result = earlier.result := by
  obtain ⟨s, executed, passed⟩ := TransitionSystem.run_passes (step ⟨1, 0⟩) (World.initial 1)
    deliveryRun
    (fun s => decide (s.jobs.statusOf 1 = some .delivering) &&
      decide (TransitionSystem.allows (step ⟨1, 0⟩) (Uncontended ⟨1, 0⟩) s polledRun) &&
      (TransitionSystem.run (step ⟨1, 0⟩) s polledRun).any fun _ : World => true) (by decide)
  rw [Bool.and_eq_true, Bool.and_eq_true, Option.any_eq_true] at passed
  obtain ⟨⟨delivering, permitted⟩, s', continued, -⟩ := passed
  obtain ⟨row, present, status⟩ := Option.map_eq_some_iff.mp (of_decide_eq_true delivering)
  refine ⟨s, s', executed, continued, ⟨1, row.status, row.result, row.error⟩, ?_, status, ?_⟩
  · simp [World.getJobStatus, present]
  · intro later again
    have answered : s.getJobStatus 1 = some ⟨1, row.status, row.result, row.error⟩ := by
      simp [World.getJobStatus, present]
    have agreed := (polls_agree (initial_initial 1) (.of_run executed (by decide))
      (.of_run continued (of_decide_eq_true permitted)) answered).2 later again
    exact (agreed.1 (by rw [status]; rfl)).2

end RcaBackend
