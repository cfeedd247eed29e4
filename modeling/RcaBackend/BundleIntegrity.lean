import RcaBackend.CrashRecovery
import RcaBackend.FileSafety

/-!
# What is analysed is what was ingested

A bundle goes through a file and a row, a queue that holds ids only, restores in
any worker of any later process, and one or more attempts of a runner. A ghost
remembers the bundle of each inserted row. Whatever steps in between, crashes and
lost files included, a worker that analyses or sends a job's bundle has exactly the
one that was ingested under that id, and a result in the table is one that the
runner gave for it.
-/

namespace RcaBackend

open World

/-- The job system with the bundle of each row that was ever inserted. -/
structure Traced where
  world : World
  ingested : JobId → Option IngestBundle

/-- The bundle for which the step inserts a row. -/
def World.inserted (s : World) : Action → Option IngestBundle
  | .request index .returns =>
    match s.requests[index]? with
    | some (.committing bundle _) => some bundle
    | _ => none
  | _ => none

/-- One step, and the ghost. -/
def tracedStep (cfg : Settings) (t : Traced) (action : Action) : Option Traced :=
  (step cfg t.world action).map fun next =>
    { world := next
      ingested :=
        match t.world.inserted action with
        | some bundle => Function.update t.ingested t.world.nextJob (some bundle)
        | none => t.ingested }

/-- A validated result that reaches a worker is one that the runner can give for the
bundle that it was handed. -/
def Genuine (runner : IngestBundle → RcaResult → Prop) (t : Traced) : Action → Prop
  | .worker index (.produced result) => ∀ job row bundle attempt,
      t.world.workers[index]? = some (.analysing job row bundle attempt) → runner bundle result
  | _ => True

namespace Worker

/-- The job and the bundle that `restore_bundle` has returned for it. -/
def restored : Worker → Option (JobId × IngestBundle)
  | .committingRunning job _ bundle | .analysing job _ bundle _
  | .committingDelivering job _ bundle _ | .committingDone job _ bundle
  | .committingFailed job _ bundle _ | .delivering job _ bundle => some (job, bundle)
  | _ => none

/-- The bundle that its runner is given. -/
def analysed : Worker → Option IngestBundle
  | .analysing _ _ bundle _ => some bundle
  | _ => none

/-- The bundle of a failure report. -/
def notified : Worker → Option (JobId × IngestBundle)
  | .notifying job _ bundle => some (job, bundle)
  | _ => none

/-- The bundle and the result of an analysis that is being stored. -/
def concluded : Worker → Option (IngestBundle × RcaResult)
  | .committingDelivering _ _ bundle result => some (bundle, result)
  | _ => none

end Worker

namespace Reconciler

/-- The rows that the reconciler has selected. -/
def rows : Reconciler → List (JobId × RowIn .delivering)
  | .sleeping => []
  | .redelivering rest | .posting _ _ _ rest | .marking _ _ _ rest | .committingMark _ _ _ _ rest
  | .discarding _ _ rest => rest

/-- The bundle that it is sending. -/
def sent : Reconciler → Option (JobId × IngestBundle)
  | .posting job _ bundle _ => some (job, bundle)
  | _ => none

end Reconciler

namespace Reaper

/-- The rows that the reaper is about to recover, or has failed. -/
def rows : Reaper → List (JobId × RowIn .running)
  | .committing batch => batch.rows
  | .enqueuing _ failing | .notifying failing | .posting _ _ _ failing
  | .discarding _ _ failing => failing
  | .requeuing | .enqueuingPending _ | .sweeping | .sleeping => []

/-- The bundle of its failure report. -/
def sent : Reaper → Option (JobId × IngestBundle)
  | .posting job _ bundle _ => some (job, bundle)
  | _ => none

end Reaper

namespace Traced

/-- A file, as long as it is there, holds the arrays of this bundle. -/
def Stores (t : Traced) (name : FileName) (bundle : IngestBundle) : Prop :=
  name.stem < t.world.nextFile ∧ ∀ file content, t.world.files name = some file →
    file.content = some content → content = bundle.signals

/-- The row is that of the bundle which was ingested under this id. -/
def Describes (t : Traced) (job : JobId) (row : IngestJob) : Prop :=
  ∃ bundle name, t.ingested job = some bundle ∧ row.bundle = bundle.light ∧
    row.signalsPath = some name ∧ t.Stores name bundle

/-- The bundle is the one that was ingested under this id, or lacks its arrays only. -/
def Sends (t : Traced) (entry : JobId × IngestBundle) : Prop :=
  ∃ bundle, t.ingested entry.1 = some bundle ∧ (entry.2 = bundle ∨ entry.2 = bundle.light)

end Traced

/-- Every copy of a bundle is the ingested one, and every result genuine. -/
structure Faithful (runner : IngestBundle → RcaResult → Prop) (t : Traced) : Prop where
  fresh : ∀ job bundle, t.ingested job = some bundle → job < t.world.nextJob
  written : ∀ request ∈ t.world.requests, ∀ bundle name, request = .committing bundle name →
    t.Stores name bundle
  rows : ∀ job row, t.world.jobs job = some row → t.Describes job row
  loaded : ∀ worker ∈ t.world.workers, ∀ job row, worker.session = some (job, row) →
    t.Describes job row
  restored : ∀ worker ∈ t.world.workers, ∀ job bundle, worker.restored = some (job, bundle) →
    t.ingested job = some bundle
  notified : ∀ worker ∈ t.world.workers, ∀ entry, worker.notified = some entry → t.Sends entry
  selected : ∀ entry ∈ t.world.reconciler.rows, t.Describes entry.1 entry.2.1
  sent : ∀ entry, t.world.reconciler.sent = some entry → t.Sends entry
  failed : ∀ entry ∈ t.world.reaper.rows, t.Describes entry.1 entry.2.1
  reported : ∀ entry, t.world.reaper.sent = some entry → t.Sends entry
  concluded : ∀ worker ∈ t.world.workers, ∀ bundle result,
    worker.concluded = some (bundle, result) → runner bundle result
  results : ∀ job row stored, t.world.jobs job = some row → row.result = some stored →
    ∃ bundle result, t.ingested job = some bundle ∧ runner bundle result ∧ stored = result.stored

/-! ## How copies arise -/

section Copies

variable {cfg : Settings} {s s' : World} {action : Action} {job : JobId}

/-- Light bundle and file together are the bundle. -/
theorem IngestBundle.light_withSignals (bundle : IngestBundle) :
    bundle.light.withSignals bundle.signals = bundle := rfl

/-- A worker restores a bundle from the row that it has loaded. -/
theorem World.WorkerStep.restored {outcome : Outcome} {old new : Worker} {after : World}
    {bundle : IngestBundle} (moved : s.WorkerStep old outcome after new)
    (holds : new.restored = some (job, bundle)) :
    old.restored = some (job, bundle) ∨
      ∃ row, old.session = some (job, row) ∧ s.restored row = some bundle := by
  cases moved with
  | restore usable =>
    cases holds
    exact Or.inr ⟨_, rfl, usable⟩
  | start | restart | exhaust | conclude | nothing | store | unstored | unfinished =>
    exact Or.inl holds
  | _ => cases holds

/-- A failure report has the restored bundle, or that of the row without its file. -/
theorem World.WorkerStep.notified {outcome : Outcome} {old new : Worker} {after : World}
    {bundle : IngestBundle} (moved : s.WorkerStep old outcome after new)
    (sends : new.notified = some (job, bundle)) :
    old.restored = some (job, bundle) ∨
      ∃ row, old.session = some (job, row) ∧ bundle = row.bundle := by
  cases moved with
  | forgo committed =>
    cases sends
    exact Or.inr ⟨_, rfl, rfl⟩
  | fail committed =>
    cases sends
    exact Or.inl rfl
  | _ => cases sends

/-- A result that is being stored has come from the runner with the bundle. -/
theorem World.WorkerStep.concluded {outcome : Outcome} {old new : Worker} {after : World}
    {bundle : IngestBundle} {result : RcaResult} (moved : s.WorkerStep old outcome after new)
    (stores : new.concluded = some (bundle, result)) :
    ∃ job row attempt, old = .analysing job row bundle attempt ∧ outcome = .produced result := by
  cases moved with
  | conclude =>
    cases stores
    exact ⟨_, _, _, rfl, rfl⟩
  | _ => cases stores

/-- A row of the reconciler was there before or has been selected. -/
theorem World.ReconcilerStep.rows {outcome : Outcome} {old new : Reconciler} {after : World}
    {entry : JobId × RowIn .delivering} (moved : s.ReconcilerStep old outcome after new)
    (member : entry ∈ new.rows) :
    entry ∈ old.rows ∨ s.jobs entry.1 = some entry.2.1 := by
  cases moved with
  | select booted => exact Or.inr (JobTable.mem_select (List.mem_filter.mp member).1).1
  | skip | restore => exact Or.inl (List.mem_cons_of_mem _ member)
  | finish | unread | unmarked => cases member
  | _ => exact Or.inl member

/-- What the reconciler sends is restored from one of its rows, or the bundle of the row. -/
theorem World.ReconcilerStep.sent {outcome : Outcome} {old new : Reconciler} {after : World}
    {bundle : IngestBundle} (moved : s.ReconcilerStep old outcome after new)
    (sends : new.sent = some (job, bundle)) :
    ∃ row : RowIn .delivering, (job, row) ∈ old.rows ∧
      (s.restored row.1 = some bundle ∨ bundle = row.1.bundle) := by
  cases moved with
  | restore usable =>
    cases sends
    exact ⟨_, List.mem_cons_self, usable⟩
  | _ => cases sends

/-- A row of the reaper was there before or has been selected. -/
theorem World.ReaperStep.rows {outcome : Outcome} {old new : Reaper} {after : World}
    {entry : JobId × RowIn .running} (moved : s.ReaperStep cfg old outcome after new)
    (member : entry ∈ new.rows) : entry ∈ old.rows ∨ s.jobs entry.1 = some entry.2.1 := by
  have selected {batch : Batch} (member : entry ∈ (afterSelect batch).rows) :
      entry ∈ batch.rows := by
    unfold afterSelect at member
    split at member
    · cases member
    · exact member
  cases moved with
  | sweep | reap => exact Or.inr (mem_runningRows (selected member)).1
  | recover committed => exact Or.inl (List.mem_filter.mp member).1
  | restore | unrestored => exact Or.inl (List.mem_cons_of_mem _ member)
  | enqueue | requeued | notify | discard | keep => exact Or.inl member
  | _ => cases member

/-- The reaper sends what it has restored from a row that it has failed. -/
theorem stepReaper_sent {outcome : Outcome} {old new : Reaper} {after : World}
    {bundle : IngestBundle} (moved : s.stepReaper cfg old outcome = some (after, new))
    (sends : new.sent = some (job, bundle)) :
    ∃ row : RowIn .running, (job, row) ∈ old.rows ∧
      (s.restored row.1 = some bundle ∨ bundle = row.1.bundle) := by
  cases stepReaper_rule moved with
  | @restore own row rest restored outcome =>
    cases sends
    refine ⟨row, List.mem_cons_self, ?_⟩
    cases outcome with
    | returns =>
      obtain ⟨bundle, usable, same⟩ := Option.map_eq_some_iff.mp moved
      cases same
      exact Or.inl usable
    | signalsMissing reason =>
      simp only [stepReaper] at moved
      split at moved <;> cases moved
      exact Or.inr rfl
    | _ => cases moved
  | sweep | reap =>
    unfold afterSelect at sends
    split at sends <;> cases sends
  | _ => cases sends

/-- A result reaches a row by the commit of the worker that has it. -/
theorem stored_step (taken : Step cfg s action s') {row' : IngestJob}
    (now : s'.jobs job = some row') :
    (∃ row, s.jobs job = some row ∧ row'.result = row.result) ∨
      (∃ (index : Nat) (row : IngestJob) (bundle : IngestBundle) (result : RcaResult),
        s.workers[index]? = some (.committingDelivering job row bundle result) ∧
          row'.result = some result.stored) ∨
      row'.result = none := by
  have kept {w : Write} (applied : s.Applies s' w job) (same : w.target.result = w.loaded.result) :
      ∃ row, s.jobs job = some row ∧ row'.result = row.result := by
    obtain ⟨row, present, rfl⟩ := applied.found now
    exact ⟨row, present, if_pos same⟩
  cases step_change taken job with
  | idle row | crashed _ row | abandoned _ _ _ row | unlisted _ _ row | requeued _ _ _ row =>
    exact Or.inl ⟨row', row ▸ now, rfl⟩
  | vanished _ row | purged _ _ _ row =>
    rw [row] at now
    cases now
  | forgone _ _ applied | started _ _ _ applied => exact Or.inl (kept applied rfl)
  | @concluded index worker w _ found late writing applied =>
    cases worker with
    | committingDelivering own loaded bundle result =>
      cases writing
      have here : own = job := applied.1
      subst here
      obtain ⟨row, present, rfl⟩ := applied.found now
      by_cases same : (Write.delivering own loaded result).target.result = loaded.result
      · exact Or.inl ⟨row, present, if_pos same⟩
      · exact Or.inr (Or.inl ⟨index, loaded, bundle, result, found, if_neg same⟩)
    | committingMark own path row verdict =>
      cases writing
      refine Or.inl (kept applied ?_)
      cases verdict <;> rfl
    | committingDone | committingFailed =>
      cases writing
      exact Or.inl (kept applied rfl)
    | committingMissing | committingRunning => cases late
    | _ => cases writing
  | reconciled _ writing applied =>
    cases position : s.reconciler with
    | committingMark own path row verdict rest =>
      rw [position] at writing
      cases writing
      refine Or.inl (kept applied ?_)
      cases verdict <;> rfl
    | _ =>
      rw [position] at writing
      cases writing
  | recovered _ _ applied =>
    refine Or.inl (kept applied ?_)
    unfold recovery
    split <;> rfl
  | inserted _ _ _ _ row =>
    rw [row] at now
    cases now
    exact Or.inr (Or.inr rfl)

end Copies

/-! ## `Faithful` is inductive -/

section Faithful

variable {cfg : Settings} {runner : IngestBundle → RcaResult → Prop} {t t' : Traced}
  {action : Action} {job : JobId}

/-- What a step of the traced system does. -/
structure TracedRule (cfg : Settings) (t : Traced) (action : Action) (t' : Traced) : Prop where
  moved : step cfg t.world action = some t'.world
  taken : Step cfg t.world action t'.world
  ingested : ∀ job, t'.ingested job = t.ingested job ∨
    job = t.world.nextJob ∧ ∃ index bundle name, action = .request index .returns ∧
      t.world.requests[index]? = some (.committing bundle name) ∧ t'.ingested job = some bundle
  recorded : ∀ index bundle name, action = .request index .returns →
    t.world.requests[index]? = some (.committing bundle name) →
    t'.ingested t.world.nextJob = some bundle

/-- A bundle is inserted by a commit of its request. -/
theorem inserted_eq {s : World} {bundle : IngestBundle}
    (inserts : s.inserted action = some bundle) :
    ∃ index name, action = .request index .returns ∧
      s.requests[index]? = some (.committing bundle name) := by
  unfold World.inserted at inserts
  split at inserts
  · rename_i index
    split at inserts
    · rename_i name found
      cases inserts
      exact ⟨index, name, rfl, found⟩
    · cases inserts
  · cases inserts

/-- What a traced step is. -/
theorem traced_rule (taken : tracedStep cfg t action = some t') : TracedRule cfg t action t' := by
  obtain ⟨next, moved, same⟩ := Option.map_eq_some_iff.mp taken
  cases same
  refine ⟨moved, step_rule moved, fun job => ?_, fun index bundle name acting found => ?_⟩
  · cases inserts : t.world.inserted action with
    | none => exact Or.inl rfl
    | some bundle =>
      obtain ⟨index, name, acting, found⟩ := inserted_eq inserts
      by_cases here : job = t.world.nextJob
      · subst here
        exact Or.inr ⟨rfl, index, bundle, name, acting, found, Function.update_self _ _ _⟩
      · exact Or.inl (Function.update_of_ne here _ _)
  · have inserts : t.world.inserted action = some bundle := by
      subst acting
      simp only [World.inserted, found]
    simp only [inserts]
    exact Function.update_self _ _ _

/-- What has been ingested stays. -/
theorem TracedRule.kept (rule : TracedRule cfg t action t') (faithful : Faithful runner t)
    {bundle : IngestBundle} (known : t.ingested job = some bundle) :
    t'.ingested job = some bundle := by
  rcases rule.ingested job with same | ⟨next, -⟩
  · exact same.trans known
  · exact absurd next (Nat.ne_of_lt (faithful.fresh job bundle known))

/-- A file keeps its content as long as it is there. -/
theorem TracedRule.stores (rule : TracedRule cfg t action t') {name : FileName}
    {bundle : IngestBundle} (stores : t.Stores name bundle) : t'.Stores name bundle := by
  refine ⟨Nat.lt_of_lt_of_le stores.1 (nextFile_mono rule.taken), ?_⟩
  intro file content present held
  rcases files_step rule.taken name with same | ⟨gone, -⟩ | ⟨fresh, -⟩
  · exact stores.2 file content (same ▸ present) held
  · rw [gone] at present
    cases present
  · exact absurd stores.1 (Nat.not_lt.mpr fresh)

/-- A row goes on describing what was ingested. -/
theorem TracedRule.describes (rule : TracedRule cfg t action t') (faithful : Faithful runner t)
    {row : IngestJob} (describes : t.Describes job row) : t'.Describes job row := by
  obtain ⟨bundle, name, known, same, named, stores⟩ := describes
  exact ⟨bundle, name, rule.kept faithful known, same, named, rule.stores stores⟩

/-- What is sent goes on being what was ingested. -/
theorem TracedRule.sends (rule : TracedRule cfg t action t') (faithful : Faithful runner t)
    {entry : JobId × IngestBundle} (sends : t.Sends entry) : t'.Sends entry := by
  obtain ⟨bundle, known, same⟩ := sends
  exact ⟨bundle, rule.kept faithful known, same⟩

/-- A restored bundle is the ingested one. -/
theorem Traced.Describes.restored {row : IngestJob} {bundle : IngestBundle}
    (describes : t.Describes job row) (usable : t.world.restored row = some bundle) :
    t.ingested job = some bundle := by
  obtain ⟨original, name, known, light, named, -, stored⟩ := describes
  unfold World.restored at usable
  rw [named] at usable
  obtain ⟨file, present, rest⟩ := Option.bind_eq_some_iff.mp usable
  obtain ⟨content, held, same⟩ := Option.bind_eq_some_iff.mp rest
  cases same
  rw [light, stored file content present held, known, IngestBundle.light_withSignals]

/-- The bundle of a row is that of its job without its arrays. -/
theorem Traced.Describes.light {row : IngestJob} (describes : t.Describes job row) :
    t.Sends (job, row.bundle) := by
  obtain ⟨original, name, known, light, -⟩ := describes
  exact ⟨original, known, Or.inr light⟩

/-- Bundles are ingested under ids that have been given out. -/
theorem faithful_fresh (rule : TracedRule cfg t action t') (faithful : Faithful runner t)
    {bundle : IngestBundle} (known : t'.ingested job = some bundle) : job < t'.world.nextJob := by
  rcases rule.ingested job with same | ⟨rfl, index, own, name, rfl, found, -⟩
  · exact Nat.lt_of_lt_of_le (faithful.fresh job bundle (same ▸ known)) (nextJob_mono rule.taken)
  · have taken := rule.taken
    generalize t'.world = next at taken
    cases taken with
    | request here moved =>
      rw [found] at here
      cases here
      cases moved with
      | insert => exact Nat.lt_succ_self _

/-- A written file holds the arrays of its bundle. -/
theorem faithful_written (rule : TracedRule cfg t action t') (faithful : Faithful runner t)
    {bundle : IngestBundle} {name : FileName}
    (member : .committing bundle name ∈ t'.world.requests) : t'.Stores name bundle := by
  rcases requests_step rule.taken member with
    kept | ⟨other, impossible⟩ | ⟨index, outcome, old, after, -, found, moved, form⟩
  · exact rule.stores (faithful.written _ kept bundle name rfl)
  · cases impossible
  · cases moved with
    | write =>
      rw [Traced.Stores, form]
      refine ⟨Nat.lt_succ_self _, fun file content present held => ?_⟩
      simp only [Function.update_self, Option.some.injEq] at present
      subst present
      cases held
      rfl

/-- Every row describes what was ingested. -/
theorem faithful_rows (rule : TracedRule cfg t action t') (faithful : Faithful runner t)
    {row' : IngestJob} (now : t'.world.jobs job = some row') : t'.Describes job row' := by
  rcases row_step rule.taken now with
    ⟨row, present, bundle, path⟩ | ⟨index, bundle, name, acting, found, rfl, rfl⟩
  · obtain ⟨original, name, known, light, named, stores⟩ :=
      rule.describes faithful (faithful.rows job row present)
    exact ⟨original, name, known, bundle.trans light, path.trans named, stores⟩
  · have stores := faithful.written _ (List.mem_of_getElem? found) bundle name rfl
    exact ⟨bundle, name, rule.recorded index bundle name acting found, rfl, rfl,
      rule.stores stores⟩

/-- Every stored result is one of the runner for what was ingested. -/
theorem faithful_results (rule : TracedRule cfg t action t') (faithful : Faithful runner t)
    {row' : IngestJob} {stored : Json} (now : t'.world.jobs job = some row')
    (has : row'.result = some stored) :
    ∃ bundle result, t'.ingested job = some bundle ∧ runner bundle result ∧
      stored = result.stored := by
  rcases stored_step rule.taken now with
    ⟨row, present, same⟩ | ⟨index, loaded, bundle, result, found, value⟩ | none
  · obtain ⟨bundle, result, known, genuine, form⟩ :=
      faithful.results job row stored present (same ▸ has)
    exact ⟨bundle, result, rule.kept faithful known, genuine, form⟩
  · have member := List.mem_of_getElem? found
    refine ⟨bundle, result, rule.kept faithful (faithful.restored _ member job bundle rfl),
      faithful.concluded _ member bundle result rfl, ?_⟩
    rw [value] at has
    exact (Option.some.inj has).symm
  · rw [none] at has
    cases has

/-- What is made of a row to be sent is what was ingested. -/
theorem Traced.Describes.sends {row : IngestJob} {bundle : IngestBundle}
    (describes : t.Describes job row)
    (usable : t.world.restored row = some bundle ∨ bundle = row.bundle) :
    t.Sends (job, bundle) := by
  rcases usable with restored | same
  · exact ⟨bundle, describes.restored restored, Or.inl rfl⟩
  · rw [same]
    exact describes.light

/-- What a worker has is what was ingested. -/
theorem faithful_workers (rule : TracedRule cfg t action t') (faithful : Faithful runner t)
    {worker : Worker} (member : worker ∈ t'.world.workers) :
    (∀ job row, worker.session = some (job, row) → t'.Describes job row) ∧
      (∀ job bundle, worker.restored = some (job, bundle) → t'.ingested job = some bundle) ∧
      ∀ entry, worker.notified = some entry → t'.Sends entry := by
  rcases workers_step rule.taken member with kept | rfl | ⟨_, _, old, _, -, found, moved, -⟩
  · refine ⟨fun job row session => ?_, fun job bundle restored => ?_, fun entry notified => ?_⟩
    · exact rule.describes faithful (faithful.loaded worker kept job row session)
    · exact rule.kept faithful (faithful.restored worker kept job bundle restored)
    · exact rule.sends faithful (faithful.notified worker kept entry notified)
  · exact ⟨nofun, nofun, nofun⟩
  · have present := List.mem_of_getElem? found
    refine ⟨fun job row session => ?_, fun job bundle restored => ?_, fun entry notified => ?_⟩
    · rcases moved.session session with before | read
      · exact rule.describes faithful (faithful.loaded old present job row before)
      · exact rule.describes faithful (faithful.rows job row read)
    · refine rule.kept faithful ?_
      rcases moved.restored restored with before | ⟨row, session, usable⟩
      · exact faithful.restored old present job bundle before
      · exact (faithful.loaded old present job row session).restored usable
    · refine rule.sends faithful ?_
      rcases moved.notified notified with before | ⟨row, session, same⟩
      · exact ⟨entry.2, faithful.restored old present entry.1 entry.2 before, Or.inl rfl⟩
      · exact (faithful.loaded old present entry.1 row session).sends (Or.inr same)

/-- What a worker stores is a result of the runner. -/
theorem faithful_concluded (rule : TracedRule cfg t action t') (genuine : Genuine runner t action)
    (faithful : Faithful runner t) {worker : Worker} (member : worker ∈ t'.world.workers)
    {bundle : IngestBundle} {result : RcaResult}
    (concluded : worker.concluded = some (bundle, result)) : runner bundle result := by
  rcases workers_step rule.taken member with kept | rfl | ⟨_, _, old, _, rfl, found, moved, -⟩
  · exact faithful.concluded worker kept bundle result concluded
  · cases concluded
  · obtain ⟨job, row, attempt, rfl, rfl⟩ := moved.concluded concluded
    exact genuine job row bundle attempt found

/-- What the reconciler has is what was ingested. -/
theorem faithful_reconciler (rule : TracedRule cfg t action t') (faithful : Faithful runner t) :
    (∀ entry ∈ t'.world.reconciler.rows, t'.Describes entry.1 entry.2.1) ∧
      ∀ entry, t'.world.reconciler.sent = some entry → t'.Sends entry := by
  rcases reconciler_step rule.taken with same | booted | ⟨outcome, after, -, -, moved⟩
  · rw [same]
    exact ⟨fun entry member => rule.describes faithful (faithful.selected entry member),
      fun entry sent => rule.sends faithful (faithful.sent entry sent)⟩
  · rw [booted]
    constructor
    · intro entry member
      cases member
    · intro entry sent
      cases sent
  · refine ⟨fun entry member => ?_, fun entry sent => ?_⟩
    · rcases moved.rows member with before | read
      · exact rule.describes faithful (faithful.selected entry before)
      · exact rule.describes faithful (faithful.rows entry.1 entry.2.1 read)
    · obtain ⟨row, member, usable⟩ := moved.sent sent
      exact rule.sends faithful ((faithful.selected _ member).sends usable)

/-- What the reaper has is what was ingested. -/
theorem faithful_reaper (rule : TracedRule cfg t action t') (faithful : Faithful runner t) :
    (∀ entry ∈ t'.world.reaper.rows, t'.Describes entry.1 entry.2.1) ∧
      ∀ entry, t'.world.reaper.sent = some entry → t'.Sends entry := by
  rcases reaper_step rule.taken with ⟨same, -⟩ | booted | ⟨outcome, after, acting, -, moved⟩
  · rw [same]
    exact ⟨fun entry member => rule.describes faithful (faithful.failed entry member),
      fun entry sent => rule.sends faithful (faithful.reported entry sent)⟩
  · rw [booted]
    constructor
    · intro entry member
      cases member
    · intro entry sent
      cases sent
  · refine ⟨fun entry member => ?_, fun entry sent => ?_⟩
    · rcases moved.rows member with before | read
      · exact rule.describes faithful (faithful.failed entry before)
      · exact rule.describes faithful (faithful.rows entry.1 entry.2.1 read)
    · have whole := rule.moved
      rw [acting] at whole
      obtain ⟨after', reaping, form⟩ := Option.bind_eq_some_iff.mp whole
      have position : t'.world.reaper = after'.2 := by
        rw [← Option.some.inj form]
      rw [position] at sent
      obtain ⟨row, member, usable⟩ := stepReaper_sent reaping sent
      exact rule.sends faithful ((faithful.failed _ member).sends usable)

/-- Every step keeps all copies faithful. -/
theorem faithful_step (rule : TracedRule cfg t action t') (genuine : Genuine runner t action)
    (faithful : Faithful runner t) : Faithful runner t' := by
  refine ⟨fun job bundle known => faithful_fresh rule faithful known, ?_,
    fun job row now => faithful_rows rule faithful now,
    fun worker member => (faithful_workers rule faithful member).1,
    fun worker member => (faithful_workers rule faithful member).2.1,
    fun worker member => (faithful_workers rule faithful member).2.2,
    (faithful_reconciler rule faithful).1, (faithful_reconciler rule faithful).2,
    (faithful_reaper rule faithful).1, (faithful_reaper rule faithful).2,
    fun worker member bundle result concluded =>
      faithful_concluded rule genuine faithful member concluded,
    fun job row stored now has => faithful_results rule faithful now has⟩
  rintro request member bundle name rfl
  exact faithful_written rule faithful member

/-- Nothing has been ingested into an empty table. -/
theorem Initial.faithful {s : World} (initial : Initial s) :
    Faithful runner ⟨s, fun _ => none⟩ := by
  have idle {worker : Worker} (member : worker ∈ s.workers) : worker = .idle := by
    rw [initial.booting] at member
    obtain ⟨old, -, same⟩ := List.mem_map.mp member
    exact same.symm
  have asleep : s.reconciler = .sleeping := by
    rw [initial.booting]
    rfl
  have reading : s.reaper = .requeuing := by
    rw [initial.booting]
    rfl
  have unrequested : s.requests = [] := by
    rw [initial.booting]
    rfl
  refine ⟨fun job bundle known => ?_, fun request member => ?_, fun job row present => ?_,
    fun worker member job row session => ?_, fun worker member job bundle restored => ?_,
    fun worker member entry notified => ?_, fun entry member => ?_, fun entry sent => ?_,
    fun entry member => ?_, fun entry sent => ?_, fun worker member bundle result concluded => ?_,
    fun job row stored present => ?_⟩
  · cases known
  · rw [unrequested] at member
    cases member
  · rw [initial.empty] at present
    cases present
  · rw [idle member] at session
    cases session
  · rw [idle member] at restored
    cases restored
  · rw [idle member] at notified
    cases notified
  · rw [asleep] at member
    cases member
  · rw [asleep] at sent
    cases sent
  · rw [reading] at member
    cases member
  · rw [reading] at sent
    cases sent
  · rw [idle member] at concluded
    cases concluded
  · rw [initial.empty] at present
    cases present

end Faithful

/-! ## Runs -/

/-- Over any number of processes, whatever fails and whichever files are lost: the
bundle that a worker analyses or delivers is the one ingested under its job's id,
any other report is of that bundle too, at most without its arrays, and a stored
result is one that the runner gave for that bundle. -/
theorem ingested_to_report {cfg : Settings} {s : World} {t : Traced}
    (runner : IngestBundle → RcaResult → Prop) (initial : Initial s)
    (reached : TransitionSystem.Reaches (tracedStep cfg) (Genuine runner) ⟨s, fun _ => none⟩ t) :
    (∀ worker ∈ t.world.workers, ∀ job bundle, worker.restored = some (job, bundle) →
        t.ingested job = some bundle) ∧
      (∀ entry, ((∃ worker ∈ t.world.workers, worker.notified = some entry) ∨
          t.world.reconciler.sent = some entry ∨ t.world.reaper.sent = some entry) →
        ∃ bundle, t.ingested entry.1 = some bundle ∧
          (entry.2 = bundle ∨ entry.2 = bundle.light)) ∧
      ∀ job row stored, t.world.jobs job = some row → row.result = some stored →
        ∃ bundle result, t.ingested job = some bundle ∧ runner bundle result ∧
          stored = result.stored := by
  have faithful : Faithful runner t := by
    refine reached.invariant (Faithful runner) initial.faithful ?_
    intro state action next _ faithful genuine taken
    exact faithful_step (traced_rule taken) genuine faithful
  refine ⟨faithful.restored, ?_, faithful.results⟩
  rintro entry (⟨worker, member, notified⟩ | sent | reported)
  · exact faithful.notified worker member entry notified
  · exact faithful.sent entry sent
  · exact faithful.reported entry reported

instance (runner : IngestBundle → RcaResult → Prop)
    [∀ bundle result, Decidable (runner bundle result)] (t : Traced) :
    ∀ action, Decidable (Genuine runner t action)
  | .worker index (.produced result) =>
    decidable_of_iff
      (∀ worker ∈ t.world.workers[index]?, ∀ bundle ∈ worker.analysed, runner bundle result) <| by
        constructor
        · intro every job row bundle attempt present
          exact every _ present bundle rfl
        · intro genuine worker present bundle analysed
          cases worker with
          | analysing job row _ attempt =>
            cases analysed
            exact genuine job row bundle attempt present
          | _ => cases analysed
  | .worker _ .returns | .worker _ (.raises _) | .worker _ (.signalsMissing _) | .worker _ .torn
  | .worker _ .processed | .worker _ .responseLost | .worker _ (.rejected _)
  | .worker _ .unavailable | .worker _ (.selected _) | .worker _ (.visits _) => isTrue trivial
  | .crash | .tick | .receive _ | .request _ _ | .reaper _ | .reconciler _ | .cleaner _ =>
    isTrue trivial

/-- A bundle with items of every modality. -/
def filledBundle (service : String) : IngestBundle :=
  { IngestBundle.bare .epoch with
    logs := [⟨.epoch, py service, py "ERROR timeout"⟩, ⟨.epoch, py "users", py "INFO ok"⟩]
    metrics := [⟨.epoch, py service, py "cpu=97"⟩]
    traces := [⟨.epoch, py service, py "GET took 12.5 ms"⟩] }

/-- Startup on an empty table, two ingests, and a worker analyses each of the two bundles. -/
def twoJobsRun (first second : IngestBundle) : List Action :=
  List.replicate 5 (.reaper .returns) ++ [.receive first, .receive second] ++
    (List.replicate 4 [.request 0 .returns, .request 1 .returns]).flatten ++
    (List.replicate 4 [.worker 0 .returns, .worker 1 .returns]).flatten

/-- Two jobs are lost in a crash during their first attempts. In the new process one of them
finds its file gone, and the other one has a result with its second attempt. -/
def reanalysedRun : List Action :=
  twoJobsRun (filledBundle "orders") (filledBundle "carts") ++ [.crash] ++
    List.replicate 8 (.reaper .returns) ++
    (List.replicate 2 [.worker 0 .returns, .worker 1 .returns]).flatten ++
    [.worker 0 .returns, .worker 1 (.signalsMissing []), .worker 0 .returns, .worker 1 .returns,
      .worker 0 (.raises []), .worker 0 (.produced (.bare (py "orders"))), .worker 0 .returns]

/-- The runner names a service that is logged. -/
abbrev namesLogged (bundle : IngestBundle) (result : RcaResult) : Prop :=
  result.service ∈ bundle.logs.map ModalityItem.service

/-- Two jobs over two processes, one with a result and one without its file. -/
theorem ingested_to_report_reanalysedRun :
    ∃ t, TransitionSystem.run (tracedStep ⟨1, 0⟩) ⟨World.initial 2, fun _ => none⟩ reanalysedRun =
        some t ∧
      (t.ingested 1 = some (filledBundle "orders") ∧ t.ingested 2 = some (filledBundle "carts") ∧
        t.world.workers.map Worker.restored = [some (1, filledBundle "orders"), none] ∧
        t.world.workers.map Worker.notified = [none, some (2, (filledBundle "carts").light)] ∧
        ((t.world.jobs 1).bind IngestJob.result).isSome = true) ∧
      (∀ worker ∈ t.world.workers, ∀ job bundle, worker.restored = some (job, bundle) →
          t.ingested job = some bundle) ∧
        (∀ entry, ((∃ worker ∈ t.world.workers, worker.notified = some entry) ∨
            t.world.reconciler.sent = some entry ∨ t.world.reaper.sent = some entry) →
          ∃ bundle, t.ingested entry.1 = some bundle ∧
            (entry.2 = bundle ∨ entry.2 = bundle.light)) ∧
        ∀ job row stored, t.world.jobs job = some row → row.result = some stored →
          ∃ bundle result, t.ingested job = some bundle ∧ namesLogged bundle result ∧
            stored = result.stored := by
  obtain ⟨t, executed, passed⟩ := TransitionSystem.run_passes (tracedStep ⟨1, 0⟩)
    ⟨World.initial 2, fun _ => none⟩ reanalysedRun
    (fun t => decide (t.ingested 1 = some (filledBundle "orders") ∧
      t.ingested 2 = some (filledBundle "carts") ∧
      t.world.workers.map Worker.restored = [some (1, filledBundle "orders"), none] ∧
      t.world.workers.map Worker.notified = [none, some (2, (filledBundle "carts").light)] ∧
      ((t.world.jobs 1).bind IngestJob.result).isSome = true)) (by decide +kernel)
  exact ⟨t, executed, of_decide_eq_true passed,
    ingested_to_report namesLogged (initial_initial 2) (.of_run executed (by decide +kernel))⟩

end RcaBackend
