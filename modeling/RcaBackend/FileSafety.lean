import RcaBackend.JobStages

/-!
# The files of unfinished jobs

In steady operation nobody deletes the file of a job that is still to be
analysed or delivered. Whoever discards a file holds a reference to it from a row
that is terminal for good, and no other row names the file. The sweep spares the
files of the rows that its SELECT has seen, and young files: so a row committed
after that SELECT relies on its file being young when the sweep starts.
-/

namespace RcaBackend

open World

/-! ## References -/

/-- The job that a worker works on, with the file name that its row holds. -/
def Worker.reference : Worker → Option (JobId × Option FileName)
  | .idle | .selecting _ => none
  | .restoring job row | .committingMissing job row _ | .committingRunning job row _
  | .analysing job row _ _ | .committingDelivering job row _ _ | .committingDone job row _
  | .committingFailed job row _ _ => some (job, row.signalsPath)
  | .delivering job path _ | .marking job path _ | .committingMark job path _ _
  | .notifying job path _ | .discarding job path => some (job, path)

/-- The jobs of selected rows, with the file names that the rows hold. -/
def listed {status : Status} (rows : List (JobId × RowIn status)) :
    List (JobId × Option FileName) := rows.map fun entry => (entry.1, entry.2.1.signalsPath)

/-- The files that the reconciler still needs or is to discard. -/
def Reconciler.references : Reconciler → List (JobId × Option FileName)
  | .sleeping => []
  | .redelivering rest => listed rest
  | .posting job path _ rest | .marking job path _ rest | .committingMark job path _ _ rest
  | .discarding job path rest => (job, path) :: listed rest

/-- The files that the reaper still needs or is to discard. -/
def Reaper.references : Reaper → List (JobId × Option FileName)
  | .committing batch => listed batch.rows
  | .enqueuing _ failing | .notifying failing => listed failing
  | .posting job path _ failing | .discarding job path failing => (job, path) :: listed failing
  | .requeuing | .enqueuingPending _ | .sweeping | .sleeping => []

namespace World

/-- The requests that have written the file and not committed its row yet. -/
def writers (s : World) (name : FileName) : Nat :=
  s.requests.countP fun request => request.written = some name

/-- No row but the job's names the file, and none will. -/
structure Owns (s : World) (job : JobId) (name : FileName) : Prop where
  below : name.stem < s.nextFile
  alone : ∀ other row, s.jobs other = some row → row.signalsPath = some name → other = job
  unwritten : s.writers name = 0

end World

/-- Every reference to a file comes from the one row that names it. -/
structure Owned (s : World) : Prop where
  rows : ∀ job row name, s.jobs job = some row → row.signalsPath = some name → s.Owns job name
  workers : ∀ worker ∈ s.workers, ∀ job name, worker.reference = some (job, some name) →
    s.Owns job name
  reconciler : ∀ job name, (job, some name) ∈ s.reconciler.references → s.Owns job name
  reaper : ∀ job name, (job, some name) ∈ s.reaper.references → s.Owns job name
  writing : ∀ name, 0 < s.writers name → s.writers name = 1 ∧ name.stem < s.nextFile ∧
    ∀ job row, s.jobs job = some row → row.signalsPath ≠ some name
  proceeding : ∀ request ∈ s.requests, request.undoing = false

/-! ## What the runs may do -/

/-- The file has not reached the orphan age. -/
def StoredFile.young (cfg : Settings) (clock : Nat) (file : StoredFile) : Bool :=
  decide (clock < file.mtime + cfg.orphanAge)

/-- The file that a job's row names. -/
def World.fileOf (s : World) (job : JobId) : Option StoredFile :=
  (s.jobs job).bind fun row => row.signalsPath.bind s.files

/-- The await returned. -/
def Outcome.returned : Outcome → Bool
  | .returns => true
  | _ => false

/-- Requests return 201, the reaper selects no job of a live worker, and a file
stays young until its row is committed. -/
def Steady (cfg : Settings) (s : World) (action : Action) : Prop :=
  (∀ request ∈ s.requests, (request.written.bind s.files).all (·.young cfg s.clock) = true) ∧
    match action with
    | .crash => False
    | .request _ outcome => outcome.returned = true
    | .reaper outcome => ∀ entry ∈ s.collected outcome, ∀ worker ∈ s.workers,
        worker.held ≠ some entry.1
    | .tick | .receive _ | .worker _ _ | .reconciler _ | .cleaner _ => True

/-- Where a sweep starts, the first id that its SELECT could not see. -/
def World.unseen (s : World) : Action → Option JobId
  | .cleaner .returns =>
    match s.cleaner with
    | .starting _ seen => some seen
    | _ => none
  | _ => none

/-- A file whose row was committed after the cleaner's SELECT is young when the
sweep starts. -/
def Punctual (cfg : Settings) (s : World) (action : Action) : Prop :=
  ∀ seen ∈ s.unseen action, ∀ job ∈ List.range s.nextJob, seen ≤ job →
    (s.fileOf job).all (·.young cfg s.clock) = true

instance (cfg : Settings) (s : World) : ∀ action, Decidable (Steady cfg s action)
  | .crash => inferInstanceAs (Decidable (_ ∧ False))
  | .request _ _ => inferInstanceAs (Decidable (_ ∧ _ = true))
  | .reaper _ => inferInstanceAs (Decidable (_ ∧ ∀ _ ∈ _, _))
  | .tick | .receive _ | .worker _ _ | .reconciler _ | .cleaner _ =>
    inferInstanceAs (Decidable (_ ∧ True))

instance (cfg : Settings) (s : World) (action : Action) : Decidable (Punctual cfg s action) :=
  inferInstanceAs (Decidable (∀ _ ∈ s.unseen action, ∀ _ ∈ List.range s.nextJob, _))

section Ownership

variable {cfg : Settings} {s s' : World} {action : Action} {job : JobId} {name : FileName}

/-- A request that has written its file has done so just now, under a new name. -/
theorem World.RequestStep.written {outcome : Outcome} {old new : Request} {after : World}
    (moved : s.RequestStep old outcome after new) (wrote : new.written = some name) :
    s.nextFile ≤ name.stem ∧ name.stem < after.nextFile ∧ after.files name ≠ none := by
  cases moved with
  | write =>
    cases wrote
    exact ⟨Nat.le_refl _, Nat.lt_succ_self _, by simp⟩
  | _ => cases wrote

/-- A request adds a writer only for a new name. -/
theorem writers_step (taken : Step cfg s action s') (name : FileName) :
    s'.writers name ≤ s.writers name ∨
      s.nextFile ≤ name.stem ∧ name.stem < s'.nextFile ∧ s'.files name ≠ none ∧
        s'.writers name ≤ s.writers name + 1 := by
  have same (kept : s'.requests = s.requests) : s'.writers name ≤ s.writers name := by
    unfold World.writers
    exact kept ▸ Nat.le_refl _
  cases taken with
  | crash => exact Or.inl (Nat.zero_le _)
  | tick => exact Or.inl (Nat.le_refl _)
  | receive booted =>
    left
    simp [World.writers, Request.written]
  | worker found moved => exact Or.inl (same moved.frame.requests)
  | reaper moved => exact Or.inl (same moved.frame.requests)
  | reconciler moved => exact Or.inl (same moved.frame.requests)
  | cleaner moved => exact Or.inl (same moved.frame.requests)
  | @request index outcome old new after found moved =>
    have counted := TransitionSystem.countP_set
      (fun request => decide (request.written = some name)) s.requests index old new found
    simp only [decide_eq_true_eq] at counted
    simp only [World.writers, moved.frame.requests]
    by_cases wrote : new.written = some name
    · obtain ⟨fresh, below, stored⟩ := moved.written wrote
      rw [if_pos wrote] at counted
      exact Or.inr ⟨fresh, below, stored, by omega⟩
    · rw [if_neg wrote] at counted
      exact Or.inl (by omega)

/-- A request that has written a file is one of its writers. -/
theorem writers_pos {request : Request} (member : request ∈ s.requests)
    (wrote : request.written = some name) : 0 < s.writers name :=
  List.countP_pos_iff.mpr ⟨request, member, decide_eq_true wrote⟩

/-- The commit of the row ends the request's hold on the file. -/
theorem writers_inserted {index : Nat} {bundle : IngestBundle}
    (taken : Step cfg s (.request index .returns) s')
    (found : s.requests[index]? = some (.committing bundle name)) :
    s'.writers name + 1 = s.writers name := by
  cases taken with
  | request here moved =>
    rw [found] at here
    cases here
    cases moved with
    | insert =>
      have counted := TransitionSystem.countP_set
        (fun request => decide (request.written = some name)) s.requests index _
        (.refreshing s.nextJob name) found
      simp only [decide_eq_true_eq, Request.written, if_true, reduceCtorEq, if_false] at counted
      exact counted

/-- Ownership of a file is kept. -/
theorem owns_step (taken : Step cfg s action s') (owns : s.Owns job name) : s'.Owns job name := by
  refine ⟨Nat.lt_of_lt_of_le owns.below (nextFile_mono taken), fun other row' now named => ?_, ?_⟩
  · rcases row_step taken now with ⟨row, present, -, same⟩ | ⟨_, bundle, path, -, found, -, rfl⟩
    · exact owns.alone other row present (same ▸ named)
    · cases named
      have writing := writers_pos (List.mem_of_getElem? found) rfl
      rw [owns.unwritten] at writing
      cases writing
  · have unwritten := owns.unwritten
    rcases writers_step taken name with fewer | ⟨fresh, -⟩
    · omega
    · exact absurd owns.below (Nat.not_lt.mpr fresh)

/-- The job of a row owns the file that it names. -/
theorem ownership_rows (taken : Step cfg s action s') (owned : Owned s) {row' : IngestJob}
    (now : s'.jobs job = some row') (named : row'.signalsPath = some name) : s'.Owns job name := by
  rcases row_step taken now with
    ⟨row, present, -, same⟩ | ⟨index, bundle, path, rfl, found, next, rfl⟩
  · exact owns_step taken (owned.rows job row name present (same ▸ named))
  · cases named
    obtain ⟨once, below, unnamed⟩ :=
      owned.writing name (writers_pos (List.mem_of_getElem? found) rfl)
    refine ⟨Nat.lt_of_lt_of_le below (nextFile_mono taken), fun other row' also named => ?_, ?_⟩
    · rcases row_step taken also with ⟨row, present, -, same⟩ | ⟨_, _, _, -, -, this, -⟩
      · exact absurd (same ▸ named) (unnamed other row present)
      · exact this.trans next.symm
    · have counted := writers_inserted taken found
      omega

/-- A file that is being recorded has one writer and no row. -/
theorem ownership_writing (taken : Step cfg s action s') (owned : Owned s) (name : FileName)
    (writing : 0 < s'.writers name) : s'.writers name = 1 ∧ name.stem < s'.nextFile ∧
      ∀ job row, s'.jobs job = some row → row.signalsPath ≠ some name := by
  have grown := nextFile_mono taken
  have unnamed (before : ∀ job row, s.jobs job = some row → row.signalsPath ≠ some name) :
      ∀ job row, s'.jobs job = some row → row.signalsPath ≠ some name := by
    intro job row' now named
    rcases row_step taken now with
      ⟨row, present, -, same⟩ | ⟨index, bundle, path, rfl, found, -, rfl⟩
    · exact before job row present (same ▸ named)
    · cases named
      have once := (owned.writing name (writers_pos (List.mem_of_getElem? found) rfl)).1
      have counted := writers_inserted taken found
      omega
  rcases writers_step taken name with fewer | ⟨fresh, below, -, more⟩
  · obtain ⟨once, below, before⟩ := owned.writing name (by omega)
    exact ⟨by omega, Nat.lt_of_lt_of_le below grown, unnamed before⟩
  · have none : s.writers name = 0 := by
      refine Nat.eq_zero_of_not_pos fun held => ?_
      exact absurd (owned.writing name held).2.1 (Nat.not_lt.mpr fresh)
    refine ⟨by omega, below, unnamed fun job row present named => ?_⟩
    exact absurd (owned.rows job row name present named).below (Nat.not_lt.mpr fresh)

/-- A worker's reference was its own before, or is that of the row just loaded. -/
theorem World.WorkerStep.reference {outcome : Outcome} {old new : Worker} {after : World}
    (moved : s.WorkerStep old outcome after new) (refers : new.reference = some (job, some name)) :
    old.reference = some (job, some name) ∨
      ∃ row, s.jobs job = some row ∧ row.signalsPath = some name := by
  cases moved with
  | load present =>
    obtain ⟨rfl, named⟩ := Prod.mk.inj (Option.some.inj refers)
    exact Or.inr ⟨_, present, named⟩
  | restore | lack | forgo | start | restart | exhaust | conclude | nothing | store | unstored
  | finish | unfinished | fail | delivered | rejected | settled | observe | mark | notify =>
    exact Or.inl refers
  | _ => cases refers

/-- What the reconciler refers to, it referred to before or has selected. -/
theorem World.ReconcilerStep.references {outcome : Outcome} {old new : Reconciler} {after : World}
    (moved : s.ReconcilerStep old outcome after new)
    (refers : (job, some name) ∈ new.references) :
    (job, some name) ∈ old.references ∨
      ∃ row, s.jobs job = some row ∧ row.signalsPath = some name := by
  cases moved with
  | select booted =>
    obtain ⟨entry, member, same⟩ := List.mem_map.mp refers
    obtain ⟨rfl, named⟩ := Prod.mk.inj same
    exact Or.inr ⟨_, (JobTable.mem_select (List.mem_filter.mp member).1).1, named⟩
  | skip | unanswered | unavailable | settled | discard | keep =>
    exact Or.inl (List.mem_cons_of_mem _ refers)
  | restore | delivered | rejected | observe | mark => exact Or.inl refers
  | finish | unread | unmarked => cases refers

/-- A listed reference is one of a row. -/
theorem mem_listed {status : Status} {rows : List (JobId × RowIn status)}
    (refers : (job, some name) ∈ listed rows) :
    ∃ entry ∈ rows, entry.1 = job ∧ entry.2.1.signalsPath = some name := by
  obtain ⟨entry, member, same⟩ := List.mem_map.mp refers
  obtain ⟨here, named⟩ := Prod.mk.inj same
  exact ⟨entry, member, here, named⟩

/-- What is referred to after a SELECT is one of its rows. -/
theorem afterSelect_references {batch : Batch}
    (refers : (job, some name) ∈ (afterSelect batch).references) :
    (job, some name) ∈ listed batch.rows := by
  unfold afterSelect at refers
  split at refers
  · cases refers
  · exact refers

/-- What the reaper refers to, it referred to before or has selected. -/
theorem World.ReaperStep.references {outcome : Outcome} {old new : Reaper} {after : World}
    (moved : s.ReaperStep cfg old outcome after new)
    (refers : (job, some name) ∈ new.references) :
    (job, some name) ∈ old.references ∨
      ∃ row, s.jobs job = some row ∧ row.signalsPath = some name := by
  cases moved with
  | sweep | reap =>
    obtain ⟨entry, member, rfl, named⟩ := mem_listed (afterSelect_references refers)
    exact Or.inr ⟨_, (mem_runningRows member).1, named⟩
  | recover => exact Or.inl ((List.filter_sublist.map _).mem refers)
  | discard | keep => exact Or.inl (List.mem_cons_of_mem _ refers)
  | enqueue | requeued | restore | unrestored | notify => exact Or.inl refers
  | requeue | unread | enqueuePending | enqueued | unswept | unrecovered | finish => cases refers

/-- In a steady run the awaits of requests return. -/
theorem Steady.returns {index : Nat} {outcome : Outcome}
    (steady : Steady cfg s (.request index outcome)) : outcome = .returns := by
  cases outcome with
  | returns => rfl
  | _ => cases steady.2

/-- Every step keeps the files owned. -/
theorem ownership_step (taken : Step cfg s action s') (steady : Steady cfg s action)
    (owned : Owned s) : Owned s' := by
  refine ⟨fun job row name now named => ownership_rows taken owned now named,
    fun worker member job name refers => ?_, fun job name refers => ?_,
    fun job name refers => ?_, ownership_writing taken owned, fun request member => ?_⟩
  · refine owns_step taken ?_
    rcases workers_step taken member with kept | rfl | ⟨_, _, old, _, -, found, moved, -⟩
    · exact owned.workers worker kept job name refers
    · cases refers
    · rcases moved.reference refers with before | ⟨row, present, named⟩
      · exact owned.workers old (List.mem_of_getElem? found) job name before
      · exact owned.rows job row name present named
  · refine owns_step taken ?_
    rcases reconciler_step taken with same | rfl | ⟨_, _, -, -, moved⟩
    · exact owned.reconciler job name (same ▸ refers)
    · cases refers
    · rcases moved.references refers with before | ⟨row, present, named⟩
      · exact owned.reconciler job name before
      · exact owned.rows job row name present named
  · refine owns_step taken ?_
    rcases reaper_step taken with ⟨same, -⟩ | rfl | ⟨_, _, -, -, moved⟩
    · exact owned.reaper job name (same ▸ refers)
    · cases refers
    · rcases moved.references refers with before | ⟨row, present, named⟩
      · exact owned.reaper job name before
      · exact owned.rows job row name present named
  · rcases requests_step taken member with
      kept | ⟨bundle, rfl⟩ | ⟨index, outcome, old, _, rfl, found, moved, -⟩
    · exact owned.proceeding request kept
    · rfl
    · obtain rfl := steady.returns
      have before := owned.proceeding old (List.mem_of_getElem? found)
      cases moved with
      | rollback => cases before
      | _ => rfl

end Ownership

/-! ## Deletions -/

/-- Who deletes a file in a step. -/
inductive Removal (s : World) (action : Action) (name : FileName) : Prop where
  | worker {index : Nat} {job : JobId} (acting : action = .worker index .returns)
      (found : s.workers[index]? = some (.discarding job (some name)))
  | reconciler {job : JobId} {rest : List (JobId × RowIn .delivering)}
      (acting : action = .reconciler .returns)
      (position : s.reconciler = .discarding job (some name) rest)
  | reaper {job : JobId} {rest : List (JobId × RowIn .running)} (acting : action = .reaper .returns)
      (position : s.reaper = .discarding job (some name) rest)
  | request {index : Nat} (acting : action = .request index .returns)
      (found : s.requests[index]? = some (.discarding (some name)))
  | sweep {keep : List FileName} {cutoff : Nat} (acting : action = .cleaner (.visits name))
      (position : s.cleaner = .sweeping keep cutoff) (orphan : s.sweeps keep cutoff name = true)

section Deletions

variable {cfg : Settings} {s s' : World} {action : Action} {job : JobId} {name : FileName}

/-- Discarding removes at most the named file. -/
theorem discard_files (s : World) (path : Option FileName) (name : FileName) :
    (s.discard path).files name = s.files name ∨
      path = some name ∧ (s.discard path).files name = none := by
  cases path with
  | none => exact Or.inl rfl
  | some own =>
    by_cases here : name = own
    · subst here
      exact Or.inr ⟨rfl, Function.update_self _ _ _⟩
    · exact Or.inl (Function.update_of_ne here _ _)

/-- A step keeps a file, deletes it, or writes one under a new name. -/
theorem files_step (taken : Step cfg s action s') (name : FileName) :
    s'.files name = s.files name ∨ (s'.files name = none ∧ Removal s action name) ∨
      (s.nextFile ≤ name.stem ∧ ∃ content, s'.files name = some ⟨content, s.clock⟩) := by
  have written (suffix : Suffix) (content : Option Signals) :
      let files := Function.update s.files ⟨s.nextFile, suffix⟩ (some ⟨content, s.clock⟩)
      files name = s.files name ∨
        (s.nextFile ≤ name.stem ∧ ∃ content, files name = some ⟨content, s.clock⟩) := by
    by_cases here : name = ⟨s.nextFile, suffix⟩
    · subst here
      exact Or.inr ⟨Nat.le_refl _, content, Function.update_self _ _ _⟩
    · exact Or.inl (Function.update_of_ne here _ _)
  cases taken with
  | crash => exact Or.inl rfl
  | tick => exact Or.inl rfl
  | receive booted => exact Or.inl rfl
  | worker found moved =>
    cases moved with
    | @discard own path =>
      rcases discard_files s path name with same | ⟨rfl, gone⟩
      · exact Or.inl same
      · exact Or.inr (Or.inl ⟨gone, .worker rfl found⟩)
    | notify sent => rcases deliver_posts sent with rfl | ⟨key, keyed, rfl⟩ <;> exact Or.inl rfl
    | _ => exact Or.inl rfl
  | request found moved =>
    cases moved with
    | write | torn =>
      rcases written _ _ with same | fresh
      · exact Or.inl same
      · exact Or.inr (Or.inr fresh)
    | @discard path =>
      rcases discard_files s path name with same | ⟨rfl, gone⟩
      · exact Or.inl same
      · exact Or.inr (Or.inl ⟨gone, .request rfl found⟩)
    | _ => exact Or.inl rfl
  | reaper moved =>
    generalize position : s.reaper = old at moved
    cases moved with
    | @discard own path rest =>
      rcases discard_files s path name with same | ⟨rfl, gone⟩
      · exact Or.inl same
      · exact Or.inr (Or.inl ⟨gone, .reaper rfl position⟩)
    | notify sent => rcases deliver_posts sent with rfl | ⟨key, keyed, rfl⟩ <;> exact Or.inl rfl
    | _ => exact Or.inl rfl
  | reconciler moved =>
    generalize position : s.reconciler = old at moved
    cases moved with
    | @discard own path rest =>
      rcases discard_files s path name with same | ⟨rfl, gone⟩
      · exact Or.inl same
      · exact Or.inr (Or.inl ⟨gone, .reconciler rfl position⟩)
    | _ => exact Or.inl rfl
  | cleaner moved =>
    generalize position : s.cleaner = old at moved
    cases moved with
    | @remove keep cutoff own orphan =>
      rcases discard_files s (some own) name with same | ⟨here, gone⟩
      · exact Or.inl same
      · cases here
        exact Or.inr (Or.inl ⟨gone, .sweep rfl position orphan⟩)
    | _ => exact Or.inl rfl

/-- The file is in use, or young if it is there. -/
def Tidy (keep : List FileName) (cutoff : Nat) (s : World) (name : FileName) : Prop :=
  name ∈ keep ∨ ∀ file, s.files name = some file → cutoff ≤ file.mtime

/-- What is written during a sweep is young. -/
theorem tidy_step {keep : List FileName} {cutoff : Nat} (taken : Step cfg s action s')
    (past : cutoff ≤ s.clock) (tidy : Tidy keep cutoff s name) : Tidy keep cutoff s' name := by
  rcases tidy with used | young
  · exact Or.inl used
  · refine Or.inr fun file present => ?_
    rcases files_step taken name with same | ⟨gone, -⟩ | ⟨-, content, written⟩
    · exact young file (same ▸ present)
    · rw [gone] at present
      cases present
    · rw [written] at present
      cases present
      exact past

end Deletions

/-! ## The sweep -/

namespace World

/-- The row of the job names the file and is neither DONE nor FAILED. -/
structure Needs (s : World) (job : JobId) (name : FileName) : Prop where
  issued : job < s.nextJob
  row : ∃ row, s.jobs job = some row ∧ row.status.terminal = false ∧ row.signalsPath = some name

end World

/-- What the cleaner knows of the files that unfinished rows name. -/
structure Sparing (cfg : Settings) (s : World) : Prop where
  seen : ∀ keep seen, s.cleaner = .starting keep seen →
    seen ≤ s.nextJob ∧ ∀ job name, job < seen → s.Needs job name → name ∈ keep
  age : ∀ keep cutoff, s.cleaner = .sweeping keep cutoff → cutoff ≤ s.clock - cfg.orphanAge
  spared : ∀ keep cutoff, s.cleaner = .sweeping keep cutoff → ∀ job name, s.Needs job name →
    name ∈ keep ∨ ∀ file, s.files name = some file → cutoff ≤ file.mtime

/-- The file of an unfinished row is on disk, and so is one still to be recorded. -/
structure Kept (s : World) : Prop where
  needed : ∀ job name, s.Needs job name → s.files name ≠ none
  written : ∀ name, 0 < s.writers name → s.files name ≠ none

section Sweep

variable {cfg : Settings} {s s' : World} {action : Action} {job : JobId} {name : FileName}

/-- A row that needs its file needed it before, or has just been committed. -/
theorem needs_step (taken : Step cfg s action s') (sound : Sound s) (staged : Staged s)
    (needs : s'.Needs job name) :
    s.Needs job name ∨ (job = s.nextJob ∧ ∃ request ∈ s.requests, request.written = some name) ∧
      ∃ index, action = .request index .returns := by
  obtain ⟨-, row', now, unfinished, named⟩ := needs
  rcases row_step taken now with
    ⟨row, present, -, same⟩ | ⟨index, bundle, path, rfl, found, next, rfl⟩
  · have issued := sound.inserted present
    have status : s'.jobs.statusOf job = some row'.status := by simp [JobTable.statusOf, now]
    obtain ⟨before, known, still⟩ := unfinished_step taken sound staged issued status unfinished
    simp only [JobTable.statusOf, present, Option.map_some, Option.some.injEq] at known
    exact Or.inl ⟨issued, row, present, known ▸ still, same ▸ named⟩
  · cases named
    exact Or.inr ⟨⟨next, _, List.mem_of_getElem? found, rfl⟩, index, rfl⟩

/-- A job owns the file that it needs. -/
theorem ownership_needs (owned : Owned s) (needs : s.Needs job name) : s.Owns job name := by
  obtain ⟨-, row, present, -, named⟩ := needs
  exact owned.rows job row name present named

/-- Nobody deletes the file of an unfinished row. -/
theorem needed_kept (staged : Staged s) (owned : Owned s) (sparing : Sparing cfg s)
    (needs : s.Needs job name) : ¬ Removal s action name := by
  obtain ⟨issued, row, present, unfinished, named⟩ := needs
  have finished {own : JobId} (owns : s.Owns own name) (closed : s.Within Status.terminal own) :
      False := by
    have same := owns.alone job row present named
    have terminal := (same ▸ closed).2 row.status (by simp [JobTable.statusOf, present])
    rw [unfinished] at terminal
    cases terminal
  intro removal
  cases removal with
  | worker _ found =>
    have member := List.mem_of_getElem? found
    exact finished (owned.workers _ member _ name rfl) (staged.closed _ member _ rfl)
  | @reconciler own rest _ position =>
    refine finished (owned.reconciler own name ?_) (staged.settled own ?_)
    · rw [position]
      exact List.mem_cons_self
    · rw [position]
      rfl
  | @reaper own rest _ position =>
    refine finished (owned.reaper own name ?_) (staged.failed own ?_)
    · rw [position]
      exact List.mem_cons_self
    · rw [position]
      exact List.mem_cons_self
  | request _ found =>
    have proceeding := owned.proceeding _ (List.mem_of_getElem? found)
    cases proceeding
  | sweep _ position orphan =>
    have spared := sparing.spared _ _ position job name ⟨issued, row, present, unfinished, named⟩
    unfold World.sweeps at orphan
    split at orphan
    · rename_i file stored
      simp only [Bool.and_eq_true, decide_eq_true_eq] at orphan
      rcases spared with member | old
      · exact orphan.1 member
      · have := old file stored
        omega
    · cases orphan

/-- Nobody deletes a young file whose row is still to be committed. -/
theorem written_kept (owned : Owned s) (sparing : Sparing cfg s) (steady : Steady cfg s action)
    {request : Request} (member : request ∈ s.requests) (wrote : request.written = some name) :
    ¬ Removal s action name := by
  have writing := writers_pos member wrote
  have unowned {own : JobId} (owns : s.Owns own name) : False := by
    rw [owns.unwritten] at writing
    cases writing
  intro removal
  cases removal with
  | worker _ found =>
    exact unowned (owned.workers _ (List.mem_of_getElem? found) _ name rfl)
  | @reconciler own rest _ position =>
    refine unowned (owned.reconciler own name ?_)
    rw [position]
    exact List.mem_cons_self
  | @reaper own rest _ position =>
    refine unowned (owned.reaper own name ?_)
    rw [position]
    exact List.mem_cons_self
  | request _ found =>
    have proceeding := owned.proceeding _ (List.mem_of_getElem? found)
    cases proceeding
  | sweep _ position orphan =>
    have age := sparing.age _ _ position
    have young := steady.1 request member
    unfold World.sweeps at orphan
    split at orphan
    · rename_i file stored
      simp only [wrote, Option.bind_some, stored, Option.all_some, StoredFile.young,
        decide_eq_true_eq] at young
      simp only [Bool.and_eq_true, decide_eq_true_eq] at orphan
      omega
    · cases orphan

/-- A file whose name was in use is the one of before. -/
theorem file_before (taken : Step cfg s action s') (below : name.stem < s.nextFile)
    {file : StoredFile} (stored : s'.files name = some file) : s.files name = some file := by
  rcases files_step taken name with same | ⟨gone, -⟩ | ⟨fresh, -⟩
  · exact same ▸ stored
  · rw [gone] at stored
    cases stored
  · exact absurd below (Nat.not_lt.mpr fresh)

/-- The file stays unless somebody deletes it. -/
theorem still_stored (taken : Step cfg s action s') (below : name.stem < s.nextFile)
    (stored : s.files name ≠ none) (spared : ¬ Removal s action name) : s'.files name ≠ none := by
  rcases files_step taken name with same | ⟨-, removed⟩ | ⟨fresh, -⟩
  · exact same ▸ stored
  · exact absurd removed spared
  · exact absurd below (Nat.not_lt.mpr fresh)

/-- Every step keeps the files that are needed. -/
theorem kept_step (taken : Step cfg s action s') (steady : Steady cfg s action) (sound : Sound s)
    (staged : Staged s) (owned : Owned s) (sparing : Sparing cfg s) (kept : Kept s) : Kept s' := by
  have recorded {request : Request} {name : FileName} (member : request ∈ s.requests)
      (wrote : request.written = some name) : s'.files name ≠ none := by
    have writing := writers_pos member wrote
    exact still_stored taken (owned.writing name writing).2.1 (kept.written name writing)
      (written_kept owned sparing steady member wrote)
  refine ⟨fun job name needs => ?_, fun name writing => ?_⟩
  · rcases needs_step taken sound staged needs with before | ⟨⟨-, request, member, wrote⟩, -⟩
    · exact still_stored taken (ownership_needs owned before).below (kept.needed job name before)
        (needed_kept staged owned sparing before)
    · exact recorded member wrote
  · rcases writers_step taken name with fewer | ⟨-, -, stored, -⟩
    · have before : 0 < s.writers name := by omega
      obtain ⟨request, member, wrote⟩ := List.countP_pos_iff.mp before
      exact recorded member (of_decide_eq_true wrote)
    · exact stored

/-- The files in use are those that unfinished rows name. -/
theorem mem_filesInUse : name ∈ s.filesInUse ↔ ∃ job, s.Needs job name := by
  constructor
  · intro used
    obtain ⟨job, issued, listed⟩ := List.mem_filterMap.mp used
    cases present : s.jobs job with
    | none => simp [present] at listed
    | some row =>
      simp only [present] at listed
      split at listed
      · cases listed
      · rename_i unfinished
        exact ⟨job, List.mem_range.mp issued, row, present, by simpa using unfinished, listed⟩
  · rintro ⟨job, issued, row, present, unfinished, named⟩
    refine List.mem_filterMap.mpr ⟨job, List.mem_range.mpr issued, ?_⟩
    simp [present, unfinished, named]

/-- The list that the cleaner has read names the files that were needed then. -/
theorem sparing_seen (taken : Step cfg s action s') (sound : Sound s) (staged : Staged s)
    (sparing : Sparing cfg s) {keep : List FileName} {seen : JobId}
    (position : s'.cleaner = .starting keep seen) :
    seen ≤ s'.nextJob ∧ ∀ job name, job < seen → s'.Needs job name → name ∈ keep := by
  have grown := nextJob_mono taken
  rcases cleaner_step taken with ⟨same, -⟩ | ⟨-, rfl⟩ | ⟨outcome, after, rfl, form, moved⟩
  · obtain ⟨bound, listed⟩ := sparing.seen keep seen (same ▸ position)
    refine ⟨Nat.le_trans bound grown, fun job name early needs => ?_⟩
    rcases needs_step taken sound staged needs with before | ⟨⟨next, -⟩, -⟩
    · exact listed job name early before
    · exact absurd (Nat.lt_of_lt_of_le early bound) (Nat.not_lt.mpr (Nat.le_of_eq next.symm))
  · cases position
  · rw [position] at moved
    generalize s.cleaner = old at moved
    cases moved with
    | read =>
      refine ⟨grown, fun job name _ needs => ?_⟩
      rcases needs_step taken sound staged needs with before | ⟨-, _, acting⟩
      · exact mem_filesInUse.mpr ⟨job, before⟩
      · cases acting

/-- A young file is younger than the cutoff. -/
theorem young_spared {file : StoredFile} {clock cutoff : Nat} (young : file.young cfg clock = true)
    (age : cutoff ≤ clock - cfg.orphanAge) : cutoff ≤ file.mtime := by
  have := of_decide_eq_true young
  omega

/-- A sweep spares the files that are needed. -/
theorem sparing_sweeping (taken : Step cfg s action s') (steady : Steady cfg s action)
    (punctual : Punctual cfg s action) (sound : Sound s) (staged : Staged s) (owned : Owned s)
    (sparing : Sparing cfg s) {keep : List FileName} {cutoff : Nat}
    (position : s'.cleaner = .sweeping keep cutoff) :
    cutoff ≤ s'.clock - cfg.orphanAge ∧ ∀ job name, s'.Needs job name →
      name ∈ keep ∨ ∀ file, s'.files name = some file → cutoff ≤ file.mtime := by
  have later := clock_mono taken
  -- what a pass in progress has spared it goes on to spare
  have going (before : s.cleaner = .sweeping keep cutoff) :
      cutoff ≤ s'.clock - cfg.orphanAge ∧ ∀ job name, s'.Needs job name →
        name ∈ keep ∨ ∀ file, s'.files name = some file → cutoff ≤ file.mtime := by
    have age := sparing.age keep cutoff before
    refine ⟨by omega, fun job name needs => ?_⟩
    rcases needs_step taken sound staged needs with earlier | ⟨⟨-, request, member, wrote⟩, -⟩
    · exact tidy_step taken (by omega) (sparing.spared keep cutoff before job name earlier)
    · refine Or.inr fun file stored => ?_
      have below := (owned.writing name (writers_pos member wrote)).2.1
      have young := steady.1 request member
      simp only [wrote, Option.bind_some, file_before taken below stored, Option.all_some] at young
      exact young_spared young age
  rcases cleaner_step taken with ⟨same, -⟩ | ⟨-, rfl⟩ | ⟨outcome, after, rfl, form, moved⟩
  · exact going (same ▸ position)
  · cases position
  · rw [position] at moved
    generalize previous : s.cleaner = old at moved
    cases moved with
    | remove | pass => exact going previous
    | @start _ seen =>
      have clock : s'.clock = s.clock := by rw [form]
      refine ⟨Nat.le_of_eq (by rw [clock]), fun job name needs => ?_⟩
      rcases needs_step taken sound staged needs with before | ⟨-, _, acting⟩
      · by_cases early : job < seen
        · exact Or.inl ((sparing.seen keep seen previous).2 job name early before)
        · refine Or.inr fun file stored => ?_
          have unseen : seen ∈ s.unseen (.cleaner .returns) := by
            simp only [World.unseen, previous]
            rfl
          have owns := ownership_needs owned before
          obtain ⟨issued, row, present, -, named⟩ := before
          have young := punctual seen unseen job (List.mem_range.mpr issued) (Nat.le_of_not_lt early)
          simp only [World.fileOf, present, Option.bind_some, named,
            file_before taken owns.below stored, Option.all_some] at young
          exact young_spared young (Nat.le_refl _)
      · cases acting

/-- Every step keeps the cleaner sparing. -/
theorem sparing_step (taken : Step cfg s action s') (steady : Steady cfg s action)
    (punctual : Punctual cfg s action) (sound : Sound s) (staged : Staged s) (owned : Owned s)
    (sparing : Sparing cfg s) : Sparing cfg s' :=
  ⟨fun _ _ position => sparing_seen taken sound staged sparing position,
    fun _ _ position =>
      (sparing_sweeping taken steady punctual sound staged owned sparing position).1,
    fun _ _ position =>
      (sparing_sweeping taken steady punctual sound staged owned sparing position).2⟩

end Sweep

/-! ## Runs -/

/-- A state after startup recovery: nothing is in progress, only PENDING rows are
queued, each once, and every unfinished row has a file of its own. -/
structure Consistent (s : World) : Prop where
  booted : s.booted = true
  idle : ∀ worker ∈ s.workers, worker.held = none
  answered : ∀ request ∈ s.requests, request.answered = true
  reaper : s.reaper = .sleeping
  reconciler : s.reconciler = .sleeping
  cleaner : s.cleaner = .sleeping
  once : ∀ job, s.queue.count job ≤ 1
  pending : ∀ job ∈ s.queue, s.jobs.statusOf job = some .pending
  unused : ∀ job, s.nextJob ≤ job → s.jobs job = none
  named : ∀ job row name, s.jobs job = some row → row.signalsPath = some name →
    name.stem < s.nextFile
  distinct : ∀ job other row row' name, s.jobs job = some row → s.jobs other = some row' →
    row.signalsPath = some name → row'.signalsPath = some name → other = job
  stored : ∀ job row name, s.jobs job = some row → row.status.terminal = false →
    row.signalsPath = some name → s.files name ≠ none

/-- All that the runs keep. -/
structure Safe (cfg : Settings) (s : World) : Prop where
  booted : s.booted = true
  phased : Phased s
  sound : Sound s
  exclusive : Exclusive s
  staged : Staged s
  owned : Owned s
  sparing : Sparing cfg s
  kept : Kept s

section Runs

variable {cfg : Settings} {s s' start : World} {action : Action}

/-- A worker that holds no job is idle. -/
theorem Worker.idle_of_held {worker : Worker} (resting : worker.held = none) : worker = .idle := by
  cases worker with
  | idle => rfl
  | _ => cases resting

/-- The workers of a consistent world are idle. -/
theorem Consistent.quiet (consistent : Consistent s) {worker : Worker}
    (member : worker ∈ s.workers) : worker = .idle :=
  Worker.idle_of_held (consistent.idle worker member)

/-- Only queue entries claim a job. -/
theorem Consistent.claims (consistent : Consistent s) (job : JobId) :
    s.unstarted job = s.queue.count job ∧ s.prospects job = s.queue.count job := by
  have fresh : s.workers.countP (fun worker => decide (worker.fresh = some job)) = 0 := by
    refine List.countP_eq_zero.mpr fun worker member => ?_
    rw [consistent.quiet member]
    exact Bool.false_ne_true
  have held : s.workers.countP (fun worker => decide (worker.held = some job)) = 0 := by
    refine List.countP_eq_zero.mpr fun worker member => ?_
    rw [consistent.quiet member]
    exact Bool.false_ne_true
  have waiting : s.requests.countP (fun request => decide (request.backlog = some job)) = 0 := by
    refine List.countP_eq_zero.mpr fun request member => ?_
    have answered := consistent.answered request member
    cases request with
    | created | refused => exact Bool.false_ne_true
    | _ => cases answered
  simp only [World.unstarted, World.prospects, World.claims, fresh, held, waiting,
    consistent.reaper, Reaper.backlog, Reaper.batch, List.map_nil, List.count_nil, Nat.add_zero,
    and_self]

/-- A consistent world is sound. -/
theorem Consistent.sound (consistent : Consistent s) : Sound s := by
  have claims (job : JobId) := (consistent.claims job).1
  have pending (job : JobId) (claimed : 0 < s.unstarted job) :
      s.jobs.statusOf job = some .pending := by
    rw [claims job] at claimed
    exact consistent.pending job (List.count_pos_iff.mp claimed)
  have rested {job : JobId} (other : s.jobs.statusOf job ≠ some .pending) : s.unstarted job = 0 :=
    Nat.eq_zero_of_not_pos fun claimed => other (pending job claimed)
  refine ⟨fun job => ?_, fun job running => rested ?_, fun entry member => ?_,
    fun worker member row loaded => ?_, fun worker member job row fresh => ?_,
    fun job beyond => ⟨consistent.unused job beyond, rested ?_⟩, fun reading => ?_⟩
  · rw [claims job]
    exact consistent.once job
  · rw [running]
    exact nofun
  · rw [consistent.reaper] at member
    cases member
  · rw [consistent.quiet member] at loaded
    cases loaded
  · rw [consistent.quiet member] at fresh
    cases fresh
  · simp [JobTable.statusOf, consistent.unused job beyond]
  · rw [consistent.reaper] at reading
    cases reading

/-- Its jobs are exclusive. -/
theorem Consistent.exclusive (consistent : Consistent s) : Exclusive s := by
  refine ⟨fun job => ?_, fun worker member job held => ?_, fun worker member job held => ?_,
    fun _ worker member => consistent.idle worker member⟩
  · rw [(consistent.claims job).2]
    exact consistent.once job
  · rw [consistent.idle worker member] at held
    cases held
  · rw [consistent.idle worker member] at held
    cases held

/-- Its rows are in stages. -/
theorem Consistent.staged (consistent : Consistent s) : Staged s := by
  refine ⟨fun job claimed => ?_, fun worker member job row analysing => ?_, fun entry member => ?_,
    fun worker member job sending => ?_, fun job sending => ?_,
    fun worker member job finished => ?_, fun job finished => ?_, fun job finished => ?_⟩
  · rw [(consistent.claims job).1] at claimed
    exact consistent.pending job (List.count_pos_iff.mp claimed)
  · rw [consistent.quiet member] at analysing
    cases analysing
  · rw [consistent.reaper] at member
    cases member
  · rw [consistent.quiet member] at sending
    cases sending
  · rw [consistent.reconciler] at sending
    cases sending
  · rw [consistent.quiet member] at finished
    cases finished
  · rw [consistent.reconciler] at finished
    cases finished
  · rw [consistent.reaper] at finished
    cases finished

/-- Its files are owned. -/
theorem Consistent.owned (consistent : Consistent s) : Owned s := by
  have unwritten (name : FileName) : s.writers name = 0 := by
    refine List.countP_eq_zero.mpr fun request member => ?_
    have answered := consistent.answered request member
    cases request with
    | created | refused => exact Bool.false_ne_true
    | _ => cases answered
  refine ⟨fun job row name present named => ?_, fun worker member job name refers => ?_,
    fun job name refers => ?_, fun job name refers => ?_, fun name writing => ?_,
    fun request member => ?_⟩
  · refine ⟨consistent.named job row name present named, ?_, unwritten name⟩
    intro other row' also same
    exact consistent.distinct job other row row' name present also named same
  · rw [consistent.quiet member] at refers
    cases refers
  · rw [consistent.reconciler] at refers
    cases refers
  · rw [consistent.reaper] at refers
    cases refers
  · rw [unwritten name] at writing
    cases writing
  · have answered := consistent.answered request member
    cases request with
    | created | refused => rfl
    | _ => cases answered

/-- Its files are safe. -/
theorem Consistent.safe (consistent : Consistent s) : Safe cfg s := by
  have owned := consistent.owned
  refine ⟨consistent.booted, ⟨fun down => ?_, fun unswept => ?_, fun _ => consistent.booted⟩,
    consistent.sound, consistent.exclusive, consistent.staged, owned,
    ⟨fun _ _ position => ?_, fun _ _ position => ?_, fun _ _ position => ?_⟩,
    ⟨fun job name needs => ?_, fun name writing => ?_⟩⟩
  · rw [consistent.booted] at down
    cases down
  · rw [consistent.reaper] at unswept
    cases unswept
  · rw [consistent.cleaner] at position
    cases position
  · rw [consistent.cleaner] at position
    cases position
  · rw [consistent.cleaner] at position
    cases position
  · obtain ⟨-, row, present, unfinished, named⟩ := needs
    exact consistent.stored job row name present unfinished named
  · obtain ⟨request, member, wrote⟩ := List.countP_pos_iff.mp writing
    have answered := consistent.answered request member
    cases request with
    | created | refused => cases of_decide_eq_true wrote
    | _ => cases answered

/-- Without a crash the process stays up. -/
theorem still_booted (taken : Step cfg s action s') (up : action ≠ .crash)
    (booted : s.booted = true) : s'.booted = true := by
  cases taken with
  | crash => exact absurd rfl up
  | tick => exact booted
  | receive => exact booted
  | worker _ moved => exact moved.frame.booted.trans booted
  | request _ moved => exact moved.frame.booted.trans booted
  | reconciler moved => exact moved.frame.booted.trans booted
  | cleaner moved => exact moved.frame.booted.trans booted
  | reaper moved =>
    rcases moved.booted with same | ⟨returned, -⟩
    · exact same.trans booted
    · exact returned

/-- Every step keeps the files safe. -/
theorem safe_step (taken : Step cfg s action s') (steady : Steady cfg s action)
    (punctual : Punctual cfg s action) (safe : Safe cfg s) : Safe cfg s' := by
  obtain ⟨booted, phased, sound, exclusive, staged, owned, sparing, kept⟩ := safe
  have undisputed : Undisputed s action := by
    cases action with
    | crash => exact steady.2
    | reaper outcome =>
      intro entry found
      rw [if_pos booted]
      exact steady.2 entry found
    | _ => trivial
  have up : action ≠ .crash := by
    rintro rfl
    exact steady.2
  exact ⟨still_booted taken up booted, phased_step taken phased, sound_step taken phased sound,
    exclusive_step taken sound exclusive undisputed, staged_step taken sound exclusive staged,
    ownership_step taken steady owned,
    sparing_step taken steady punctual sound staged owned sparing,
    kept_step taken steady sound staged owned sparing kept⟩

/-- In steady operation, with punctual sweeps, the file of a PENDING, RUNNING or
DELIVERING row is on disk. -/
theorem files_safe (consistent : Consistent start)
    (reached : TransitionSystem.Reaches (step cfg)
      (fun state action => Steady cfg state action ∧ Punctual cfg state action) start s)
    {job : JobId} {row : IngestJob} {name : FileName} (present : s.jobs job = some row)
    (unfinished : row.status.terminal = false) (named : row.signalsPath = some name) :
    s.files name ≠ none := by
  have safe : Safe cfg s := by
    refine reached.invariant (Safe cfg) consistent.safe ?_
    intro state action next _ safe ⟨steady, punctual⟩ taken
    exact safe_step (step_rule taken) steady punctual safe
  exact safe.kept.needed job name ⟨safe.sound.inserted present, row, present, unfinished, named⟩

end Runs

/-- The first process, after its startup on empty stores. -/
def World.steady : World := { World.initial 1 with reaper := .sleeping, booted := true }

/-- The world of the witness is consistent. -/
theorem steady_consistent : Consistent World.steady := by
  have empty (job : JobId) (row : IngestJob) : World.steady.jobs job ≠ some row := nofun
  refine ⟨rfl, fun worker member => ?_, fun request member => ?_, rfl, rfl, rfl,
    fun _ => Nat.zero_le _, fun job queued => ?_, fun _ _ => rfl,
    fun job row name present => absurd present (empty job row),
    fun job other row row' name present => absurd present (empty job row),
    fun job row name present => absurd present (empty job row)⟩
  · rw [List.eq_of_mem_replicate member]
    rfl
  · cases member
  · cases queued

/-- One job is ingested and analysed while a cleanup pass looks at its file. -/
def cleanupRun : List Action :=
  [.receive (.bare .epoch), .request 0 .returns, .cleaner (.selected []), .cleaner .returns,
    .request 0 .returns, .request 0 .returns, .request 0 .returns, .tick, .cleaner .returns,
    .worker 0 .returns, .cleaner (.visits ⟨0, .json⟩), .worker 0 .returns, .worker 0 .returns,
    .worker 0 .returns, .cleaner .returns]

/-- The cleaner runs while a job is analysed. -/
theorem files_safe_cleanupRun :
    ∃ s row, TransitionSystem.run (step ⟨1, 2⟩) World.steady cleanupRun = some s ∧
      s.jobs 1 = some row ∧ row.status = .running ∧ row.signalsPath = some ⟨0, .json⟩ ∧
      s.files ⟨0, .json⟩ ≠ none := by
  obtain ⟨s, executed, passed⟩ := TransitionSystem.run_passes (step ⟨1, 2⟩) World.steady
    cleanupRun (fun s => (s.jobs 1).any fun row : IngestJob => decide (row.status = .running) &&
      decide (row.signalsPath = some ⟨0, .json⟩)) (by decide)
  obtain ⟨row, present, holds⟩ := (Option.any_eq_true _ _).mp passed
  rw [Bool.and_eq_true, decide_eq_true_eq, decide_eq_true_eq] at holds
  have unfinished : row.status.terminal = false := by
    rw [holds.1]
    rfl
  exact ⟨s, row, executed, present, holds.1, holds.2, files_safe steady_consistent
    (.of_run executed (by decide)) present unfinished holds.2⟩

/-- The row is committed between the SELECT and the sweep of a cleanup pass, whose
start is so late that the file has reached the orphan age by then. -/
theorem file_swept :
    Consistent World.steady ∧
    ∃ s row, TransitionSystem.Reaches (step ⟨1, 2⟩) (Steady ⟨1, 2⟩) World.steady s ∧
      s.jobs 1 = some row ∧ row.status = .pending ∧ row.signalsPath = some ⟨0, .json⟩ ∧
      s.files ⟨0, .json⟩ = none := by
  refine ⟨steady_consistent, ?_⟩
  obtain ⟨s, executed, passed⟩ := TransitionSystem.run_passes (step ⟨1, 2⟩) World.steady
    [.receive (.bare .epoch), .request 0 .returns, .cleaner (.selected []), .cleaner .returns,
      .request 0 .returns, .tick, .tick, .tick, .cleaner .returns,
      .cleaner (.visits ⟨0, .json⟩)]
    (fun s => decide (s.jobs 1 = some (newRow (.bare .epoch) ⟨0, .json⟩)) &&
      (s.files ⟨0, .json⟩).isNone) (by decide)
  rw [Bool.and_eq_true, decide_eq_true_eq, Option.isNone_iff_eq_none] at passed
  exact ⟨s, _, .of_run executed (by decide), passed.1, rfl, rfl, passed.2⟩

end RcaBackend
