import RcaBackend.BundleStore
import RcaBackend.PayloadImage
import RcaBackend.TransitionSystem

/-!
# What is sent again is what was sent

The worker analyses the bundle that it restores, stores the result in the row and posts
the payload of the two objects it carries. The reconciler has the row and the file only:
it restores the bundle and validates the stored result anew for every attempt. No step
writes to the objects of another, since every payload is built from a new dump; what is
read back decides whether the payloads agree.
-/

namespace RcaBackend

open Attempts TransitionSystem

/-- The columns of a row that a delivery reads, and the file that the row names. -/
structure DeliveryRow where
  bundle : Json
  result : Option Json
  file : Option (Option (List UInt8))

/-- A row, the bundle and the result that the worker carries, and what was posted. -/
structure Sending where
  row : DeliveryRow
  carried : Option (IngestBundle × RcaResult)
  posted : List Dict

inductive SendAction where
  /-- `_run_rca` returns the result, and `_process` stores it -/
  | analyse (result : RcaResult)
  /-- the worker's `save_result` -/
  | post
  /-- an attempt of `redeliver_once` -/
  | redeliver

section Runs

variable (F : Type) [PyFloat F] [LaxInt] [PyRuntime] [Drain] (cap : Nat)

/-- `_restore`: without the file the bundle is sent without its arrays. -/
def DeliveryRow.restore (row : DeliveryRow) : Except PyExc IngestBundle :=
  match restoreBundle row.bundle row.file with
  | .error .signalsMissing => IngestBundle.modelValidate row.bundle
  | restored => restored

/-- The payload that `redeliver_once` builds for a row; a row without a result is skipped. -/
def DeliveryRow.redeliver (row : DeliveryRow) : Except PyExc (Option Dict) :=
  match row.result with
  | none => .ok none
  | some stored => do
    let bundle ← row.restore
    let result ← RcaResult.modelValidate stored
    return some (← resultPayload F bundle result cap)

/-- What raises posts nothing. -/
def Sending.attempt (s : Sending) : Except PyExc (Option Dict) → Sending
  | .ok (some payload) => { s with posted := s.posted ++ [payload] }
  | .ok none | .error _ => s

/-- A step of the worker or of the reconciler. A job is analysed once. -/
def sendStep (s : Sending) : SendAction → Option Sending
  | .analyse result =>
    match s.carried, restoreBundle s.row.bundle s.row.file with
    | none, .ok bundle =>
      some { s with row := { s.row with result := some result.stored }
                    carried := some (bundle, result) }
    | _, _ => none
  | .post =>
    s.carried.map fun carried => s.attempt (some <$> resultPayload F carried.1 carried.2 cap)
  | .redeliver => some (s.attempt (s.row.redeliver F cap))

/-- A row as it is stored for a bundle: split, with a file that is read as the arrays that
were written, or from before there were files. -/
inductive StoredFor (bundle : IngestBundle) : DeliveryRow → Prop where
  | split {bytes : List UInt8}
      (written : readSync (some bytes) = .ok (.dict (signalsOf F (bundle.modelDump {})))) :
      StoredFor bundle ⟨.dict (lightOf (bundle.modelDump {})), none, some (some bytes)⟩
  | legacy : StoredFor bundle ⟨.dict (bundle.modelDump {}), none, none⟩

/-! ## Reading back -/

omit [Drain] in
theorem storedFor_restores {bundle : IngestBundle} {row : DeliveryRow}
    (stored : StoredFor F bundle row) :
    row.result = none ∧ restoreBundle row.bundle row.file = .ok bundle := by
  cases stored with
  | split written =>
    refine ⟨rfl, ?_⟩
    rw [restoreBundle, written]
    exact validateMerged_split F bundle
  | legacy => exact ⟨rfl, IngestBundle.modelValidate_dump {} bundle⟩

/-- What the reconciler builds from a row is what the worker builds from its objects. -/
theorem redeliver_eq {row : DeliveryRow} {bundle : IngestBundle} {result : RcaResult}
    (restores : restoreBundle row.bundle row.file = .ok bundle)
    (stored : row.result = some result.stored) :
    row.redeliver F cap = some <$> resultPayload F bundle result cap := by
  have restored : row.restore = .ok bundle := by
    rw [DeliveryRow.restore, restores]
  have validated : RcaResult.modelValidate result.stored = .ok result :=
    RcaResult.modelValidate_stored result
  rw [DeliveryRow.redeliver, stored]
  simp only [restored, validated, bind_pure_comp]
  rfl

/-! ## Runs -/

/-- The row restores to the bundle; nothing was posted before the analysis, and everything
that was posted after it is the payload of the carried objects. -/
structure AgreesWithSpring (bundle : IngestBundle) (s : Sending) : Prop where
  restores : restoreBundle s.row.bundle s.row.file = .ok bundle
  sent : (s.carried = none ∧ s.row.result = none ∧ s.posted = []) ∨
    ∃ result, s.carried = some (bundle, result) ∧ s.row.result = some result.stored ∧
      ∀ payload ∈ s.posted, resultPayload F bundle result cap = .ok payload

omit [PyRuntime] [Drain] [LaxInt] [PyFloat F] in
/-- An attempt changes only what was posted, by at most one payload. -/
theorem attempt_posted (s : Sending) (attempt : Except PyExc (Option Dict)) :
    (s.attempt attempt).row = s.row ∧ (s.attempt attempt).carried = s.carried ∧
      ∀ payload ∈ (s.attempt attempt).posted,
        payload ∈ s.posted ∨ attempt = .ok (some payload) := by
  fun_cases Sending.attempt s attempt with
  | case1 payload =>
    refine ⟨rfl, rfl, fun sent member => ?_⟩
    obtain before | new := List.mem_append.mp member
    · exact Or.inl before
    · exact Or.inr (by rw [List.mem_singleton.mp new])
  | case2 | case3 => exact ⟨rfl, rfl, fun sent member => Or.inl member⟩

/-- An attempt at the payload of the carried objects keeps the state consistent. -/
theorem AgreesWithSpring.attempt {bundle : IngestBundle} {result : RcaResult} {s : Sending}
    {attempt : Except PyExc (Option Dict)} (consistent : AgreesWithSpring F cap bundle s)
    (carried : s.carried = some (bundle, result))
    (same : attempt = some <$> resultPayload F bundle result cap) :
    AgreesWithSpring F cap bundle (s.attempt attempt) := by
  obtain ⟨row, kept, posted⟩ := attempt_posted s attempt
  obtain ⟨restores, ⟨absent, -, -⟩ | ⟨other, holds, stored, earlier⟩⟩ := consistent
  · rw [carried] at absent
    cases absent
  · obtain ⟨-, rfl⟩ := Prod.mk.inj (Option.some.inj (carried.symm.trans holds))
    refine ⟨row ▸ restores, Or.inr ⟨result, kept.trans carried, row ▸ stored, ?_⟩⟩
    intro payload member
    obtain before | new := posted payload member
    · exact earlier payload before
    · obtain ⟨sent, assembled, again⟩ := map_ok_iff.mp (same.symm.trans new)
      obtain rfl := Option.some.inj again
      exact assembled

theorem consistent_step {bundle : IngestBundle} {s next : Sending} {action : SendAction}
    (consistent : AgreesWithSpring F cap bundle s) (taken : sendStep F cap s action = some next) :
    AgreesWithSpring F cap bundle next := by
  cases action with
  | analyse result =>
    obtain ⟨restores, ⟨absent, -, empty⟩ | ⟨other, holds, -, -⟩⟩ := consistent
    · simp only [sendStep, absent, restores] at taken
      obtain rfl := Option.some.inj taken
      exact ⟨restores, Or.inr ⟨result, rfl, rfl, by simp [empty]⟩⟩
    · simp [sendStep, holds] at taken
  | post =>
    obtain ⟨⟨carried, result⟩, holds, rfl⟩ := Option.map_eq_some_iff.mp taken
    have known : carried = bundle := by
      obtain ⟨absent, -, -⟩ | ⟨other, same, -, -⟩ := consistent.sent
      · simp [absent] at holds
      · exact (Prod.mk.inj (Option.some.inj (holds.symm.trans same))).1
    subst known
    exact consistent.attempt F cap holds rfl
  | redeliver =>
    obtain rfl := Option.some.inj taken
    obtain ⟨absent, unanalysed, empty⟩ | ⟨result, holds, stored, -⟩ := consistent.sent
    · have skipped : s.row.redeliver F cap = .ok none := by
        rw [DeliveryRow.redeliver, unanalysed]
      rw [skipped]
      exact consistent
    · exact consistent.attempt F cap holds (redeliver_eq F cap consistent.restores stored)

/-- In every run a row restores to its bundle and its stored result to the result, and
whatever the worker and the reconciler post, in any number and any order, is one payload,
in which every source carries its note once. -/
theorem redelivery_exact (bundle : IngestBundle) (row : DeliveryRow)
    (stored : StoredFor F bundle row) {s : Sending}
    (reached : Reaches (sendStep F cap) (fun _ _ => True) ⟨row, none, []⟩ s) :
    restoreBundle s.row.bundle s.row.file = .ok bundle ∧
      ((s.carried = none ∧ s.posted = []) ∨ ∃ result, s.carried = some (bundle, result) ∧
        (∃ column, s.row.result = some column ∧ RcaResult.modelValidate column = .ok result) ∧
        s.row.redeliver F cap = some <$> resultPayload F bundle result cap ∧
        ∀ payload ∈ s.posted, resultPayload F bundle result cap = .ok payload ∧
          ∃ envelope nodes, payload = Envelope.entries envelope (doneFields result nodes) ∧
            ∀ m, SentEvidence result.detail.evidence m (bundle.items m).length
              (envelope.signals m).length (nodes m)) := by
  obtain ⟨fresh, restores⟩ := storedFor_restores F stored
  have consistent : AgreesWithSpring F cap bundle s := by
    apply reached.invariant (AgreesWithSpring F cap bundle)
    · exact ⟨restores, Or.inl ⟨rfl, fresh, rfl⟩⟩
    · intro state action next _ holds _ taken
      exact consistent_step F cap holds taken
  refine ⟨consistent.restores, ?_⟩
  obtain ⟨absent, -, empty⟩ | ⟨result, holds, column, posted⟩ := consistent.sent
  · exact Or.inl ⟨absent, empty⟩
  · refine Or.inr ⟨result, holds, ⟨_, column, RcaResult.modelValidate_stored result⟩,
      redeliver_eq F cap consistent.restores column, ?_⟩
    intro payload member
    have assembled := posted payload member
    obtain ⟨envelope, nodes, -, same, evidence⟩ := resultPayload_noted F assembled
    exact ⟨assembled, envelope, nodes, same, evidence⟩

end Runs

/-- The file of the sample bundle. -/
def sampleFile : List UInt8 :=
  (py "\x7b\"logs\": [\x7b\"timestamp\": \"1970-01-01T00:00:00Z\", \"service\": \"gateway\", " ++
    py "\"raw\": \"ERROR timeout\"\x7d, \x7b\"timestamp\": \"1970-01-01T00:00:00Z\", " ++
    py "\"service\": \"orders\", \"raw\": \"ready\"\x7d], \"metrics\": [], " ++
    py "\"traces\": [\x7b\"timestamp\": \"1970-01-01T00:00:00Z\", \"service\": \"gateway\", " ++
    py "\"raw\": \"GET took 12.5 ms\"\x7d]\x7d").map UInt8.ofNat

def sampleRow : DeliveryRow :=
  ⟨.dict (lightOf (sampleBundle.modelDump {})), none, some (some sampleFile)⟩

open ReferenceInterpreter in
/-- The worker posts, and the row is sent again twice. -/
theorem redelivery_exact_again : ∃ s,
    run (@sendStep FloatLit rangedDecimals strictInt asciiRuntime oneCluster 1)
        ⟨sampleRow, none, []⟩
        [.analyse (RcaResult.bare (py "gateway")), .post, .redeliver, .redeliver] = some s ∧
      s.posted.length = 3 ∧
      ∀ payload ∈ s.posted, @resultPayload FloatLit rangedDecimals asciiRuntime oneCluster
        sampleBundle (RcaResult.bare (py "gateway")) 1 = .ok payload := by
  obtain ⟨s, executed, passed⟩ := run_passes
    (@sendStep FloatLit rangedDecimals strictInt asciiRuntime oneCluster 1) ⟨sampleRow, none, []⟩
    [.analyse (RcaResult.bare (py "gateway")), .post, .redeliver, .redeliver]
    (fun s => s.posted.length = 3 ∧ s.row.result = some (RcaResult.bare (py "gateway")).stored)
    (by decide +kernel)
  obtain ⟨count, column⟩ := of_decide_eq_true passed
  have known := (@redelivery_exact FloatLit rangedDecimals strictInt asciiRuntime oneCluster 1 sampleBundle
    sampleRow (@StoredFor.split FloatLit rangedDecimals asciiRuntime sampleBundle sampleFile
      (by decide +kernel)) s (.of_any_run executed)).2
  obtain ⟨-, empty⟩ | ⟨result, -, ⟨stored, same, validated⟩, -, posted⟩ := known
  · simp [empty] at count
  · obtain rfl := Option.some.inj (column.symm.trans same)
    obtain rfl := Except.ok.inj
      ((@RcaResult.modelValidate_stored strictInt (RcaResult.bare (py "gateway"))).symm.trans
        validated)
    exact ⟨s, executed, count, fun payload member => (posted payload member).1⟩

end RcaBackend
