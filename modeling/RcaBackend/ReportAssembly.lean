import RcaBackend.Contracts
import RcaBackend.KeyedFold
import RcaBackend.ReferenceInterpreter
import RcaBackend.SignalParsers

/-!
# Assembly of a report

`assemble` completes the draft of the report agent: it takes the evidence of the three
modalities over, chooses the service, and replaces the errors of the affected services
by counts of the error lines in the logs. The counts are kept by the service of a line,
while an entry finds its count by the normalized name: a service without error lines
has no count, and of several services with one normalized name the last one's count
remains. The counts are therefore those of the logs exactly if no two services with
error lines share a name, and no entry of a service without any needs to be set to zero.
-/

namespace RcaBackend

open KeyedFold SignalPatterns

/-- `RcaType` -/
inductive RcaType where
  | serviceDown | codeStop | performance | dependency | other | none
deriving DecidableEq

def RcaType.text : RcaType → PyStr
  | .serviceDown => py "SERVICE_DOWN"
  | .codeStop => py "CODE_STOP"
  | .performance => py "PERFORMANCE"
  | .dependency => py "DEPENDENCY"
  | .other => py "OTHER"
  | .none => py "NONE"

structure ReportDraft where
  kind : RcaType
  severity : PyStr
  service : PyStr
  rca : Rca
  summary : Summary
  impact : Impact
  actions : Actions

section Assembly

variable [PyRuntime]

/-- `LEVEL_RE` finds a level in the raw text, and it is one of `_ERROR_LEVELS`. -/
def isErrorLine (raw : PyStr) : Bool :=
  match reSearch levelRe raw with
  | some found => isErrorLevel (upperText (groupText found 1))
  | none => false

/-- `service_error_counts` -/
def serviceErrorCounts (bundle : IngestBundle) : List (PyStr × Nat) :=
  bundle.logs.foldl (fun counts item =>
    if isErrorLine item.raw then upsert item.service (fun count => count.getD 0 + 1) counts
    else counts) []

/-- `_norm_service` -/
def normService (name : PyStr) : PyStr :=
  let s := (lowerText name).filter PyRuntime.alnum
  if (py "service").isSuffixOf s ∧ s ≠ py "service" then s.take (s.length - (py "service").length)
  else s

/-- The counts by normalized name. -/
def countsByName (counts : List (PyStr × Nat)) : List (PyStr × Nat) :=
  keyedFold (fun entry => normService entry.1) (fun _ entry => entry.2) counts

/-- The entry with the count of its name, if there is one. -/
def withErrors (counts : List (PyStr × Nat)) (entry : Affected) : Affected :=
  match (countsByName counts).lookup (normService entry.service) with
  | some count => { entry with errors := some count }
  | none => entry

/-- `_fill_affected_errors` -/
def fillAffectedErrors (impact : Impact) (counts : List (PyStr × Nat)) : Impact :=
  { impact with affected := impact.affected.map (withErrors counts) }

/-- `draft.service or trace_ev.origin_service or "UNKNOWN"` -/
def reportService (draft : ReportDraft) (traceEv : TraceEvidence) : PyStr :=
  if draft.service ≠ [] then draft.service
  else if traceEv.originService.getD [] ≠ [] then traceEv.originService.getD []
  else py "UNKNOWN"

/-- `assemble` -/
def assemble (draft : ReportDraft) (logEv : LogEvidence) (metricEv : MetricEvidence)
    (traceEv : TraceEvidence) (bundle : IngestBundle) : RcaResult :=
  { kind := draft.kind.text
    severity := draft.severity
    service := reportService draft traceEv
    detail :=
      { rca := draft.rca
        summary := draft.summary
        evidence := ⟨logEv, traceEv, metricEv⟩
        impact := fillAffectedErrors draft.impact (serviceErrorCounts bundle)
        actions := draft.actions } }

/-! ## What the logs say -/

/-- The error lines of all services with a normalized name. -/
def errorLines (bundle : IngestBundle) (name : PyStr) : List ModalityItem :=
  (bundle.logs.filter fun item => isErrorLine item.raw).filter fun item =>
    normService item.service = name

/-- Some line of the logs is of a service with the normalized name. -/
def Logged (bundle : IngestBundle) (name : PyStr) : Prop :=
  ∃ item ∈ bundle.logs, normService item.service = name

instance (bundle : IngestBundle) (name : PyStr) : Decidable (Logged bundle name) :=
  inferInstanceAs (Decidable (∃ item ∈ bundle.logs, _))

/-- The entry with the number of error lines of its service, if the logs have any lines
of it. -/
def factual (bundle : IngestBundle) (entry : Affected) : Affected :=
  if Logged bundle (normService entry.service) then
    { entry with errors := some (errorLines bundle (normService entry.service)).length }
  else entry

/-- The result takes over what the draft says, with the affected services as the logs have
them. -/
def Factual (draft : ReportDraft) (bundle : IngestBundle) (result : RcaResult) : Prop :=
  result.kind = draft.kind.text ∧ result.severity = draft.severity ∧
    result.detail.rca = draft.rca ∧ result.detail.summary = draft.summary ∧
    result.detail.actions = draft.actions ∧
    result.detail.impact.metrics = draft.impact.metrics ∧
    result.detail.impact.affected = draft.impact.affected.map (factual bundle)

/-- The errors of the entry come out right: no line is of its service, or no error line is
and the draft says zero, or all error lines of its normalized name are of one service. -/
def CountsOnce (bundle : IngestBundle) (entry : Affected) : Prop :=
  let name := normService entry.service
  ¬ Logged bundle name ∨ (errorLines bundle name = [] ∧ entry.errors = some 0) ∨
    (errorLines bundle name ≠ [] ∧
      ∃ service, ∀ item ∈ errorLines bundle name, item.service = service)

/-! ## The counts -/

/-- The counts are those of the error lines. -/
theorem serviceErrorCounts_eq (bundle : IngestBundle) :
    serviceErrorCounts bundle =
      keyedFold ModalityItem.service (fun count _ => count.getD 0 + 1)
        (bundle.logs.filter fun item => isErrorLine item.raw) := by
  rw [serviceErrorCounts, keyedFold, foldFrom, List.foldl_filter]

omit [PyRuntime] in
/-- Counting adds one for each element. -/
theorem foldl_count {A : Type} (items : List A) (count : Option Nat) :
    items.foldl (fun count _ => some (count.getD 0 + 1)) count =
      if items = [] then count else some (count.getD 0 + items.length) := by
  induction items generalizing count with
  | nil => rfl
  | cons item rest inductionHypothesis =>
    rw [List.foldl_cons, inductionHypothesis]
    by_cases empty : rest = []
    · simp [empty]
    · simp [empty]
      omega

/-- The error lines of one service. -/
def serviceLines (bundle : IngestBundle) (service : PyStr) : List ModalityItem :=
  (bundle.logs.filter fun item => isErrorLine item.raw).filter fun item => item.service = service

theorem mem_serviceErrorCounts {bundle : IngestBundle} {service : PyStr} {count : Nat} :
    (service, count) ∈ serviceErrorCounts bundle ↔
      serviceLines bundle service ≠ [] ∧ count = (serviceLines bundle service).length := by
  rw [serviceErrorCounts_eq, mem_keyedFold, foldl_count, serviceLines]
  split
  · next empty => simp [empty]
  · next lines =>
    simp only [Option.getD_none, Nat.zero_add, Option.some.injEq]
    exact ⟨fun same => ⟨lines, same.symm⟩, fun counted => counted.2.symm⟩

/-- The count of a name is that of some service that has error lines and the name. -/
theorem countsByName_lookup {bundle : IngestBundle} {name : PyStr} {count : Nat}
    (found : (countsByName (serviceErrorCounts bundle)).lookup name = some count) :
    ∃ service, normService service = name ∧ serviceLines bundle service ≠ [] ∧
      count = (serviceLines bundle service).length := by
  rw [countsByName, lookup_overwrite, Option.map_eq_some_iff] at found
  obtain ⟨⟨service, number⟩, last, rfl⟩ := found
  obtain ⟨member, named⟩ := List.mem_filter.mp (List.mem_of_getLast? last)
  obtain ⟨lines, same⟩ := mem_serviceErrorCounts.mp member
  exact ⟨service, of_decide_eq_true named, lines, same⟩

theorem mem_errorLines {bundle : IngestBundle} {name : PyStr} {item : ModalityItem} :
    item ∈ errorLines bundle name ↔
      (item ∈ bundle.logs ∧ isErrorLine item.raw = true) ∧ normService item.service = name := by
  simp only [errorLines, List.mem_filter, decide_eq_true_eq]

theorem mem_serviceLines {bundle : IngestBundle} {service : PyStr} {item : ModalityItem} :
    item ∈ serviceLines bundle service ↔
      item ∈ errorLines bundle (normService service) ∧ item.service = service := by
  simp only [serviceLines, errorLines, List.mem_filter, decide_eq_true_eq]
  constructor
  · rintro ⟨listed, rfl⟩
    exact ⟨⟨listed, rfl⟩, rfl⟩
  · rintro ⟨⟨listed, -⟩, own⟩
    exact ⟨listed, own⟩

/-- A name with error lines has a count. -/
theorem countsByName_some {bundle : IngestBundle} {name : PyStr}
    (lines : errorLines bundle name ≠ []) :
    (countsByName (serviceErrorCounts bundle)).lookup name ≠ none := by
  obtain ⟨item, member⟩ := List.exists_mem_of_ne_nil _ lines
  obtain ⟨-, named⟩ := mem_errorLines.mp member
  have own : item ∈ serviceLines bundle item.service := by
    rw [mem_serviceLines, named]
    exact ⟨member, rfl⟩
  have counted := mem_serviceErrorCounts.mpr ⟨List.ne_nil_of_mem own, rfl⟩
  rw [countsByName, lookup_overwrite, Ne, Option.map_eq_none_iff, List.getLast?_eq_none_iff]
  apply List.ne_nil_of_mem (a := (item.service, (serviceLines bundle item.service).length))
  exact List.mem_filter.mpr ⟨counted, decide_eq_true named⟩

/-- The error lines of a service are all those of its name exactly if there are as many. -/
theorem serviceLines_length_iff (bundle : IngestBundle) (service : PyStr) :
    (serviceLines bundle service).length = (errorLines bundle (normService service)).length ↔
      ∀ item ∈ errorLines bundle (normService service), item.service = service := by
  have same : serviceLines bundle service =
      (errorLines bundle (normService service)).filter fun item => item.service = service := by
    rw [errorLines, List.filter_filter, serviceLines]
    apply List.filter_congr
    intro item _
    by_cases own : item.service = service <;> simp [own]
  rw [same, List.length_filter_eq_length_iff]
  simp only [decide_eq_true_eq]

/-- Entry by entry, the errors are those of the logs exactly if they are counted once. -/
theorem withErrors_factual_iff (bundle : IngestBundle) (entry : Affected) :
    withErrors (serviceErrorCounts bundle) entry = factual bundle entry ↔
      CountsOnce bundle entry := by
  simp only [withErrors, factual, CountsOnce]
  cases found : (countsByName (serviceErrorCounts bundle)).lookup (normService entry.service) with
  | none =>
    have noLines : errorLines bundle (normService entry.service) = [] := by
      by_contra lines
      exact countsByName_some lines found
    by_cases logged : Logged bundle (normService entry.service)
    · rw [if_pos logged, noLines]
      constructor
      · intro same
        exact Or.inr (Or.inl ⟨rfl, congrArg Affected.errors same⟩)
      · rintro (unlogged | ⟨-, zero⟩ | ⟨lines, -⟩)
        · exact absurd logged unlogged
        · obtain ⟨service, errors, kind⟩ := entry
          obtain rfl : errors = some 0 := zero
          rfl
        · exact absurd rfl lines
    · rw [if_neg logged]
      exact iff_of_true rfl (Or.inl logged)
  | some count =>
    obtain ⟨service, named, lines, rfl⟩ := countsByName_lookup found
    obtain ⟨item, member⟩ := List.exists_mem_of_ne_nil _ lines
    obtain ⟨listed, own⟩ := mem_serviceLines.mp member
    have length := serviceLines_length_iff bundle service
    rw [named] at listed length
    have logged : Logged bundle (normService entry.service) :=
      ⟨item, (mem_errorLines.mp listed).1.1, (mem_errorLines.mp listed).2⟩
    rw [if_pos logged]
    have counted : ({ entry with errors := some ((serviceLines bundle service).length : Int) } =
        { entry with
          errors := some ((errorLines bundle (normService entry.service)).length : Int) }) ↔
        ∀ item ∈ errorLines bundle (normService entry.service), item.service = service := by
      rw [← length, ← Int.natCast_inj]
      simp
    rw [counted]
    constructor
    · intro all
      exact Or.inr (Or.inr ⟨List.ne_nil_of_mem listed, service, all⟩)
    · rintro (unlogged | ⟨noLines, -⟩ | ⟨-, only, all⟩)
      · exact absurd logged unlogged
      · exact absurd noLines (List.ne_nil_of_mem listed)
      · obtain rfl : only = service := (all item listed).symm.trans own
        exact all

/-- The affected services are as the logs have them if and only if each is counted once. -/
theorem errors_factual_iff (draft : ReportDraft) (logEv : LogEvidence) (metricEv : MetricEvidence)
    (traceEv : TraceEvidence) (bundle : IngestBundle) :
    Factual draft bundle (assemble draft logEv metricEv traceEv bundle) ↔
      ∀ entry ∈ draft.impact.affected, CountsOnce bundle entry := by
  have counts : draft.impact.affected.map (withErrors (serviceErrorCounts bundle)) =
      draft.impact.affected.map (factual bundle) ↔
      ∀ entry ∈ draft.impact.affected, CountsOnce bundle entry := by
    rw [List.map_inj_left]
    exact forall₂_congr fun entry _ => withErrors_factual_iff bundle entry
  rw [← counts]
  constructor
  · rintro ⟨-, -, -, -, -, -, affected⟩
    exact affected
  · intro affected
    exact ⟨rfl, rfl, rfl, rfl, rfl, rfl, affected⟩

end Assembly

/-- A bundle with log lines of the given services. -/
def logBundle (lines : List (String × String)) : IngestBundle :=
  { IngestBundle.bare .epoch with
    logs := lines.map fun line => ⟨.epoch, py line.1, py line.2⟩ }

/-- A draft that says one service is affected. -/
def draftOf (service : String) (errors : Option Int) : ReportDraft :=
  { kind := .serviceDown, severity := py "HIGH", service := py "user", rca := ⟨[], []⟩
    summary := ⟨[], none, none, none⟩, impact := ⟨[⟨py service, errors, none⟩], none⟩
    actions := ⟨[], none⟩ }

/-- The service is logged without errors. -/
def quietBundle : IngestBundle := logBundle [("media", "INFO ok")]

/-- Two tags of one service, with an error line each. -/
def twoTagBundle : IngestBundle := logBundle [("user", "ERROR a"), ("user-service", "ERROR b")]

open ReferenceInterpreter in
/-- A service without error lines keeps the errors of the draft, and of two tags of one
service only the last one is counted. -/
theorem errors_left_out :
    (¬ @Factual asciiRuntime (draftOf "media" (some 7)) quietBundle
      (@assemble asciiRuntime (draftOf "media" (some 7)) ⟨[], none⟩ ⟨[], none⟩ ⟨[], none, none⟩
        quietBundle)) ∧
      ¬ @Factual asciiRuntime (draftOf "user" none) twoTagBundle
        (@assemble asciiRuntime (draftOf "user" none) ⟨[], none⟩ ⟨[], none⟩ ⟨[], none, none⟩
          twoTagBundle) := by
  constructor
  · rintro ⟨-, -, -, -, -, -, affected⟩
    exact absurd affected (by decide +kernel)
  · rintro ⟨-, -, -, -, -, -, affected⟩
    exact absurd affected (by decide +kernel)

end RcaBackend
