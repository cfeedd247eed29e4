import RcaBackend.Attempts
import RcaBackend.LogCompression
import RcaBackend.ReferenceInterpreter
import Mathlib.Data.List.Dedup

/-!
# The errors that the highlights show

The block on the lines near the trigger keeps the first line of each service and cluster,
whatever its level, and puts errors in front of the others before it cuts at the cap. An
error behind another line of its cluster is hidden.
-/

namespace RcaBackend

open Attempts KeyedFold

/-- The service and the cluster of a line. -/
def LogRecord.clusterKey (line : LogRecord) : PyStr × Nat := (line.service, line.clusterId)

/-- A line of an error level. -/
def LogRecord.isError (line : LogRecord) : Bool := isErrorLevel line.level

/-- The lines near the trigger. -/
def nearWindow (trigger : DateTime) (lines : List LogRecord) : List LogRecord :=
  lines.filter fun line => nearTrigger trigger line = .ok true

/-- A line is the first of its service and cluster. -/
def Leads (window : List LogRecord) (line : LogRecord) : Prop :=
  (window.filter fun other => other.clusterKey = line.clusterKey).head? = some line

instance (window : List LogRecord) (line : LogRecord) : Decidable (Leads window line) :=
  inferInstanceAs (Decidable (_ = some line))

/-- The services and clusters with an error. -/
def errorClusters (window : List LogRecord) : List (PyStr × Nat) :=
  ((window.filter LogRecord.isError).map LogRecord.clusterKey).dedup

/-- If there is an error the first line that is shown is one, and if no more clusters than the
cap have errors each service with an error is shown with one. -/
structure ErrorsShown (window shown : List LogRecord) : Prop where
  first : (∃ line ∈ window, line.isError = true) → ∃ line ∈ shown.head?, line.isError = true
  services : (errorClusters window).length ≤ highlightCap →
    ∀ line ∈ window, line.isError = true →
      ∃ other ∈ shown, other.service = line.service ∧ other.isError = true

/-- If there is an error one is the first line of its cluster, and if no more clusters than the
cap have errors each service with an error has one that is the first line of its cluster. -/
structure ErrorsLead (window : List LogRecord) : Prop where
  first : (∃ line ∈ window, line.isError = true) →
    ∃ line, Leads window line ∧ line.isError = true
  services : (errorClusters window).length ≤ highlightCap →
    ∀ line ∈ window, line.isError = true →
      ∃ other, Leads window other ∧ other.service = line.service ∧ other.isError = true

/-! ## What is kept -/

section Kept

theorem judged_window {trigger : DateTime} {lines : List LogRecord}
    {judged : List (LogRecord × Bool)}
    (returned : lines.mapM (fun line => do return (line, ← nearTrigger trigger line)) =
      .ok judged) :
    (judged.filter Prod.snd).map Prod.fst = nearWindow trigger lines := by
  have pairs := mapM_ok_iff.mp returned
  clear returned
  induction pairs with
  | nil => rfl
  | @cons line pair lines judged first _ inductionHypothesis =>
    obtain ⟨near, here, same⟩ := bind_ok_iff.mp first
    obtain rfl := Except.ok.inj same
    have kept : decide (nearTrigger trigger line = .ok true) = near := by
      rw [here]
      cases near <;> rfl
    rw [nearWindow, List.filter_cons, List.filter_cons, kept]
    cases near with
    | true => exact congrArg (line :: ·) inductionHypothesis
    | false => exact inductionHypothesis

/-- The first line of each service and cluster. -/
def firstLines (window : List LogRecord) : List ((PyStr × Nat) × LogRecord) :=
  keyedFold LogRecord.clusterKey (fun old line => old.getD line) window

theorem firstLines_key {window : List LogRecord} {entry : (PyStr × Nat) × LogRecord}
    (member : entry ∈ firstLines window) : entry.2.clusterKey = entry.1 := by
  have head := (mem_keepFirst _ _ entry.1 entry.2).mp member
  have listed := List.mem_of_head? head
  exact of_decide_eq_true (List.mem_filter.mp listed).2

theorem mem_firstLines {window : List LogRecord} {line : LogRecord} :
    line ∈ (firstLines window).map Prod.snd ↔ Leads window line := by
  rw [List.mem_map]
  constructor
  · rintro ⟨entry, member, rfl⟩
    rw [Leads, firstLines_key member]
    exact (mem_keepFirst _ _ entry.1 entry.2).mp member
  · intro leads
    exact ⟨(line.clusterKey, line), (mem_keepFirst _ _ _ _).mpr leads, rfl⟩

theorem firstLines_distinct (window : List LogRecord) :
    (((firstLines window).map Prod.snd).map LogRecord.clusterKey).Nodup := by
  have keys : ((firstLines window).map Prod.snd).map LogRecord.clusterKey =
      (firstLines window).map Prod.fst := by
    rw [List.map_map]
    exact List.map_congr_left fun entry member => firstLines_key member
  rw [keys]
  exact keys_nodup _ _ _

variable [PyRuntime]

/-- The order of the lines that are shown. -/
def shownOrder (line : LogRecord) : Nat ×ₗ PyStr := toLex (levelOrder line.level, line.ts)

theorem nearLines_eq {trigger : DateTime} {lines near : List LogRecord}
    (returned : nearLines trigger lines = .ok near) :
    near = sortBy shownOrder ((firstLines (nearWindow trigger lines)).map Prod.snd) := by
  obtain ⟨judged, read, same⟩ := bind_ok_iff.mp returned
  rw [← judged_window read]
  exact (Except.ok.inj same).symm

/-- The lines that are kept are the first ones of their clusters, in order of level. -/
theorem nearLines_leads {trigger : DateTime} {lines near : List LogRecord}
    (returned : nearLines trigger lines = .ok near) :
    (∀ line, line ∈ near ↔ Leads (nearWindow trigger lines) line) ∧
      (near.map LogRecord.clusterKey).Nodup ∧
      near.Pairwise fun line other => levelOrder line.level ≤ levelOrder other.level := by
  have moved := sortBy_perm shownOrder ((firstLines (nearWindow trigger lines)).map Prod.snd)
  have sorted := sortBy_sorted shownOrder ((firstLines (nearWindow trigger lines)).map Prod.snd)
  rw [nearLines_eq returned]
  refine ⟨?_, ?_, ?_⟩
  · intro line
    rw [moved.mem_iff, mem_firstLines]
  · rw [(moved.map _).nodup_iff]
    exact firstLines_distinct _
  · exact sorted.imp fun least => (Prod.Lex.toLex_le_toLex'.mp least).1

end Kept

/-! ## What is shown -/

section Shown

/-- Elements that stand in front of all others are within a cap that is not below their
number. -/
theorem mem_take_front {α : Type} {front : α → Bool} {items : List α} {cap : Nat}
    (order : items.Pairwise fun a b => front b = true → front a = true)
    (few : items.countP front ≤ cap) {a : α} (member : a ∈ items) (holds : front a = true) :
    a ∈ items.take cap := by
  induction items generalizing cap with
  | nil => cases member
  | cons first rest inductionHypothesis =>
    obtain ⟨before, later⟩ := List.pairwise_cons.mp order
    have leads : front first = true := by
      obtain rfl | behind := List.mem_cons.mp member
      · exact holds
      · exact before a behind holds
    rw [List.countP_cons, if_pos leads] at few
    obtain ⟨smaller, rfl⟩ : ∃ smaller, cap = smaller + 1 := ⟨cap - 1, by omega⟩
    rw [List.take_succ_cons]
    obtain rfl | behind := List.mem_cons.mp member
    · exact List.mem_cons_self
    · exact List.mem_cons_of_mem _ (inductionHypothesis later (by omega) behind)

theorem leads_mem {window : List LogRecord} {line : LogRecord} (leads : Leads window line) :
    line ∈ window :=
  (List.mem_filter.mp (List.mem_of_head? leads)).1

/-- No more errors are kept than there are clusters with errors. -/
theorem errors_few {window near : List LogRecord} (from' : ∀ line ∈ near, line ∈ window)
    (distinct : (near.map LogRecord.clusterKey).Nodup) :
    near.countP LogRecord.isError ≤ (errorClusters window).length := by
  have size : near.countP LogRecord.isError =
      ((near.filter LogRecord.isError).map LogRecord.clusterKey).length := by
    rw [List.length_map, List.countP_eq_length_filter]
  rw [size]
  apply List.Subperm.length_le
  apply List.subperm_of_subset
  · exact distinct.sublist (List.filter_sublist.map _)
  · intro key member
    obtain ⟨line, listed, rfl⟩ := List.mem_map.mp member
    obtain ⟨kept, error⟩ := List.mem_filter.mp listed
    rw [errorClusters, List.mem_dedup]
    exact List.mem_map.mpr ⟨line, List.mem_filter.mpr ⟨from' line kept, error⟩, rfl⟩

theorem isError_iff (line : LogRecord) : line.isError = true ↔ levelOrder line.level = 0 :=
  (levelOrder_zero line.level).symm

/-- The errors are shown if and only if they lead their clusters. -/
theorem shown_iff {window near : List LogRecord}
    (leads : ∀ line, line ∈ near ↔ Leads window line)
    (distinct : (near.map LogRecord.clusterKey).Nodup)
    (order : near.Pairwise fun line other => levelOrder line.level ≤ levelOrder other.level) :
    ErrorsShown window (near.take highlightCap) ↔ ErrorsLead window := by
  have front : near.Pairwise fun line other => other.isError = true → line.isError = true := by
    refine order.imp ?_
    intro line other least error
    rw [isError_iff] at error ⊢
    omega
  have few := errors_few (fun line member => leads_mem ((leads line).mp member)) distinct
  constructor
  · rintro ⟨first, services⟩
    constructor
    · intro some
      obtain ⟨line, head, error⟩ := first some
      have member := List.mem_of_mem_take (List.mem_of_head? head)
      exact ⟨line, (leads line).mp member, error⟩
    · intro bound line member error
      obtain ⟨other, shown, own, also⟩ := services bound line member error
      exact ⟨other, (leads other).mp (List.mem_of_mem_take shown), own, also⟩
  · rintro ⟨first, services⟩
    constructor
    · intro some
      obtain ⟨line, leading, error⟩ := first some
      have member := (leads line).mpr leading
      cases near with
      | nil => cases member
      | cons head rest =>
        refine ⟨head, rfl, ?_⟩
        obtain rfl | behind := List.mem_cons.mp member
        · exact error
        · exact (List.pairwise_cons.mp front).1 line behind error
    · intro bound line member error
      obtain ⟨other, leading, own, also⟩ := services bound line member error
      have kept := (leads other).mpr leading
      exact ⟨other, mem_take_front front (few.trans bound) kept also, own, also⟩

/-- The highlights of some blocks. -/
def highlightText (parts : List PyStr) : PyStr :=
  if parts = [] then []
  else py "# ▼ 진원 후보 하이라이트 (surprise 정렬과 무관하게 부각 — 최우선 검토)\n" ++ joinLines parts

variable [PyRuntime]

/-- The block has no more than the cap of the lines. -/
theorem triggerBlock_take (triggeredBy : List PyStr) (near : List LogRecord) :
    triggerBlock triggeredBy (near.take highlightCap) = triggerBlock triggeredBy near := by
  have none : near.take highlightCap = [] ↔ near = [] := by
    simp [List.take_eq_nil_iff, highlightCap]
  simp only [triggerBlock, none, List.take_take, min_self]

/-- With a log among the triggers, the block on the trigger shows the errors if and only if
they lead their clusters. -/
theorem errors_shown_iff {F : Type} {groups : List (RankedGroup F)} {lines : List LogRecord}
    {trigger : DateTime} {triggeredBy : List PyStr} {hasProfile : Bool} {text : PyStr}
    (byLog : py "log" ∈ triggeredBy)
    (built : buildHighlight groups lines (some trigger) triggeredBy hasProfile = .ok text) :
    ∃ shown : List LogRecord, shown.length ≤ highlightCap ∧
      text = highlightText ((lifecycleBlock hasProfile groups).toList ++
        (triggerBlock triggeredBy shown).toList) ∧
      (ErrorsShown (nearWindow trigger lines) shown ↔ ErrorsLead (nearWindow trigger lines)) := by
  obtain ⟨near, read, same⟩ := bind_ok_iff.mp built
  obtain rfl := Except.ok.inj same
  rw [triggerLines, if_pos byLog] at read
  obtain ⟨leads, distinct, order⟩ := nearLines_leads read
  refine ⟨near.take highlightCap, List.length_take_le _ _, ?_, shown_iff leads distinct order⟩
  rw [triggerBlock_take, highlightText]

end Shown

/-- A retry and an error of one service, which make one cluster. -/
def retryLines : List ModalityItem :=
  [{ timestamp := Iso8601.epoch, service := py "orders", raw := py "db INFO query retried" },
    { timestamp := Iso8601.epoch, service := py "orders", raw := py "db ERROR query failed" }]

open ReferenceInterpreter in
/-- The lines as they are read. -/
def retryRecords : List LogRecord :=
  match @analyzeLogs asciiRuntime ⟨fun _ => 1, fun lines => lines.getLast?.getD []⟩ retryLines
      Iso8601.epoch.text with
  | .ok (lines, _) => lines
  | .error _ => []

open ReferenceInterpreter in
/-- The error is behind the retry, and is hidden. -/
theorem error_hidden :
    ∃ near, @triggerLines asciiRuntime Iso8601.epoch.value [py "log"] retryRecords = .ok near ∧
      ¬ ErrorsShown (nearWindow Iso8601.epoch.value retryRecords) (near.take highlightCap) := by
  have judged : (@triggerLines asciiRuntime Iso8601.epoch.value [py "log"] retryRecords).map
      (fun near => (near.take highlightCap).head?.any LogRecord.isError) = .ok false := by
    decide +kernel
  have error : (nearWindow Iso8601.epoch.value retryRecords).any LogRecord.isError = true := by
    decide +kernel
  obtain ⟨near, returned, other⟩ := map_ok_iff.mp judged
  refine ⟨near, returned, ?_⟩
  intro shown
  obtain ⟨line, head, first⟩ := shown.first (List.any_eq_true.mp error)
  have leads : (near.take highlightCap).head? = some line := head
  rw [leads, Option.any_some, first] at other
  exact Bool.noConfusion other

/-- A miner that puts the lines of a service with the same first letter into one cluster. -/
@[reducible] def byLetter : Drain :=
  ⟨fun lines => (lines.getLast?.getD []).headD 0, fun lines => lines.getLast?.getD []⟩

/-- Twelve lines of ten clusters near the trigger, and an error one hour later: of five errors
near it, one stands behind a line without an error, and one behind an error. -/
def crowdedLines : List ModalityItem :=
  [("orders", "a INFO started"), ("orders", "a ERROR failed"), ("carts", "f INFO filled"),
    ("orders", "b ERROR lost"), ("carts", "g WARN slow"), ("payments", "c WARN slow"),
    ("payments", "d FATAL down"), ("payments", "d ERROR again"), ("carts", "h INFO emptied"),
    ("orders", "e INFO ended"), ("carts", "i INFO saved"), ("carts", "j CRITICAL full")].map
      (fun line => ⟨Iso8601.epoch, py line.1, py line.2⟩) ++
    [⟨⟨py "1970-01-01T01:00:00Z", by decide⟩, py "users", py "k ERROR late"⟩]

open ReferenceInterpreter in
/-- The lines as they are read. -/
def crowdedRecords : List LogRecord :=
  match @analyzeLogs asciiRuntime byLetter crowdedLines Iso8601.epoch.text with
  | .ok (lines, _) => lines
  | .error _ => []

open ReferenceInterpreter in
/-- Eight of the ten clusters are shown, among them one with an error of every service that
has one. -/
theorem errors_shown_iff_crowded :
    ∃ text shown, @buildHighlight FloatLit asciiRuntime [] crowdedRecords
        (some Iso8601.epoch.value) [py "log"] false = .ok text ∧
      shown.length ≤ highlightCap ∧
      text = highlightText (@triggerBlock asciiRuntime [py "log"] shown).toList ∧
      ErrorsShown (nearWindow Iso8601.epoch.value crowdedRecords) shown ∧
      (nearWindow Iso8601.epoch.value crowdedRecords).length = 12 ∧
      (errorClusters (nearWindow Iso8601.epoch.value crowdedRecords)).length = 4 := by
  have returns : Returns (@buildHighlight FloatLit asciiRuntime [] crowdedRecords
      (some Iso8601.epoch.value) [py "log"] false) := by decide +kernel
  obtain ⟨text, built⟩ := returns
  obtain ⟨shown, few, written, same⟩ := @errors_shown_iff asciiRuntime FloatLit [] crowdedRecords
    Iso8601.epoch.value [py "log"] false text (by decide) built
  have some : (nearWindow Iso8601.epoch.value crowdedRecords).any fun line =>
      decide (Leads (nearWindow Iso8601.epoch.value crowdedRecords) line) && line.isError := by
    decide +kernel
  have each : (nearWindow Iso8601.epoch.value crowdedRecords).all fun line =>
      !line.isError || (nearWindow Iso8601.epoch.value crowdedRecords).any fun other =>
        decide (Leads (nearWindow Iso8601.epoch.value crowdedRecords) other) &&
          decide (other.service = line.service) && other.isError := by decide +kernel
  refine ⟨text, shown, built, few, written, same.mpr ⟨?_, ?_⟩, by decide +kernel, by decide +kernel⟩
  · rintro -
    obtain ⟨line, -, found⟩ := List.any_eq_true.mp some
    simp only [Bool.and_eq_true, decide_eq_true_eq] at found
    exact ⟨line, found⟩
  · intro _ line member error
    have served := List.all_eq_true.mp each line member
    rw [error, Bool.not_true, Bool.false_or] at served
    obtain ⟨other, -, found⟩ := List.any_eq_true.mp served
    simp only [Bool.and_eq_true, decide_eq_true_eq, and_assoc] at found
    exact ⟨other, found⟩

end RcaBackend
