import RcaBackend.KeyedFold
import RcaBackend.LetterCase
import RcaBackend.PayloadEnvelope

/-!
# The liveness of the services

Of the intervals of a modality that belong to one service, the strongest status remains,
whatever the order of the intervals. A service is named by the last segment of the file
name without suffixes and trailing underscores, in lower case.
-/

namespace RcaBackend

open KeyedFold ReferenceInterpreter

/-! ## The function -/

/-- `_LIVENESS_RANK` -/
def livenessRanks : List (PyStr × Nat) := [(py "data", 3), (py "empty", 2), (py "missing", 1)]

/-- `_LIVENESS_RANK.get(status, 0)` -/
def livenessRank (status : PyStr) : Nat := (livenessRanks.lookup status).getD 0

/-- `text.split("/")[-1]` -/
def lastSegment (text : PyStr) : PyStr := (text.reverse.takeWhile (· ≠ 47)).reverse

/-- `text.rstrip("_")` -/
def rstripUnderscores (text : PyStr) : PyStr := (text.reverse.dropWhile (· = 95)).reverse

/-- The suffixes that are taken off a name, one after the other. -/
def livenessSuffixes : List PyStr := [py ".log", py ".json", py ".txt"]

section Liveness

variable [PyRuntime]

/-- One suffix is taken off, if the name ends in it. -/
def stripSuffix (name suffix : PyStr) : PyStr :=
  if suffix.isSuffixOf (lowerText name) then name.take (name.length - suffix.length) else name

/-- The service that a file name stands for. -/
def serviceOf (fileName : PyStr) : PyStr :=
  let name := livenessSuffixes.foldl stripSuffix (lastSegment fileName)
  lowerText (rstripUnderscores name)

/-- `(iv.status or "?").lower()` -/
def livenessStatus (interval : ModalityInterval) : PyStr :=
  match interval.status with
  | none | some [] => lowerText (py "?")
  | some status => lowerText status

/-- The statuses of one service. -/
abbrev Observed := List (Modality × PyStr)

/-- A status replaces a weaker one. -/
def observe (mod : Modality) (st : PyStr) (cur : Observed) : Observed :=
  if livenessRank ((cur.lookup mod).getD []) < livenessRank st then upsert mod (fun _ => st) cur
  else cur

/-- The body of the loop. -/
def livenessStep (mod : Modality) (out : List (PyStr × Observed)) (interval : ModalityInterval) :
    List (PyStr × Observed) :=
  let svc := serviceOf interval.fileName
  if svc = [] then out
  else upsert svc (fun cur => observe mod (livenessStatus interval) (cur.getD [])) out

/-- `service_liveness` -/
def serviceLiveness (bundle : IngestBundle) : List (PyStr × Observed) :=
  [Modality.log, .metric, .trace].foldl
    (fun out mod => (bundle.modalityInfo.intervals mod).foldl (livenessStep mod) out) []

/-- `service_liveness(bundle)[s][m]` -/
def liveness (bundle : IngestBundle) (s : PyStr) (m : Modality) : Option PyStr :=
  ((serviceLiveness bundle).lookup s).bind fun cur => cur.lookup m

/-! ## The strongest observation -/

/-- A status of the highest rank among some, if one of them is ranked. -/
def IsStrongest (observed : PyStr → Prop) : Option PyStr → Prop
  | some st => observed st ∧ 0 < livenessRank st ∧
      ∀ other, observed other → livenessRank other ≤ livenessRank st
  | none => ∀ other, observed other → livenessRank other = 0

/-- The statuses of a service in the intervals of a modality. -/
def ObservedIn (bundle : IngestBundle) (s : PyStr) (m : Modality) (st : PyStr) : Prop :=
  ∃ interval ∈ bundle.modalityInfo.intervals m,
    serviceOf interval.fileName = s ∧ livenessStatus interval = st

omit [PyRuntime] in
theorem livenessRank_inj {left right : PyStr} (ranked : 0 < livenessRank left)
    (same : livenessRank left = livenessRank right) : left = right := by
  have known : ∀ status, 0 < livenessRank status → status = py "data" ∧ livenessRank status = 3 ∨
      status = py "empty" ∧ livenessRank status = 2 ∨
      status = py "missing" ∧ livenessRank status = 1 := by
    intro status positive
    by_cases data : status = py "data"
    · exact Or.inl ⟨data, by rw [data]; rfl⟩
    by_cases empty : status = py "empty"
    · exact Or.inr (Or.inl ⟨empty, by rw [empty]; rfl⟩)
    by_cases missing : status = py "missing"
    · exact Or.inr (Or.inr ⟨missing, by rw [missing]; rfl⟩)
    simp [livenessRank, livenessRanks, List.lookup_cons, beq_false_of_ne data, beq_false_of_ne empty,
      beq_false_of_ne missing] at positive
  obtain first | first | first := known left ranked <;>
    obtain second | second | second := known right (same ▸ ranked) <;>
    first
    | exact first.1.trans second.1.symm
    | omega

omit [PyRuntime] in
/-- There is one strongest status. -/
theorem isStrongest_unique {observed : PyStr → Prop} {one other : Option PyStr}
    (first : IsStrongest observed one) (second : IsStrongest observed other) : one = other := by
  cases one with
  | none =>
    cases other with
    | none => rfl
    | some st => exact absurd (first st second.1) (Nat.ne_of_gt second.2.1)
  | some st =>
    cases other with
    | none => exact absurd (second st first.1) (Nat.ne_of_gt first.2.1)
    | some status =>
      have below := second.2.2 st first.1
      have above := first.2.2 status second.1
      rw [livenessRank_inj first.2.1 (Nat.le_antisymm below above)]

omit [PyRuntime] in
theorem isStrongest_congr {observed seen : PyStr → Prop} (same : ∀ st, observed st ↔ seen st)
    (found : Option PyStr) : IsStrongest observed found ↔ IsStrongest seen found := by
  rw [show observed = seen from funext fun st => propext (same st)]

omit [PyRuntime] in
/-- A further status is the strongest if its rank is higher. -/
theorem isStrongest_step {observed : PyStr → Prop} {found : Option PyStr}
    (strongest : IsStrongest observed found) (st : PyStr) :
    IsStrongest (fun status => observed status ∨ status = st)
      (if livenessRank (found.getD []) < livenessRank st then some st else found) := by
  have unnamed : livenessRank [] = 0 := rfl
  cases found with
  | none =>
    rw [Option.getD_none, unnamed]
    split
    case isTrue ranked =>
      refine ⟨Or.inr rfl, ranked, ?_⟩
      rintro other (seen | rfl)
      · rw [strongest other seen]
        exact Nat.zero_le _
      · exact Nat.le_refl _
    case isFalse unranked =>
      rintro other (seen | rfl)
      · exact strongest other seen
      · omega
  | some status =>
    obtain ⟨seen, ranked, most⟩ := strongest
    rw [Option.getD_some]
    split
    case isTrue higher =>
      refine ⟨Or.inr rfl, by omega, ?_⟩
      rintro other (before | rfl)
      · exact Nat.le_of_lt (Nat.lt_of_le_of_lt (most other before) higher)
      · exact Nat.le_refl _
    case isFalse lower =>
      refine ⟨Or.inl seen, ranked, ?_⟩
      rintro other (before | rfl)
      · exact most other before
      · omega

omit [PyRuntime] in
theorem lookup_observe (mod m : Modality) (st : PyStr) (cur : Observed) :
    (observe mod st cur).lookup m =
      if m = mod then
        if livenessRank ((cur.lookup m).getD []) < livenessRank st then some st else cur.lookup m
      else cur.lookup m := by
  rw [observe]
  by_cases same : m = mod
  · subst same
    rw [if_pos rfl]
    split
    · rw [lookup_upsert, if_pos rfl]
    · rfl
  · rw [if_neg same]
    split
    · rw [lookup_upsert, if_neg same]
    · rfl

/-- What is observed of one service. -/
def observeAll (observations : List (Modality × ModalityInterval)) : Observed :=
  observations.foldl (fun cur seen => observe seen.1 (livenessStatus seen.2) cur) []

/-- The strongest status of each modality remains. -/
theorem observeAll_strongest (m : Modality) (observations : List (Modality × ModalityInterval)) :
    IsStrongest (fun st => ∃ seen ∈ observations, seen.1 = m ∧ livenessStatus seen.2 = st)
      ((observeAll observations).lookup m) := by
  induction observations using List.reverseRecOn with
  | nil =>
    rintro other ⟨seen, listed, -⟩
    cases listed
  | append_singleton before last inductionHypothesis =>
    rw [observeAll, List.foldl_append, List.foldl_cons, List.foldl_nil, lookup_observe,
      ← observeAll]
    by_cases here : m = last.1
    · rw [if_pos here]
      apply (isStrongest_congr _ _).mp (isStrongest_step inductionHypothesis (livenessStatus last.2))
      intro st
      constructor
      · rintro (⟨seen, listed, holds⟩ | rfl)
        · exact ⟨seen, List.mem_append_left _ listed, holds⟩
        · exact ⟨last, by simp, here.symm, rfl⟩
      · rintro ⟨seen, listed, mod, status⟩
        obtain earlier | rfl := List.mem_append.mp listed |>.imp_right List.mem_singleton.mp
        · exact Or.inl ⟨seen, earlier, mod, status⟩
        · exact Or.inr status.symm
    · rw [if_neg here]
      apply (isStrongest_congr _ _).mp inductionHypothesis
      intro st
      constructor
      · rintro ⟨seen, listed, holds⟩
        exact ⟨seen, List.mem_append_left _ listed, holds⟩
      · rintro ⟨seen, listed, mod, status⟩
        obtain earlier | rfl := List.mem_append.mp listed |>.imp_right List.mem_singleton.mp
        · exact ⟨seen, earlier, mod, status⟩
        · exact absurd mod.symm here

/-! ## The services of a bundle -/

/-- The intervals in the order in which they are read. -/
def readIntervals (bundle : IngestBundle) : List (Modality × ModalityInterval) :=
  [Modality.log, .metric, .trace].flatMap fun mod =>
    (bundle.modalityInfo.intervals mod).map fun interval => (mod, interval)

omit [PyRuntime] in
theorem mem_readIntervals {bundle : IngestBundle} {mod : Modality} {interval : ModalityInterval} :
    (mod, interval) ∈ readIntervals bundle ↔ interval ∈ bundle.modalityInfo.intervals mod := by
  cases mod <;> simp [readIntervals]

/-- The intervals of named services. -/
def namedIntervals (bundle : IngestBundle) : List (Modality × ModalityInterval) :=
  (readIntervals bundle).filter fun seen => serviceOf seen.2.fileName ≠ []

/-- The loop is one update for each interval of a named service. -/
theorem serviceLiveness_eq (bundle : IngestBundle) :
    serviceLiveness bundle = keyedFold (fun seen => serviceOf seen.2.fileName)
      (fun cur seen => observe seen.1 (livenessStatus seen.2) (cur.getD []))
      (namedIntervals bundle) := by
  have body : ∀ mod out interval, livenessStep mod out interval =
      if decide (serviceOf interval.fileName ≠ []) = true then
        upsert (serviceOf interval.fileName)
          (fun cur => observe mod (livenessStatus interval) (cur.getD [])) out
      else out := by
    intro mod out interval
    rw [livenessStep]
    by_cases unnamed : serviceOf interval.fileName = []
    · rw [if_pos unnamed, if_neg (by simp [unnamed])]
    · rw [if_neg unnamed, if_pos (decide_eq_true unnamed)]
  have inner : ∀ mod out, (bundle.modalityInfo.intervals mod).foldl (livenessStep mod) out =
      (bundle.modalityInfo.intervals mod).foldl (fun out interval => _) out := fun mod out =>
    List.foldl_ext _ _ _ fun out interval _ => body mod out interval
  rw [keyedFold, foldFrom, namedIntervals, List.foldl_filter, readIntervals, List.foldl_flatMap,
    serviceLiveness]
  simp only [List.foldl_map, inner]

/-- The keys are the services of the intervals. -/
theorem serviceLiveness_keys (bundle : IngestBundle) (s : PyStr) :
    s ∈ (serviceLiveness bundle).map Prod.fst ↔
      s ≠ [] ∧ ∃ m, ∃ interval ∈ bundle.modalityInfo.intervals m,
        serviceOf interval.fileName = s := by
  rw [serviceLiveness_eq, mem_keys]
  constructor
  · rintro ⟨⟨m, interval⟩, listed, rfl⟩
    obtain ⟨read, named⟩ := List.mem_filter.mp listed
    exact ⟨of_decide_eq_true named, m, interval, mem_readIntervals.mp read, rfl⟩
  · rintro ⟨named, m, interval, read, rfl⟩
    exact ⟨(m, interval), List.mem_filter.mpr ⟨mem_readIntervals.mpr read, decide_eq_true named⟩, rfl⟩

theorem foldl_observe (observations : List (Modality × ModalityInterval)) (cur : Observed) :
    observations.foldl (fun old seen => some (observe seen.1 (livenessStatus seen.2) (old.getD [])))
        (some cur) =
      some (observations.foldl (fun cur seen => observe seen.1 (livenessStatus seen.2) cur) cur) := by
  induction observations generalizing cur with
  | nil => rfl
  | cons seen rest inductionHypothesis => exact inductionHypothesis _

/-- The entry of a service is what is observed of it. -/
theorem liveness_eq (bundle : IngestBundle) (s : PyStr) (m : Modality) :
    liveness bundle s m = (observeAll ((namedIntervals bundle).filter fun seen =>
      serviceOf seen.2.fileName = s)).lookup m := by
  rw [liveness, serviceLiveness_eq, lookup_keyedFold]
  cases (namedIntervals bundle).filter fun seen => decide (serviceOf seen.2.fileName = s) with
  | nil => rfl
  | cons seen rest =>
    rw [List.foldl_cons, Option.getD_none, foldl_observe]
    rfl

/-- The status of a service is the strongest one that is observed. -/
theorem liveness_strongest (bundle : IngestBundle) {s : PyStr} (named : s ≠ []) (m : Modality) :
    IsStrongest (ObservedIn bundle s m) (liveness bundle s m) := by
  rw [liveness_eq]
  apply (isStrongest_congr _ _).mp (observeAll_strongest m _)
  intro st
  constructor
  · rintro ⟨⟨mod, interval⟩, listed, rfl, status⟩
    obtain ⟨inside, service⟩ := List.mem_filter.mp listed
    have read := mem_readIntervals.mp (List.mem_filter.mp inside).1
    exact ⟨interval, read, of_decide_eq_true service, status⟩
  · rintro ⟨interval, read, rfl, status⟩
    have inside : (m, interval) ∈ namedIntervals bundle :=
      List.mem_filter.mpr ⟨mem_readIntervals.mpr read, decide_eq_true named⟩
    exact ⟨(m, interval), List.mem_filter.mpr ⟨inside, decide_eq_true rfl⟩, rfl, status⟩

/-- No service has an empty name. -/
theorem liveness_unnamed (bundle : IngestBundle) (m : Modality) : liveness bundle [] m = none := by
  have absent : [] ∉ (serviceLiveness bundle).map Prod.fst := fun present =>
    ((serviceLiveness_keys bundle []).mp present).1 rfl
  have missing : (serviceLiveness bundle).lookup [] = none := by
    rw [List.lookup_eq_none_iff]
    intro entry member
    apply bne_iff_ne.mpr
    intro same
    exact absent (List.mem_map.mpr ⟨entry, member, same.symm⟩)
  rw [liveness, missing, Option.bind_none]

/-! ## The notations of a name -/

omit [PyRuntime] in
theorem lastSegment_append (folder : PyStr) {name : PyStr} (flat : 47 ∉ name) :
    lastSegment name = name ∧ lastSegment (folder ++ 47 :: name) = name := by
  have kept : ∀ rest : PyStr, (name.reverse ++ 47 :: rest).takeWhile (· ≠ 47) = name.reverse := by
    intro rest
    have all : ∀ c ∈ name.reverse, decide (c ≠ 47) = true := by
      intro c member
      apply decide_eq_true
      rintro rfl
      exact flat (List.mem_reverse.mp member)
    rw [List.takeWhile_append_of_pos all, List.takeWhile_cons_of_neg (by simp), List.append_nil]
  constructor
  · have all : ∀ c ∈ name.reverse, decide (c ≠ 47) = true := by
      intro c member
      apply decide_eq_true
      rintro rfl
      exact flat (List.mem_reverse.mp member)
    rw [lastSegment, List.takeWhile_eq_self_iff.mpr all, List.reverse_reverse]
  · rw [lastSegment, List.reverse_append, List.reverse_cons, List.append_assoc,
      List.singleton_append, kept, List.reverse_reverse]

omit [PyRuntime] in
theorem rstripUnderscores_append {base : PyStr} (count : Nat) (bare : base.getLast? ≠ some 95) :
    rstripUnderscores (base ++ List.replicate count 95) = base := by
  have all : ∀ c ∈ List.replicate count 95, decide (c = 95) = true := by
    intro c member
    exact decide_eq_true (List.eq_of_mem_replicate member)
  rw [rstripUnderscores, List.reverse_append, List.reverse_replicate,
    List.dropWhile_append_of_pos all]
  cases reversed : base.reverse with
  | nil =>
    rw [List.reverse_eq_nil_iff.mp reversed]
    rfl
  | cons c rest =>
    have last : base.getLast? = some c := by rw [List.getLast?_eq_head?_reverse, reversed]; rfl
    have other : ¬ decide (c = 95) = true := by
      intro same
      exact bare (by rw [last, of_decide_eq_true same])
    rw [List.dropWhile_cons_of_neg (by simpa using other), ← reversed, List.reverse_reverse]

omit [PyRuntime] in
theorem suffix_last {suffix text : PyStr} (ends : suffix <:+ text) (inhabited : suffix ≠ []) :
    text.getLast? = suffix.getLast? := by
  obtain ⟨front, rfl⟩ := ends
  rw [List.getLast?_append_of_ne_nil _ inhabited]

theorem stripSuffix_kept {name suffix : PyStr} (other : ¬ suffix <:+ lowerText name) :
    stripSuffix name suffix = name :=
  if_neg fun ends => other (List.isSuffixOf_iff_suffix.mp ends)

theorem stripSuffix_stripped (front : PyStr) {tail suffix : PyStr} (ascii : ∀ c ∈ tail, c < 128)
    (letters : asciiLower tail = suffix) : stripSuffix (front ++ tail) suffix = front := by
  obtain ⟨lowered, split⟩ := lowerText_append_ascii front ascii
  have size : tail.length = suffix.length := by
    rw [← letters, asciiLower, List.length_map]
  have ends : suffix.isSuffixOf (lowerText (front ++ tail)) = true := by
    rw [List.isSuffixOf_iff_suffix, split, letters]
    exact List.suffix_append _ _
  rw [stripSuffix, if_pos ends, List.length_append, size, Nat.add_sub_cancel, List.take_left]

/-- A name without suffix is kept. -/
theorem suffixes_kept {name : PyStr} (plain : ∀ suffix ∈ livenessSuffixes, ¬ suffix <:+ lowerText name) :
    livenessSuffixes.foldl stripSuffix name = name := by
  simp only [livenessSuffixes, List.forall_mem_cons] at plain
  obtain ⟨log, json, txt, -⟩ := plain
  simp only [livenessSuffixes, List.foldl_cons, List.foldl_nil, stripSuffix_kept log,
    stripSuffix_kept json, stripSuffix_kept txt]

/-- One suffix is taken off. -/
theorem suffixes_stripped {front tail : PyStr} (ascii : ∀ c ∈ tail, c < 128)
    (plain : ∀ suffix ∈ livenessSuffixes, ¬ suffix <:+ lowerText front)
    (letters : asciiLower tail ∈ livenessSuffixes) :
    livenessSuffixes.foldl stripSuffix (front ++ tail) = front := by
  have kept : ∀ suffix ∈ livenessSuffixes, suffix.getLast? ≠ (asciiLower tail).getLast? →
      stripSuffix (front ++ tail) suffix = front ++ tail := by
    intro suffix listed differ
    apply stripSuffix_kept
    intro ends
    obtain ⟨lowered, split⟩ := lowerText_append_ascii front ascii
    have inhabited : ∀ text ∈ livenessSuffixes, text ≠ [] := by decide
    apply differ
    rw [← suffix_last ends (inhabited suffix listed), split,
      List.getLast?_append_of_ne_nil _ (inhabited _ letters)]
  have later : ∀ suffix ∈ livenessSuffixes, stripSuffix front suffix = front :=
    fun suffix listed => stripSuffix_kept (plain suffix listed)
  have stripped := stripSuffix_stripped front ascii rfl
  simp only [livenessSuffixes, List.forall_mem_cons] at kept later
  obtain ⟨log, json, txt, -⟩ := kept
  obtain ⟨noLog, noJson, noTxt, -⟩ := later
  simp only [livenessSuffixes, List.foldl_cons, List.foldl_nil]
  simp only [livenessSuffixes, List.mem_cons, List.not_mem_nil, or_false] at letters
  obtain same | same | same := letters <;> rw [same] at log json txt stripped
  · rw [stripped, noJson, noTxt]
  · rw [log (by decide), stripped, noTxt]
  · rw [log (by decide), json (by decide), stripped]

omit [PyRuntime] in
theorem replicate_letters {text : PyStr} {count : Nat}
    (same : SameLetters text (List.replicate count 95)) : text = List.replicate count 95 := by
  have size := same.length_eq
  rw [List.length_replicate] at size
  rw [List.eq_replicate_iff]
  refine ⟨size, ?_⟩
  intro c member
  have mapped : (if 65 ≤ c ∧ c ≤ 90 then c + 32 else c) ∈ asciiLower text :=
    List.mem_map.mpr ⟨c, member, rfl⟩
  rw [same, asciiLower, List.map_replicate] at mapped
  have lowered := List.eq_of_mem_replicate mapped
  split at lowered <;> simp at lowered
  · omega
  · exact lowered

omit [PyRuntime] in
theorem last_letters {left right : PyStr} (same : SameLetters left right)
    (bare : right.getLast? ≠ some 95) : left.getLast? ≠ some 95 := by
  intro last
  apply bare
  have mapped := congrArg List.getLast? same
  rw [asciiLower, asciiLower, List.getLast?_map, List.getLast?_map, last] at mapped
  obtain ⟨c, found, lowered⟩ := Option.map_eq_some_iff.mp mapped.symm
  rw [found]
  split at lowered <;> simp at lowered
  · omega
  · rw [lowered]

/-- Underscores are no suffix. -/
theorem underscores_plain {stem : PyStr} (count : Nat)
    (plain : ∀ suffix ∈ livenessSuffixes, ¬ suffix <:+ lowerText stem) :
    ∀ suffix ∈ livenessSuffixes, ¬ suffix <:+ lowerText (stem ++ List.replicate count 95) := by
  intro suffix listed ends
  cases count with
  | zero =>
    rw [List.replicate_zero, List.append_nil] at ends
    exact plain suffix listed ends
  | succ count =>
    obtain ⟨lowered, split⟩ := @lowerText_append_ascii _ (stem ++ List.replicate count 95)
      [95] (by simp)
    have inhabited : ∀ text ∈ livenessSuffixes, text ≠ [] ∧ text.getLast? ≠ some 95 := by decide
    rw [List.replicate_succ', ← List.append_assoc, split] at ends
    apply (inhabited suffix listed).2
    rw [← suffix_last ends (inhabited suffix listed).1]
    simp [asciiLower]

omit [PyRuntime] in
theorem suffixes_flat : ∀ suffix ∈ livenessSuffixes, 47 ∉ suffix := by decide

omit [PyRuntime] in
theorem suffixes_lower : ∀ suffix ∈ livenessSuffixes, asciiLower suffix = suffix := by decide

omit [PyRuntime] in
theorem suffixes_ascii {suffix tail : PyStr} (listed : suffix ∈ livenessSuffixes)
    (same : SameLetters tail suffix) : ∀ c ∈ tail, c < 128 := by
  intro c member
  have ascii : ∀ suffix ∈ livenessSuffixes, ∀ d ∈ suffix, d < 128 := by decide
  have mapped : (if 65 ≤ c ∧ c ≤ 90 then c + 32 else c) ∈ asciiLower tail :=
    List.mem_map.mpr ⟨c, member, rfl⟩
  rw [same, suffixes_lower suffix listed] at mapped
  have small := ascii suffix listed _ mapped
  split at small <;> omega

/-- All notations of a base name stand for its lower case: underscores and a suffix behind it,
other cases of its letters, and a folder before it. -/
theorem serviceOf_spelled [CaseLaws] (folder : PyStr) {base name tail : PyStr} (count : Nat)
    (flat : 47 ∉ base) (bare : base.getLast? ≠ some 95)
    (plain : ∀ suffix ∈ livenessSuffixes, ¬ suffix <:+ lowerText base)
    (ending : tail = [] ∨ tail ∈ livenessSuffixes)
    (written : SameLetters name (base ++ List.replicate count 95 ++ tail)) :
    serviceOf name = lowerText base ∧ serviceOf (folder ++ 47 :: name) = lowerText base := by
  obtain ⟨front, tail, rfl, sameFront, sameTail⟩ := sameLetters_split written
  obtain ⟨stem, underscores, rfl, sameStem, sameRun⟩ := sameLetters_split sameFront
  obtain rfl := replicate_letters sameRun
  have flatName : 47 ∉ stem ++ List.replicate count 95 ++ tail := by
    intro present
    have there := mem_of_sameLetters written (by omega) present
    obtain (inBase | inRun) | inTail := List.mem_append.mp there |>.imp_left List.mem_append.mp
    · exact flat inBase
    · exact absurd (List.eq_of_mem_replicate inRun) (by decide)
    · obtain rfl | suffix := ending
      · cases inTail
      · exact suffixes_flat _ suffix inTail
  have lowered := lowerText_letters sameStem
  have plainFront := underscores_plain count fun suffix listed => lowered ▸ plain suffix listed
  have stripped := rstripUnderscores_append count (last_letters sameStem bare)
  have named : lowerText (rstripUnderscores (livenessSuffixes.foldl stripSuffix
      (stem ++ List.replicate count 95 ++ tail))) = lowerText base := by
    obtain rfl | suffix := ending
    · obtain rfl := List.length_eq_zero_iff.mp sameTail.length_eq
      rw [List.append_nil, suffixes_kept plainFront, stripped, lowered]
    · have ascii := suffixes_ascii suffix sameTail
      have letters : asciiLower tail ∈ livenessSuffixes := by
        rw [sameTail, suffixes_lower _ suffix]
        exact suffix
      rw [suffixes_stripped ascii plainFront letters, stripped, lowered]
  obtain ⟨alone, within⟩ := lastSegment_append folder flatName
  exact ⟨by rw [serviceOf, alone, named], by rw [serviceOf, within, named]⟩

/-- The services are the names of the intervals that are not empty, the status of a service is
the strongest one, in any order of the intervals, and all notations of a base name are one
service. -/
theorem liveness_any_order [CaseLaws] :
    (∀ bundle s, s ∈ (serviceLiveness bundle).map Prod.fst ↔
      s ≠ [] ∧ ∃ m, ∃ interval ∈ bundle.modalityInfo.intervals m,
        serviceOf interval.fileName = s) ∧
    (∀ bundle s m, s ≠ [] → IsStrongest (ObservedIn bundle s m) (liveness bundle s m)) ∧
    (∀ bundle other : IngestBundle,
      (∀ m, (bundle.modalityInfo.intervals m).Perm (other.modalityInfo.intervals m)) →
      ∀ s, (s ∈ (serviceLiveness bundle).map Prod.fst ↔
          s ∈ (serviceLiveness other).map Prod.fst) ∧
        ∀ m, liveness bundle s m = liveness other s m) ∧
    ∀ (folder base name tail : PyStr) (count : Nat), 47 ∉ base → base.getLast? ≠ some 95 →
      (∀ suffix ∈ livenessSuffixes, ¬ suffix <:+ lowerText base) →
      (tail = [] ∨ tail ∈ livenessSuffixes) →
      SameLetters name (base ++ List.replicate count 95 ++ tail) →
      serviceOf name = lowerText base ∧ serviceOf (folder ++ 47 :: name) = lowerText base := by
  refine ⟨serviceLiveness_keys, fun bundle s m named => liveness_strongest bundle named m, ?_, ?_⟩
  · intro bundle other moved s
    constructor
    · rw [serviceLiveness_keys, serviceLiveness_keys]
      apply and_congr_right'
      constructor
      · rintro ⟨m, interval, read, service⟩
        exact ⟨m, interval, (moved m).mem_iff.mp read, service⟩
      · rintro ⟨m, interval, read, service⟩
        exact ⟨m, interval, (moved m).mem_iff.mpr read, service⟩
    · intro m
      by_cases named : s = []
      · rw [named, liveness_unnamed, liveness_unnamed]
      · apply isStrongest_unique (liveness_strongest bundle named m)
        apply (isStrongest_congr _ _).mp (liveness_strongest other named m)
        intro st
        constructor
        · rintro ⟨interval, read, holds⟩
          exact ⟨interval, (moved m).mem_iff.mpr read, holds⟩
        · rintro ⟨interval, read, holds⟩
          exact ⟨interval, (moved m).mem_iff.mp read, holds⟩
  · intro folder base name tail count flat bare plain ending written
    exact serviceOf_spelled folder count flat bare plain ending written

end Liveness

/-- A bundle with some intervals of logs. -/
def logsBundle (intervals : List ModalityInterval) : IngestBundle :=
  { IngestBundle.bare Iso8601.epoch with modalityInfo := { ModalityInfo.empty with log := ⟨intervals⟩ } }

/-- Three files, two of one service. -/
def mediaIntervals : List ModalityInterval :=
  [⟨py "media.log", none, none, some (py "missing"), none, none⟩,
    ⟨py "cart.json", none, none, some (py "empty"), none, none⟩,
    ⟨py "site/Media__.LOG", none, none, some (py "DATA"), none, none⟩]

/-- The service of two files has the status of the one with data, before and after the files
change places. -/
theorem liveness_any_order_media :
    py "media" ∈ (@serviceLiveness asciiRuntime (logsBundle mediaIntervals)).map Prod.fst ∧
      @liveness asciiRuntime (logsBundle mediaIntervals.reverse) (py "media") .log =
        some (py "data") ∧
      @IsStrongest (@ObservedIn asciiRuntime (logsBundle mediaIntervals) (py "media") .log)
        (@liveness asciiRuntime (logsBundle mediaIntervals) (py "media") .log) ∧
      @serviceOf asciiRuntime (py "site/Media__.LOG") = @lowerText asciiRuntime (py "media") := by
  obtain ⟨keys, strongest, permuted, spelled⟩ := @liveness_any_order asciiRuntime reference_case
  have moved : ∀ m, ((logsBundle mediaIntervals).modalityInfo.intervals m).Perm
      ((logsBundle mediaIntervals.reverse).modalityInfo.intervals m) := by
    intro m
    cases m with
    | log => exact (List.reverse_perm mediaIntervals).symm
    | metric | trace => exact List.Perm.refl _
  have first : @liveness asciiRuntime (logsBundle mediaIntervals) (py "media") .log =
      some (py "data") := by decide +kernel
  refine ⟨(keys _ _).mpr ⟨by decide, .log, _, List.mem_cons_self, by decide +kernel⟩, ?_,
    strongest _ _ .log (by decide), ?_⟩
  · rw [← first]
    exact ((permuted _ _ moved (py "media")).2 .log).symm
  · exact (spelled (py "site") (py "media") (py "Media__.LOG") (py ".log") 2 (by decide +kernel)
      (by decide +kernel) (by decide +kernel) (by decide +kernel) (by decide +kernel)).2

/-- A bundle with an interval of a file without name. -/
def namelessBundle : IngestBundle :=
  { IngestBundle.bare Iso8601.epoch with
    modalityInfo := { ModalityInfo.empty with
      log := ⟨[⟨[], none, none, some (py "data"), none, none⟩]⟩ } }

/-- An interval without a name is no service's, and a base name that ends in a suffix in upper
case loses it only where no underscore follows. -/
theorem liveness_nameless :
    (∃ interval ∈ namelessBundle.modalityInfo.intervals .log,
      @serviceOf asciiRuntime interval.fileName = []) ∧
    [] ∉ (@serviceLiveness asciiRuntime namelessBundle).map Prod.fst ∧
    47 ∉ py "x.LOG" ∧ (py "x.LOG").getLast? ≠ some 95 ∧
    (∀ suffix ∈ livenessSuffixes, ¬ suffix <:+ py "x.LOG") ∧
    @serviceOf asciiRuntime (py "x.LOG") ≠ @serviceOf asciiRuntime (py "x.LOG_") := by
  decide +kernel

end RcaBackend
