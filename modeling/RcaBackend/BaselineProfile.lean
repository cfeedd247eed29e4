import RcaBackend.LogCompression
import RcaBackend.ReferenceInterpreter
import RcaBackend.Attempts

/-!
# The profile of normal operation

`build_profile` counts the lines of normal operation by service, level and the template
that the miner reports for each line at that moment. `compress_logs` counts them by
cluster, and looks up the template that it has kept from the first line of the cluster.
A template becomes more general while the miner learns, so the two counts of the same
lines agree only where as many lines of a group have left its first template as lines of
other groups have it.

The times of a row are left out: nothing reads them.
-/

namespace RcaBackend

open KeyedFold Attempts

/-! ## The script -/

/-- A log file: its name without suffix, and its lines as they are read. -/
structure BaselineFile where
  stem : PyStr
  lines : List PyStr

/-- `SERVICE_NAME_MAP` -/
def serviceNameMap : List (PyStr × PyStr) :=
  [(py "UserService", py "user"), (py "MediaService", py "media"),
    (py "ComposePostService", py "composepost"), (py "HomeTimelineService", py "hometimeline"),
    (py "NginxThrift", py "nginx"), (py "PostStorageService", py "poststorage"),
    (py "SocialGraphService", py "socialgraph"), (py "TextService", py "text"),
    (py "UniqueIdService", py "uniqueid"), (py "UrlShortenService", py "urlshorten"),
    (py "UserMentionService", py "usermention"), (py "UserTimelineService", py "usertimeline")]

/-- `text.rstrip(c)` of one character. -/
def rstripChar (c : Nat) (text : PyStr) : PyStr :=
  (text.reverse.dropWhile fun other => other = c).reverse

/-- `_service_from_filename` -/
def BaselineFile.service [PyRuntime] (file : BaselineFile) : PyStr :=
  let stem := rstripChar 95 file.stem
  (serviceNameMap.lookup stem).getD (lowerText stem)

/-- The lines that are counted. -/
def BaselineFile.logLines (file : BaselineFile) : List PyStr :=
  (file.lines.map (rstripChar 10)).filter fun line => line ≠ []

/-- A line with its level and what the miner reports for it. -/
structure MinedLine where
  level : PyStr
  clusterId : Nat
  template : PyStr
  raw : PyStr
deriving DecidableEq

/-- The lines of one miner, after those that it has been fed. -/
def mineLines [PyRuntime] [Drain] : (fed : List PyStr) → List PyStr → List MinedLine
  | _, [] => []
  | fed, raw :: rest =>
    { level := levelOf raw, clusterId := Drain.clusterId (fed ++ [raw]),
      template := Drain.templateMined (fed ++ [raw]), raw } :: mineLines (fed ++ [raw]) rest

/-- A row of the profile. -/
structure ProfileRow where
  service : PyStr
  level : PyStr
  template : PyStr
  count : Nat
  sample : PyStr
deriving DecidableEq

def ProfileRow.key (row : ProfileRow) : PyStr × PyStr × PyStr :=
  (row.service, row.level, row.template)

/-- Service, level and template of a line. -/
def profileKey (line : PyStr × MinedLine) : PyStr × PyStr × PyStr :=
  (line.1, line.2.level, line.2.template)

/-- A line is added to its row. -/
def countLine (old : Option ProfileRow) (line : PyStr × MinedLine) : ProfileRow :=
  match old with
  | none =>
    { service := line.1, level := line.2.level, template := line.2.template, count := 1,
      sample := line.2.raw }
  | some row => { row with count := row.count + 1 }

section Profile

variable [PyRuntime] [Drain]

/-- The lines of all files, each file with a miner of its own. -/
def minedFiles (files : List BaselineFile) : List (PyStr × MinedLine) :=
  files.flatMap fun file => (mineLines [] file.logLines).map fun line => (file.service, line)

/-- `build_profile`; `none` where there is no file, which ends the script. -/
def buildProfile (files : List BaselineFile) : Option (List ProfileRow) :=
  if files = [] then none
  else
    let groups := keyedFold profileKey countLine (minedFiles files)
    some (sortBy (fun row : ProfileRow => toLex (row.service, -(row.count : Int)))
      (groups.map Prod.snd))

end Profile

/-- `_load_baseline_profile`, of the rows that the file holds. -/
def loadBaselineProfile (rows : List ProfileRow) : BaselineProfile :=
  keyedFold ProfileRow.key (fun _ row => row.count) rows

/-! ## What the profile counts -/

theorem countLine_fold (members : List (PyStr × MinedLine)) (row : ProfileRow) :
    members.foldl (fun old line => some (countLine old line)) (some row) =
      some { row with count := row.count + members.length } := by
  induction members generalizing row with
  | nil => rfl
  | cons line rest inductionHypothesis =>
    rw [List.foldl_cons, countLine, inductionHypothesis]
    simp only [List.length_cons, Option.some.injEq, ProfileRow.mk.injEq, true_and, and_true]
    omega

/-- Each row has the number of its lines. -/
theorem profile_rows (lines : List (PyStr × MinedLine)) (key : PyStr × PyStr × PyStr)
    (row : ProfileRow) (member : (key, row) ∈ keyedFold profileKey countLine lines) :
    row.key = key ∧ 0 < row.count ∧ row.count = lines.countP fun line => profileKey line = key := by
  rw [mem_keyedFold] at member
  rw [List.countP_eq_length_filter]
  cases members : lines.filter fun line => profileKey line = key with
  | nil =>
    rw [members] at member
    simp at member
  | cons first rest =>
    have own : profileKey first = key := by
      have listed : first ∈ lines.filter fun line => profileKey line = key := by simp [members]
      exact of_decide_eq_true (List.mem_filter.mp listed).2
    rw [members, List.foldl_cons, countLine_fold] at member
    obtain rfl := Option.some.inj member
    refine ⟨own, ?_, ?_⟩
    · simp only [countLine]
      omega
    · simp [countLine, Nat.add_comm]

/-- With distinct keys, a lookup finds the count of its row. -/
theorem lookup_loadBaselineProfile {rows : List ProfileRow}
    (distinct : (rows.map ProfileRow.key).Nodup) {row : ProfileRow} (member : row ∈ rows) :
    (loadBaselineProfile rows).lookup row.key = some row.count := by
  rw [loadBaselineProfile, lookup_overwrite]
  have listed : row ∈ rows.filter fun other => decide (other.key = row.key) :=
    List.mem_filter.mpr ⟨member, decide_eq_true rfl⟩
  cases found : (rows.filter fun other => decide (other.key = row.key)).getLast? with
  | none =>
    rw [List.getLast?_eq_none_iff.mp found] at listed
    simp at listed
  | some last =>
    obtain ⟨present, same⟩ := List.mem_filter.mp (List.mem_of_getLast? found)
    rw [List.inj_on_of_nodup_map distinct present member (of_decide_eq_true same), Option.map_some]

section Agreement

variable [PyRuntime] [Drain]

/-- The profile counts the lines of a service, level and template. -/
theorem profile_lookup {files : List BaselineFile} {rows : List ProfileRow}
    (built : buildProfile files = some rows) {line : PyStr × MinedLine}
    (counted : line ∈ minedFiles files) :
    (loadBaselineProfile rows).lookup (profileKey line) =
      some ((minedFiles files).countP fun other => profileKey other = profileKey line) := by
  rw [buildProfile] at built
  by_cases empty : files = []
  · simp [empty] at built
  · rw [if_neg empty] at built
    have sorted := sortBy_perm (fun row : ProfileRow => toLex (row.service, -(row.count : Int)))
      ((keyedFold profileKey countLine (minedFiles files)).map Prod.snd)
    rw [Option.some.inj built] at sorted
    have keyed : ((keyedFold profileKey countLine (minedFiles files)).map Prod.snd).map
        ProfileRow.key = (keyedFold profileKey countLine (minedFiles files)).map Prod.fst := by
      rw [List.map_map]
      apply List.map_congr_left
      rintro ⟨key, row⟩ member
      exact (profile_rows _ key row member).1
    have distinct : (rows.map ProfileRow.key).Nodup := by
      rw [(sorted.map ProfileRow.key).nodup_iff, keyed]
      exact keys_nodup _ _ _
    obtain ⟨⟨key, row⟩, member, same⟩ := List.mem_map.mp
      ((mem_keys profileKey countLine (minedFiles files) (profileKey line)).mpr
        ⟨line, counted, rfl⟩)
    obtain rfl : key = profileKey line := same
    obtain ⟨own, -, size⟩ := profile_rows _ _ row member
    have listed : row ∈ rows := sorted.symm.subset (List.mem_map_of_mem member)
    rw [← own, lookup_loadBaselineProfile distinct listed, size, own]

/-! ## What the groups count -/

/-- What the miner has reported for a line. -/
def LogRecord.mined (line : LogRecord) : MinedLine :=
  { level := line.level, clusterId := line.clusterId, template := line.template, raw := line.raw }

/-- The lines of one service are those of its miner, whatever lines of other services stand
between them. -/
theorem readLines_mined {trigger : Option DateTime} {miners : Miners} {items : List ModalityItem}
    {lines : List LogRecord} (returned : readLines trigger miners items = .ok lines)
    (service : PyStr) :
    (lines.filter fun line => line.service = service).map LogRecord.mined =
      mineLines (miners service)
        ((items.filter fun item => item.service = service).map ModalityItem.raw) := by
  induction items generalizing miners lines with
  | nil =>
    obtain rfl := Except.ok.inj returned
    rfl
  | cons item rest inductionHypothesis =>
    obtain ⟨line, read, after⟩ := bind_ok_iff.mp returned
    obtain ⟨others, readOthers, same⟩ := bind_ok_iff.mp after
    obtain rfl := Except.ok.inj same
    obtain ⟨isBase, -, made⟩ := bind_ok_iff.mp read
    obtain rfl := Except.ok.inj made
    have tail := inductionHypothesis readOthers
    by_cases own : item.service = service
    · subst own
      simp only [decide_true, List.filter_cons_of_pos, List.map_cons, tail, mineLines]
      simp [LogRecord.mined, Miners.add, Miners.fed]
    · simp only [own, decide_false, Bool.false_eq_true, not_false_eq_true,
        List.filter_cons_of_neg, tail]
      rw [Miners.add, Function.update_of_ne (Ne.symm own)]

end Agreement

/-- Two lines of one level and one cluster. -/
def sameGroup (line other : MinedLine) : Bool :=
  other.level = line.level && other.clusterId = line.clusterId

/-- For the first line of each group: as many lines of the group have another template as
lines of the level in other groups have this one. -/
def TemplatesAgree (lines : List MinedLine) : Prop :=
  ∀ before line after, lines = before ++ line :: after →
    (∀ other ∈ before, sameGroup line other = false) →
    (lines.countP fun other => sameGroup line other && other.template ≠ line.template) =
      lines.countP fun other => !sameGroup line other &&
        (other.level = line.level && other.template = line.template)

/-- A group is as large as the level has lines with a template exactly if as many lines
of the group lack the template as others have it. -/
theorem counts_agree_iff (lines : List MinedLine) (line : MinedLine) :
    (lines.countP fun other => other.level = line.level && other.template = line.template) =
        lines.countP (sameGroup line) ↔
      (lines.countP fun other => sameGroup line other && other.template ≠ line.template) =
        lines.countP fun other => !sameGroup line other &&
          (other.level = line.level && other.template = line.template) := by
  have members := List.countP_eq_countP_filter_add lines (sameGroup line)
    fun other => other.template = line.template
  have named := List.countP_eq_countP_filter_add lines
    (fun other => other.level = line.level && other.template = line.template) (sameGroup line)
  rw [List.countP_filter, List.countP_filter] at members named
  have common : (lines.countP fun other =>
      (other.level = line.level && other.template = line.template) && sameGroup line other) =
      lines.countP fun other => sameGroup line other && decide (other.template = line.template) := by
    apply List.countP_congr
    intro other _
    simp only [sameGroup, Bool.and_eq_true, decide_eq_true_eq]
    tauto
  have outside : (lines.countP fun other =>
      (other.level = line.level && other.template = line.template) && !sameGroup line other) =
      lines.countP fun other => !sameGroup line other &&
        (other.level = line.level && other.template = line.template) := by
    apply List.countP_congr
    intro other _
    rw [Bool.and_comm]
  have without : (lines.countP fun other =>
      sameGroup line other && !decide (other.template = line.template)) =
      lines.countP fun other => sameGroup line other && other.template ≠ line.template := by
    apply List.countP_congr
    intro other _
    simp
  rw [common, outside] at named
  rw [without] at members
  omega

section Comparison

variable [PyRuntime] [Drain]

/-- The lines of a group, as the miner of their service reports them. -/
theorem group_members {trigger : Option DateTime} {items : List ModalityItem}
    {lines : List LogRecord} (returned : readLines trigger (fun _ => []) items = .ok lines)
    (service : PyStr) (line : MinedLine) :
    (lines.filter fun other => other.key = (service, line.level, line.clusterId)).map
        LogRecord.mined =
      (mineLines [] ((items.filter fun item => item.service = service).map
        ModalityItem.raw)).filter (sameGroup line) := by
  rw [← readLines_mined returned service, List.filter_map, List.filter_filter]
  congr 1
  apply List.filter_congr
  intro other _
  have whole : other.key = (service, line.level, line.clusterId) ↔
      (other.level = line.level ∧ other.clusterId = line.clusterId) ∧ other.service = service := by
    simp only [LogRecord.key, Prod.mk.injEq]
    tauto
  have judged : sameGroup line other.mined = true ↔
      other.level = line.level ∧ other.clusterId = line.clusterId := by
    rw [sameGroup, Bool.and_eq_true, decide_eq_true_eq, decide_eq_true_eq]
    exact Iff.rfl
  rw [Bool.eq_iff_iff, decide_eq_true_eq, whole, Function.comp_apply, Bool.and_eq_true, judged,
    decide_eq_true_eq]

/-- What the profile of one file has for a line of this file. -/
theorem profile_of_file {file : BaselineFile} {rows : List ProfileRow}
    (built : buildProfile [file] = some rows) {line : MinedLine}
    (counted : line ∈ mineLines [] file.logLines) :
    (loadBaselineProfile rows).lookup (file.service, line.level, line.template) =
      some ((mineLines [] file.logLines).countP fun other =>
        other.level = line.level && other.template = line.template) := by
  have mined : minedFiles [file] =
      (mineLines [] file.logLines).map fun line => (file.service, line) := by
    simp [minedFiles]
  have listed : (file.service, line) ∈ minedFiles [file] := by
    rw [mined]
    exact List.mem_map_of_mem counted
  have found := profile_lookup built listed
  rw [mined, List.countP_map] at found
  rw [profileKey] at found
  rw [found]
  congr 1
  apply List.countP_congr
  intro other _
  simp [profileKey]

/-- The baseline of a group is its count exactly if the counts of templates agree at its
first line. -/
theorem baseline_of_group {file : BaselineFile} {rows : List ProfileRow}
    (built : buildProfile [file] = some rows) {key : LogKey} {first : LogRecord}
    {rest : List LogRecord} {line : MinedLine} (counted : line ∈ mineLines [] file.logLines)
    (named : key = (file.service, line.level, line.clusterId)) (lead : first.mined = line)
    (members : (first :: rest).map LogRecord.mined =
      (mineLines [] file.logLines).filter (sameGroup line)) :
    baselineCount (loadBaselineProfile rows) key (groupOf first rest) =
        some (groupOf first rest).count ↔
      ((mineLines [] file.logLines).countP fun other =>
          sameGroup line other && other.template ≠ line.template) =
        (mineLines [] file.logLines).countP fun other => !sameGroup line other &&
          (other.level = line.level && other.template = line.template) := by
  have found := profile_of_file built counted
  have inhabited : loadBaselineProfile rows ≠ [] := by
    intro empty
    rw [empty] at found
    simp at found
  have size : (groupOf first rest).count =
      (mineLines [] file.logLines).countP (sameGroup line) := by
    rw [List.countP_eq_length_filter, ← members, List.length_map]
    rfl
  have template : (groupOf first rest).template = line.template := by
    rw [← lead]
    rfl
  rw [← counts_agree_iff, ← size, baselineCount, if_neg inhabited, named, template, found]
  exact Option.some_inj

/-- The lines of one service, as the only file of the profile and among the items of a
bundle: every group finds its own count exactly if the templates agree. -/
theorem baseline_agrees (file : BaselineFile) (rows : List ProfileRow)
    (built : buildProfile [file] = some rows) (items : List ModalityItem) (triggerTime : PyStr)
    (alone : file.logLines =
      (items.filter fun item => item.service = file.service).map ModalityItem.raw)
    (lines : List LogRecord) (groups : List (LogKey × LogGroup))
    (analyzed : analyzeLogs items triggerTime = .ok (lines, groups)) :
    (∀ key group, (key, group) ∈ groups → key.1 = file.service →
        baselineCount (loadBaselineProfile rows) key group = some group.count) ↔
      TemplatesAgree (mineLines [] file.logLines) := by
  obtain ⟨read, returned, same⟩ := bind_ok_iff.mp analyzed
  obtain ⟨rfl, rfl⟩ := Prod.mk.inj (Except.ok.inj same)
  have members := group_members returned file.service
  rw [← alone] at members
  constructor
  · intro agree before line after split fresh
    have counted : line ∈ mineLines [] file.logLines := by simp [split]
    have own := members line
    have listed : (mineLines [] file.logLines).filter (sameGroup line) =
        line :: after.filter (sameGroup line) := by
      have none : before.filter (sameGroup line) = [] := by
        rw [List.filter_eq_nil_iff]
        intro other member
        simp [fresh other member]
      rw [split, List.filter_append, none, List.nil_append, List.filter_cons_of_pos]
      simp [sameGroup]
    rw [listed] at own
    obtain ⟨first, rest, shape, lead, -⟩ := List.map_eq_cons_iff.mp own
    apply (baseline_of_group built counted rfl lead (by rw [← shape, members line])).mp
    apply agree
    · exact mem_logGroups.mpr ⟨first, rest, shape, rfl⟩
    · rfl
  · rintro agree ⟨service, level, clusterId⟩ group member own
    obtain rfl : service = file.service := own
    obtain ⟨first, rest, shape, rfl⟩ := mem_logGroups.mp member
    have listed : first ∈ read.filter fun line => line.key = (file.service, level, clusterId) := by
      simp [shape]
    have named : first.key = (file.service, level, clusterId) :=
      of_decide_eq_true (List.mem_filter.mp listed).2
    obtain ⟨-, later⟩ := Prod.mk.inj named
    obtain ⟨rfl, rfl⟩ := Prod.mk.inj later
    have own := members first.mined
    rw [LogRecord.mined, shape, List.map_cons] at own
    obtain ⟨before, after, split, fresh, -, -⟩ := List.filter_eq_cons_iff.mp own.symm
    have counted : first.mined ∈ mineLines [] file.logLines := by
      rw [split]
      simp
    apply (baseline_of_group built counted rfl rfl own).mpr
    apply agree before first.mined after split
    intro other earlier
    exact Bool.eq_false_iff.mpr (fresh other earlier)

end Comparison

/-! ## Two lines of one pattern -/

/-- A miner of one cluster, whose template leaves out the name from the second line on. -/
@[reducible] def loginDrain : Drain where
  clusterId _ := 1
  templateMined
    | [line] => line
    | _ => py "user <*> logged in"

/-- The two lines, as a file of the service `user`. -/
def loginFile : BaselineFile :=
  { stem := py "UserService_", lines := [py "user alice logged in\n", py "user bob logged in\n"] }

/-- The two lines, as items of a bundle. -/
def loginItems : List ModalityItem :=
  [⟨.epoch, py "user", py "user alice logged in"⟩, ⟨.epoch, py "user", py "user bob logged in"⟩]

/-- Their group has two lines, of which the profile knows one under the first template. -/
theorem baseline_undercounts : ∃ rows lines group,
    @buildProfile ReferenceInterpreter.asciiRuntime loginDrain [loginFile] = some rows ∧
      @analyzeLogs ReferenceInterpreter.asciiRuntime loginDrain loginItems
        (py "2026-01-15T10:00:00Z") = .ok (lines, [((py "user", py "-", 1), group)]) ∧
      group.count = 2 ∧
      baselineCount (loadBaselineProfile rows) (py "user", py "-", 1) group = some 1 := by
  have built : @buildProfile ReferenceInterpreter.asciiRuntime loginDrain [loginFile] =
      some [⟨py "user", py "-", py "user alice logged in", 1, py "user alice logged in"⟩,
        ⟨py "user", py "-", py "user <*> logged in", 1, py "user bob logged in"⟩] := by
    decide +kernel
  have analyzed : ((@analyzeLogs ReferenceInterpreter.asciiRuntime loginDrain loginItems
      (py "2026-01-15T10:00:00Z")).map Prod.snd) =
      .ok [((py "user", py "-", 1), ⟨2, 2, 0, py "1970-01-01T00:00:00Z", py "1970-01-01T00:00:00Z",
        py "user alice logged in", py "user alice logged in"⟩)] := by
    decide +kernel
  obtain ⟨⟨lines, groups⟩, returned, rfl⟩ := map_ok_iff.mp analyzed
  exact ⟨_, lines, _, built, returned, rfl, by decide +kernel⟩

theorem baseline_agrees_login : ∃ rows lines groups,
    @analyzeLogs ReferenceInterpreter.asciiRuntime loginDrain loginItems
        (py "2026-01-15T10:00:00Z") = .ok (lines, groups) ∧
      ((∀ key group, (key, group) ∈ groups →
          key.1 = @BaselineFile.service ReferenceInterpreter.asciiRuntime loginFile →
          baselineCount (loadBaselineProfile rows) key group = some group.count) ↔
        TemplatesAgree (@mineLines ReferenceInterpreter.asciiRuntime loginDrain []
          loginFile.logLines)) := by
  have built : @buildProfile ReferenceInterpreter.asciiRuntime loginDrain [loginFile] =
      some [⟨py "user", py "-", py "user alice logged in", 1, py "user alice logged in"⟩,
        ⟨py "user", py "-", py "user <*> logged in", 1, py "user bob logged in"⟩] := by
    decide +kernel
  have returns : ((@analyzeLogs ReferenceInterpreter.asciiRuntime loginDrain loginItems
      (py "2026-01-15T10:00:00Z")).map fun _ => ()) = .ok () := by
    decide +kernel
  obtain ⟨⟨lines, groups⟩, analyzed, -⟩ := map_ok_iff.mp returns
  exact ⟨_, lines, groups, analyzed, @baseline_agrees ReferenceInterpreter.asciiRuntime loginDrain
    loginFile _ built loginItems (py "2026-01-15T10:00:00Z") (by decide +kernel) lines groups
    analyzed⟩

end RcaBackend
