import RcaBackend.SelectionOrder

/-!
# Groups with a diagnostic signal

An item is prior if it is an error line, a metric point that the bucketer judges
deviant, or a span with an error; a group is prior if it holds a prior item. Groups of
logs and metrics are ordered by their best grade, so no group without a prior item is
served before every prior one. But the metrics without a pair are put under a key that a
series can have, too, and this series is lost: if it was prior, another group may be served
in its place. The grade of a span is its rank in its group, and the best rank of every group
of spans is zero: these groups are ordered by their sizes alone.
-/

namespace RcaBackend

open Attempts KeyedFold

/-- The bucket holds a prior position. -/
def hasPrior (prior : Nat → Bool) (bucket : List Entry) : Bool :=
  bucket.any fun entry => prior entry.2

/-- The bucket has a position that is picked. -/
def Contributes (picked : List Nat) (bucket : List Entry) : Prop :=
  ∃ entry ∈ bucket, entry.2 ∈ picked

/-- No group without a prior item contributes unless every prior group does, and if the
limit has room for all prior groups, each contributes a prior item. -/
def ServesPriorFirst (prior : Nat → Bool) (buckets : List (List Entry)) (picked : List Nat)
    (limit : Int) : Prop :=
  (∀ group ∈ buckets, hasPrior prior group = false → Contributes picked group →
      ∀ other ∈ buckets, hasPrior prior other = true → Contributes picked other) ∧
    ((buckets.countP (hasPrior prior) : Int) ≤ limit →
      ∀ group ∈ buckets, hasPrior prior group = true →
        ∃ entry ∈ group, prior entry.2 = true ∧ entry.2 ∈ picked)

/-! ## Ordered groups -/

/-- In ordered groups, whose heads are prior where the group is, prior groups are served
first exactly if the limit does not fall behind a group without a prior item and before a
prior one. -/
theorem servesPriorFirst_iff {prior : Nat → Bool} {ordered : List (List Entry)}
    (inhabited : ∀ group ∈ ordered, group ≠ []) (distinct : (positions ordered).Nodup)
    (leads : ∀ group ∈ ordered, hasPrior prior group = true →
      ∃ entry ∈ group.head?, prior entry.2 = true) (limit : Int) :
    ServesPriorFirst prior ordered (roundRobin (ordered.map (List.map Prod.snd)) limit) limit ↔
      ∀ (i j : Nat) group other, ordered[i]? = some group → ordered[j]? = some other →
        hasPrior prior group = false → hasPrior prior other = true →
        (i : Int) < limit → (j : Int) < limit := by
  have groups : ∀ group ∈ ordered.map (List.map Prod.snd), group ≠ [] := by
    intro group member
    obtain ⟨bucket, present, rfl⟩ := List.mem_map.mp member
    simpa using inhabited bucket present
  have flat : (ordered.map (List.map Prod.snd)).flatten.Nodup := by
    rw [← List.map_flatten]
    exact distinct
  have contributes : ∀ (i : Nat) group, ordered[i]? = some group →
      (Contributes (roundRobin (ordered.map (List.map Prod.snd)) limit) group ↔
        (i : Int) < limit) := by
    intro i group found
    have there : (ordered.map (List.map Prod.snd))[i]? = some (group.map Prod.snd) := by
      rw [List.getElem?_map, found, Option.map_some]
    rw [← contributes_iff groups flat there]
    constructor
    · rintro ⟨entry, member, taken⟩
      exact ⟨entry.2, List.mem_map_of_mem member, taken⟩
    · rintro ⟨position, member, taken⟩
      obtain ⟨entry, present, rfl⟩ := List.mem_map.mp member
      exact ⟨entry, present, taken⟩
  constructor
  · rintro ⟨first, -⟩ i j group other here there plain also early
    apply (contributes j other there).mp
    exact first group (List.mem_of_getElem? here) plain ((contributes i group here).mpr early)
      other (List.mem_of_getElem? there) also
  · intro order
    constructor
    · intro group member plain served other present also
      obtain ⟨i, here⟩ := List.mem_iff_getElem?.mp member
      obtain ⟨j, there⟩ := List.mem_iff_getElem?.mp present
      apply (contributes j other there).mpr
      exact order i j group other here there plain also ((contributes i group here).mp served)
    · intro room group member also
      obtain ⟨j, there⟩ := List.mem_iff_getElem?.mp member
      have early : (j : Int) < limit := by
        by_contra late
        -- otherwise all groups before the limit are prior, and this one is one more
        obtain ⟨inside, value⟩ := List.getElem?_eq_some_iff.mp there
        have front : (ordered.take limit.toNat).countP (hasPrior prior) = limit.toNat := by
          have size : (ordered.take limit.toNat).length = limit.toNat := by
            rw [List.length_take]
            omega
          rw [← size]
          conv_lhs => rw [size]
          apply List.countP_eq_length.mpr
          intro earlier taken
          obtain ⟨i, within, here⟩ := List.mem_take_iff_getElem.mp taken
          by_contra plain
          apply late
          exact order i j earlier group (by rw [List.getElem?_eq_getElem (by omega), here]) there
            (by simpa using plain) also (by omega)
        have back : 0 < (ordered.drop limit.toNat).countP (hasPrior prior) := by
          apply List.countP_pos_iff.mpr
          refine ⟨group, ?_, also⟩
          rw [List.mem_drop_iff_getElem]
          exact ⟨j - limit.toNat, by omega, by rw [← value]; congr 1; omega⟩
        have whole : ordered.countP (hasPrior prior) =
            (ordered.take limit.toNat).countP (hasPrior prior) +
              (ordered.drop limit.toNat).countP (hasPrior prior) := by
          rw [← List.countP_append, List.take_append_drop]
        omega
      obtain ⟨entry, head, prioritized⟩ := leads group member also
      refine ⟨entry, List.mem_of_mem_head? head, prioritized, ?_⟩
      have thereToo : (ordered.map (List.map Prod.snd))[j]? = some (group.map Prod.snd) := by
        rw [List.getElem?_map, there, Option.map_some]
      apply head_picked groups thereToo early
      rw [List.head?_map, Option.mem_def.mp head, Option.map_some]

theorem hasPrior_perm (prior : Nat → Bool) {left right : List Entry} (same : left.Perm right) :
    hasPrior prior left = hasPrior prior right := by
  rw [Bool.eq_iff_iff]
  simp only [hasPrior, List.any_eq_true]
  constructor
  · rintro ⟨entry, member, found⟩
    exact ⟨entry, same.subset member, found⟩
  · rintro ⟨entry, member, found⟩
    exact ⟨entry, same.symm.subset member, found⟩

theorem contributes_perm {picked other : List Nat} (taken : ∀ place, place ∈ picked ↔ place ∈ other)
    {left right : List Entry} (same : left.Perm right) :
    Contributes picked left ↔ Contributes other right := by
  constructor
  · rintro ⟨entry, member, found⟩
    exact ⟨entry, same.subset member, (taken entry.2).mp found⟩
  · rintro ⟨entry, member, found⟩
    exact ⟨entry, same.symm.subset member, (taken entry.2).mpr found⟩

/-- The order of the groups, and that within them, does not matter to what is said. -/
theorem servesPriorFirst_perm {prior : Nat → Bool} {buckets ordered : List (List Entry)}
    {reorder : List Entry → List Entry} {picked other : List Nat} {limit : Int}
    (moves : ∀ bucket, (reorder bucket).Perm bucket)
    (same : ordered.Perm (buckets.map reorder))
    (taken : ∀ place, place ∈ picked ↔ place ∈ other) :
    ServesPriorFirst prior buckets picked limit ↔ ServesPriorFirst prior ordered other limit := by
  have forward : ∀ bucket ∈ buckets, reorder bucket ∈ ordered := fun bucket member =>
    same.symm.subset (List.mem_map_of_mem member)
  have backward : ∀ group ∈ ordered, ∃ bucket ∈ buckets, reorder bucket = group :=
    fun group member => List.mem_map.mp (same.subset member)
  have priors : ∀ bucket, hasPrior prior (reorder bucket) = hasPrior prior bucket :=
    fun bucket => hasPrior_perm prior (moves bucket)
  have contributes : ∀ bucket, Contributes picked bucket ↔ Contributes other (reorder bucket) :=
    fun bucket => contributes_perm taken (moves bucket).symm
  have counts : ordered.countP (hasPrior prior) = buckets.countP (hasPrior prior) := by
    rw [same.countP_eq, List.countP_map]
    apply List.countP_congr
    intro bucket _
    rw [Function.comp_apply, priors]
  rw [ServesPriorFirst, ServesPriorFirst, counts]
  constructor
  · rintro ⟨first, second⟩
    constructor
    · intro group member plain served later present also
      obtain ⟨bucket, inside, rfl⟩ := backward group member
      obtain ⟨next, within, rfl⟩ := backward later present
      rw [priors] at plain also
      exact (contributes next).mp
        (first bucket inside plain ((contributes bucket).mpr served) next within also)
    · intro room group member also
      obtain ⟨bucket, inside, rfl⟩ := backward group member
      rw [priors] at also
      obtain ⟨entry, present, found, kept⟩ := second room bucket inside also
      exact ⟨entry, (moves bucket).symm.subset present, found, (taken entry.2).mp kept⟩
  · rintro ⟨first, second⟩
    constructor
    · intro group member plain served later present also
      rw [← priors] at plain also
      exact (contributes later).mpr (first _ (forward group member) plain
        ((contributes group).mp served) _ (forward later present) also)
    · intro room group member also
      rw [← priors] at also
      obtain ⟨entry, present, found, kept⟩ := second room _ (forward group member) also
      exact ⟨entry, (moves group).subset present, found, (taken entry.2).mpr kept⟩

/-! ## A group that is lost -/

instance (picked : List Nat) (bucket : List Entry) : Decidable (Contributes picked bucket) :=
  inferInstanceAs (Decidable (∃ _ ∈ bucket, _))

/-- Each bucket that contributes has a picked position of its own. -/
theorem contributing_le {buckets : List (List Entry)} (distinct : (positions buckets).Nodup)
    (picked : List Nat) :
    buckets.countP (fun bucket => decide (Contributes picked bucket)) ≤ picked.length := by
  induction buckets generalizing picked with
  | nil => exact Nat.zero_le _
  | cons bucket rest inductionHypothesis =>
    rw [positions, List.flatten_cons, List.map_append] at distinct
    obtain ⟨-, later, apart⟩ := List.nodup_append.mp distinct
    -- the positions of the first bucket serve no other one
    have others := inductionHypothesis later
      (picked.filter fun place => decide (place ∉ bucket.map Prod.snd))
    have same : rest.countP (fun group => decide (Contributes
        (picked.filter fun place => decide (place ∉ bucket.map Prod.snd)) group)) =
        rest.countP fun group => decide (Contributes picked group) := by
      apply List.countP_congr
      intro group member
      rw [decide_eq_true_eq, decide_eq_true_eq]
      constructor
      · rintro ⟨entry, held, taken⟩
        exact ⟨entry, held, (List.mem_filter.mp taken).1⟩
      · rintro ⟨entry, held, taken⟩
        refine ⟨entry, held, List.mem_filter.mpr ⟨taken, decide_eq_true ?_⟩⟩
        intro own
        have there : entry.2 ∈ rest.flatten.map Prod.snd :=
          List.mem_map_of_mem (List.mem_flatten.mpr ⟨group, member, held⟩)
        exact apart _ own _ there rfl
    rw [same] at others
    by_cases contributes : Contributes picked bucket
    · rw [List.countP_cons_of_pos (by exact decide_eq_true contributes)]
      obtain ⟨entry, held, taken⟩ := contributes
      have fewer : (picked.filter fun place => decide (place ∉ bucket.map Prod.snd)).length <
          picked.length := by
        apply List.length_filter_lt_length_iff_exists.mpr
        exact ⟨entry.2, taken, by simpa using ⟨entry.1, held⟩⟩
      omega
    · rw [List.countP_cons_of_neg (by simpa using contributes)]
      exact others.trans (List.length_filter_le _ _)

/-- Where all prior groups contribute and another one does, more groups contribute than are
prior. -/
theorem priors_lt_contributing {prior : Nat → Bool} {buckets : List (List Entry)}
    {picked : List Nat} {group : List Entry} (member : group ∈ buckets)
    (plain : hasPrior prior group = false) (contributes : Contributes picked group)
    (all : ∀ bucket ∈ buckets, hasPrior prior bucket = true → Contributes picked bucket) :
    buckets.countP (hasPrior prior) <
      buckets.countP fun bucket => decide (Contributes picked bucket) := by
  obtain ⟨before, after, split⟩ := List.append_of_mem member
  have decided (bucket : List Entry) (inside : bucket ∈ buckets)
      (marked : hasPrior prior bucket = true) : decide (Contributes picked bucket) = true :=
    decide_eq_true (all bucket inside marked)
  have early := List.countP_mono_left (l := before) fun bucket inside =>
    decided bucket (by rw [split]; exact List.mem_append_left _ inside)
  have late := List.countP_mono_left (l := after) fun bucket inside =>
    decided bucket (by simp [split, inside])
  have unmarked : ¬ hasPrior prior group = true := by simp [plain]
  rw [split, List.countP_append, List.countP_append, List.countP_cons_of_neg unmarked,
    List.countP_cons_of_pos (by simpa using contributes)]
  omega

/-- A group that is lost does no harm if it holds no prior item, or if the limit has no room
for all prior groups. -/
theorem servesPriorFirst_lost {prior : Nat → Bool} {buckets : List (List Entry)}
    {lost : List Entry} {picked : List Nat} {limit : Int}
    (served : ServesPriorFirst prior buckets picked limit)
    (distinct : (positions buckets).Nodup) (few : picked.length ≤ limit.toNat)
    (missing : ¬ Contributes picked lost) :
    ServesPriorFirst prior (lost :: buckets) picked limit ↔
      (hasPrior prior lost = true → limit < (lost :: buckets).countP (hasPrior prior)) := by
  obtain ⟨first, second⟩ := served
  cases found : hasPrior prior lost with
  | false =>
    have unmarked : ¬ hasPrior prior lost = true := by simp [found]
    rw [ServesPriorFirst, List.countP_cons_of_neg unmarked]
    simp only [List.forall_mem_cons, found, Bool.false_eq_true, false_implies, true_and, missing,
      implies_true, iff_true]
    exact ⟨first, second⟩
  | true =>
    rw [List.countP_cons_of_pos found]
    constructor
    · rintro ⟨-, both⟩ -
      by_contra room
      rw [List.countP_cons_of_pos found] at both
      obtain ⟨entry, held, -, taken⟩ := both (by omega) lost List.mem_cons_self found
      exact missing ⟨entry, held, taken⟩
    · intro narrow
      have crowded := narrow rfl
      -- a group without a prior item would be one more than there is room for
      have none : ∀ group ∈ buckets, hasPrior prior group = false → ¬ Contributes picked group := by
        intro group member plain contributes
        have bound := contributing_le distinct picked
        have more := priors_lt_contributing member plain contributes
          (first group member plain contributes)
        omega
      constructor
      · intro group member plain contributes
        obtain rfl | inside := List.mem_cons.mp member
        · exact absurd contributes missing
        · exact absurd contributes (none group inside plain)
      · intro room
        rw [List.countP_cons_of_pos found] at room
        omega

/-! ## Groups ordered by grade -/

/-- Buckets without common positions have different keys. -/
theorem groupKey_ne {left right : List Entry} (some : left ≠ []) (other : right ≠ [])
    (apart : List.Disjoint (left.map Prod.snd) (right.map Prod.snd)) :
    groupKey left ≠ groupKey right := by
  intro same
  obtain ⟨first, rest, rfl⟩ := List.exists_cons_of_ne_nil some
  obtain ⟨lead, others, rfl⟩ := List.exists_cons_of_ne_nil other
  have tails := (Prod.mk.inj (toLex.injective same)).2
  have collision : first.2 = lead.2 := (Prod.mk.inj (toLex.injective tails)).2
  apply apart (a := first.2)
  · simp
  · simp [collision]

/-- In a strictly sorted list, a place is the number of the smaller elements. -/
theorem place_eq_countP {α β : Type} [LinearOrder β] {key : α → β} {items : List α}
    (strict : items.Pairwise fun a b => key a < key b) {place : Nat} {item : α}
    (there : items[place]? = some item) :
    items.countP (fun other => key other < key item) = place := by
  obtain ⟨inside, rfl⟩ := List.getElem?_eq_some_iff.mp there
  have ordered := List.pairwise_iff_getElem.mp strict
  have front : (items.take place).countP (fun other => key other < key items[place]) = place := by
    have size : (items.take place).length = place := List.length_take_of_le (Nat.le_of_lt inside)
    conv_rhs => rw [← size]
    apply List.countP_eq_length.mpr
    intro other taken
    obtain ⟨i, within, rfl⟩ := List.mem_take_iff_getElem.mp taken
    exact decide_eq_true (ordered i place (by omega) inside (by omega))
  have back : (items.drop place).countP (fun other => key other < key items[place]) = 0 := by
    apply List.countP_eq_zero.mpr
    intro other later
    obtain ⟨i, within, rfl⟩ := List.mem_drop_iff_getElem.mp later
    rw [decide_eq_true_eq, not_lt]
    cases i with
    | zero => exact le_of_eq (by congr 1)
    | succ i => exact le_of_lt (ordered place (place + (i + 1)) inside (by omega) (by omega))
  have whole := @List.countP_append _ (fun other => decide (key other < key items[place]))
    (items.take place) (items.drop place)
  rw [List.take_append_drop, front, back] at whole
  exact whole

section Graded

variable [PyRuntime]

/-- The head of a sorted bucket has its best grade. -/
theorem sorted_head {bucket : List Entry} {entry : Entry} (member : entry ∈ bucket) :
    ∃ head ∈ (sortBy (fun entry : Entry => toLex entry) bucket).head?, head.1 ≤ entry.1 := by
  have same := sortBy_perm (fun entry : Entry => toLex entry) bucket
  have sorted := sortBy_sorted (fun entry : Entry => toLex entry) bucket
  have present := same.symm.subset member
  cases shape : sortBy (fun entry : Entry => toLex entry) bucket with
  | nil => simp [shape] at present
  | cons head rest =>
    refine ⟨head, rfl, ?_⟩
    rw [shape] at present sorted
    obtain rfl | later := List.mem_cons.mp present
    · exact Nat.le_refl _
    · have least := (List.pairwise_cons.mp sorted).1 entry later
      rw [Prod.Lex.toLex_le_toLex] at least
      rcases least with less | equal
      · exact Nat.le_of_lt less
      · exact Nat.le_of_eq equal.1

/-- Where the best grade marks the prior items, prior groups come first. -/
theorem graded_order {prior : Nat → Bool} {buckets : List (List Entry)}
    (inhabited : ∀ bucket ∈ buckets, bucket ≠ [])
    (graded : ∀ bucket ∈ buckets, ∀ entry ∈ bucket, prior entry.2 = true ↔ entry.1 = 0)
    {i j : Nat} {group other : List Entry}
    (here : (sortBy groupKey (buckets.map (sortBy fun entry => toLex entry)))[i]? = some group)
    (there : (sortBy groupKey (buckets.map (sortBy fun entry => toLex entry)))[j]? = some other)
    (plain : hasPrior prior group = false) (also : hasPrior prior other = true) : j < i := by
  have origin : ∀ group ∈ sortBy groupKey (buckets.map (sortBy fun entry => toLex entry)),
      ∃ bucket ∈ buckets, (sortBy fun entry => toLex entry) bucket = group := fun group member =>
    List.mem_map.mp ((sortBy_perm _ _).subset member)
  obtain ⟨bucket, inside, rfl⟩ := origin group (List.mem_of_getElem? here)
  obtain ⟨next, within, rfl⟩ := origin other (List.mem_of_getElem? there)
  rw [hasPrior_perm prior (sortBy_perm _ _)] at plain also
  have bestOther : (ofLex (groupKey (sortBy (fun entry => toLex entry) next))).1 = 0 := by
    obtain ⟨entry, member, found⟩ := List.any_eq_true.mp also
    obtain ⟨head, first, least⟩ := sorted_head member
    rw [(graded next within entry member).mp found] at least
    rw [groupKey, Option.mem_def.mp first]
    exact Nat.le_zero.mp least
  have bestGroup : (ofLex (groupKey (sortBy (fun entry => toLex entry) bucket))).1 ≠ 0 := by
    obtain ⟨entry, rest, shape⟩ := List.exists_cons_of_ne_nil (inhabited bucket inside)
    have held : entry ∈ bucket := by
      rw [shape]
      exact List.mem_cons_self
    obtain ⟨head, first, -⟩ := sorted_head held
    have member : head ∈ bucket := (sortBy_perm _ _).subset (List.mem_of_mem_head? first)
    have unmarked : ¬ prior head.2 = true := fun found => by
      have marked : hasPrior prior bucket = true := List.any_eq_true.mpr ⟨head, member, found⟩
      rw [plain] at marked
      exact Bool.false_ne_true marked
    rw [groupKey, Option.mem_def.mp first]
    intro zero
    exact unmarked ((graded bucket inside head member).mpr zero)
  by_contra late
  have differ : i ≠ j := by
    rintro rfl
    rw [Option.some.inj (here.symm.trans there)] at bestGroup
    exact bestGroup bestOther
  obtain ⟨first, value⟩ := List.getElem?_eq_some_iff.mp here
  obtain ⟨second, valueToo⟩ := List.getElem?_eq_some_iff.mp there
  have ordered := List.pairwise_iff_getElem.mp
    (sortBy_sorted groupKey (buckets.map (sortBy fun entry => toLex entry))) i j first second
    (by omega)
  rw [value, valueToo, Prod.Lex.le_iff] at ordered
  rcases ordered with less | equal
  · rw [bestOther] at less
    omega
  · exact bestGroup (equal.1.trans bestOther)

/-- Where the best grade marks the prior items, the first item of a prior group is prior. -/
theorem graded_leads {prior : Nat → Bool} {bucket : List Entry}
    (graded : ∀ entry ∈ bucket, prior entry.2 = true ↔ entry.1 = 0)
    (also : hasPrior prior bucket = true) :
    ∃ entry ∈ (sortBy (fun entry : Entry => toLex entry) bucket).head?, prior entry.2 = true := by
  obtain ⟨entry, member, found⟩ := List.any_eq_true.mp also
  obtain ⟨head, first, least⟩ := sorted_head member
  refine ⟨head, first, ?_⟩
  have inside : head ∈ bucket := (sortBy_perm _ _).subset (List.mem_of_mem_head? first)
  rw [(graded entry member).mp found] at least
  exact (graded head inside).mpr (Nat.le_zero.mp least)

/-! ## What is picked from ordered buckets -/

/-- The buckets in the order in which they are served. -/
def servedGroups (buckets : List (List Entry)) : List (List Entry) :=
  sortBy groupKey (buckets.map (sortBy fun entry => toLex entry))

theorem servedGroups_positions (buckets : List (List Entry)) :
    (positions (servedGroups buckets)).Perm (positions buckets) := by
  have known := orderedGroups_perm buckets
  rw [orderedGroups, ← List.map_flatten] at known
  exact known

theorem mem_servedGroups {buckets : List (List Entry)} {group : List Entry}
    (member : group ∈ servedGroups buckets) :
    ∃ bucket ∈ buckets, sortBy (fun entry => toLex entry) bucket = group :=
  List.mem_map.mp ((sortBy_perm _ _).subset member)

/-- Prior groups are served first exactly if the limit does not fall between a group
without a prior item and a later prior group. -/
theorem picked_serves_iff {prior : Nat → Bool} {buckets : List (List Entry)} {count : Nat}
    (inhabited : ∀ bucket ∈ buckets, bucket ≠ [])
    (inside : (positions buckets).Subperm (List.range count))
    (leads : ∀ bucket ∈ buckets, hasPrior prior bucket = true →
      ∃ entry ∈ (sortBy (fun entry : Entry => toLex entry) bucket).head?, prior entry.2 = true)
    {limit : Int} {picked : List Nat}
    (taken : picked.Perm (roundRobin (orderedGroups buckets) limit)) :
    ServesPriorFirst prior buckets picked limit ↔
      ∀ (i j : Nat) group other, (servedGroups buckets)[i]? = some group →
        (servedGroups buckets)[j]? = some other →
        hasPrior prior group = false → hasPrior prior other = true →
        (i : Int) < limit → (j : Int) < limit := by
  rw [servesPriorFirst_perm (sortBy_perm fun entry : Entry => toLex entry)
    (sortBy_perm groupKey _) (fun _ => taken.mem_iff)]
  apply servesPriorFirst_iff
  · intro group member empty
    obtain ⟨bucket, present, rfl⟩ := mem_servedGroups member
    have same := sortBy_perm (fun entry : Entry => toLex entry) bucket
    rw [empty] at same
    exact inhabited bucket present same.symm.eq_nil
  · exact (servedGroups_positions buckets).nodup_iff.mpr (places_distinct inside).1
  · intro group member also
    obtain ⟨bucket, present, rfl⟩ := mem_servedGroups member
    rw [hasPrior_perm prior (sortBy_perm _ _)] at also
    exact leads bucket present also

/-- Graded buckets are served with the prior groups first. -/
theorem graded_serves {prior : Nat → Bool} {buckets : List (List Entry)} {count : Nat}
    (inhabited : ∀ bucket ∈ buckets, bucket ≠ [])
    (inside : (positions buckets).Subperm (List.range count))
    (graded : ∀ bucket ∈ buckets, ∀ entry ∈ bucket, prior entry.2 = true ↔ entry.1 = 0)
    {limit : Int} {picked : List Nat}
    (taken : picked.Perm (roundRobin (orderedGroups buckets) limit)) :
    ServesPriorFirst prior buckets picked limit := by
  rw [picked_serves_iff inhabited inside
    (fun bucket member => graded_leads (graded bucket member)) taken]
  intro i j group other here there plain also early
  have before := graded_order inhabited graded here there plain also
  omega

end Graded

/-! ## Which items are prior -/

section Prior

variable [PyRuntime] (F : Type) [PyFloat F]

/-- The positions of the points that the metric bucketer judges deviant. -/
def deviantPositions (items : List Signal) (triggerTime : PyStr) : Except PyExc (List Nat) := do
  let (points, _) ← metricPoints (F := F) items triggerTime
  let series ← (collect MetricPoint.series id points).mapM fun (key, points) => do
    return (key, ← gradeSeries points)
  return ((series.map Prod.snd).flatten.filter fun entry => entry.1 = priorGrade).map Prod.snd

/-- The item at a position is an error line, a deviant point or a span with an error. -/
def isPrior (modality : Modality) (items : List Signal) (triggerTime : PyStr) (idx : Nat) : Bool :=
  match modality with
  | .log => items[idx]?.any fun item => isErrorLevel (levelOf item.raw)
  | .metric =>
    match deviantPositions F items triggerTime with
    | .ok deviants => deviants.contains idx
    | .error _ => false
  | .trace =>
    items[idx]?.any fun item =>
      match spanFields (F := F) item.raw with
      | .ok fields => fields.isErr
      | .error _ => false

variable {F}

/-- Each entry of a bucket of logs has the grade of its line. -/
theorem logBuckets_graded [Drain] (items : List Signal) (triggerTime : PyStr) :
    ∀ bucket ∈ logBuckets items, bucket ≠ [] ∧
      ∀ entry ∈ bucket, isPrior F .log items triggerTime entry.2 = true ↔ entry.1 = 0 := by
  intro bucket member
  obtain ⟨⟨key, entries⟩, present, rfl⟩ := List.mem_map.mp member
  obtain ⟨inhabited, same⟩ := (mem_collect _ _ _ _ _).mp present
  constructor
  · exact inhabited
  · intro entry listed
    rw [same] at listed
    obtain ⟨graded, kept, rfl⟩ := List.mem_map.mp listed
    obtain ⟨⟨item, idx⟩, inside, rfl⟩ := List.mem_map.mp (List.mem_filter.mp kept).1
    rw [List.mem_zipIdx_iff_getElem?] at inside
    simp only at inside
    rw [isPrior, levelOrder_zero, inside, Option.any_some]

/-- A position is prior if a series has it with the prior grade. -/
theorem metric_prior_iff {items : List Signal} {triggerTime : PyStr}
    {points : List (MetricPoint F)} {unparsed : List Nat}
    {series : List ((PyStr × PyStr) × List Entry)}
    (read : metricPoints items triggerTime = .ok (points, unparsed))
    (grading : (collect MetricPoint.series id points).mapM
      (fun series => do return (series.1, ← gradeSeries series.2)) = .ok series) (idx : Nat) :
    isPrior F .metric items triggerTime idx = true ↔
      (priorGrade, idx) ∈ (series.map Prod.snd).flatten := by
  have judged : deviantPositions F items triggerTime =
      .ok (((series.map Prod.snd).flatten.filter fun entry => entry.1 = priorGrade).map
        Prod.snd) := by
    apply bind_ok_iff.mpr
    exact ⟨(points, unparsed), read, bind_ok_iff.mpr ⟨series, grading, rfl⟩⟩
  simp only [isPrior, judged, List.contains_iff_mem]
  constructor
  · intro listed
    obtain ⟨⟨grade, place⟩, kept, same⟩ := List.mem_map.mp listed
    obtain ⟨member, marked⟩ := List.mem_filter.mp kept
    obtain rfl : place = idx := same
    obtain rfl : grade = priorGrade := of_decide_eq_true marked
    exact member
  · intro member
    exact List.mem_map.mpr
      ⟨(priorGrade, idx), List.mem_filter.mpr ⟨member, decide_eq_true rfl⟩, rfl⟩

/-- Each entry of a bucket of metrics has the grade of its point, or is without a pair. -/
theorem metricBuckets_graded {items : List Signal} {triggerTime : PyStr}
    {buckets : List ((PyStr × PyStr) × List Entry)}
    (returned : metricBuckets F items triggerTime = .ok buckets) :
    ∀ bucket ∈ buckets, bucket.2 ≠ [] ∧ ∀ entry ∈ bucket.2,
      isPrior F .metric items triggerTime entry.2 = true ↔ entry.1 = 0 := by
  obtain ⟨⟨points, unparsed⟩, read, rest⟩ := bind_ok_iff.mp returned
  obtain ⟨series, grading, same⟩ := bind_ok_iff.mp rest
  obtain rfl := Except.ok.inj same
  obtain ⟨placed, -⟩ := gradedSeries_positions grading
  have inhabited := gradedSeries_inhabited grading
  have prior := metric_prior_iff read grading
  have distinct := (metricPoints_positions read).nodup_iff.mpr List.nodup_range
  obtain ⟨once, -, apart⟩ := List.nodup_append.mp distinct
  have kept : ∀ bucket ∈ series, ∀ entry ∈ bucket.2,
      isPrior F .metric items triggerTime entry.2 = true ↔ entry.1 = 0 := by
    intro bucket present entry listed
    have held : entry ∈ (series.map Prod.snd).flatten :=
      List.mem_flatten.mpr ⟨_, List.mem_map_of_mem present, listed⟩
    rw [prior]
    constructor
    · intro marked
      -- the position is in the series only once
      rw [List.inj_on_of_nodup_map (placed.nodup_iff.mpr once) held marked rfl, priorGrade]
    · intro zero
      rw [priorGrade, ← zero]
      exact held
  have parsed : ∀ entry ∈ unparsed.map (fun idx => ((normalGrade, idx) : Entry)),
      isPrior F .metric items triggerTime entry.2 = true ↔ entry.1 = 0 := by
    intro entry listed
    obtain ⟨idx, missing, rfl⟩ := List.mem_map.mp listed
    rw [prior]
    simp only [normalGrade, Nat.one_ne_zero, iff_false]
    intro marked
    have point : idx ∈ points.map MetricPoint.index :=
      placed.subset (List.mem_map.mpr ⟨(priorGrade, idx), marked, rfl⟩)
    exact apart idx point idx missing rfl
  by_cases none : unparsed = []
  · rw [if_pos none]
    intro bucket present
    exact ⟨inhabited bucket present, kept bucket present⟩
  · rw [if_neg none]
    intro bucket present
    obtain earlier | ⟨-, rfl⟩ := mem_upsert present
    · exact ⟨inhabited bucket earlier, kept bucket earlier⟩
    · constructor
      · intro empty
        exact none (List.map_eq_nil_iff.mp empty)
      · exact parsed

/-! ## Groups of metrics -/

/-- The graded points of every series, and the lines without a pair as one group more. -/
def metricGroups (F : Type) [PyFloat F] (items : List Signal) (triggerTime : PyStr) :
    Except PyExc (List (List Entry)) := do
  let (points, unparsed) ← metricPoints (F := F) items triggerTime
  let series ← (collect MetricPoint.series id points).mapM fun (key, points) => do
    return (key, ← gradeSeries points)
  return series.map Prod.snd ++
    if unparsed = [] then [] else [unparsed.map fun idx => (normalGrade, idx)]

/-- The groups of a modality, whatever keys they have: clusters of logs, series of metrics
besides the lines without a pair, operations of services. -/
def groupsOf (F : Type) [PyFloat F] [Drain] (modality : Modality) (items : List Signal)
    (triggerTime : PyStr) : Except PyExc (List (List Entry)) :=
  match modality with
  | .log => .ok (logBuckets items)
  | .metric => metricGroups F items triggerTime
  | .trace => traceBuckets F items

/-- A raw line without a pair, and a deviant point of the series that has the key reserved
for such lines. -/
def LosesDeviant (F : Type) [PyFloat F] (items : List Signal) (triggerTime : PyStr) : Prop :=
  (∃ item ∈ items, metricPairs item.raw = .ok ([] : List (PyStr × F))) ∧
    ∃ idx item, items[idx]? = some item ∧ item.service = [] ∧
      (∃ value rest, metricPairs item.raw = .ok ((py "(미파싱)", (value : F)) :: rest)) ∧
      isPrior F .metric items triggerTime idx = true

/-- The positions of a graded series are those of its items. -/
theorem series_positions {items : List Signal} {triggerTime : PyStr}
    {points : List (MetricPoint F)} {unparsed : List Nat}
    {series : List ((PyStr × PyStr) × List Entry)}
    (read : metricPoints items triggerTime = .ok (points, unparsed))
    (grading : (collect MetricPoint.series id points).mapM
      (fun series => do return (series.1, ← gradeSeries series.2)) = .ok series)
    {service label : PyStr} {entries : List Entry} (listed : ((service, label), entries) ∈ series)
    (idx : Nat) :
    idx ∈ entries.map Prod.snd ↔ ∃ item, items[idx]? = some item ∧ item.service = service ∧
      ∃ value rest, metricPairs item.raw = .ok ((label, (value : F)) :: rest) := by
  obtain ⟨⟨key, members⟩, present, made⟩ := mem_of_mapM grading listed
  obtain ⟨graded, kept, same⟩ := bind_ok_iff.mp made
  obtain ⟨rfl, rfl⟩ := Prod.mk.inj (Except.ok.inj same)
  obtain ⟨-, collected⟩ := (mem_collect _ _ _ _ _).mp present
  rw [gradeSeries_positions kept, collected, ← metricPoints_at read]
  simp only [List.map_id, List.mem_map, List.mem_filter, decide_eq_true_eq]
  constructor
  · rintro ⟨point, ⟨inside, own⟩, placed⟩
    exact ⟨point, inside, placed, own⟩
  · rintro ⟨point, inside, placed, own⟩
    exact ⟨point, ⟨inside, own⟩, placed⟩

omit [PyRuntime] [PyFloat F] in
/-- No position of a group is one of another group. -/
theorem positions_apart {groups others : List (List Entry)} {lost : List Entry}
    (moved : groups.Perm (lost :: others)) (distinct : (positions groups).Nodup) :
    ∀ entry ∈ lost, entry.2 ∉ positions others := by
  have together := (moved.flatten.map Prod.snd).nodup_iff.mp distinct
  rw [List.flatten_cons, List.map_append] at together
  intro entry held again
  exact (List.nodup_append.mp together).2.2 _ (List.mem_map_of_mem held) _ again rfl

/-- The groups are the buckets, and the series that the lines without a pair replace. -/
theorem metricGroups_lost {items : List Signal} {triggerTime : PyStr}
    {keyed : List ((PyStr × PyStr) × List Entry)}
    (returned : metricBuckets F items triggerTime = .ok keyed) :
    ∃ groups, metricGroups F items triggerTime = .ok groups ∧
      (groups.Perm (keyed.map Prod.snd) ∧ ¬ LosesDeviant F items triggerTime ∨
        ∃ lost, groups.Perm (lost :: keyed.map Prod.snd) ∧
          (∀ entry ∈ lost, entry.2 ∉ positions (keyed.map Prod.snd)) ∧
          (hasPrior (isPrior F .metric items triggerTime) lost = true ↔
            LosesDeviant F items triggerTime)) := by
  obtain ⟨⟨points, unparsed⟩, read, rest⟩ := bind_ok_iff.mp returned
  obtain ⟨series, grading, same⟩ := bind_ok_iff.mp rest
  obtain rfl := Except.ok.inj same
  obtain ⟨placed, keys⟩ := gradedSeries_positions grading
  have missing := metricPoints_unparsed read
  have grouped : metricGroups F items triggerTime = .ok (series.map Prod.snd ++
      if unparsed = [] then [] else [unparsed.map fun idx => (normalGrade, idx)]) :=
    bind_ok_iff.mpr ⟨(points, unparsed), read, bind_ok_iff.mpr ⟨series, grading, rfl⟩⟩
  refine ⟨_, grouped, ?_⟩
  by_cases none : unparsed = []
  · refine Or.inl ⟨by simp [none], ?_⟩
    rintro ⟨some, -⟩
    exact missing.mpr some none
  · rw [if_neg none, if_neg none]
    by_cases used : unparsedKey ∈ series.map Prod.fst
    · refine Or.inr ?_
      obtain ⟨lost, listed, moved⟩ :=
        upsert_replaces (unparsed.map fun idx => ((normalGrade, idx) : Entry)) used
      refine ⟨lost, moved, positions_apart moved ?_, ?_⟩
      · have appended : positions (series.map Prod.snd ++
            [unparsed.map fun idx => ((normalGrade, idx) : Entry)]) =
            positions (series.map Prod.snd) ++ unparsed := by
          simp [positions, Function.comp_def]
        rw [appended]
        have distinct := (metricPoints_positions read).nodup_iff.mpr List.nodup_range
        exact (placed.append_right unparsed).nodup_iff.mpr distinct
      · have items_of := series_positions read grading listed
        rw [hasPrior, List.any_eq_true, LosesDeviant, and_iff_right (missing.mp none)]
        constructor
        · rintro ⟨entry, held, found⟩
          obtain ⟨item, here, owned, parsed⟩ := (items_of entry.2).mp (List.mem_map_of_mem held)
          exact ⟨entry.2, item, here, owned, parsed, found⟩
        · rintro ⟨idx, item, here, owned, parsed, found⟩
          have listed := (items_of idx).mpr ⟨item, here, owned, parsed⟩
          obtain ⟨entry, held, rfl⟩ := List.mem_map.mp listed
          exact ⟨entry, held, found⟩
    · refine Or.inl ⟨?_, ?_⟩
      · rw [upsert_of_not_mem _ used, List.map_append]
        exact List.Perm.refl _
      · rintro ⟨-, idx, item, here, owned, parsed, -⟩
        apply used
        rw [keys, collect, mem_keys]
        exact (metricPoints_series read [] (py "(미파싱)")).mpr
          ⟨item, List.mem_of_getElem? here, owned, parsed⟩

/-- Groups of metrics are served with the prior groups first exactly if no prior series is
replaced, or there are more prior groups than room. -/
theorem metric_serves_iff {items : List Signal} {triggerTime : PyStr}
    {keyed : List ((PyStr × PyStr) × List Entry)}
    (returned : metricBuckets F items triggerTime = .ok keyed) {limit : Int} {picked : List Nat}
    (taken : picked.Perm (roundRobin (orderedGroups (keyed.map Prod.snd)) limit)) :
    ∃ groups, metricGroups F items triggerTime = .ok groups ∧
      (ServesPriorFirst (isPrior F .metric items triggerTime) groups picked limit ↔
        (LosesDeviant F items triggerTime →
          limit < groups.countP (hasPrior (isPrior F .metric items triggerTime)))) := by
  have graded := metricBuckets_graded returned
  have inside := metricBuckets_subperm returned
  have served := graded_serves
    (fun bucket member => by
      obtain ⟨series, present, rfl⟩ := List.mem_map.mp member
      exact (graded series present).1) inside
    (fun bucket member => by
      obtain ⟨series, present, rfl⟩ := List.mem_map.mp member
      exact (graded series present).2) taken
  have reordered {groups others : List (List Entry)} (same : groups.Perm others) :
      ServesPriorFirst (isPrior F .metric items triggerTime) groups picked limit ↔
        ServesPriorFirst (isPrior F .metric items triggerTime) others picked limit := by
    have kept (bucket : List Entry) : (id bucket).Perm bucket := .refl bucket
    refine servesPriorFirst_perm kept ?_ fun _ => Iff.rfl
    rw [List.map_id]
    exact same.symm
  obtain ⟨groups, grouped, ⟨same, kept⟩ | ⟨lost, same, apart, loses⟩⟩ := metricGroups_lost returned
  · refine ⟨groups, grouped, iff_of_true ((reordered same).mpr served) ?_⟩
    intro loses
    exact absurd loses kept
  · refine ⟨groups, grouped, ?_⟩
    have missing : ¬ Contributes picked lost := by
      rintro ⟨entry, held, listed⟩
      apply apart entry held
      have ordered := (roundRobin_sublist _ _).subset (taken.subset listed)
      exact (orderedGroups_perm _).subset ordered
    have few : picked.length ≤ limit.toNat := by
      rw [taken.length_eq, roundRobin_length]
      exact Nat.min_le_left _ _
    rw [reordered same, same.countP_eq, ← loses]
    exact servesPriorFirst_lost served (places_distinct inside).1 few missing

/-! ## Groups of spans -/

/-- A group of spans with an error. -/
def showsErrors (group : List (GradedSpan F)) : Bool :=
  group.any fun span => span.1 = priorGrade

/-- What orders the groups of spans: their sizes, then the positions of their first spans. -/
def spanGroupKey (group : List (GradedSpan F)) : Int ×ₗ Nat :=
  toLex (-(group.length : Int), (group.head?.map fun span => span.2.2).getD 0)

/-- The number of groups that are served before a group. -/
def ahead (groups : List (List (GradedSpan F))) (group : List (GradedSpan F)) : Nat :=
  groups.countP fun other => spanGroupKey other < spanGroupKey group

/-- No group without an error is among the first ones, up to the limit, while a group with
an error is not. -/
def ErrorGroupsFit (groups : List (List (GradedSpan F))) (limit : Int) : Prop :=
  ∀ group ∈ groups, ∀ other ∈ groups, showsErrors group = false → showsErrors other = true →
    (ahead groups group : Int) < limit → (ahead groups other : Int) < limit

omit [PyRuntime] [PyFloat F] in
@[simp] theorem groupKey_rankSpans (group : List (GradedSpan F)) :
    groupKey (rankSpans group) = toLex (0, spanGroupKey group) := by
  cases group with
  | nil => rfl
  | cons span rest => simp [groupKey, spanGroupKey, rankSpans, List.zipIdx_cons]

omit [PyFloat F] in
/-- Ranks are sorted as they are. -/
theorem sortBy_rankSpans (group : List (GradedSpan F)) :
    sortBy (fun entry : Entry => toLex entry) (rankSpans group) = rankSpans group := by
  have ranked : (rankSpans group).Pairwise fun left right => toLex left ≤ toLex right := by
    rw [List.pairwise_iff_getElem]
    intro i j first second earlier
    apply le_of_lt
    rw [Prod.Lex.toLex_lt_toLex]
    left
    simpa [rankSpans] using earlier
  apply List.Perm.eq_of_pairwise _ (sortBy_sorted _ _) ranked (sortBy_perm _ _)
  intro left right _ _ below above
  exact toLex.injective (le_antisymm below above)

/-- In a group, spans with an error come first. -/
theorem spanGroups_leads {items : List Signal} {groups : List (List (GradedSpan F))}
    (returned : spanGroups F items = .ok groups) {group : List (GradedSpan F)}
    (member : group ∈ groups) :
    group ≠ [] ∧ group.Pairwise (fun left right => left.1 ≤ right.1) ∧
      ∀ span ∈ group, ∀ triggerTime,
        isPrior F .trace items triggerTime span.2.2 = true ↔ span.1 = priorGrade := by
  obtain ⟨graded, attempted, same⟩ := bind_ok_iff.mp returned
  obtain rfl := Except.ok.inj same
  obtain ⟨⟨key, spans⟩, present, rfl⟩ := List.mem_map.mp member
  obtain ⟨inhabited, collected⟩ := (mem_collect _ _ _ _ _).mp present
  have moved := PyRuntime.sort_perm spanLt spans
  refine ⟨?_, ?_, ?_⟩
  · intro empty
    rw [empty] at moved
    exact inhabited moved.symm.eq_nil
  · apply PyRuntime.sort_ranked Prod.fst
    intro left _ right _ less
    constructor
    · simp [spanLt, less]
    · have different : right.1 ≠ left.1 := Nat.ne_of_gt less
      simp [spanLt, different, Nat.le_of_lt less]
  · intro span listed triggerTime
    have origin := moved.subset listed
    rw [collected] at origin
    obtain ⟨entry, kept, rfl⟩ := List.mem_map.mp origin
    obtain ⟨⟨item, idx⟩, inside, made⟩ := mem_of_mapM attempted (List.mem_filter.mp kept).1
    obtain ⟨fields, read, same⟩ := bind_ok_iff.mp made
    obtain rfl := Except.ok.inj same
    rw [List.mem_zipIdx_iff_getElem?] at inside
    simp only at inside
    rw [isPrior, inside]
    cases judged : fields.isErr <;> simp [read, judged, priorGrade, normalGrade]

theorem hasPrior_rankSpans {items : List Signal} {groups : List (List (GradedSpan F))}
    (returned : spanGroups F items = .ok groups) {group : List (GradedSpan F)}
    (member : group ∈ groups) (triggerTime : PyStr) :
    hasPrior (isPrior F .trace items triggerTime) (rankSpans group) = showsErrors group := by
  obtain ⟨-, -, marked⟩ := spanGroups_leads returned member
  have places : hasPrior (isPrior F .trace items triggerTime) (rankSpans group) =
      ((rankSpans group).map Prod.snd).any (isPrior F .trace items triggerTime) := by
    rw [List.any_map]
    rfl
  rw [places, rankSpans_positions, List.any_map, showsErrors, Bool.eq_iff_iff, List.any_eq_true,
    List.any_eq_true]
  constructor
  · rintro ⟨span, listed, found⟩
    exact ⟨span, listed, decide_eq_true ((marked span listed triggerTime).mp found)⟩
  · rintro ⟨span, listed, found⟩
    exact ⟨span, listed, (marked span listed triggerTime).mpr (of_decide_eq_true found)⟩

/-- The first span of a group with an error has an error. -/
theorem rankSpans_leads {items : List Signal} {groups : List (List (GradedSpan F))}
    (returned : spanGroups F items = .ok groups) {group : List (GradedSpan F)}
    (member : group ∈ groups) (triggerTime : PyStr) (also : showsErrors group = true) :
    ∃ entry ∈ (rankSpans group).head?, isPrior F .trace items triggerTime entry.2 = true := by
  obtain ⟨-, sorted, marked⟩ := spanGroups_leads returned member
  obtain ⟨erroneous, listed, found⟩ := List.any_eq_true.mp also
  cases group with
  | nil => simp at listed
  | cons first rest =>
    refine ⟨(0, first.2.2), rfl, ?_⟩
    apply (marked first List.mem_cons_self triggerTime).mpr
    obtain rfl | later := List.mem_cons.mp listed
    · exact of_decide_eq_true found
    · have least := (List.pairwise_cons.mp sorted).1 erroneous later
      rw [of_decide_eq_true found] at least
      exact Nat.le_zero.mp least

omit [PyFloat F] in
/-- Ranked groups are only ordered. -/
theorem servedGroups_rankSpans (groups : List (List (GradedSpan F))) :
    servedGroups (groups.map rankSpans) = sortBy groupKey (groups.map rankSpans) := by
  rw [servedGroups, List.map_map]
  congr 1
  apply List.map_congr_left
  intro group _
  exact sortBy_rankSpans group

omit [PyFloat F] in
theorem mem_servedGroups_rankSpans {groups : List (List (GradedSpan F))} {served : List Entry} :
    served ∈ servedGroups (groups.map rankSpans) ↔ ∃ group ∈ groups, rankSpans group = served := by
  rw [servedGroups_rankSpans, (sortBy_perm _ _).mem_iff, List.mem_map]

theorem rankSpans_ne_nil {items : List Signal} {groups : List (List (GradedSpan F))}
    (returned : spanGroups F items = .ok groups) {group : List (GradedSpan F)}
    (member : group ∈ groups) : rankSpans group ≠ [] := by
  intro empty
  have kept := rankSpans_positions group
  rw [empty] at kept
  exact (spanGroups_leads returned member).1 (List.map_eq_nil_iff.mp kept.symm)

/-- No position is in two groups of spans. -/
theorem rankSpans_subperm {items : List Signal} {groups : List (List (GradedSpan F))}
    (returned : spanGroups F items = .ok groups) :
    (positions (groups.map rankSpans)).Subperm (List.range items.length) := by
  have buckets : traceBuckets F items = .ok (groups.map rankSpans) := by
    rw [traceBuckets, returned]
    rfl
  exact (traceBuckets_partitions buckets).subperm

/-- The place of a group of spans is the number of the groups ahead of it. -/
theorem servedGroups_place {items : List Signal} {groups : List (List (GradedSpan F))}
    (returned : spanGroups F items = .ok groups) {place : Nat} {group : List (GradedSpan F)}
    (there : (servedGroups (groups.map rankSpans))[place]? = some (rankSpans group)) :
    ahead groups group = place := by
  have distinct := (places_distinct (rankSpans_subperm returned)).1
  have kept := (servedGroups_positions (groups.map rankSpans)).nodup_iff.mpr distinct
  rw [positions, List.map_flatten, List.nodup_flatten] at kept
  have apart := List.pairwise_map.mp kept.2
  have strict : (servedGroups (groups.map rankSpans)).Pairwise fun left right =>
      groupKey left < groupKey right := by
    apply ((sortBy_sorted groupKey _).and apart).imp_of_mem
    rintro left right member present ⟨least, disjoint⟩
    obtain ⟨group, inside, rfl⟩ := mem_servedGroups_rankSpans.mp member
    obtain ⟨other, within, rfl⟩ := mem_servedGroups_rankSpans.mp present
    apply lt_of_le_of_ne least
    exact groupKey_ne (rankSpans_ne_nil returned inside) (rankSpans_ne_nil returned within) disjoint
  rw [← place_eq_countP strict there, servedGroups_rankSpans, (sortBy_perm _ _).countP_eq,
    List.countP_map, ahead]
  apply List.countP_congr
  intro other _
  simp [Prod.Lex.toLex_lt_toLex]

/-- Groups of spans are served with the prior groups first exactly if the limit does not
fall between a larger group without an error and a smaller one with an error. -/
theorem trace_serves_iff {items : List Signal} (triggerTime : PyStr)
    {groups : List (List (GradedSpan F))} (returned : spanGroups F items = .ok groups)
    {limit : Int} {picked : List Nat}
    (taken : picked.Perm (roundRobin (orderedGroups (groups.map rankSpans)) limit)) :
    ServesPriorFirst (isPrior F .trace items triggerTime) (groups.map rankSpans) picked limit ↔
      ErrorGroupsFit groups limit := by
  have inhabited : ∀ bucket ∈ groups.map rankSpans, bucket ≠ [] := by
    intro bucket member
    obtain ⟨group, present, rfl⟩ := List.mem_map.mp member
    exact rankSpans_ne_nil returned present
  have leads : ∀ bucket ∈ groups.map rankSpans,
      hasPrior (isPrior F .trace items triggerTime) bucket = true →
      ∃ entry ∈ (sortBy (fun entry : Entry => toLex entry) bucket).head?,
        isPrior F .trace items triggerTime entry.2 = true := by
    intro bucket member also
    obtain ⟨group, present, rfl⟩ := List.mem_map.mp member
    rw [hasPrior_rankSpans returned present] at also
    rw [sortBy_rankSpans]
    exact rankSpans_leads returned present triggerTime also
  rw [picked_serves_iff inhabited (rankSpans_subperm returned) leads taken]
  constructor
  · intro order group member other present plain also early
    obtain ⟨i, here⟩ :=
      List.mem_iff_getElem?.mp (mem_servedGroups_rankSpans.mpr ⟨group, member, rfl⟩)
    obtain ⟨j, there⟩ :=
      List.mem_iff_getElem?.mp (mem_servedGroups_rankSpans.mpr ⟨other, present, rfl⟩)
    rw [servedGroups_place returned here] at early
    rw [servedGroups_place returned there]
    apply order i j _ _ here there _ _ early
    · rw [hasPrior_rankSpans returned member, plain]
    · rw [hasPrior_rankSpans returned present, also]
  · intro fit i j served later here there plain also early
    obtain ⟨group, member, rfl⟩ := mem_servedGroups_rankSpans.mp (List.mem_of_getElem? here)
    obtain ⟨other, present, rfl⟩ := mem_servedGroups_rankSpans.mp (List.mem_of_getElem? there)
    rw [hasPrior_rankSpans returned member] at plain
    rw [hasPrior_rankSpans returned present] at also
    rw [← servedGroups_place returned here] at early
    rw [← servedGroups_place returned there]
    exact fit group member other present plain also early

/-- Prior groups are served first: always among logs; among metrics exactly if no prior series
is replaced, or there are more prior groups than room; and among spans exactly if the limit does
not fall between a group without an error, that is larger, and a group with one. -/
theorem selection_serves_prior [Drain] (modality : Modality) (items : List Dict)
    (triggerTime : PyStr) (limit : Int) (longer : limit < items.length) (selection : Selection)
    (returned : selectSignals F modality items triggerTime limit = .ok selection) :
    (∃ groups picked, groupsOf F modality (items.map signalOf) triggerTime = .ok groups ∧
        pickedPositions F modality (items.map signalOf) triggerTime limit = .ok picked ∧
        selection.items = picked.filterMap (fun place => items[place]?) ∧
        ServesPriorFirst (isPrior F modality (items.map signalOf) triggerTime) groups picked
          limit) ↔
      (modality = .metric → LosesDeviant F (items.map signalOf) triggerTime →
          ∀ groups, metricGroups F (items.map signalOf) triggerTime = .ok groups →
            limit < groups.countP (hasPrior (isPrior F .metric (items.map signalOf) triggerTime))) ∧
        (modality = .trace → ∀ groups, spanGroups F (items.map signalOf) = .ok groups →
          ErrorGroupsFit groups limit) := by
  rw [selectSignals, if_neg (by omega)] at returned
  obtain ⟨picked, picking, same⟩ := bind_ok_iff.mp returned
  obtain rfl := Except.ok.inj same
  obtain ⟨buckets, bucketed, sorted⟩ := bind_ok_iff.mp picking
  have taken : picked.Perm (roundRobin (orderedGroups buckets) limit) := by
    rw [← Except.ok.inj sorted]
    exact sortBy_perm _ _
  have inside := bucketsOf_subperm bucketed
  cases modality with
  | log =>
    obtain rfl := Except.ok.inj bucketed
    have graded := logBuckets_graded (F := F) (items.map signalOf) triggerTime
    have served := graded_serves (fun bucket member => (graded bucket member).1) inside
      (fun bucket member => (graded bucket member).2) taken
    simp only [reduceCtorEq, false_implies, and_self, iff_true]
    exact ⟨_, picked, rfl, picking, rfl, served⟩
  | metric =>
    obtain ⟨keyed, grading, rfl⟩ := map_ok_iff.mp bucketed
    have decided := metric_serves_iff grading taken
    obtain ⟨groups, grouped, decided⟩ := decided
    simp only [reduceCtorEq, false_implies, and_true, true_implies]
    constructor
    · rintro ⟨others, chosen, again, choosing, -, served⟩ loses groups' grouped'
      obtain rfl := Except.ok.inj (grouped.symm.trans grouped')
      obtain rfl := Except.ok.inj (grouped.symm.trans again)
      obtain rfl := Except.ok.inj (picking.symm.trans choosing)
      exact decided.mp served loses
    · intro crowded
      exact ⟨groups, picked, grouped, picking, rfl,
        decided.mpr fun loses => crowded loses groups grouped⟩
  | trace =>
    obtain ⟨groups, grouped, rfl⟩ := map_ok_iff.mp bucketed
    have decided := trace_serves_iff triggerTime grouped taken
    simp only [reduceCtorEq, false_implies, true_and, true_implies]
    constructor
    · rintro ⟨others, chosen, again, choosing, -, served⟩ groups' grouped'
      obtain rfl := Except.ok.inj (grouped.symm.trans grouped')
      obtain rfl := Except.ok.inj (bucketed.symm.trans again)
      obtain rfl := Except.ok.inj (picking.symm.trans choosing)
      exact decided.mp served
    · intro fit
      exact ⟨_, picked, bucketed, picking, rfl, decided.mpr (fit groups grouped)⟩

end Prior

/-! ## One error among three spans, and one deviant point among four -/

/-- Two spans of one service, and a span with an error of another. -/
def mixedSpans : List Dict :=
  [sampleItem "a" "1ms", sampleItem "a" "2ms", sampleItem "b" "3ms ERROR"]

open ReferenceInterpreter in
/-- With room for one span, the larger group without an error is served. -/
theorem error_span_left_out :
    @selectSignals asciiRuntime FloatLit exactDecimals oneCluster .trace mixedSpans [] 1 =
        .ok ⟨[sampleItem "a" "2ms"], 3⟩ ∧
      ¬ ∃ groups picked,
        @groupsOf asciiRuntime FloatLit exactDecimals oneCluster .trace (mixedSpans.map signalOf)
            [] = .ok groups ∧
          @pickedPositions asciiRuntime FloatLit exactDecimals oneCluster .trace
            (mixedSpans.map signalOf) [] 1 = .ok picked ∧
          ServesPriorFirst (@isPrior asciiRuntime FloatLit exactDecimals .trace
            (mixedSpans.map signalOf) []) groups picked 1 := by
  constructor
  · decide +kernel
  · rintro ⟨groups, picked, grouped, picking, first, -⟩
    have known : @groupsOf asciiRuntime FloatLit exactDecimals oneCluster .trace
        (mixedSpans.map signalOf) [] = .ok [[(0, 1), (1, 0)], [(0, 2)]] := by decide +kernel
    have taken : @pickedPositions asciiRuntime FloatLit exactDecimals oneCluster .trace
        (mixedSpans.map signalOf) [] 1 = .ok [1] := by decide +kernel
    obtain rfl := Except.ok.inj (known.symm.trans grouped)
    obtain rfl := Except.ok.inj (taken.symm.trans picking)
    obtain ⟨entry, member, found⟩ := first [(0, 1), (1, 0)] (by simp) (by decide +kernel)
      ⟨(0, 1), by simp, by simp⟩ [(0, 2)] (by simp) (by decide +kernel)
    simp only [List.mem_singleton] at member found
    rw [member] at found
    simp at found

/-- Two steady points of a series with the reserved key, one after the trigger that deviates,
and a line without a pair. -/
def replacedItems : List Dict :=
  [sampleItem "" "\x7b\"(미파싱)\": 1\x7d", sampleItem "" "\x7b\"(미파싱)\": 1\x7d",
    Signal.item ⟨py "2026-01-15T11:00:00Z", [], py "\x7b\"(미파싱)\": 100\x7d"⟩,
    sampleItem "" "?"]

open ReferenceInterpreter in
/-- With room for two of the four, the deviant point is left out for the line without a pair. -/
theorem selection_serves_prior_replaced :
    ¬ ∃ groups picked,
      @groupsOf asciiRuntime FloatLit exactDecimals oneCluster .metric
          (replacedItems.map signalOf) (py "2026-01-15T10:30:00Z") = .ok groups ∧
        @pickedPositions asciiRuntime FloatLit exactDecimals oneCluster .metric
          (replacedItems.map signalOf) (py "2026-01-15T10:30:00Z") 2 = .ok picked ∧
        [sampleItem "" "?"] = picked.filterMap (fun place => replacedItems[place]?) ∧
        ServesPriorFirst (@isPrior asciiRuntime FloatLit exactDecimals .metric
          (replacedItems.map signalOf) (py "2026-01-15T10:30:00Z")) groups picked 2 := by
  rw [@selection_serves_prior asciiRuntime FloatLit exactDecimals oneCluster .metric replacedItems
    (py "2026-01-15T10:30:00Z") 2 (by decide) ⟨[sampleItem "" "?"], 4⟩ (by decide +kernel)]
  rintro ⟨crowded, -⟩
  have loses : @LosesDeviant asciiRuntime FloatLit exactDecimals (replacedItems.map signalOf)
      (py "2026-01-15T10:30:00Z") := by
    have unpaired : @metricPairs FloatLit exactDecimals asciiRuntime (py "?") = .ok [] := by
      decide +kernel
    have paired : @metricPairs FloatLit exactDecimals asciiRuntime
        (py "\x7b\"(미파싱)\": 100\x7d") = .ok [(py "(미파싱)", .decimal false 100 0)] := by
      decide +kernel
    exact ⟨⟨⟨py "2026-01-15T10:00:00Z", [], py "?"⟩, by decide, unpaired⟩, 2,
      ⟨py "2026-01-15T11:00:00Z", [], py "\x7b\"(미파싱)\": 100\x7d"⟩, by decide, rfl,
      ⟨.decimal false 100 0, [], paired⟩, by decide +kernel⟩
  have known : @metricGroups asciiRuntime FloatLit exactDecimals (replacedItems.map signalOf)
      (py "2026-01-15T10:30:00Z") = .ok [[(1, 0), (1, 1), (0, 2)], [(1, 3)]] := by decide +kernel
  exact absurd (crowded rfl loses _ known) (by decide +kernel)

end RcaBackend
