import Mathlib.Data.List.Basic

/-!
# Regular expressions with ordered alternatives

A backtracking matcher takes the first way in which a pattern matches: earlier
alternatives before later ones, and a greedy repetition of a character class at
its greatest length first. `ways` lists all ways from a position in that order,
so the first of them is the match. `Denotes` and `Captures` say, without
positions, which texts a pattern and its groups can match.

Repetition is of one character class at a time. Look-around is limited to word
boundaries and the end of the text.
-/

/-- A pattern over the characters `C`. -/
inductive Regex (C : Type) where
  | empty
  /-- one character of a class -/
  | one (member : C → Bool)
  /-- characters of a class, as many as possible -/
  | many (member : C → Bool)
  | seq (first second : Regex C)
  /-- the first alternative, or else the second -/
  | either (first second : Regex C)
  | group (index : Nat) (inner : Regex C)
  /-- between a word character and another or the end of the text -/
  | boundary (word : C → Bool)
  /-- the end of the text -/
  | finish

namespace Regex

variable {C : Type}

/-- One character of the class or more. -/
def atLeastOne (member : C → Bool) : Regex C := .seq (.one member) (.many member)

/-- The pattern if possible. -/
def optional (inner : Regex C) : Regex C := .either inner .empty

/-- The patterns one after the other. -/
def inOrder : List (Regex C) → Regex C
  | [] => .empty
  | [last] => last
  | first :: rest => .seq first (inOrder rest)

/-- The first of the patterns that matches. -/
def firstOf : Regex C → List (Regex C) → Regex C
  | first, [] => first
  | first, next :: rest => .either first (firstOf next rest)

/-- A position in a text, with the groups captured on the way to it, last first. -/
structure Cursor (C : Type) where
  before : Option C
  rest : List C
  groups : List (Nat × List C)

/-- What a group has captured. -/
def Cursor.group (cursor : Cursor C) (index : Nat) : Option (List C) := cursor.groups.lookup index

/-- The ends of a repetition, the farthest first. -/
def greedy (member : C → Bool) : Option C → List C → List (Option C × List C)
  | before, [] => [(before, [])]
  | before, c :: rest =>
    if member c then greedy member (some c) rest ++ [(before, c :: rest)]
    else [(before, c :: rest)]

/-- The ways to match from a position, in the order in which they are tried. -/
def ways : Regex C → Cursor C → List (Cursor C)
  | .empty, cursor => [cursor]
  | .one member, cursor =>
    match cursor.rest with
    | [] => []
    | c :: rest => if member c then [⟨some c, rest, cursor.groups⟩] else []
  | .many member, cursor =>
    (greedy member cursor.before cursor.rest).map fun stop => ⟨stop.1, stop.2, cursor.groups⟩
  | .seq first second, cursor => (first.ways cursor).flatMap second.ways
  | .either first second, cursor => first.ways cursor ++ second.ways cursor
  | .group index inner, cursor =>
    (inner.ways cursor).map fun stop =>
      let captured := cursor.rest.take (cursor.rest.length - stop.rest.length)
      { stop with groups := (index, captured) :: stop.groups }
  | .boundary word, cursor =>
    if cursor.before.any word ≠ cursor.rest.head?.any word then [cursor] else []
  | .finish, cursor => if cursor.rest.isEmpty then [cursor] else []

/-- The match that starts at a position. -/
def matchAt (r : Regex C) (before : Option C) (text : List C) : Option (Cursor C) :=
  (r.ways ⟨before, text, []⟩).head?

/-- The leftmost match. -/
def search (r : Regex C) : Option C → List C → Option (Cursor C)
  | before, [] => r.matchAt before []
  | before, c :: rest => (r.matchAt before (c :: rest)).or (search r (some c) rest)

/-- The matches from left to right, of a pattern that matches no empty text; there
are not more of them than characters. -/
def findAll (r : Regex C) : Nat → Option C → List C → List (Cursor C)
  | 0, _, _ => []
  | fuel + 1, before, text =>
    match r.search before text with
    | none => []
    | some found => found :: findAll r fuel found.before found.rest

/-! ## What a pattern can match -/

/-- The texts that a pattern can match somewhere. -/
def Denotes : Regex C → List C → Prop
  | .empty, text => text = []
  | .one member, text => ∃ c, member c = true ∧ text = [c]
  | .many member, text => ∀ c ∈ text, member c = true
  | .seq first second, text =>
    ∃ front back, text = front ++ back ∧ first.Denotes front ∧ second.Denotes back
  | .either first second, text => first.Denotes text ∨ second.Denotes text
  | .group _ inner, text => inner.Denotes text
  | .boundary _, text => text = []
  | .finish, text => text = []

/-- The texts that a group of the pattern can capture. -/
def Captures (index : Nat) : Regex C → List C → Prop
  | .seq first second, text | .either first second, text =>
    first.Captures index text ∨ second.Captures index text
  | .group own inner, text => own = index ∧ inner.Denotes text ∨ inner.Captures index text
  | .empty, _ | .one _, _ | .many _, _ | .boundary _, _ | .finish, _ => False

/-- All characters that the pattern can match are in a set. -/
def Within (inside : C → Prop) : Regex C → Prop
  | .one member | .many member => ∀ c, member c = true → inside c
  | .seq first second | .either first second => first.Within inside ∧ second.Within inside
  | .group _ inner => inner.Within inside
  | .empty | .boundary _ | .finish => True

/-- Every match captures the group. -/
def always (index : Nat) : Regex C → Bool
  | .seq first second => first.always index || second.always index
  | .either first second => first.always index && second.always index
  | .group own inner => decide (own = index) || inner.always index
  | .empty | .one _ | .many _ | .boundary _ | .finish => false

theorem denotes_within {inside : C → Prop} (r : Regex C) (within : r.Within inside)
    {text : List C} (denoted : r.Denotes text) : ∀ c ∈ text, inside c := by
  induction r generalizing text with
  | empty | boundary word | finish =>
    obtain rfl : text = [] := denoted
    exact nofun
  | one member =>
    obtain ⟨c, holds, rfl⟩ := denoted
    intro other listed
    obtain rfl := List.mem_singleton.mp listed
    exact within other holds
  | many member => exact fun c listed => within c (denoted c listed)
  | seq first second leads follows =>
    obtain ⟨front, back, rfl, opening, closing⟩ := denoted
    intro c listed
    obtain early | late := List.mem_append.mp listed
    · exact leads within.1 opening c early
    · exact follows within.2 closing c late
  | either first second left right =>
    obtain early | late := denoted
    · exact left within.1 early
    · exact right within.2 late
  | group index inner inductionHypothesis => exact inductionHypothesis within denoted

/-- A pattern that begins with a character matches no empty text. -/
theorem denotes_ne_nil {member : C → Bool} {rest : Regex C} {text : List C}
    (denoted : (Regex.seq (.one member) rest).Denotes text) : text ≠ [] := by
  obtain ⟨front, back, rfl, ⟨c, -, rfl⟩, -⟩ := denoted
  exact List.cons_ne_nil c back

theorem greedy_consumes {member : C → Bool} {before : Option C} {text : List C}
    {stop : Option C × List C} (reached : stop ∈ greedy member before text) :
    ∃ run, text = run ++ stop.2 ∧ (∀ c ∈ run, member c = true) ∧
      stop.1 = run.getLast?.or before := by
  induction text generalizing before with
  | nil =>
    obtain rfl := List.mem_singleton.mp reached
    exact ⟨[], rfl, nofun, rfl⟩
  | cons c rest inductionHypothesis =>
    unfold greedy at reached
    split at reached
    · rename_i holds
      rcases List.mem_append.mp reached with later | here
      · obtain ⟨run, rfl, members, last⟩ := inductionHypothesis later
        refine ⟨c :: run, rfl, List.forall_mem_cons.mpr ⟨holds, members⟩, ?_⟩
        rw [last, List.getLast?_cons, Option.some_or]
        cases run.getLast? <;> rfl
      · obtain rfl := List.mem_singleton.mp here
        exact ⟨[], rfl, nofun, rfl⟩
    · obtain rfl := List.mem_singleton.mp reached
      exact ⟨[], rfl, nofun, rfl⟩

/-- A way takes a text that the pattern denotes off the rest. -/
theorem ways_consumes (r : Regex C) {cursor stop : Cursor C} (reached : stop ∈ r.ways cursor) :
    ∃ text, cursor.rest = text ++ stop.rest ∧ r.Denotes text ∧
      stop.before = text.getLast?.or cursor.before := by
  induction r generalizing cursor stop with
  | empty =>
    obtain rfl := List.mem_singleton.mp reached
    exact ⟨[], rfl, rfl, rfl⟩
  | one member =>
    unfold ways at reached
    split at reached
    · cases reached
    · rename_i c rest shape
      split at reached
      · rename_i holds
        obtain rfl := List.mem_singleton.mp reached
        exact ⟨[c], shape, ⟨c, holds, rfl⟩, rfl⟩
      · cases reached
  | many member =>
    obtain ⟨place, found, rfl⟩ := List.mem_map.mp reached
    obtain ⟨run, split, members, last⟩ := greedy_consumes found
    exact ⟨run, split, members, last⟩
  | seq first second leads follows =>
    obtain ⟨middle, start, rest⟩ := List.mem_flatMap.mp reached
    obtain ⟨front, opening, denoted, between⟩ := leads start
    obtain ⟨back, closing, also, last⟩ := follows rest
    refine ⟨front ++ back, by rw [opening, closing, List.append_assoc],
      ⟨front, back, rfl, denoted, also⟩, ?_⟩
    rw [last, between, List.getLast?_append, Option.or_assoc]
  | either first second left right =>
    rcases List.mem_append.mp reached with early | late
    · obtain ⟨text, split, denoted, last⟩ := left early
      exact ⟨text, split, Or.inl denoted, last⟩
    · obtain ⟨text, split, denoted, last⟩ := right late
      exact ⟨text, split, Or.inr denoted, last⟩
  | group index inner inductionHypothesis =>
    obtain ⟨inside, found, rfl⟩ := List.mem_map.mp reached
    obtain ⟨text, split, denoted, last⟩ := inductionHypothesis found
    exact ⟨text, split, denoted, last⟩
  | boundary word =>
    unfold ways at reached
    split at reached
    · obtain rfl := List.mem_singleton.mp reached
      exact ⟨[], rfl, rfl, rfl⟩
    · cases reached
  | finish =>
    unfold ways at reached
    split at reached
    · obtain rfl := List.mem_singleton.mp reached
      exact ⟨[], rfl, rfl, rfl⟩
    · cases reached

/-- A way keeps the groups of before and adds captures of the pattern's groups. -/
theorem ways_groups (r : Regex C) {cursor stop : Cursor C} (reached : stop ∈ r.ways cursor) :
    ∃ added, stop.groups = added ++ cursor.groups ∧
      (∀ entry ∈ added, r.Captures entry.1 entry.2) ∧
      ∀ index, r.always index = true → ∃ text, (index, text) ∈ added := by
  induction r generalizing cursor stop with
  | empty =>
    obtain rfl := List.mem_singleton.mp reached
    exact ⟨[], rfl, nofun, nofun⟩
  | one member =>
    unfold ways at reached
    split at reached
    · cases reached
    · split at reached
      · obtain rfl := List.mem_singleton.mp reached
        exact ⟨[], rfl, nofun, nofun⟩
      · cases reached
  | many member =>
    obtain ⟨place, found, rfl⟩ := List.mem_map.mp reached
    exact ⟨[], rfl, nofun, nofun⟩
  | seq first second leads follows =>
    obtain ⟨middle, start, rest⟩ := List.mem_flatMap.mp reached
    obtain ⟨early, opening, captures, firstAlways⟩ := leads start
    obtain ⟨late, closing, also, secondAlways⟩ := follows rest
    refine ⟨late ++ early, by rw [closing, opening, List.append_assoc], fun entry member => ?_,
      fun index holds => ?_⟩
    · rcases List.mem_append.mp member with before | after
      · exact Or.inr (also entry before)
      · exact Or.inl (captures entry after)
    · rcases Bool.or_eq_true _ _ |>.mp holds with left | right
      · obtain ⟨text, found⟩ := firstAlways index left
        exact ⟨text, List.mem_append_right _ found⟩
      · obtain ⟨text, found⟩ := secondAlways index right
        exact ⟨text, List.mem_append_left _ found⟩
  | either first second left right =>
    rcases List.mem_append.mp reached with early | late
    · obtain ⟨added, same, captures, certain⟩ := left early
      refine ⟨added, same, fun entry member => Or.inl (captures entry member),
        fun index holds => certain index ?_⟩
      exact (Bool.and_eq_true _ _ |>.mp holds).1
    · obtain ⟨added, same, captures, certain⟩ := right late
      refine ⟨added, same, fun entry member => Or.inr (captures entry member),
        fun index holds => certain index ?_⟩
      exact (Bool.and_eq_true _ _ |>.mp holds).2
  | group own inner inductionHypothesis =>
    obtain ⟨inside, found, rfl⟩ := List.mem_map.mp reached
    obtain ⟨added, same, captures, certain⟩ := inductionHypothesis found
    obtain ⟨text, split, denoted, -⟩ := inner.ways_consumes found
    have captured : cursor.rest.take (cursor.rest.length - inside.rest.length) = text := by
      rw [split, List.length_append, Nat.add_sub_cancel, List.take_left]
    refine ⟨(own, text) :: added, by simp only [captured, same, List.cons_append],
      fun entry member => ?_, fun index holds => ?_⟩
    · rcases List.mem_cons.mp member with rfl | later
      · exact Or.inl ⟨rfl, denoted⟩
      · exact Or.inr (captures entry later)
    · rcases Bool.or_eq_true _ _ |>.mp holds with here | deeper
      · obtain rfl := of_decide_eq_true here
        exact ⟨text, List.mem_cons_self⟩
      · obtain ⟨text, found⟩ := certain index deeper
        exact ⟨text, List.mem_cons_of_mem _ found⟩
  | boundary word =>
    unfold ways at reached
    split at reached
    · obtain rfl := List.mem_singleton.mp reached
      exact ⟨[], rfl, nofun, nofun⟩
    · cases reached
  | finish =>
    unfold ways at reached
    split at reached
    · obtain rfl := List.mem_singleton.mp reached
      exact ⟨[], rfl, nofun, nofun⟩
    · cases reached

/-- A match is a way from where it starts. -/
theorem matchAt_ways {r : Regex C} {before : Option C} {text : List C} {found : Cursor C}
    (matched : r.matchAt before text = some found) : found ∈ r.ways ⟨before, text, []⟩ :=
  List.mem_of_mem_head? matched

theorem search_ways {r : Regex C} {before : Option C} {text : List C} {found : Cursor C}
    (matched : r.search before text = some found) :
    ∃ previous rest, found ∈ r.ways ⟨previous, rest, []⟩ := by
  induction text generalizing before with
  | nil => exact ⟨before, [], matchAt_ways matched⟩
  | cons c rest inductionHypothesis =>
    unfold search at matched
    cases here : r.matchAt before (c :: rest) with
    | some first =>
      rw [here] at matched
      cases matched
      exact ⟨before, c :: rest, matchAt_ways here⟩
    | none =>
      rw [here] at matched
      exact inductionHypothesis matched

/-- The match that is found is the leftmost one. -/
theorem search_some {r : Regex C} {before : Option C} {text : List C} {found : Cursor C}
    (matched : r.search before text = some found) :
    ∃ idx, (∃ previous, r.matchAt previous (text.drop idx) = some found) ∧
      ∀ earlier < idx, ∃ previous, r.matchAt previous (text.drop earlier) = none := by
  induction text generalizing before with
  | nil => exact ⟨0, ⟨before, matched⟩, fun _ early => absurd early (Nat.not_lt_zero _)⟩
  | cons c rest inductionHypothesis =>
    unfold search at matched
    cases here : r.matchAt before (c :: rest) with
    | some first =>
      rw [here] at matched
      cases matched
      exact ⟨0, ⟨before, here⟩, fun _ early => absurd early (Nat.not_lt_zero _)⟩
    | none =>
      rw [here] at matched
      obtain ⟨idx, there, missed⟩ := inductionHypothesis matched
      refine ⟨idx + 1, there, ?_⟩
      intro earlier early
      cases earlier with
      | zero => exact ⟨before, here⟩
      | succ earlier => exact missed earlier (Nat.lt_of_succ_lt_succ early)

/-- Without a match there is none at any place. -/
theorem search_none {r : Regex C} {before : Option C} {text : List C}
    (missed : r.search before text = none) (idx : Nat) :
    ∃ previous, r.matchAt previous (text.drop idx) = none := by
  induction text generalizing before idx with
  | nil =>
    rw [List.drop_nil]
    exact ⟨before, missed⟩
  | cons c rest inductionHypothesis =>
    unfold search at missed
    obtain ⟨here, later⟩ := Option.or_eq_none_iff.mp missed
    cases idx with
    | zero => exact ⟨before, here⟩
    | succ idx => exact inductionHypothesis later idx

theorem findAll_ways {r : Regex C} {fuel : Nat} {before : Option C} {text : List C}
    {found : Cursor C} (member : found ∈ r.findAll fuel before text) :
    ∃ previous rest, found ∈ r.ways ⟨previous, rest, []⟩ := by
  induction fuel generalizing before text with
  | zero => cases member
  | succ fuel inductionHypothesis =>
    unfold findAll at member
    split at member
    · cases member
    · rename_i first matched
      rcases List.mem_cons.mp member with rfl | later
      · exact search_ways matched
      · exact inductionHypothesis later

/-- A pattern that is one group captures all that it takes off the rest. -/
theorem group_whole {index : Nat} {inner : Regex C} {cursor stop : Cursor C}
    (reached : stop ∈ (Regex.group index inner).ways cursor) :
    ∃ text, cursor.rest = text ++ stop.rest ∧ inner.Denotes text ∧ stop.group index = some text := by
  obtain ⟨inside, found, rfl⟩ := List.mem_map.mp reached
  obtain ⟨text, split, denoted, -⟩ := inner.ways_consumes found
  have captured : cursor.rest.take (cursor.rest.length - inside.rest.length) = text := by
    rw [split, List.length_append, Nat.add_sub_cancel, List.take_left]
  refine ⟨text, split, denoted, ?_⟩
  simp only [Cursor.group, captured, List.lookup_cons_self]

/-- A group that every match captures has a text that its pattern denotes. -/
theorem group_captured {r : Regex C} {previous : Option C} {rest : List C} {found : Cursor C}
    {index : Nat} (reached : found ∈ r.ways ⟨previous, rest, []⟩)
    (certain : r.always index = true) :
    ∃ text, found.group index = some text ∧ r.Captures index text := by
  obtain ⟨added, same, captures, captured⟩ := r.ways_groups reached
  obtain ⟨text, present⟩ := captured index certain
  rw [List.append_nil] at same
  have listed : (found.groups.lookup index).isSome := by
    rw [same, List.lookup_isSome_iff]
    exact ⟨_, present, beq_self_eq_true index⟩
  obtain ⟨value, known⟩ := Option.isSome_iff_exists.mp listed
  obtain ⟨early, late, split, -⟩ := List.lookup_eq_some_iff.mp known
  refine ⟨value, known, captures (index, value) ?_⟩
  rw [← same, split]
  exact List.mem_append_right _ List.mem_cons_self

end Regex
