import RcaBackend.TransitionSystem
import Mathlib.Data.List.Nodup

/-!
# A counting semaphore with a queue

A client enters at once where a permit is left and nobody waits; otherwise it waits. One
that leaves hands its permit to the first that waits, who resumes later. A client that is
cancelled while it waits gives up its place when it resumes, and gives the permit back if it
had been handed one by then.

The rule by which permits are passed on is that of `asyncio.Semaphore` in CPython 3.11 and 3.12:
a client that resumes with a permit wakes one other client if a permit is left, and the next
one wakes another. From 3.13 on it wakes as many as permits are left.

In every run the permits left, handed and used are as many as there were at first; permits
are handed out in the order in which they were asked for; and nobody waits for nothing: while
a client waits, some other client is inside or has been handed a permit.
-/

namespace CountingSemaphore

open TransitionSystem

/-- What has become of a waiting client: nothing yet, a permit, a cancellation, or a
cancellation after a permit. -/
inductive Turn where
  | pending | granted | cancelled | withdrawn
deriving DecidableEq, Repr

/-- The waiting client has been handed a permit. -/
def Turn.holds : Turn → Bool
  | .granted | .withdrawn => true
  | .pending | .cancelled => false

/-- The waiting client has been cancelled. -/
def Turn.quits : Turn → Bool
  | .cancelled | .withdrawn => true
  | .pending | .granted => false

/-- The counter and the queue; the clients that are inside; and, in order, the clients that
asked for a permit and those that were handed one. -/
structure Semaphore (C : Type) where
  value : Nat
  waiters : List (C × Turn)
  inside : List C
  asked : List C
  handed : List C

variable {C : Type} [DecidableEq C]

/-- The clients that still wait for a permit, in order. -/
def pending (waiters : List (C × Turn)) : List C :=
  (waiters.filter fun waiter => waiter.2 = .pending).map Prod.fst

/-- The permits that waiting clients have been handed. -/
def grants (waiters : List (C × Turn)) : Nat := waiters.countP fun waiter => waiter.2.holds

/-- The waiting clients in order, each with whether it has been cancelled. -/
def outline (waiters : List (C × Turn)) : List (C × Bool) :=
  waiters.map fun waiter => (waiter.1, waiter.2.quits)

/-- The first client that still waits is handed a permit. -/
def grantFirst : List (C × Turn) → Option (C × List (C × Turn))
  | [] => none
  | (client, .pending) :: rest => some (client, (client, .granted) :: rest)
  | waiter :: rest => (grantFirst rest).map fun granted => (granted.1, waiter :: granted.2)

namespace Semaphore

def init (limit : Nat) : Semaphore C :=
  { value := limit, waiters := [], inside := [], asked := [], handed := [] }

/-- The clients that wait and those that are inside. -/
def clients (s : Semaphore C) : List C := s.waiters.map Prod.fst ++ s.inside

/-- A client has to wait if no permit is left or somebody waits already. -/
def locked (s : Semaphore C) : Bool :=
  decide (s.value = 0) || s.waiters.any fun waiter => decide (waiter.2 ≠ .cancelled)

/-- A permit is handed to the first client that waits for one, if any does. -/
def wakeNext (s : Semaphore C) : Semaphore C :=
  match grantFirst s.waiters with
  | some (client, waiters) =>
    { s with value := s.value - 1, waiters, handed := s.handed ++ [client] }
  | none => s

/-- The turn of a waiting client. -/
def turn (s : Semaphore C) (client : C) : Option Turn := s.waiters.lookup client

/-- The queue without a client. -/
def without (s : Semaphore C) (client : C) : Semaphore C :=
  { s with waiters := s.waiters.filter fun waiter => waiter.1 ≠ client }

/-- The queue with another turn of a client. -/
def withTurn (s : Semaphore C) (client : C) (turn : Turn) : Semaphore C :=
  { s with waiters := s.waiters.map fun waiter =>
      if waiter.1 = client then (client, turn) else waiter }

end Semaphore

/-- A client asks for a permit, goes on after it has waited, is cancelled while it waits, or
leaves. -/
inductive Event (C : Type) where
  | acquire (client : C)
  | resume (client : C)
  | cancel (client : C)
  | release (client : C)

open Semaphore

/-- One step of the semaphore. -/
def step (s : Semaphore C) : Event C → Option (Semaphore C)
  | .acquire client =>
    if client ∈ s.clients then none
    else if s.locked then
      some { s with waiters := s.waiters ++ [(client, .pending)], asked := s.asked ++ [client] }
    else
      some { s with
        value := s.value - 1
        inside := client :: s.inside
        asked := s.asked ++ [client]
        handed := s.handed ++ [client] }
  | .resume client =>
    match s.turn client with
    | some .granted =>
      let entered := { s.without client with inside := client :: s.inside }
      some (if 0 < s.value then entered.wakeNext else entered)
    | some .cancelled => some (s.without client)
    | some .withdrawn => some { s.without client with value := s.value + 1 }.wakeNext
    | some .pending | none => none
  | .cancel client =>
    match s.turn client with
    | some .pending => some (s.withTurn client .cancelled)
    | some .granted => some (s.withTurn client .withdrawn)
    | some .cancelled | some .withdrawn | none => none
  | .release client =>
    if client ∈ s.inside then
      some { s with value := s.value + 1, inside := s.inside.erase client }.wakeNext
    else none

/-! ## Handing out permits -/

omit [DecidableEq C] in
theorem pending_cons (waiter : C × Turn) (rest : List (C × Turn)) :
    pending (waiter :: rest) =
      if waiter.2 = .pending then waiter.1 :: pending rest else pending rest := by
  by_cases waits : waiter.2 = .pending <;> simp [pending, waits]

omit [DecidableEq C] in
theorem pending_append (front back : List (C × Turn)) :
    pending (front ++ back) = pending front ++ pending back := by
  simp [pending]

omit [DecidableEq C] in
theorem grants_append (front back : List (C × Turn)) :
    grants (front ++ back) = grants front + grants back := by
  simp [grants]

omit [DecidableEq C] in
theorem outline_append (front back : List (C × Turn)) :
    outline (front ++ back) = outline front ++ outline back := by
  simp [outline]

omit [DecidableEq C] in
theorem clients_outline (waiters : List (C × Turn)) :
    (outline waiters).map Prod.fst = waiters.map Prod.fst := by
  simp [outline]

omit [DecidableEq C] in
theorem grantFirst_none {waiters : List (C × Turn)} (ungranted : grantFirst waiters = none) :
    pending waiters = [] := by
  fun_induction grantFirst waiters with
  | case1 => rfl
  | case2 client rest => simp at ungranted
  | case3 waiter rest other inductionHypothesis =>
    have waits : waiter.2 ≠ .pending := fun same => other waiter.1 (by rw [← same])
    rw [pending_cons, if_neg waits]
    exact inductionHypothesis (by simpa using ungranted)

omit [DecidableEq C] in
/-- The first client that waits is the one that gets the permit; nothing else changes. -/
theorem grantFirst_some {waiters after : List (C × Turn)} {client : C}
    (granted : grantFirst waiters = some (client, after)) :
    pending waiters = client :: pending after ∧ grants after = grants waiters + 1 ∧
      outline after = outline waiters := by
  fun_induction grantFirst waiters generalizing client after with
  | case1 => simp at granted
  | case2 first rest =>
    obtain ⟨rfl, rfl⟩ := Prod.mk.inj (Option.some.inj granted)
    simp [pending, grants, outline, Turn.holds, Turn.quits]
  | case3 waiter rest other inductionHypothesis =>
    have waits : waiter.2 ≠ .pending := fun same => other waiter.1 (by rw [← same])
    obtain ⟨⟨first, later⟩, inside, same⟩ := Option.map_eq_some_iff.mp granted
    obtain ⟨rfl, rfl⟩ := Prod.mk.inj same
    obtain ⟨order, count, clients⟩ := inductionHypothesis inside
    refine ⟨?_, ?_, ?_⟩
    · rw [pending_cons, pending_cons, if_neg waits, if_neg waits, order]
    · simp only [grants, List.countP_cons] at count ⊢
      omega
    · simp only [outline, List.map_cons] at clients ⊢
      rw [clients]

variable {limit : Nat}

/-- No permit is lost or made, no client is in two places, and permits were handed out in the
order in which they were asked for. -/
structure Sound (limit : Nat) (s : Semaphore C) : Prop where
  conserved : s.value + grants s.waiters + s.inside.length = limit
  distinct : s.clients.Nodup
  ordered : (s.handed ++ pending s.waiters).Sublist s.asked

/-- Where permits are left and clients wait, some permit has been handed out and its client
will pass on what is left. -/
def Awake (s : Semaphore C) : Prop :=
  0 < s.value → pending s.waiters ≠ [] → 0 < grants s.waiters

omit [DecidableEq C] in
/-- Handing a permit out keeps the semaphore sound and moves nobody. Afterwards a client has
been handed one, or nobody waits. -/
theorem sound_wakeNext {s : Semaphore C} (sound : Sound limit s) (positive : 0 < s.value) :
    Sound limit s.wakeNext ∧ Awake s.wakeNext ∧
      outline s.wakeNext.waiters = outline s.waiters ∧ s.wakeNext.inside = s.inside := by
  cases granted : grantFirst s.waiters with
  | none =>
    rw [wakeNext, granted]
    exact ⟨sound, fun _ waits => absurd (grantFirst_none granted) waits, rfl, rfl⟩
  | some found =>
    obtain ⟨client, after⟩ := found
    rw [wakeNext, granted]
    obtain ⟨order, count, clients⟩ := grantFirst_some granted
    have conserved := sound.conserved
    have distinct := sound.distinct
    rw [Semaphore.clients, ← clients_outline, ← clients, clients_outline] at distinct
    refine ⟨⟨?_, distinct, ?_⟩, ?_, clients, rfl⟩
    · simp only
      omega
    · simpa [order] using sound.ordered
    · intro _ _
      simp only
      omega

/-! ## What one step does -/

/-- Where the clients are before and after a step. -/
inductive Moves (s : Semaphore C) : Event C → Semaphore C → Prop where
  | waits {client : C} {next : Semaphore C}
      (fresh : client ∉ s.clients)
      (queue : outline next.waiters = outline s.waiters ++ [(client, false)])
      (inside : next.inside = s.inside) : Moves s (.acquire client) next
  | enters {client : C} {next : Semaphore C}
      (fresh : client ∉ s.clients)
      (queue : outline next.waiters = outline s.waiters)
      (inside : next.inside = client :: s.inside) : Moves s (.acquire client) next
  | passes {client : C} {next : Semaphore C} {front back : List (C × Bool)}
      (place : outline s.waiters = front ++ (client, false) :: back)
      (queue : outline next.waiters = front ++ back)
      (inside : next.inside = client :: s.inside) : Moves s (.resume client) next
  | gone {client : C} {next : Semaphore C} {front back : List (C × Bool)}
      (place : outline s.waiters = front ++ (client, true) :: back)
      (queue : outline next.waiters = front ++ back)
      (inside : next.inside = s.inside) : Moves s (.resume client) next
  | quits {client : C} {next : Semaphore C} {front back : List (C × Bool)}
      (place : outline s.waiters = front ++ (client, false) :: back)
      (queue : outline next.waiters = front ++ (client, true) :: back)
      (inside : next.inside = s.inside) : Moves s (.cancel client) next
  | leaves {client : C} {next : Semaphore C} (member : client ∈ s.inside)
      (queue : outline next.waiters = outline s.waiters)
      (inside : next.inside = s.inside.erase client) : Moves s (.release client) next

/-- A waiting client has one place in the queue, and `without` and `withTurn` change this
place alone. -/
theorem turn_split {s : Semaphore C} (distinct : s.clients.Nodup)
    {client : C} {turn : Turn} (found : s.turn client = some turn) :
    ∃ front back, s.waiters = front ++ (client, turn) :: back ∧
      s.without client = { s with waiters := front ++ back } ∧
      ∀ other,
        s.withTurn client other = { s with waiters := front ++ (client, other) :: back } := by
  obtain ⟨front, back, split, before⟩ := List.lookup_eq_some_iff.mp found
  have waiting : (s.waiters.map Prod.fst).Nodup := (List.nodup_append.mp distinct).1
  rw [split, List.map_append, List.map_cons] at waiting
  have absent : client ∉ front.map Prod.fst ++ back.map Prod.fst :=
    (List.nodup_middle.mp waiting).notMem
  have elsewhere : ∀ waiter ∈ front ++ back, waiter.1 ≠ client := by
    rintro waiter member rfl
    exact absent (by simpa using List.mem_map_of_mem (f := Prod.fst) member)
  have first : ∀ waiter ∈ front, waiter.1 ≠ client :=
    fun waiter member => elsewhere waiter (List.mem_append_left _ member)
  have last : ∀ waiter ∈ back, waiter.1 ≠ client :=
    fun waiter member => elsewhere waiter (List.mem_append_right _ member)
  have same (rest : List (C × Turn)) (other : Turn) (apart : ∀ waiter ∈ rest, waiter.1 ≠ client) :
      (rest.map fun waiter => if waiter.1 = client then (client, other) else waiter) = rest := by
    rw [List.map_congr_left fun waiter member => if_neg (apart waiter member), List.map_id']
  refine ⟨front, back, split, ?_, fun other => ?_⟩
  · rw [without, split, List.filter_append, List.filter_cons_of_neg (by simp),
      List.filter_eq_self.mpr fun waiter member => decide_eq_true (first waiter member),
      List.filter_eq_self.mpr fun waiter member => decide_eq_true (last waiter member)]
  · rw [withTurn, split, List.map_append, List.map_cons, same front other first,
      same back other last, if_pos rfl]

omit [DecidableEq C] in
/-- The clients are distinct wherever one of them stands. -/
theorem distinct_middle {front back : List (C × Turn)} {inside : List C} {waiter : C × Turn}
    (distinct : ((front ++ waiter :: back).map Prod.fst ++ inside).Nodup) :
    ((front ++ back).map Prod.fst ++ waiter.1 :: inside).Nodup := by
  rw [List.map_append, List.map_cons, List.append_assoc, List.cons_append,
    List.nodup_middle] at distinct
  rw [List.nodup_middle, List.map_append, List.append_assoc]
  exact distinct

omit [DecidableEq C] in
theorem mem_clients {s : Semaphore C} {client : C} :
    client ∈ s.clients ↔
      (∃ quits, (client, quits) ∈ outline s.waiters) ∨ client ∈ s.inside := by
  rw [Semaphore.clients, ← clients_outline, List.mem_append, List.mem_map]
  simp

omit [DecidableEq C] in
/-- A client that waits has one place, and is not inside. -/
theorem place_unique {s : Semaphore C} (distinct : s.clients.Nodup) {client : C} {quits : Bool}
    {front back : List (C × Bool)} (place : outline s.waiters = front ++ (client, quits) :: back) :
    (∀ other, (client, other) ∉ front ++ back) ∧ client ∉ s.inside := by
  rw [Semaphore.clients, ← clients_outline, place, List.map_append, List.map_cons,
    List.append_assoc, List.cons_append, List.nodup_middle, List.nodup_cons] at distinct
  have absent := distinct.1
  simp only [List.mem_append, not_or] at absent
  refine ⟨fun other member => ?_, absent.2.2⟩
  obtain before | behind := List.mem_append.mp member
  · exact absent.1 (List.mem_map_of_mem (f := Prod.fst) before)
  · exact absent.2.1 (List.mem_map_of_mem (f := Prod.fst) behind)

/-- Who is a client after a step. -/
theorem Moves.members {s next : Semaphore C} {event : Event C} (distinct : s.clients.Nodup)
    (moves : Moves s event next) (other : C) :
    other ∈ next.clients ↔ match event with
      | .acquire client => other = client ∨ other ∈ s.clients
      | .resume client => other ∈ s.clients ∧ (other = client → (client, true) ∉ outline s.waiters)
      | .cancel _ => other ∈ s.clients
      | .release client => other ∈ s.clients ∧ other ≠ client := by
  cases moves with
  | @waits client _ fresh queue inside =>
    simp only [mem_clients, queue, inside, List.mem_append]
    by_cases same : other = client <;> simp [same]
  | @enters client _ fresh queue inside =>
    simp only [mem_clients, queue, inside, List.mem_cons]
    tauto
  | @passes client _ front back place queue inside =>
    have absent := (place_unique distinct place).1
    simp only [mem_clients, place, queue, inside, List.mem_cons]
    by_cases same : other = client <;> simp_all
  | @gone client _ front back place queue inside =>
    have absent := place_unique distinct place
    simp only [mem_clients, place, queue, inside]
    by_cases same : other = client <;> simp_all
  | @quits client _ front back place queue inside =>
    simp only [mem_clients, place, queue, inside]
    by_cases same : other = client <;> simp [same]
  | @leaves client _ member queue inside =>
    have apart : ∀ quits, (client, quits) ∉ outline s.waiters := by
      rintro quits waits
      refine (List.nodup_append.mp distinct).2.2 client ?_ client member rfl
      rw [← clients_outline]
      exact List.mem_map_of_mem (f := Prod.fst) waits
    simp only [mem_clients, queue, inside, ((List.nodup_append.mp distinct).2.1).mem_erase_iff]
    by_cases same : other = client <;> simp_all

/-- Only a cancelled client quits. -/
theorem Moves.quitting {s next : Semaphore C} {event : Event C}
    (moves : Moves s event next) {other : C} (quits : (other, true) ∈ outline next.waiters) :
    (other, true) ∈ outline s.waiters ∨ event = .cancel other := by
  cases moves with
  | waits fresh queue inside => simpa [queue] using quits
  | enters fresh queue inside => exact Or.inl (queue ▸ quits)
  | passes place queue inside | gone place queue inside =>
    rw [queue] at quits
    rw [place]
    simp only [List.mem_append, List.mem_cons] at quits ⊢
    tauto
  | quits place queue inside =>
    rw [queue] at quits
    rw [place]
    simp only [List.mem_append, List.mem_cons, Prod.mk.injEq, and_true] at quits ⊢
    obtain before | rfl | behind := quits
    · exact Or.inl (Or.inl before)
    · exact Or.inr rfl
    · exact Or.inl (Or.inr (Or.inr behind))
  | leaves member queue inside => exact Or.inl (queue ▸ quits)

/-- What a step keeps, and what it does to the clients. -/
def Kept (limit : Nat) (s : Semaphore C) (event : Event C) (next : Semaphore C) : Prop :=
  Sound limit next ∧ Awake next ∧ Moves s event next

theorem kept_acquire {s next : Semaphore C} {client : C} (sound : Sound limit s) (awake : Awake s)
    (taken : step s (.acquire client) = some next) : Kept limit s (.acquire client) next := by
  rw [step] at taken
  split at taken
  · cases taken
  next fresh =>
  have distinct : (s.waiters.map Prod.fst ++ client :: s.inside).Nodup :=
    List.nodup_middle.mpr (List.nodup_cons.mpr ⟨fresh, sound.distinct⟩)
  have conserved := sound.conserved
  split at taken
  · next full =>
    obtain rfl := Option.some.inj taken
    have same : grants (s.waiters ++ [(client, Turn.pending)]) = grants s.waiters := by
      simp [grants, Turn.holds]
    refine ⟨⟨?_, ?_, ?_⟩, ?_, .waits fresh ?_ rfl⟩
    · simpa only [same] using conserved
    · simpa [Semaphore.clients] using distinct
    · rw [pending_append, ← List.append_assoc]
      exact sound.ordered.append (List.Sublist.refl [client])
    · rintro positive -
      simp only [same]
      obtain ⟨waiter, member, uncancelled⟩ : ∃ waiter ∈ s.waiters, waiter.2 ≠ .cancelled := by
        simpa [locked, Nat.ne_of_gt positive] using full
      by_cases waits : waiter.2 = .pending
      · have someone : waiter.1 ∈ pending s.waiters :=
          List.mem_map_of_mem (List.mem_filter.mpr ⟨member, decide_eq_true waits⟩)
        exact awake positive (List.ne_nil_of_mem someone)
      · have holds : waiter.2.holds = true := by
          cases turn : waiter.2 <;> simp_all [Turn.holds]
        exact List.countP_pos_iff.mpr ⟨waiter, member, holds⟩
    · simp [outline, Turn.quits]
  · next free =>
    obtain rfl := Option.some.inj taken
    have left : s.value ≠ 0 := fun none_left => free (by simp [locked, none_left])
    have nobody : pending s.waiters = [] := by
      have all : ∀ waiter ∈ s.waiters, waiter.2 = .cancelled := by simpa [locked, left] using free
      refine List.map_eq_nil_iff.mpr (List.filter_eq_nil_iff.mpr fun waiter member => ?_)
      simp [all waiter member]
    have ordered := sound.ordered
    rw [nobody, List.append_nil] at ordered
    refine ⟨⟨?_, distinct, ?_⟩, fun _ waits => absurd nobody waits, .enters fresh rfl rfl⟩
    · simp only [List.length_cons]
      omega
    · simpa [nobody] using ordered.append (List.Sublist.refl [client])

theorem kept_resume {s next : Semaphore C} {client : C} (sound : Sound limit s) (awake : Awake s)
    (taken : step s (.resume client) = some next) : Kept limit s (.resume client) next := by
  have conserved := sound.conserved
  have distinct := sound.distinct
  have ordered := sound.ordered
  cases found : s.turn client with
  | none => simp [step, found] at taken
  | some turn =>
    obtain ⟨front, back, split, without, -⟩ := turn_split sound.distinct found
    rw [Awake, split, pending_append, grants_append, pending_cons] at awake
    rw [split, pending_append, pending_cons] at ordered
    rw [Semaphore.clients, split] at distinct
    rw [split, grants_append] at conserved
    have place : outline s.waiters = outline front ++ (client, turn.quits) :: outline back := by
      rw [split, outline_append]
      rfl
    have erased : ((front ++ back).map Prod.fst ++ s.inside).Nodup :=
      (List.nodup_cons.mp (List.nodup_middle.mp (distinct_middle distinct))).2
    cases turn with
    | pending => simp [step, found] at taken
    | granted =>
      rw [step, found, without] at taken
      obtain rfl := Option.some.inj taken
      have kept :
          Sound limit { s with waiters := front ++ back, inside := client :: s.inside } := by
        refine ⟨?_, distinct_middle distinct, by simpa [pending_append] using ordered⟩
        simp only [grants_append, List.length_cons]
        simp only [grants, List.countP_cons, Turn.holds, if_true] at conserved ⊢
        omega
      by_cases positive : 0 < s.value
      · obtain ⟨sound, awake, queue, inside⟩ := sound_wakeNext kept positive
        rw [if_pos positive]
        exact ⟨sound, awake, .passes place (queue.trans (outline_append front back)) inside⟩
      · rw [if_neg positive]
        exact ⟨kept, fun more => absurd more positive,
          .passes place (outline_append front back) rfl⟩
    | cancelled =>
      rw [step, found, without] at taken
      obtain rfl := Option.some.inj taken
      have kept : Sound limit { s with waiters := front ++ back } := by
        refine ⟨?_, erased, by simpa [pending_append] using ordered⟩
        simp only [grants_append]
        simpa [grants, Turn.holds] using conserved
      refine ⟨kept, fun positive waits => ?_, .gone place (outline_append front back) rfl⟩
      have handed := awake positive (by simpa [pending_append] using waits)
      simpa [grants, Turn.holds] using handed
    | withdrawn =>
      rw [step, found, without] at taken
      obtain rfl := Option.some.inj taken
      have kept : Sound limit { s with value := s.value + 1, waiters := front ++ back } := by
        refine ⟨?_, erased, by simpa [pending_append] using ordered⟩
        simp only [grants_append]
        simp only [grants, List.countP_cons, Turn.holds, if_true] at conserved ⊢
        omega
      obtain ⟨sound, awake, queue, inside⟩ := sound_wakeNext kept (Nat.succ_pos _)
      exact ⟨sound, awake, .gone place (queue.trans (outline_append front back)) inside⟩

theorem kept_cancel {s next : Semaphore C} {client : C} (sound : Sound limit s) (awake : Awake s)
    (taken : step s (.cancel client) = some next) : Kept limit s (.cancel client) next := by
  have conserved := sound.conserved
  have distinct := sound.distinct
  have ordered := sound.ordered
  cases found : s.turn client with
  | none => simp [step, found] at taken
  | some turn =>
    obtain ⟨front, back, split, -, withTurn⟩ := turn_split sound.distinct found
    rw [Awake, split, pending_append, grants_append, pending_cons] at awake
    rw [split, pending_append, pending_cons] at ordered
    rw [split, grants_append] at conserved
    rw [Semaphore.clients, split] at distinct
    have place (other : Turn) :
        outline (front ++ (client, other) :: back) =
          outline front ++ (client, other.quits) :: outline back := by
      rw [outline_append]
      rfl
    cases turn with
    | cancelled | withdrawn => simp [step, found] at taken
    | pending =>
      rw [step, found] at taken
      obtain rfl := (withTurn .cancelled).symm.trans (Option.some.inj taken)
      refine ⟨⟨?_, ?_, ?_⟩, ?_, .quits (split ▸ place .pending) (place .cancelled) rfl⟩
      · simp only [grants_append]
        simpa [grants, Turn.holds] using conserved
      · simpa [Semaphore.clients] using distinct
      · refine List.Sublist.trans ?_ ordered
        simp [pending_append, pending_cons]
      · rintro positive waits
        simp only [pending_append, pending_cons, grants_append] at waits ⊢
        have positive := awake positive (by simp)
        simpa [grants, Turn.holds] using positive
    | granted =>
      rw [step, found] at taken
      obtain rfl := (withTurn .withdrawn).symm.trans (Option.some.inj taken)
      refine ⟨⟨?_, ?_, ?_⟩, ?_, .quits (split ▸ place .granted) (place .withdrawn) rfl⟩
      · simp only [grants_append]
        simpa [grants, Turn.holds] using conserved
      · simpa [Semaphore.clients] using distinct
      · simpa [pending_append, pending_cons] using ordered
      · rintro - -
        have handed : 0 < grants ((client, Turn.withdrawn) :: back) := by simp [grants, Turn.holds]
        simp only [grants_append]
        omega

theorem kept_release {s next : Semaphore C} {client : C} (sound : Sound limit s)
    (taken : step s (.release client) = some next) : Kept limit s (.release client) next := by
  rw [step] at taken
  split at taken
  · next member =>
    have left : Sound limit
        { s with value := s.value + 1, inside := s.inside.erase client } := by
      refine ⟨?_, ?_, sound.ordered⟩
      · have conserved := sound.conserved
        have positive := List.length_pos_of_mem member
        simp only [List.length_erase_of_mem member]
        omega
      · exact sound.distinct.sublist (List.Sublist.append (.refl _) List.erase_sublist)
    obtain rfl := Option.some.inj taken
    obtain ⟨kept, awake, queue, inside⟩ := sound_wakeNext left (Nat.succ_pos _)
    exact ⟨kept, awake, .leaves member queue inside⟩
  · cases taken

/-- What every step keeps. -/
theorem kept_step {s next : Semaphore C} {event : Event C} (sound : Sound limit s)
    (awake : Awake s) (taken : step s event = some next) : Kept limit s event next := by
  cases event with
  | acquire client => exact kept_acquire sound awake taken
  | resume client => exact kept_resume sound awake taken
  | cancel client => exact kept_cancel sound awake taken
  | release client => exact kept_release sound taken

omit [DecidableEq C] in
theorem sound_init : Sound limit (init limit : Semaphore C) :=
  ⟨by simp [init, grants], List.nodup_nil, List.Sublist.refl []⟩

omit [DecidableEq C] in
theorem awake_init : Awake (init limit : Semaphore C) := fun _ waits => absurd rfl waits

/-! ## Progress -/

/-- While a client waits, one that is inside can leave or one that waits can go on. -/
theorem progress {s : Semaphore C} (sound : Sound limit s) (awake : Awake s)
    (positive : 0 < limit) (waits : s.waiters ≠ []) :
    ∃ client, client ∈ s.inside ∨
      (client ∈ s.waiters.map Prod.fst ∧ (step s (.resume client)).isSome = true) := by
  cases used : s.inside with
  | cons client rest => exact ⟨client, Or.inl List.mem_cons_self⟩
  | nil =>
    have conserved := sound.conserved
    rw [used, List.length_nil] at conserved
    obtain ⟨waiter, member, served⟩ : ∃ waiter ∈ s.waiters, waiter.2 ≠ .pending := by
      by_contra unserved
      push Not at unserved
      have ungranted : grants s.waiters = 0 := by
        refine List.countP_eq_zero.mpr fun waiter member => ?_
        simp [unserved waiter member, Turn.holds]
      obtain ⟨waiter, member⟩ := List.exists_mem_of_ne_nil _ waits
      have pends : waiter.1 ∈ pending s.waiters :=
        List.mem_map_of_mem (List.mem_filter.mpr ⟨member, decide_eq_true (unserved waiter member)⟩)
      have handed := awake (by omega) (List.ne_nil_of_mem pends)
      omega
    obtain ⟨front, back, split⟩ := List.append_of_mem member
    have distinct : (s.waiters.map Prod.fst).Nodup := (List.nodup_append.mp sound.distinct).1
    rw [split, List.map_append, List.map_cons] at distinct
    have absent := (List.nodup_cons.mp (List.nodup_middle.mp distinct)).1
    have found : s.turn waiter.1 = some waiter.2 := by
      refine List.lookup_eq_some_iff.mpr ⟨front, back, split, fun other before => ?_⟩
      rw [bne_iff_ne]
      rintro same
      exact absent (List.mem_append_left _ (same ▸ List.mem_map_of_mem before))
    refine ⟨waiter.1, Or.inr ⟨List.mem_map_of_mem member, ?_⟩⟩
    cases turn : waiter.2 with
    | pending => exact absurd turn served
    | granted | cancelled | withdrawn => simp [step, found, turn]

/-- The steps that the clients of a semaphore may still take. -/
def remaining (s : Semaphore C) : Nat :=
  ((outline s.waiters).map fun waiter => if waiter.2 then 1 else 2).sum + s.inside.length

/-- One that asks adds two steps at most; every other step leaves fewer. -/
theorem remaining_step {s next : Semaphore C} {event : Event C} (moves : Moves s event next) :
    match event with
    | .acquire _ => remaining next ≤ remaining s + 2
    | .resume _ | .cancel _ | .release _ => remaining next < remaining s := by
  cases moves with
  | waits fresh queue inside => simp [remaining, queue, inside]; omega
  | enters fresh queue inside => simp [remaining, queue, inside]; omega
  | passes place queue inside => simp [remaining, place, queue, inside]; omega
  | gone place queue inside => simp [remaining, place, queue, inside]
  | quits place queue inside => simp [remaining, place, queue, inside]
  | leaves member queue inside =>
    have positive := List.length_pos_of_mem member
    simp [remaining, queue, inside, List.length_erase_of_mem member]
    omega

end CountingSemaphore
