import RcaBackend.Attempts
import RcaBackend.PyNumerals

/-!
# A concrete interpreter

Unicode tables that know ASCII only, an insertion sort, and decimal numbers of
unlimited range and precision in place of binary64. On ASCII text, and on numbers
that binary64 represents or whose digits are not looked at, it does what the real
interpreter does; the model is run on it.
-/

namespace RcaBackend

namespace ReferenceInterpreter

/-! ## Sorting -/

/-- Insertion by the given `<`. -/
def insertionSort {α : Type} (lt : α → α → Bool) (items : List α) : List α :=
  items.insertionSort fun a b => lt b a = false

/-- An inserted element stands in the order of every rank that `<` decides. -/
theorem orderedInsert_ranked {α β : Type} [LinearOrder β] (rank : α → β) (lt : α → α → Bool)
    (a : α) (sorted : List α)
    (decides : ∀ b ∈ sorted, (rank a < rank b → lt a b = true ∧ lt b a = false) ∧
      (rank b < rank a → lt b a = true ∧ lt a b = false))
    (ordered : sorted.Pairwise fun a b => rank a ≤ rank b) :
    (sorted.orderedInsert (fun a b => lt b a = false) a).Pairwise fun a b => rank a ≤ rank b := by
  induction sorted with
  | nil => simp
  | cons first rest inductionHypothesis =>
    obtain ⟨least, tail⟩ := List.pairwise_cons.mp ordered
    have here := decides first List.mem_cons_self
    by_cases before : lt first a = false
    · have low : rank a ≤ rank first := by
        by_contra above
        have decided := (here.2 (not_le.mp above)).1
        rw [before] at decided
        exact Bool.false_ne_true decided
      rw [List.orderedInsert, if_pos before, List.pairwise_cons]
      constructor
      · intro other member
        obtain rfl | later := List.mem_cons.mp member
        · exact low
        · exact low.trans (least other later)
      · exact ordered
    · have high : rank first ≤ rank a := by
        by_contra below
        exact before (here.1 (not_le.mp below)).2
      rw [List.orderedInsert, if_neg before, List.pairwise_cons]
      constructor
      · intro other member
        obtain rfl | later := (List.mem_orderedInsert _).mp member
        · exact high
        · exact least other later
      · exact inductionHypothesis (fun other member =>
          decides other (List.mem_cons_of_mem _ member)) tail

/-- Insertion sort orders the items by a rank that the comparison decides. -/
theorem insertionSort_ranked {α β : Type} [LinearOrder β] (rank : α → β) (lt : α → α → Bool)
    (items : List α)
    (decides : ∀ a ∈ items, ∀ b ∈ items, rank a < rank b → lt a b = true ∧ lt b a = false) :
    (insertionSort lt items).Pairwise fun a b => rank a ≤ rank b := by
  induction items with
  | nil => exact List.Pairwise.nil
  | cons a rest inductionHypothesis =>
    have tail := inductionHypothesis fun b inside c also =>
      decides b (List.mem_cons_of_mem _ inside) c (List.mem_cons_of_mem _ also)
    apply orderedInsert_ranked rank lt a _ _ tail
    intro b member
    have present : b ∈ a :: rest :=
      List.mem_cons_of_mem _ ((List.perm_insertionSort _ rest).subset member)
    constructor
    · exact decides a List.mem_cons_self b present
    · exact decides b present a List.mem_cons_self

/-! ## Tables -/

/-- ASCII letters in lower case, and the Greek capital mu. -/
def lowerAscii (c : Nat) : PyStr :=
  if c = 0x39C then [0x3BC] else [if 65 ≤ c ∧ c ≤ 90 then c + 32 else c]

/-- ASCII letters in upper case. -/
def upperAscii (c : Nat) : PyStr := [if 97 ≤ c ∧ c ≤ 122 then c - 32 else c]

/-- The ASCII digits. -/
def decimalAscii (c : Nat) : Option Nat := if isAsciiDigit c then some (c - 48) else none

/-- The white space of ASCII. -/
def spaceAscii (c : Nat) : Bool := 9 ≤ c && c ≤ 13 || 28 ≤ c && c ≤ 32

/-- A digit is below ten and no white space. -/
theorem decimalAscii_some {c n : Nat} (digit : decimalAscii c = some n) :
    n < 10 ∧ spaceAscii c = false := by
  by_cases inside : isAsciiDigit c = true
  · rw [decimalAscii, if_pos inside] at digit
    simp only [isAsciiDigit, Bool.and_eq_true, decide_eq_true_eq] at inside
    obtain rfl := Option.some.inj digit
    constructor
    · omega
    · simp only [spaceAscii, Bool.or_eq_false_iff, Bool.and_eq_false_iff, decide_eq_false_iff_not]
      omega
  · rw [decimalAscii, if_neg inside] at digit
    simp at digit

/-- The lower case of an ASCII character. -/
theorem lowerAscii_ascii (c : Nat) (ascii : c < 128) :
    lowerAscii c = [if 65 ≤ c ∧ c ≤ 90 then c + 32 else c] := by
  have other : ¬ c = 0x39C := by omega
  rw [lowerAscii, if_neg other]

/-- The interpreter with ASCII tables. -/
@[reducible] def asciiRuntime : PyRuntime where
  decimal := decimalAscii
  alnum c := isAsciiDigit c || (65 ≤ c && c ≤ 90) || (97 ≤ c && c ≤ 122)
  space := spaceAscii
  upper := upperAscii
  lower := lowerAscii
  finalSigma _ _ := false
  repr _ := []
  recursionLimit := 100
  sort := insertionSort
  decimal_ascii _ _ := rfl
  decimal_digit _ _ digit := (decimalAscii_some digit).1
  decimal_space _ _ digit := (decimalAscii_some digit).2
  space_ascii _ _ := rfl
  lower_ascii := lowerAscii_ascii
  lower_longS := rfl
  lower_micro := rfl
  lower_mu := rfl
  lower_capitalMu := rfl
  upper_ascii _ _ := rfl
  sort_perm _ items := List.perm_insertionSort _ items
  sort_ranked := insertionSort_ranked

/-! ## Exact decimals -/

/-- A decimal from a signed mantissa. -/
def ofSigned (mantissa exponent : Int) : FloatLit :=
  .decimal (mantissa < 0) mantissa.natAbs exponent

/-- Two signed mantissas at the smaller of their exponents. -/
def aligned (left right : Bool × Nat × Int) : Int × Int × Int :=
  let signed (sign : Bool) (m : Nat) : Int := if sign then -(m : Int) else m
  let least := min left.2.2 right.2.2
  (signed left.1 left.2.1 * 10 ^ (left.2.2 - least).toNat,
    signed right.1 right.2.1 * 10 ^ (right.2.2 - least).toNat, least)

/-- The negated number. -/
def neg : FloatLit → FloatLit
  | .nan => .nan
  | .infinity sign => .infinity (!sign)
  | .decimal sign m e => .decimal (!sign) m e

/-- The absolute value. -/
def abs : FloatLit → FloatLit
  | .nan => .nan
  | .infinity _ => .infinity false
  | .decimal _ m e => .decimal false m e

/-- The sum, without rounding. -/
def add : FloatLit → FloatLit → FloatLit
  | .nan, _ | _, .nan => .nan
  | .infinity s, .infinity t => if s = t then .infinity s else .nan
  | .infinity s, .decimal .. | .decimal .., .infinity s => .infinity s
  | .decimal s m e, .decimal t n f =>
    let (left, right, least) := aligned (s, m, e) (t, n, f)
    ofSigned (left + right) least

/-- The difference, without rounding. -/
def sub (left right : FloatLit) : FloatLit := add left (neg right)

/-- The product, without rounding. -/
def mul : FloatLit → FloatLit → FloatLit
  | .nan, _ | _, .nan => .nan
  | .infinity s, .infinity t => .infinity (s != t)
  | .infinity s, .decimal t m _ | .decimal s m _, .infinity t =>
    if m = 0 then .nan else .infinity (s != t)
  | .decimal s m e, .decimal t n f => .decimal (s != t) (m * n) (e + f)

/-- Division to eighteen digits after the point of the divisor. -/
def div : FloatLit → FloatLit → FloatLit
  | .decimal s m e, .decimal t n f => .decimal (s != t) (m * 10 ^ 18 / n) (e - f - 18)
  | .infinity s, .decimal t _ _ => .infinity (s != t)
  | _, _ => .nan

/-- `<`, false for a NaN. -/
def lt : FloatLit → FloatLit → Bool
  | .nan, _ | _, .nan => false
  | .infinity s, .infinity t => s && !t
  | .infinity s, .decimal .. => s
  | .decimal .., .infinity t => !t
  | .decimal s m e, .decimal t n f =>
    let (left, right, _) := aligned (s, m, e) (t, n, f)
    left < right

/-- `==`, false for a NaN. -/
def eq : FloatLit → FloatLit → Bool
  | .infinity s, .infinity t => s = t
  | .decimal s m e, .decimal t n f =>
    let (left, right, _) := aligned (s, m, e) (t, n, f)
    left = right
  | _, _ => false

/-- An integer as a number. -/
def ofInt (n : Int) : FloatLit := ofSigned n 0

/-- `int(x)`, which raises for a NaN and an infinity. -/
def trunc : FloatLit → Except PyExc Int
  | .nan => .error .valueError
  | .infinity _ => .error .overflowError
  | .decimal s m e =>
    let magnitude : Nat := if 0 ≤ e then m * 10 ^ e.toNat else m / 10 ^ (-e).toNat
    .ok (if s then -(magnitude : Int) else magnitude)

/-- The mean, where there are values. -/
def mean (values : List FloatLit) : Except PyExc FloatLit :=
  if values = [] then .error .valueError
  else .ok (div (values.foldl add (ofInt 0)) (ofInt values.length))

/-- The integer root of a number below `4 ^ bits`, bit by bit. -/
def root (n : Nat) : (bits : Nat) → Nat
  | 0 => 0
  | bits + 1 =>
    let above := root (n / 4) bits
    if (2 * above + 1) * (2 * above + 1) ≤ n then 2 * above + 1 else 2 * above

/-- The population standard deviation, to nine digits after the point. -/
def pstdev (values : List FloatLit) : Except PyExc FloatLit := do
  let mu ← mean values
  let squares := values.map fun value => mul (sub value mu) (sub value mu)
  match ← mean squares with
  | .decimal _ m e =>
    let scaled := if 0 ≤ e + 18 then m * 10 ^ (e + 18).toNat else m / 10 ^ (-(e + 18)).toNat
    return .decimal false (root scaled 200) (-9)
  | _ => .error .valueError

/-- The digits of a number, with an exponent where it is not a whole number. -/
def general : FloatLit → PyStr
  | .nan => py "nan"
  | .infinity sign => if sign then py "-inf" else py "inf"
  | .decimal sign m e =>
    (if sign then py "-" else []) ++ natText m ++ if e = 0 then [] else py "e" ++ intText e

/-- Exact decimals in place of binary64. -/
instance exactDecimals : PyFloat FloatLit where
  ofLit := id
  ofInt n := .ok (ofInt n)
  trunc := trunc
  neg := neg
  abs := abs
  sub := sub
  mul := mul
  div := div
  lt := lt
  eq := eq
  ratio m n := div (ofInt m) (ofInt n)
  mean := mean
  pstdev := pstdev
  general := general
  general4 := general
  text := general

/-- Exact decimals of which `int` converts no more than of binary64 numbers. -/
@[reducible] def rangedDecimals : PyFloat FloatLit :=
  { exactDecimals with
    trunc x := do
      let whole ← trunc x
      if (natText whole.natAbs).length ≤ 309 then return whole else .error .overflowError }

/-- A decimal number is printed as its numeral. -/
theorem general_eq (negative : Bool) (mantissa : Nat) (exponent : Int) :
    general (.decimal negative mantissa exponent) = numeral negative mantissa exponent := by
  simp only [general, numeral, signText, exponentText, List.append_assoc]
  rfl

/-- A printed number is plain. -/
theorem general_plain (x : FloatLit) : ∀ c ∈ general x, Plain c := by
  cases x with
  | nan => decide
  | infinity negative => cases negative <;> decide
  | decimal negative mantissa exponent =>
    rw [general_eq]
    intro c member
    exact numeral_plain member

/-- A printed number is read back. -/
theorem general_read (x : FloatLit) : @floatOfText asciiRuntime (general x) = some x := by
  cases x with
  | nan => decide +kernel
  | infinity negative => cases negative <;> decide +kernel
  | decimal negative mantissa exponent =>
    rw [general_eq]
    exact @floatOfText_numeral asciiRuntime negative mantissa exponent

/-- A letter or digit is no surrogate. -/
theorem alnum_scalar {c : Nat} (member : @PyRuntime.alnum asciiRuntime c = true) :
    isSurrogate c = false := by
  have listed : (isAsciiDigit c || 65 ≤ c && c ≤ 90 || 97 ≤ c && c ≤ 122) = true := member
  simp only [isAsciiDigit, Bool.or_eq_true, Bool.and_eq_true, decide_eq_true_eq] at listed
  simp only [isSurrogate, Bool.and_eq_false_iff, decide_eq_false_iff_not]
  omega

/-- A digit is a letter or digit. -/
theorem decimal_alnum {c : Nat} (member : @isDecimal asciiRuntime c = true) :
    @PyRuntime.alnum asciiRuntime c = true := by
  obtain ⟨value, digit⟩ := Option.isSome_iff_exists.mp member
  obtain ⟨inside, -⟩ := Option.ite_none_right_eq_some.mp digit
  have listed : (isAsciiDigit c || 65 ≤ c && c ≤ 90 || 97 ≤ c && c ≤ 122) = true := by simp [inside]
  exact listed

/-- A number that is truncated has 309 digits at most. -/
theorem trunc_digits {x : FloatLit} {n : Int}
    (converted : @PyFloat.trunc FloatLit rangedDecimals x = .ok n) :
    (natText n.natAbs).length ≤ 309 := by
  obtain ⟨whole, -, bounded⟩ := Attempts.bind_ok_iff.mp converted
  split at bounded
  · next short =>
    obtain rfl := Except.ok.inj bounded
    exact short
  · simp at bounded

/-- The reference keeps the laws. -/
theorem reference_laws : @PyLaws FloatLit asciiRuntime rangedDecimals :=
  @PyLaws.mk FloatLit asciiRuntime rangedDecimals (fun _ => alnum_scalar)
    (fun _ member => alnum_scalar (decimal_alnum member)) (by decide)
    (fun _ _ converted => Except.ok.inj converted) (fun x => ⟨x, general_read x, rfl⟩)
    (fun x => plain_encodable (general_plain x)) (fun _ _ => trunc_digits)

end ReferenceInterpreter

end RcaBackend
