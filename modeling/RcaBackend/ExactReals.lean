import RcaBackend.PyRuntime
import RcaBackend.SignalParsers
import Mathlib.Analysis.Real.Sqrt

/-!
# Exact arithmetic

The real numbers in place of binary64, with mean and population standard deviation as they
are defined, and the largest distance of some values from a mean. A common factor goes
through all of them. How numbers are written is left open.
-/

namespace RcaBackend

namespace ExactReals

/-- How numbers are written. -/
class NumberTexts where
  general : ℝ → PyStr
  general4 : ℝ → PyStr
  text : ℝ → PyStr

/-! ## Mean and deviation -/

/-- The mean of values, zero if there are none. -/
noncomputable def meanOf (values : List ℝ) : ℝ := values.sum / values.length

/-- The population standard deviation. -/
noncomputable def spreadOf (values : List ℝ) : ℝ :=
  Real.sqrt ((values.map fun value => (value - meanOf values) ^ 2).sum / values.length)

/-- The mean is in the unit of the values. -/
theorem meanOf_scaled (c : ℝ) (values : List ℝ) :
    meanOf (values.map (c * ·)) = c * meanOf values := by
  rw [meanOf, meanOf, List.sum_map_mul_left, List.map_id', List.length_map, mul_div_assoc]

/-- So is the spread. -/
theorem spreadOf_scaled {c : ℝ} (positive : 0 < c) (values : List ℝ) :
    spreadOf (values.map (c * ·)) = c * spreadOf values := by
  have squares : ((values.map (c * ·)).map fun value =>
      (value - meanOf (values.map (c * ·))) ^ 2).sum =
      c ^ 2 * (values.map fun value => (value - meanOf values) ^ 2).sum := by
    rw [← List.sum_map_mul_left, List.map_map, meanOf_scaled]
    congr 1
    apply List.map_congr_left
    intro value _
    simp only [Function.comp_apply]
    ring
  rw [spreadOf, spreadOf, squares, List.length_map, mul_div_assoc,
    Real.sqrt_mul (sq_nonneg c), Real.sqrt_sq positive.le]

/-- A spread is not negative. -/
theorem spreadOf_nonneg (values : List ℝ) : 0 ≤ spreadOf values := Real.sqrt_nonneg _

/-- Equal values are their own mean. -/
theorem meanOf_constant {values : List ℝ} {a : ℝ} (member : a ∈ values)
    (same : ∀ b ∈ values, b = a) : meanOf values = a := by
  have some : (values.length : ℝ) ≠ 0 := by
    exact_mod_cast (List.length_pos_of_mem member).ne'
  rw [meanOf, List.sum_eq_card_nsmul values a same, nsmul_eq_mul, mul_div_cancel_left₀ a some]

/-- The values do not deviate if and only if they are equal. -/
theorem spreadOf_zero_iff {values : List ℝ} :
    spreadOf values = 0 ↔ ∀ a ∈ values, ∀ b ∈ values, a = b := by
  have squares : ∀ square ∈ values.map fun value => (value - meanOf values) ^ 2, 0 ≤ square := by
    intro square member
    obtain ⟨value, -, rfl⟩ := List.mem_map.mp member
    exact sq_nonneg _
  constructor
  · intro zero
    have atMean : ∀ a ∈ values, a = meanOf values := by
      intro a member
      have some : (0 : ℝ) < values.length := by exact_mod_cast List.length_pos_of_mem member
      have sum : (values.map fun value => (value - meanOf values) ^ 2).sum = 0 := by
        have least := Real.sqrt_eq_zero'.mp zero
        rw [div_le_iff₀ some, zero_mul] at least
        exact le_antisymm least (List.sum_nonneg squares)
      have none := List.all_zero_of_le_zero_le_of_sum_eq_zero squares sum
        (List.mem_map.mpr ⟨a, member, rfl⟩)
      exact sub_eq_zero.mp (pow_eq_zero_iff (two_ne_zero) |>.mp none)
    intro a first b second
    rw [atMean a first, ← atMean b second]
  · intro same
    have none : (values.map fun value => (value - meanOf values) ^ 2).sum = 0 := by
      apply List.sum_eq_zero
      intro square member
      obtain ⟨value, listed, rfl⟩ := List.mem_map.mp member
      rw [meanOf_constant listed fun b other => same b other value listed, sub_self]
      exact zero_pow two_ne_zero
    rw [spreadOf, none, zero_div, Real.sqrt_zero]

/-! ## The largest distance -/

/-- The largest of some values that are not negative, and zero without one. -/
noncomputable def largestOf (values : List ℝ) : ℝ := values.foldl max 0

/-- A running maximum is in the unit of the values. -/
theorem foldl_max_scaled {c : ℝ} (positive : 0 < c) (values : List ℝ) (start : ℝ) :
    (values.map (c * ·)).foldl max (c * start) = c * values.foldl max start := by
  induction values generalizing start with
  | nil => rfl
  | cons value values inductionHypothesis =>
    rw [List.map_cons, List.foldl_cons, List.foldl_cons, ← mul_max_of_nonneg _ _ positive.le,
      inductionHypothesis]

/-- The largest value is in their unit. -/
theorem largestOf_scaled {c : ℝ} (positive : 0 < c) (values : List ℝ) :
    largestOf (values.map (c * ·)) = c * largestOf values := by
  have scaled := foldl_max_scaled positive values 0
  rwa [mul_zero] at scaled

/-- A running maximum is above a bound where its start or a value is. -/
theorem lt_foldl_max {values : List ℝ} {low start : ℝ} :
    low < values.foldl max start ↔ low < start ∨ ∃ value ∈ values, low < value := by
  induction values generalizing start with
  | nil => simp
  | cons value values inductionHypothesis =>
    rw [List.foldl_cons, inductionHypothesis, lt_max_iff]
    simp [or_assoc]

/-- The largest value is positive where some value is. -/
theorem largestOf_pos_iff {values : List ℝ} : 0 < largestOf values ↔ ∃ value ∈ values, 0 < value := by
  rw [largestOf, lt_foldl_max]
  simp

/-- The largest value is not negative. -/
theorem largestOf_nonneg (values : List ℝ) : 0 ≤ largestOf values := by
  by_contra negative
  have below : ¬ largestOf values < largestOf values := lt_irrefl _
  exact below (lt_foldl_max.mpr (Or.inl (not_le.mp negative)))

/-! ## The score of a series -/

/-- A value is more than three deviations from the mean of others. -/
def Deviates (base : List ℝ) (value : ℝ) : Prop := 3 * spreadOf base < |value - meanOf base|

noncomputable instance (base : List ℝ) : DecidablePred (Deviates base) :=
  fun _ => Classical.propDecidable _

/-- The largest distance of the deviant values, in deviations if there are any. -/
noncomputable def scoreOf (base incid : List ℝ) : ℝ :=
  largestOf ((incid.filter fun value => Deviates base value).map fun value =>
    |value - meanOf base| / if spreadOf base = 0 then 1 else spreadOf base)

/-- The distance from the mean is in the unit of the values. -/
theorem distance_scaled {c : ℝ} (positive : 0 < c) (base : List ℝ) (value : ℝ) :
    |c * value - meanOf (base.map (c * ·))| = c * |value - meanOf base| := by
  rw [meanOf_scaled, ← mul_sub, abs_mul, abs_of_pos positive]

/-- Whether a value deviates does not depend on the unit. -/
theorem deviates_scaled {c : ℝ} (positive : 0 < c) (base : List ℝ) (value : ℝ) :
    Deviates (base.map (c * ·)) (c * value) ↔ Deviates base value := by
  rw [Deviates, Deviates, distance_scaled positive, spreadOf_scaled positive,
    mul_left_comm, mul_lt_mul_iff_right₀ positive]

/-- The deviating values are the same ones in any unit. -/
theorem deviants_scaled {c : ℝ} (positive : 0 < c) (base incid : List ℝ) :
    ((incid.map (c * ·)).filter fun value => Deviates (base.map (c * ·)) value) =
      (incid.filter fun value => Deviates base value).map (c * ·) := by
  rw [List.filter_map]
  congr 1
  apply List.filter_congr
  intro value _
  simp only [Function.comp_apply, deviates_scaled positive]

/-- A score in deviations does not depend on the unit. -/
theorem scoreOf_scaled {c : ℝ} (positive : 0 < c) {base : List ℝ} (deviating : spreadOf base ≠ 0)
    (incid : List ℝ) : scoreOf (base.map (c * ·)) (incid.map (c * ·)) = scoreOf base incid := by
  have also : c * spreadOf base ≠ 0 := mul_ne_zero positive.ne' deviating
  rw [scoreOf, scoreOf, deviants_scaled positive, List.map_map, spreadOf_scaled positive,
    if_neg deviating, if_neg also]
  congr 1
  apply List.map_congr_left
  intro value _
  rw [Function.comp_apply, distance_scaled positive, mul_div_mul_left _ _ positive.ne']

/-- Without a deviation the score is in the unit of the values. -/
theorem scoreOf_constant {c : ℝ} (positive : 0 < c) {base : List ℝ} (constant : spreadOf base = 0)
    (incid : List ℝ) : scoreOf (base.map (c * ·)) (incid.map (c * ·)) = c * scoreOf base incid := by
  have also : c * spreadOf base = 0 := by rw [constant, mul_zero]
  rw [scoreOf, scoreOf, deviants_scaled positive, List.map_map, spreadOf_scaled positive,
    if_pos constant, if_pos also, ← largestOf_scaled positive, List.map_map]
  congr 1
  apply List.map_congr_left
  intro value _
  simp only [Function.comp_apply, distance_scaled positive, div_one]

/-- A score is positive exactly if some value deviates. -/
theorem scoreOf_pos_iff {base incid : List ℝ} :
    0 < scoreOf base incid ↔ ∃ value ∈ incid, Deviates base value := by
  rw [scoreOf, largestOf_pos_iff]
  constructor
  · rintro ⟨distance, member, -⟩
    obtain ⟨value, listed, -⟩ := List.mem_map.mp member
    obtain ⟨present, deviates⟩ := List.mem_filter.mp listed
    exact ⟨value, present, of_decide_eq_true deviates⟩
  · rintro ⟨value, present, deviates⟩
    have far : 0 < |value - meanOf base| :=
      lt_of_le_of_lt (mul_nonneg (by norm_num) (spreadOf_nonneg base)) deviates
    refine ⟨_, List.mem_map.mpr ⟨value, List.mem_filter.mpr ⟨present, decide_eq_true deviates⟩,
      rfl⟩, div_pos far ?_⟩
    split
    · exact one_pos
    · next nonzero => exact lt_of_le_of_ne (spreadOf_nonneg base) (Ne.symm nonzero)

/-- A score is not negative. -/
theorem scoreOf_nonneg (base incid : List ℝ) : 0 ≤ scoreOf base incid := largestOf_nonneg _

/-! ## In place of binary64 -/

/-- The number of a literal; there are no special values. -/
noncomputable def ofLit : FloatLit → ℝ
  | .decimal negative mantissa exponent =>
    (if negative then -1 else 1) * mantissa * (10 : ℝ) ^ exponent
  | .infinity _ | .nan => 0

/-- The real numbers in place of binary64. -/
noncomputable instance exactReals [NumberTexts] : PyFloat ℝ where
  ofLit := ofLit
  ofInt n := .ok n
  trunc x := .ok (if 0 ≤ x then ⌊x⌋ else ⌈x⌉)
  neg x := -x
  abs x := |x|
  sub x y := x - y
  mul x y := x * y
  div x y := x / y
  lt x y := decide (x < y)
  eq x y := decide (x = y)
  ratio m n := m / n
  mean values := if values = [] then .error .valueError else .ok (meanOf values)
  pstdev values := if values = [] then .error .valueError else .ok (spreadOf values)
  general := NumberTexts.general
  general4 := NumberTexts.general4
  text := NumberTexts.text

end ExactReals

end RcaBackend
