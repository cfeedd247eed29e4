import RcaBackend.PyDatetime

/-!
# Dates and their ordinals

An ordinal is split into cycles of 400, 100, 4 years and one year, the last of which may be
complete. What is left of the year decides month and day.
-/

namespace RcaBackend

namespace DateTime

/-- The days before a year are those of its complete cycles. -/
theorem daysBeforeYear_cycles {n400 n100 n4 n1 : Nat} (centuries : n100 ≤ 3) (quads : n4 ≤ 24)
    (years : n1 ≤ 3) : daysBeforeYear (n400 * 400 + 1 + n100 * 100 + n4 * 4 + n1) =
      n400 * 146097 + n100 * 36524 + n4 * 1461 + n1 * 365 := by
  simp only [daysBeforeYear]
  omega

/-- The day of a year gives its month, by an estimate that is one too large at most. -/
theorem month_of_day : ∀ leap : Bool, ∀ n < 365,
    let before := fun month : Nat =>
      daysBeforeMonthCommon month + if month > 2 && leap then 1 else 0
    let month := if before ((n + 50) / 32) > n then (n + 50) / 32 - 1 else (n + 50) / 32
    1 ≤ month ∧ month ≤ 12 ∧ before month ≤ n ∧
      n - before month + 1 ≤ match month with
        | 2 => if leap then 29 else 28
        | 4 | 6 | 9 | 11 => 30
        | _ => 31 := by
  decide +kernel

/-- A day of a year, counted from zero, as month and day. -/
theorem dayOfYear_split {year n : Nat} (within : n < 365) :
    let month := if daysBeforeMonth year ((n + 50) / 32) > n then (n + 50) / 32 - 1
      else (n + 50) / 32
    1 ≤ month ∧ month ≤ 12 ∧ daysBeforeMonth year month ≤ n ∧
      n - daysBeforeMonth year month + 1 ≤ daysInMonth year month :=
  month_of_day (isLeap year) n within

/-- The last day of a leap year. -/
theorem lastDay_leap {year : Nat} (leap : isLeap year = true) :
    daysBeforeMonth year 12 + 31 = 366 := by
  simp [daysBeforeMonth, daysBeforeMonthCommon, leap]

/-- The year after complete cycles is a leap year if it ends one of four but not one of a
hundred, unless that ends one of four hundred. -/
theorem isLeap_cycles {n400 n100 n4 n1 : Nat} (centuries : n100 ≤ 3) (quads : n4 ≤ 24)
    (years : n1 ≤ 3) : isLeap (n400 * 400 + 1 + n100 * 100 + n4 * 4 + n1) = true ↔
      n1 = 3 ∧ (n4 = 24 → n100 = 3) := by
  simp only [isLeap, Bool.and_eq_true, Bool.or_eq_true, decide_eq_true_eq]
  omega

/-! ## The cycles of an ordinal -/

/-- The number of complete cycles of an ordinal, and the days after them. -/
structure Cycles (ordinal n400 n100 n4 n1 n : Nat) : Prop where
  four00 : (ordinal - 1) / 146097 = n400
  hundred : (ordinal - 1) % 146097 / 36524 = n100
  four : (ordinal - 1) % 146097 % 36524 / 1461 = n4
  one : (ordinal - 1) % 146097 % 36524 % 1461 / 365 = n1
  day : (ordinal - 1) % 146097 % 36524 % 1461 % 365 = n

section Cycles

variable {ordinal n400 n100 n4 n1 n : Nat}

/-- The last day of four or four hundred years. -/
theorem ordinalToYmd_complete (cycles : Cycles ordinal n400 n100 n4 n1 n)
    (complete : n1 = 4 ∨ n100 = 4) :
    ordinalToYmd ordinal = (n400 * 400 + n100 * 100 + n4 * 4 + n1, 12, 31) := by
  obtain ⟨rfl, rfl, rfl, rfl, rfl⟩ := cycles
  have year : ∀ a b c d : Nat, a * 400 + 1 + b * 100 + c * 4 + d - 1 =
      a * 400 + b * 100 + c * 4 + d := by
    intro a b c d
    omega
  rw [← year]
  exact if_pos complete

/-- Any other day. -/
theorem ordinalToYmd_within (cycles : Cycles ordinal n400 n100 n4 n1 n)
    (within : ¬ (n1 = 4 ∨ n100 = 4)) {year : Nat}
    (known : year = n400 * 400 + 1 + n100 * 100 + n4 * 4 + n1) :
    ordinalToYmd ordinal =
      let month := if daysBeforeMonth year ((n + 50) / 32) > n then (n + 50) / 32 - 1
        else (n + 50) / 32
      (year, month, n - daysBeforeMonth year month + 1) := by
  obtain ⟨rfl, rfl, rfl, rfl, rfl⟩ := cycles
  subst known
  apply (if_neg within).trans
  dsimp only
  split <;> rfl

theorem Cycles.sum (cycles : Cycles ordinal n400 n100 n4 n1 n) (first : 1 ≤ ordinal) :
    ordinal = n400 * 146097 + n100 * 36524 + n4 * 1461 + n1 * 365 + n + 1 := by
  obtain ⟨rfl, rfl, rfl, rfl, rfl⟩ := cycles
  omega

/-- The cycles are not longer than their parts allow. -/
theorem Cycles.bounds (cycles : Cycles ordinal n400 n100 n4 n1 n) :
    n4 ≤ 24 ∧ n < 365 ∧ n100 ≤ 4 ∧ n1 ≤ 4 ∧ (n100 = 4 → n4 = 0 ∧ n1 = 0 ∧ n = 0) ∧
      (n1 = 4 → n = 0 ∧ n4 ≤ 23) := by
  obtain ⟨rfl, rfl, rfl, rfl, rfl⟩ := cycles
  refine ⟨?_, ?_, ?_, ?_, ?_, ?_⟩ <;> omega

/-- The last day of a complete cycle is that of the last one of its years. -/
theorem lastYear (sum : ordinal = n400 * 146097 + n100 * 36524 + n4 * 1461 + n1 * 365 + n + 1)
    (complete : n1 = 4 ∨ n100 = 4) (quads : n4 ≤ 24) (centuries : n100 ≤ 4)
    (century : n100 = 4 → n4 = 0 ∧ n1 = 0 ∧ n = 0) (quad : n1 = 4 → n = 0 ∧ n4 ≤ 23) :
    ∃ b c, b ≤ 3 ∧ c ≤ 24 ∧ (c = 24 → b = 3) ∧
      n400 * 400 + n100 * 100 + n4 * 4 + n1 = n400 * 400 + 1 + b * 100 + c * 4 + 3 ∧
      ordinal = n400 * 146097 + b * 36524 + c * 1461 + 1461 := by
  by_cases whole : n100 = 4
  · refine ⟨3, 24, ?_, ?_, ?_, ?_, Nat.le_antisymm ?_ ?_⟩ <;> omega
  · refine ⟨n100, n4, ?_, ?_, ?_, ?_, Nat.le_antisymm ?_ ?_⟩ <;> omega

theorem lastYear_range {b c : Nat} (low : b ≤ 3) (high : c ≤ 24)
    (bound : n400 * 146097 + b * 36524 + c * 1461 + 1461 ≤ 3652059) :
    1 ≤ n400 * 400 + 1 + b * 100 + c * 4 + 3 ∧ n400 * 400 + 1 + b * 100 + c * 4 + 3 ≤ 9999 := by
  omega

end Cycles

/-- An ordinal within the years 1 to 9999 is the ordinal of its date. -/
theorem ordinalToYmd_exact {ordinal : Nat} (first : 1 ≤ ordinal) (last : ordinal ≤ 3652059) :
    validDate (ordinalToYmd ordinal).1 (ordinalToYmd ordinal).2.1 (ordinalToYmd ordinal).2.2 = true ∧
      ymdToOrdinal (ordinalToYmd ordinal).1 (ordinalToYmd ordinal).2.1
        (ordinalToYmd ordinal).2.2 = ordinal := by
  obtain ⟨n400, n100, n4, n1, n, cycles⟩ : ∃ n400 n100 n4 n1 n, Cycles ordinal n400 n100 n4 n1 n :=
    ⟨_, _, _, _, _, rfl, rfl, rfl, rfl, rfl⟩
  have sum := cycles.sum first
  obtain ⟨quads, within, centuries, years, century, quad⟩ := cycles.bounds
  by_cases complete : n1 = 4 ∨ n100 = 4
  · -- the year before is the last one of the cycle, which is a leap year
    obtain ⟨b, c, low, high, kept, year, day⟩ := lastYear sum complete quads centuries century quad
    have before := @daysBeforeYear_cycles n400 b c 3 low high (Nat.le_refl 3)
    have december := lastDay_leap ((@isLeap_cycles n400 b c 3 low high (Nat.le_refl 3)).mpr ⟨rfl, kept⟩)
    rw [ordinalToYmd_complete cycles complete, year]
    constructor
    · have bound := day ▸ last
      have range := lastYear_range low high bound
      simp [validDate, daysInMonth, range]
    · rw [ymdToOrdinal, before, day, Nat.add_assoc, december]
  · have single : n100 ≤ 3 ∧ n1 ≤ 3 := by omega
    have before := @daysBeforeYear_cycles n400 n100 n4 n1 single.1 quads single.2
    obtain ⟨year, known⟩ : ∃ year, year = n400 * 400 + 1 + n100 * 100 + n4 * 4 + n1 := ⟨_, rfl⟩
    rw [← known] at before
    rw [ordinalToYmd_within cycles complete known]
    obtain ⟨one, twelve, passed, fits⟩ := @dayOfYear_split year n within
    dsimp only
    generalize (if daysBeforeMonth year ((n + 50) / 32) > n then (n + 50) / 32 - 1
      else (n + 50) / 32) = month at *
    constructor
    · simp only [validDate, Bool.and_eq_true, decide_eq_true_eq]
      omega
    · rw [ymdToOrdinal, before]
      omega

end DateTime

end RcaBackend
