import StateAudit.Json.Numeral
import StateAudit.Proofs.RoundingError

/-! A significand times a power of ten, as the reader of numbers scales it. No finite double is
written so that it scales to infinity. Where significand and power are doubles themselves the one
rounding that is left finds the double that was written; elsewhere it is seven places off at most. -/

namespace StateAudit

namespace Json.Numeral

open Binary64

theorem isFinite_ofNat {value : Nat} (word : value < wordLimit) : (ofNat value).isFinite = true := by
  have last : (ofNat wordLimit).code < infinityCode := by decide +kernel
  exact isFinite_iff.2 (Nat.lt_of_le_of_lt (code_ofNat_mono (Nat.le_of_lt word)) last)

theorem code_powerOfTen_mono {exponent other : Nat} (le : exponent ≤ other) :
    (powerOfTen exponent).code ≤ (powerOfTen other).code :=
  code_ofNat_mono (Nat.pow_le_pow_right (by decide) le)

theorem powerOfTen_range {exponent : Nat} (small : exponent ≤ 308) :
    (powerOfTen exponent).isFinite = true ∧ one ≤ (powerOfTen exponent).units := by
  have last : (powerOfTen 308).code < infinityCode := by decide +kernel
  exact ⟨isFinite_iff.2 (Nat.lt_of_le_of_lt (code_powerOfTen_mono small) last), one_le_ofNat (Nat.pow_pos (by decide))⟩

theorem code_powerOfTen {exponent : Nat} (small : exponent ≤ 308) : (powerOfTen exponent).code ≠ 0 :=
  code_ne_zero (powerOfTen_range small).2

theorem within_powerOfTen {exponent : Nat} (small : exponent ≤ 308) :
    Within 1 (powerOfTen exponent).units (10 ^ exponent * one) := by
  have near := within_ofNat (Nat.pow_pos (show 0 < 10 by decide)) (powerOfTen_range small).1
  rw [Nat.cast_pow] at near
  rw [powerOfTen, Nat.pow_eq]
  exact near

theorem isFinite_divideDown {x : Binary64} (finite : x.isFinite = true) (steps : Nat) :
    (divideDown x steps).isFinite = true := by
  induction steps generalizing x with
  | zero => exact finite
  | succ steps ih =>
    rw [divideDown]
    split
    · exact finite
    · exact ih (isFinite_div finite (powerOfTen_range (by decide)).1 (powerOfTen_range (by decide)).2)

theorem isFinite_scaleDown {x : Binary64} (finite : x.isFinite = true) (exponent : Nat) :
    (scaleDown x exponent).isFinite = true := by
  have range := powerOfTen_range (show exponent - 308 * ((exponent - 1) / 308) ≤ 308 by omega)
  exact isFinite_div (isFinite_divideDown finite _) range.1 range.2

/-- What a number scales to is finite. -/
theorem isFinite_scale? {significand : Nat} {exponent : Int} {x : Binary64} (word : significand < wordLimit)
    (scaled : scale? significand exponent = some x) : x.isFinite = true := by
  have finite := isFinite_ofNat word
  simp only [scale?] at scaled
  split at scaled
  · obtain rfl := Option.some.inj scaled
    exact isFinite_scaleDown finite _
  · split at scaled
    next small =>
      split at scaled
      · cases scaled
      next within =>
        obtain rfl := Option.some.inj scaled
        rw [mul_finite finite (powerOfTen_range (by omega)).1] at within ⊢
        have bounded := Nat.min_le_left infinityCode
        simp only [isInfinite, beq_iff_eq, (ofRatio_eq _ _ _).2, isFinite_iff, nearestCode_eq] at within ⊢
        omega
    next =>
      split at scaled
      · obtain rfl := Option.some.inj scaled
        exact finite
      · cases scaled

/-- What a number scales to has no sign. -/
theorem unsigned_scale? {significand : Nat} {exponent : Int} {x : Binary64}
    (scaled : scale? significand exponent = some x) : x.negative = false := by
  have power (exponent : Nat) : (powerOfTen exponent).negative = false := (ofNat_eq _).1
  have down (x : Binary64) (unsigned : x.negative = false) (steps : Nat) : (divideDown x steps).negative = false := by
    induction steps generalizing x with
    | zero => exact unsigned
    | succ steps ih =>
      rw [divideDown]
      split
      · exact unsigned
      · exact ih _ (unsigned_div unsigned (power 308))
  have unsigned := (ofNat_eq significand).1
  simp only [scale?] at scaled
  split at scaled
  · obtain rfl := Option.some.inj scaled
    exact unsigned_div (down _ unsigned _) (power _)
  · split at scaled
    · split at scaled
      · cases scaled
      · obtain rfl := Option.some.inj scaled
        exact unsigned_mul unsigned (power _)
    · split at scaled
      · obtain rfl := Option.some.inj scaled
        exact unsigned
      · cases scaled

theorem code_product_mono {significand greater : Nat} {exponent larger : Nat} (word : greater < wordLimit)
    (small : larger ≤ 308) (first : significand ≤ greater) (second : exponent ≤ larger) :
    (ofNat significand * powerOfTen exponent).code ≤ (ofNat greater * powerOfTen larger).code := by
  rw [mul_finite (isFinite_ofNat (Nat.lt_of_le_of_lt first word)) (powerOfTen_range (Nat.le_trans second small)).1,
    mul_finite (isFinite_ofNat word) (powerOfTen_range small).1, (ofRatio_eq _ _ _).2, (ofRatio_eq _ _ _).2]
  refine nearestCode_mono _ Binary64.one_pos Binary64.one_pos (Nat.mul_le_mul_right one (Nat.mul_le_mul ?_ ?_))
  · exact unitsAt_strictMono.monotone (code_ofNat_mono first)
  · exact unitsAt_strictMono.monotone (code_powerOfTen_mono second)

/-- The greatest amount that the greatest finite magnitude but one is written as, doubled. -/
def writtenLimit : Nat := unitsAt (infinityCode - 1 - 1) + unitsAt (infinityCode - 1)

theorem exponent_lt {significand exponent least limit top : Nat} (large : least ≤ significand)
    (above : limit < 2 * (least * Nat.pow 10 top * one)) (within : 2 * (significand * Nat.pow 10 exponent * one) ≤ limit) :
    exponent < top := by
  by_contra further
  have power : Nat.pow 10 top ≤ Nat.pow 10 exponent := Nat.pow_le_pow_right (by decide) (Nat.le_of_not_lt further)
  have := Nat.mul_le_mul_right one (Nat.mul_le_mul large power)
  omega

/-- Between the limit and infinity there is room for one rounding before the last. -/
theorem writtenLimit_room : writtenLimit * 9007199254740992 <
    9007199254740991 * (unitsAt (infinityCode - 1) + unitsAt (infinityCode - 1 + 1)) := by
  decide +kernel

/-- A significand that is a double leaves room for the roundings of the power and of the product. -/
theorem product_finite {significand exponent : Nat} (short : significand ≤ 2 * binade) (small : exponent ≤ 308)
    (limit : 2 * (significand * Nat.pow 10 exponent * one) ≤ writtenLimit) :
    (ofNat significand * powerOfTen exponent).code < infinityCode := by
  have word : significand < wordLimit := Nat.lt_of_le_of_lt short (by decide)
  have last : infinityCode - 1 < infinityCode := by decide
  have power := (within_powerOfTen small).above
  rw [mul_finite (isFinite_ofNat word) (powerOfTen_range small).1, (ofRatio_eq _ _ _).2, nearestCode_eq, units_ofNat short]
  refine Nat.lt_of_le_of_lt (Nat.min_le_right _ _) (Nat.lt_of_le_of_lt (placeOf_le _ Binary64.one_pos (.inl ?_)) last)
  have room := writtenLimit_room
  have positive := Binary64.one_pos
  generalize unitsAt (infinityCode - 1) + unitsAt (infinityCode - 1 + 1) = midpoint at *
  generalize writtenLimit = greatest at *
  generalize (powerOfTen exponent).units = ten at *
  generalize one = unit at *
  rw [Nat.pow_eq] at limit
  rw [pow_one] at power
  have room : (greatest : ℚ) * ratio < midpoint := by
    have : (greatest * 9007199254740992 : ℚ) < 9007199254740991 * midpoint := by exact_mod_cast room
    rw [ratio]
    linarith
  have limit : (2 * (significand * 10 ^ exponent * unit) : ℚ) ≤ greatest := by exact_mod_cast limit
  have some : (0 : ℚ) < unit := by exact_mod_cast positive
  have scaled : (2 * (significand * unit * ten) : ℚ) < midpoint * unit :=
    calc (2 * (significand * unit * ten) : ℚ) ≤ 2 * (significand * unit * (10 ^ exponent * unit * ratio)) := by gcongr
      _ = 2 * (significand * 10 ^ exponent * unit) * ratio * unit := by ring
      _ ≤ greatest * ratio * unit := by
        have := le_trans zero_le_one one_le_ratio
        gcongr
      _ < midpoint * unit := mul_lt_mul_of_pos_right room some
  exact_mod_cast scaled

/-- The greatest significand that is within the limit before a power of ten. -/
def longestSignificand (exponent : Nat) : Nat := writtenLimit / (2 * (Nat.pow 10 exponent * one))

theorem le_longestSignificand {significand exponent : Nat}
    (limit : 2 * (significand * Nat.pow 10 exponent * one) ≤ writtenLimit) : significand ≤ longestSignificand exponent := by
  have power : 0 < Nat.pow 10 exponent := Nat.pow_pos (by decide)
  rw [longestSignificand, Nat.le_div_iff_mul_le (Nat.mul_pos (by decide) (Nat.mul_pos power Binary64.one_pos)),
    Nat.mul_left_comm, ← Nat.mul_assoc significand]
  exact limit

theorem scale?_isSome {significand exponent : Nat} (inner : 0 < significand) (digits : significand ≤ 10 ^ 17)
    (limit : 2 * (significand * Nat.pow 10 exponent * one) ≤ writtenLimit) :
    (scale? significand exponent).isSome = true := by
  have word : (10 : Nat) ^ 17 < wordLimit := by decide
  have small : exponent ≤ 308 := Nat.le_of_lt_succ (exponent_lt inner (by decide +kernel) limit)
  have within : (ofNat significand * powerOfTen exponent).code < infinityCode := by
    obtain short | long := Nat.le_total significand (2 * binade)
    · exact product_finite short small limit
    · have less : exponent ≤ 292 := Nat.le_of_lt_succ (exponent_lt long (by decide +kernel) limit)
      have most := le_longestSignificand limit
      obtain low | rfl := Nat.lt_or_eq_of_le less
      · have last : (ofNat (10 ^ 17) * powerOfTen 291).code < infinityCode := by decide +kernel
        exact Nat.lt_of_le_of_lt (code_product_mono word (by decide) digits (Nat.le_of_lt_succ low)) last
      · have bounded : longestSignificand 292 < wordLimit := by decide +kernel
        have last : (ofNat (longestSignificand 292) * powerOfTen 292).code < infinityCode := by decide +kernel
        exact Nat.lt_of_le_of_lt (code_product_mono bounded (by decide) most (Nat.le_refl _)) last
  have finite : (ofNat significand * powerOfTen exponent).isInfinite = false := beq_eq_false_iff_ne.2 (Nat.ne_of_lt within)
  rw [scale?, if_neg (by omega), if_pos (by omega)]
  simp only [Int.natAbs_natCast, finite]
  rfl

/-- The greatest finite magnitude by its digits: the next decimal of as many would scale to infinity. -/
theorem scale?_greatest : (scale? (Decimal.value (Decimal.significant (infinityCode - 1)).1)
    (Decimal.significant (infinityCode - 1)).2).isSome = true := by
  decide +kernel

/-- What a finite magnitude is written as scales to a number. -/
theorem scale?_significant {code : Nat} (bounded : code < infinityCode) :
    let written := Decimal.significant code
    (scale? (Decimal.value written.1) written.2).isSome = true := by
  intro written
  obtain ⟨_, digits, _, ⟨_, zero⟩ | ⟨inner, positive, enclosed⟩⟩ := Decimal.significant_spec bounded
  · simp only [written, zero]
    decide +kernel
  · obtain below | last := Nat.lt_or_eq_of_le (Nat.le_sub_one_of_lt bounded)
    · obtain negative | nonnegative := lt_or_ge written.2 0
      · simp only [scale?, if_pos negative, Option.isSome_some]
      · obtain ⟨exponent, same⟩ := Int.eq_ofNat_of_zero_le nonnegative
        rw [show (Decimal.significant code).2 = exponent from same, zpow_natCast] at enclosed
        rw [same]
        exact scale?_isSome positive digits (enclosed.le_midpoint below)
    · subst last
      exact scale?_greatest

theorem units_powerOfTen {exponent : Nat} (small : exponent ≤ 22) :
    (powerOfTen exponent).units = Nat.pow 10 exponent * one := by
  have fives : 5 ^ exponent ≤ 2 * binade := Nat.le_trans (Nat.pow_le_pow_right (by decide) small) (by decide)
  have amount : Nat.pow 10 exponent = 5 ^ exponent * 2 ^ exponent := Nat.mul_pow 5 2 exponent
  have finite := (powerOfTen_range (show exponent ≤ 308 by omega)).1
  rw [powerOfTen, amount] at *
  exact units_ofNat_shifted fives finite

section Exact
variable {code significand : Nat} (bounded : code < infinityCode) (small : significand ≤ 2 * binade)

include bounded small

theorem div_exact {down : Nat} (range : down ≤ 22) (enclosed : Decimal.Enclosed code (significand * one / 10 ^ down)) :
    (ofNat significand / powerOfTen down).code = code := by
  have finite := isFinite_ofNat (Nat.lt_of_le_of_lt small (by decide))
  have power := powerOfTen_range (show down ≤ 308 by omega)
  rw [div_finite finite power.1 (code_powerOfTen (by omega)), (ofRatio_eq _ _ _).2, units_ofNat small,
    units_powerOfTen range]
  refine enclosed.nearestCode_eq (Nat.le_of_lt bounded) (Nat.mul_pos (Nat.pow_pos (by decide)) Binary64.one_pos) ?_
  generalize one = unit
  simp only [Nat.pow_eq]
  push_cast
  field_simp

theorem product_exact {up : Nat} (range : up ≤ 22) (enclosed : Decimal.Enclosed code (significand * 10 ^ up * one)) :
    (ofNat significand * powerOfTen up).code = code := by
  have finite := isFinite_ofNat (Nat.lt_of_le_of_lt small (by decide))
  have power := powerOfTen_range (show up ≤ 308 by omega)
  rw [mul_finite finite power.1, (ofRatio_eq _ _ _).2, units_ofNat small, units_powerOfTen range]
  refine enclosed.nearestCode_eq (Nat.le_of_lt bounded) Binary64.one_pos ?_
  simp only [Nat.pow_eq]
  push_cast
  ring

/-- Where significand and power are doubles, the scaled number is rounded once. -/
theorem scale?_exact {exponent : Int} (range : -22 ≤ exponent ∧ exponent ≤ 22)
    (enclosed : Decimal.Enclosed code (significand * 10 ^ exponent * one)) :
    ∃ x, scale? significand exponent = some x ∧ x.negative = false ∧ x.code = code := by
  obtain below | nonnegative := lt_or_ge exponent 0
  · obtain ⟨down, rfl⟩ : ∃ down : Nat, exponent = -down := ⟨exponent.natAbs, by omega⟩
    rw [zpow_neg, zpow_natCast, mul_right_comm, ← div_eq_mul_inv] at enclosed
    have once : (down - 1) / 308 = 0 := Nat.div_eq_of_lt (by omega)
    have scaled : scale? significand (-down) = some (ofNat significand / powerOfTen down) := by
      simp only [scale?, if_pos below, scaleDown, Int.natAbs_neg, Int.natAbs_natCast, once, divideDown, Nat.mul_zero,
        Nat.sub_zero]
    exact ⟨_, scaled, unsigned_scale? scaled, div_exact bounded small (by omega) enclosed⟩
  · obtain ⟨up, rfl⟩ := Int.eq_ofNat_of_zero_le nonnegative
    rw [zpow_natCast] at enclosed
    have product := product_exact bounded small (show up ≤ 22 by omega) enclosed
    have within : (ofNat significand * powerOfTen up).isInfinite = false := by
      rw [isInfinite, product]
      exact beq_eq_false_iff_ne.2 (Nat.ne_of_lt bounded)
    have scaled : scale? significand up = some (ofNat significand * powerOfTen up) := by
      rw [scale?, if_neg (by omega), if_pos (by omega)]
      simp only [Int.natAbs_natCast, within, Bool.false_eq_true, ite_false]
    exact ⟨_, scaled, unsigned_scale? scaled, product⟩

end Exact

section Division
variable {y : Binary64} {amount : ℚ} {steps down : Nat} (near : Within steps y.units amount) (small : down ≤ 308)

include near small

/-- What is to be rounded when an amount is divided by a power of ten. -/
theorem within_quotient (nonneg : 0 ≤ amount) :
    Within (steps + 1) ((y.units * one : Nat) / (powerOfTen down).units) (amount / 10 ^ down) := by
  have unit : (0 : ℚ) < one := by exact_mod_cast Binary64.one_pos
  have power : (0 : ℚ) < (powerOfTen down).units := by
    exact_mod_cast Nat.lt_of_lt_of_le Binary64.one_pos (powerOfTen_range small).2
  have quotient := (near.mul (Within.refl (one : ℚ)) ⟨Nat.cast_nonneg _, nonneg, unit.le, unit.le⟩).div (within_powerOfTen small)
    ⟨mul_nonneg (Nat.cast_nonneg _) unit.le, mul_nonneg nonneg unit.le⟩ ⟨power, mul_pos (by positivity) unit⟩
  rw [mul_div_mul_right _ _ unit.ne'] at quotient
  rw [Nat.cast_mul]
  exact quotient

theorem div_within {code : Nat} (finite : y.isFinite = true) (bounded : code < infinityCode) (nonneg : 0 ≤ amount)
    (enclosed : Decimal.Enclosed code (amount / 10 ^ down)) :
    (y / powerOfTen down).code ≤ code + 1 + (steps + 1) ∧ code ≤ (y / powerOfTen down).code + 1 + (steps + 1) := by
  obtain ⟨power, large⟩ := powerOfTen_range small
  have positive := Nat.lt_of_lt_of_le Binary64.one_pos large
  rw [div_finite finite power (code_powerOfTen small), (ofRatio_eq _ _ _).2]
  exact nearestCode_within positive enclosed (within_quotient near small nonneg) (Nat.le_of_lt bounded)

end Division

/-- The first of two divisions may end a little below full precision. -/
theorem within_divided {significand : Nat} (inner : 0 < significand) (word : significand < wordLimit) :
    Within 5 (ofNat significand / powerOfTen 308).units (significand * one / 10 ^ 308) := by
  have finite := isFinite_ofNat word
  obtain ⟨power, large⟩ := powerOfTen_range (Nat.le_refl 308)
  have unit : (0 : ℚ) < one := by exact_mod_cast Binary64.one_pos
  have quotient := within_quotient (within_ofNat inner finite) (Nat.le_refl 308)
    (mul_nonneg (Nat.cast_nonneg _) unit.le)
  have least : (binade + 3) * (powerOfTen 308).units ≤ 3 * (one * one) := by decide +kernel
  have more := Nat.mul_le_mul_right one (one_le_ofNat inner)
  have once := isFinite_div finite power large
  rw [div_finite finite power (code_powerOfTen (Nat.le_refl 308))] at once ⊢
  have rounded := within_units (Nat.lt_of_lt_of_le Binary64.one_pos large) (show 0 < 3 by decide) once
    (Nat.le_trans least (Nat.mul_le_mul_left 3 more))
  exact rounded.trans quotient

section Within
variable {code significand : Nat} (bounded : code < infinityCode) (inner : 0 < significand) (word : significand < wordLimit)

include bounded inner word

theorem product_within {up : Nat} (small : up ≤ 308) (enclosed : Decimal.Enclosed code (significand * 10 ^ up * one)) :
    (ofNat significand * powerOfTen up).code ≤ code + 1 + 2 ∧ code ≤ (ofNat significand * powerOfTen up).code + 1 + 2 := by
  have finite := isFinite_ofNat word
  have unit : (0 : ℚ) < one := by exact_mod_cast Binary64.one_pos
  have amount : (0 : ℚ) ≤ significand * one := mul_nonneg (Nat.cast_nonneg _) unit.le
  have ten : (0 : ℚ) ≤ 10 ^ up * one := mul_nonneg (by positivity) unit.le
  have product := (within_ofNat inner finite).mul (within_powerOfTen small) ⟨Nat.cast_nonneg _, amount, Nat.cast_nonneg _, ten⟩
  have scaled := product.div (Within.refl (one : ℚ))
    ⟨mul_nonneg (Nat.cast_nonneg _) (Nat.cast_nonneg _), mul_nonneg amount ten⟩ ⟨unit, unit⟩
  rw [← mul_assoc _ _ (one : ℚ), mul_div_cancel_right₀ _ unit.ne', mul_right_comm, ← Nat.cast_mul] at scaled
  rw [mul_finite finite (powerOfTen_range small).1, (ofRatio_eq _ _ _).2]
  exact nearestCode_within Binary64.one_pos enclosed scaled (Nat.le_of_lt bounded)

theorem scaleDown_within {down : Nat} (range : down ≤ 616)
    (enclosed : Decimal.Enclosed code (significand * one / 10 ^ down)) :
    (scaleDown (ofNat significand) down).code ≤ code + 7 ∧ code ≤ (scaleDown (ofNat significand) down).code + 7 := by
  have finite := isFinite_ofNat word
  have unit : (0 : ℚ) < one := by exact_mod_cast Binary64.one_pos
  have amount : (0 : ℚ) ≤ significand * one := mul_nonneg (Nat.cast_nonneg _) unit.le
  simp only [scaleDown]
  obtain once | twice : (down - 1) / 308 = 0 ∧ down ≤ 308 ∨ (down - 1) / 308 = 1 ∧ 308 ≤ down := by omega
  · obtain ⟨steps, small⟩ := once
    have near := div_within (within_ofNat inner finite) small finite bounded amount enclosed
    rw [steps, divideDown, Nat.mul_zero, Nat.sub_zero]
    omega
  · obtain ⟨steps, least⟩ := twice
    obtain ⟨more, rfl⟩ := Nat.exists_eq_add_of_le least
    obtain ⟨power, large⟩ := powerOfTen_range (Nat.le_refl 308)
    rw [pow_add, ← div_div] at enclosed
    have near := div_within (within_divided inner word) (show more ≤ 308 by omega) (isFinite_div finite power large) bounded
      (div_nonneg amount (pow_pos (by norm_num) 308).le) enclosed
    rw [steps, divideDown, if_neg (code_ne_zero (one_le_ofNat inner)), divideDown, Nat.mul_one, Nat.add_sub_cancel_left]
    omega

/-- Whatever is read from a decimal between the midpoints is seven places off at most. -/
theorem scale?_within {exponent : Int} {x : Binary64} (range : -616 ≤ exponent)
    (enclosed : Decimal.Enclosed code (significand * 10 ^ exponent * one)) (scaled : scale? significand exponent = some x) :
    x.code ≤ code + 7 ∧ code ≤ x.code + 7 := by
  rw [scale?] at scaled
  split at scaled
  next below =>
    obtain ⟨down, rfl⟩ : ∃ down : Nat, exponent = -down := ⟨exponent.natAbs, by omega⟩
    rw [zpow_neg, zpow_natCast, mul_right_comm, ← div_eq_mul_inv] at enclosed
    rw [Int.natAbs_neg, Int.natAbs_natCast] at scaled
    obtain rfl := Option.some.inj scaled
    exact scaleDown_within bounded inner word (by omega) enclosed
  next nonnegative =>
    obtain ⟨up, rfl⟩ := Int.eq_ofNat_of_zero_le (not_lt.1 nonnegative)
    rw [zpow_natCast] at enclosed
    rw [Int.natAbs_natCast] at scaled
    split at scaled
    next small =>
      simp only at scaled
      split at scaled
      · cases scaled
      · obtain rfl := Option.some.inj scaled
        have near := product_within bounded inner word (show up ≤ 308 by omega) enclosed
        omega
    next =>
      rw [if_neg (Nat.ne_of_gt inner)] at scaled
      cases scaled

end Within

end Json.Numeral

end StateAudit
