import StateAudit.Proofs.DoubleArithmetic
import StateAudit.Proofs.ShortestDecimal
import Mathlib.Algebra.Order.Ring.Pow

/-! How far off roundings lead. One rounding moves an amount by no more than one part in `2 ^ 53`,
and the places of two doubles that far apart are next to each other, so roundings are counted and
the count is a distance in places. -/

namespace StateAudit.Binary64

/-- The quotient of the last two rows of a binade, the closest that two neighbours can be. -/
def ratio : ℚ := 1 + 1 / 9007199254740991

theorem one_le_ratio : 1 ≤ ratio := by norm_num [ratio]

theorem ratio_pow_pos (steps : Nat) : 0 < ratio ^ steps := pow_pos (lt_of_lt_of_le zero_lt_one one_le_ratio) steps

/-- Two amounts that so many roundings can bring to one another. -/
structure Within (steps : Nat) (amount other : ℚ) : Prop where
  above : amount ≤ other * ratio ^ steps
  below : other ≤ amount * ratio ^ steps

namespace Within
variable {steps more : Nat} {amount other third fourth : ℚ}

theorem refl (amount : ℚ) : Within 0 amount amount := by
  have same : amount ≤ amount * ratio ^ 0 := by rw [pow_zero, mul_one]
  exact ⟨same, same⟩

theorem trans (first : Within steps amount other) (second : Within more other third) :
    Within (steps + more) amount third := by
  have unit := (ratio_pow_pos steps).le
  have last := (ratio_pow_pos more).le
  constructor
  · calc amount ≤ other * ratio ^ steps := first.above
      _ ≤ third * ratio ^ more * ratio ^ steps := mul_le_mul_of_nonneg_right second.above unit
      _ = third * ratio ^ (steps + more) := by rw [pow_add]; ring
  · calc third ≤ other * ratio ^ more := second.below
      _ ≤ amount * ratio ^ steps * ratio ^ more := mul_le_mul_of_nonneg_right first.below last
      _ = amount * ratio ^ (steps + more) := by rw [pow_add]; ring

theorem mul (first : Within steps amount other) (second : Within more third fourth)
    (nonneg : 0 ≤ amount ∧ 0 ≤ other ∧ 0 ≤ third ∧ 0 ≤ fourth) :
    Within (steps + more) (amount * third) (other * fourth) := by
  obtain ⟨left, right, up, down⟩ := nonneg
  have unit := (ratio_pow_pos steps).le
  constructor
  · calc amount * third ≤ other * ratio ^ steps * (fourth * ratio ^ more) :=
          mul_le_mul first.above second.above up (mul_nonneg right unit)
      _ = other * fourth * ratio ^ (steps + more) := by rw [pow_add]; ring
  · calc other * fourth ≤ amount * ratio ^ steps * (third * ratio ^ more) :=
          mul_le_mul first.below second.below down (mul_nonneg left unit)
      _ = amount * third * ratio ^ (steps + more) := by rw [pow_add]; ring

theorem div (first : Within steps amount other) (second : Within more third fourth)
    (nonneg : 0 ≤ amount ∧ 0 ≤ other) (positive : 0 < third ∧ 0 < fourth) :
    Within (steps + more) (amount / third) (other / fourth) := by
  obtain ⟨left, right⟩ := nonneg
  obtain ⟨up, down⟩ := positive
  have unit := (ratio_pow_pos steps).le
  constructor
  · rw [div_mul_eq_mul_div, div_le_div_iff₀ up down]
    calc amount * fourth ≤ other * ratio ^ steps * (third * ratio ^ more) :=
          mul_le_mul first.above second.below down.le (mul_nonneg right unit)
      _ = other * ratio ^ (steps + more) * third := by rw [pow_add]; ring
  · rw [div_mul_eq_mul_div, div_le_div_iff₀ down up]
    calc other * third ≤ amount * ratio ^ steps * (fourth * ratio ^ more) :=
          mul_le_mul first.below second.above up.le (mul_nonneg left unit)
      _ = amount * ratio ^ (steps + more) * fourth := by rw [pow_add]; ring

end Within

/-- A place further on the magnitude is greater by the ratio at least. -/
theorem unitsAt_ratio (code steps : Nat) : unitsAt code * ratio ^ steps ≤ unitsAt (code + steps) := by
  have next (code : Nat) : unitsAt code * ratio ≤ unitsAt (code + 1) := by
    obtain ⟨shift, row, small, full, place, power⟩ := exists_place code
    have current : unitsAt code = row * 2 ^ shift := by rw [place, unitsAt_place (Nat.le_of_lt small) full]
    have last : row ≤ 9007199254740991 := by
      rw [binade_eq] at small
      omega
    have least : (row : ℚ) ≤ 9007199254740991 := by exact_mod_cast last
    have unit : (0 : ℚ) < 2 ^ shift := by positivity
    rw [unitsAt_succ, power, current, ratio]
    push_cast
    have part : (row : ℚ) * 2 ^ shift * (1 / 9007199254740991) ≤ 2 ^ shift := by
      rw [mul_one_div, div_le_iff₀ (by norm_num), mul_comm]
      exact mul_le_mul_of_nonneg_left least unit.le
    linarith
  induction steps with
  | zero => simp
  | succ steps ih =>
    calc unitsAt code * ratio ^ (steps + 1) = unitsAt code * ratio ^ steps * ratio := by rw [pow_succ]; ring
      _ ≤ unitsAt (code + steps) * ratio := mul_le_mul_of_nonneg_right ih (le_trans zero_le_one one_le_ratio)
      _ ≤ unitsAt (code + steps + 1) := next (code + steps)

/-- Half a unit more, where the unit is a small enough part of the amount. -/
theorem add_half_le {amount unit steps : Nat} (part : 9007199254740991 * unit ≤ steps * (2 * amount)) :
    (amount + unit / 2 : ℚ) ≤ amount * ratio ^ steps := by
  have bernoulli : 1 + steps * (1 / 9007199254740991 : ℚ) ≤ ratio ^ steps := one_add_mul_le_pow (by norm_num) steps
  have more : (amount : ℚ) * (1 + steps * (1 / 9007199254740991)) ≤ amount * ratio ^ steps :=
    mul_le_mul_of_nonneg_left bernoulli (Nat.cast_nonneg amount)
  have part : (9007199254740991 * unit : ℚ) ≤ steps * (2 * amount) := by exact_mod_cast part
  linarith

/-- One rounding, of a quotient that is not much below the smallest magnitude of full precision. -/
theorem within_placeOf {numerator denominator steps : Nat} (positive : 0 < denominator) (some : 0 < steps)
    (least : (binade + steps) * denominator ≤ steps * numerator) :
    Within steps (unitsAt (placeOf numerator denominator)) (numerator / denominator) := by
  obtain ⟨shift, row, small, full, ⟨_, above⟩, place, ⟨up, down⟩, _⟩ := exists_rounded numerator positive
  rw [place, unitsAt_place small full]
  have amount : ((row * 2 ^ shift : Nat) : ℚ) = (row * (2 ^ shift * denominator) : Nat) / denominator := by
    rw [eq_div_iff (by exact_mod_cast Nat.ne_of_gt positive)]
    push_cast
    ring
  -- Half the spacing is a small part of the quotient and of what it is rounded to.
  have parts : 9007199254740991 * (2 ^ shift * denominator) ≤ steps * (2 * (row * (2 ^ shift * denominator))) ∧
      9007199254740991 * (2 ^ shift * denominator) ≤ steps * (2 * numerator) := by
    obtain rfl | large := Nat.eq_zero_or_pos shift
    · simp only [Nat.pow_zero, Nat.one_mul] at *
      have further := Nat.mul_le_mul_left steps down
      have spare := Nat.zero_le (steps * denominator)
      rw [binade_eq] at least
      constructor <;> linarith
    · have nonzero : shift ≠ 0 := Nat.ne_of_gt large
      have first := Nat.mul_le_mul_right (2 ^ shift * denominator) (full.resolve_left nonzero)
      have second := above.resolve_left nonzero
      rw [binade_eq] at first second
      constructor
      · refine Nat.le_trans ?_ (Nat.le_mul_of_pos_left _ some)
        omega
      · refine Nat.le_trans ?_ (Nat.le_mul_of_pos_left _ some)
        omega
  have whole : Within steps (row * (2 ^ shift * denominator) : Nat) numerator := by
    generalize row * (2 ^ shift * denominator) = found at *
    generalize 2 ^ shift * denominator = unit at *
    have up : (2 * found : ℚ) ≤ 2 * numerator + unit := by exact_mod_cast up
    have down : (2 * numerator : ℚ) ≤ 2 * found + unit := by exact_mod_cast down
    exact ⟨le_trans (by linarith) (add_half_le parts.2), le_trans (by linarith) (add_half_le parts.1)⟩
  have unit : (0 : ℚ) < denominator := by exact_mod_cast positive
  rw [amount]
  exact whole.div (Within.refl (denominator : ℚ)) ⟨Nat.cast_nonneg _, Nat.cast_nonneg _⟩ ⟨unit, unit⟩

section Nearest
variable {code numerator denominator steps : Nat} {amount : ℚ} (positive : 0 < denominator)
  (enclosed : Decimal.Enclosed code amount) (within : Within steps (numerator / denominator) amount)

include positive enclosed within

theorem nearestCode_le : nearestCode numerator denominator ≤ code + 1 + steps := by
  obtain high | low := Nat.lt_or_ge infinityCode (code + 1 + steps)
  · exact Nat.le_trans (Nat.min_le_left _ _) (Nat.le_of_lt high)
  · have unit : (0 : ℚ) < denominator := by exact_mod_cast positive
    have greatest : amount ≤ unitsAt (code + 1) := by
      have mono : (unitsAt code : ℚ) ≤ unitsAt (code + 1) := by
        exact_mod_cast unitsAt_strictMono.monotone (Nat.le_succ code)
      have := enclosed.below.elim le_of_lt (fun same => le_of_eq same.1)
      linarith
    have below : (numerator / denominator : ℚ) ≤ unitsAt (code + 1 + steps) :=
      calc (numerator / denominator : ℚ) ≤ amount * ratio ^ steps := within.above
        _ ≤ unitsAt (code + 1) * ratio ^ steps := mul_le_mul_of_nonneg_right greatest (ratio_pow_pos steps).le
        _ ≤ unitsAt (code + 1 + steps) := unitsAt_ratio (code + 1) steps
    rw [div_le_iff₀ unit] at below
    rw [← nearestCode_unitsAt (show 0 < 1 by decide) low]
    refine nearestCode_mono numerator positive (by decide) ?_
    rw [Nat.mul_one, Nat.mul_one]
    exact_mod_cast below

theorem le_nearestCode (finite : code ≤ infinityCode) : code ≤ nearestCode numerator denominator + 1 + steps := by
  obtain near | far := Nat.lt_or_ge code (1 + steps)
  · omega
  · obtain ⟨low, rfl⟩ : ∃ low, code = low + steps + 1 := ⟨code - (1 + steps), by omega⟩
    have unit : (0 : ℚ) < denominator := by exact_mod_cast positive
    have least : (unitsAt (low + steps) : ℚ) ≤ amount := by
      have mono : (unitsAt (low + steps) : ℚ) ≤ unitsAt (low + steps + 1) := by
        exact_mod_cast unitsAt_strictMono.monotone (Nat.le_succ _)
      have := enclosed.above.elim le_of_lt (fun same => le_of_eq same.1)
      rw [Nat.add_sub_cancel] at this
      linarith
    have above : (unitsAt low : ℚ) ≤ numerator / denominator := by
      refine le_of_mul_le_mul_right ?_ (ratio_pow_pos steps)
      exact le_trans (le_trans (unitsAt_ratio low steps) least) within.below
    rw [le_div_iff₀ unit] at above
    have found : low ≤ nearestCode numerator denominator := by
      rw [← nearestCode_unitsAt (show 0 < 1 by decide) (show low ≤ infinityCode by omega)]
      refine nearestCode_mono _ (by decide) positive ?_
      rw [Nat.mul_one, Nat.mul_one]
      exact_mod_cast above
    omega

/-- Each rounding before the last one moves the place by no more than one, and so does the last. -/
theorem nearestCode_within (finite : code ≤ infinityCode) :
    nearestCode numerator denominator ≤ code + 1 + steps ∧ code ≤ nearestCode numerator denominator + 1 + steps :=
  ⟨nearestCode_le positive enclosed within, le_nearestCode positive enclosed within finite⟩

end Nearest

theorem within_units {numerator denominator steps : Nat} {negative : Bool} (positive : 0 < denominator) (some : 0 < steps)
    (finite : (ofRatio negative numerator denominator).isFinite = true)
    (least : (binade + steps) * denominator ≤ steps * numerator) :
    Within steps (ofRatio negative numerator denominator).units (numerator / denominator) := by
  rw [isFinite_iff] at finite
  have place : (ofRatio negative numerator denominator).code = placeOf numerator denominator := by
    rw [(ofRatio_eq _ _ _).2, nearestCode_eq] at finite ⊢
    omega
  rw [units, place]
  exact within_placeOf positive some least

theorem within_ofNat {value : Nat} (inner : 0 < value) (finite : (ofNat value).isFinite = true) :
    Within 1 (ofNat value).units (value * one) := by
  have least : (binade + 1) * 1 ≤ 1 * one := by decide +kernel
  have more := Nat.le_mul_of_pos_left one inner
  have near := within_units (by decide) (by decide) finite (show (binade + 1) * 1 ≤ 1 * (value * one) by omega)
  rw [Nat.cast_one, div_one, Nat.cast_mul] at near
  exact near

end StateAudit.Binary64
