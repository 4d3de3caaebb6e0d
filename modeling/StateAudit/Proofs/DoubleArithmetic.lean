import StateAudit.Binary64.Arithmetic
import StateAudit.Proofs.DoubleRounding

/-! Products and quotients of doubles, and whole numbers as doubles. A sign and a place are all that
a double is; where the operands are finite the exact result is rounded once. -/

namespace StateAudit.Binary64

theorem eq_of_parts {x y : Binary64} (sign : x.negative = y.negative) (code : x.code = y.code) : x = y := by
  obtain ⟨bits⟩ := x
  obtain ⟨others⟩ := y
  have half : signBit = 9223372036854775808 := rfl
  have small := bits.toNat_lt
  have bounded := others.toNat_lt
  simp only [negative, Binary64.code, half, decide_eq_decide] at sign code
  exact congrArg mk (UInt64.toNat_inj.1 (by omega))

theorem infinityCode_lt : infinityCode < signBit := by decide

theorem ofRatio_eq (negative : Bool) (numerator denominator : Nat) :
    (ofRatio negative numerator denominator).negative = negative ∧
      (ofRatio negative numerator denominator).code = nearestCode numerator denominator :=
  make_eq (Nat.lt_of_le_of_lt (Nat.min_le_left _ _) infinityCode_lt)

theorem isFinite_iff {x : Binary64} : x.isFinite = true ↔ x.code < infinityCode := decide_eq_true_iff

theorem isNaN_finite {x : Binary64} (finite : x.isFinite = true) : x.isNaN = false ∧ x.isInfinite = false := by
  rw [isFinite_iff] at finite
  simp only [isNaN, isInfinite, decide_eq_false_iff_not, beq_eq_false_iff_ne]
  omega

theorem neg_eq (x : Binary64) : (-x).negative = !x.negative ∧ (-x).code = x.code :=
  make_eq (Nat.mod_lt _ (by decide))

theorem mul_finite {x y : Binary64} (first : x.isFinite = true) (second : y.isFinite = true) :
    x * y = ofRatio (x.negative != y.negative) (x.units * y.units) one := by
  have hasMul : x * y = mul x y := rfl
  simp only [hasMul, mul, isNaN_finite first, isNaN_finite second, Bool.or_self, Bool.false_eq_true, ite_false]

theorem div_finite {x y : Binary64} (first : x.isFinite = true) (second : y.isFinite = true) (nonzero : y.code ≠ 0) :
    x / y = ofRatio (x.negative != y.negative) (x.units * one) y.units := by
  have hasDiv : x / y = div x y := rfl
  simp only [hasDiv, div, isNaN_finite first, isNaN_finite second, Bool.or_self, Bool.false_eq_true, ite_false,
    beq_iff_eq, nonzero]

theorem unsigned_mul {x y : Binary64} (first : x.negative = false) (second : y.negative = false) :
    (x * y).negative = false := by
  have hasMul : x * y = mul x y := rfl
  simp only [hasMul, mul, first, second, bne_self_eq_false]
  split
  · exact (make_eq (by decide)).1
  · split
    · split
      · exact (make_eq (by decide)).1
      · exact (make_eq infinityCode_lt).1
    · exact (ofRatio_eq _ _ _).1

theorem unsigned_div {x y : Binary64} (first : x.negative = false) (second : y.negative = false) :
    (x / y).negative = false := by
  have unknown : nan.negative = false := (make_eq (by decide)).1
  have infinite : (infinity false).negative = false := (make_eq infinityCode_lt).1
  have hasDiv : x / y = div x y := rfl
  simp only [hasDiv, div, first, second, bne_self_eq_false]
  split
  · exact unknown
  · split
    · split
      · exact unknown
      · exact infinite
    · split
      · exact (make_eq (by decide)).1
      · split
        · split
          · exact unknown
          · exact infinite
        · exact (ofRatio_eq _ _ _).1

theorem code_ne_zero {x : Binary64} (large : one ≤ x.units) : x.code ≠ 0 := by
  intro zero
  have none : x.units = 0 := by rw [units, zero]; decide
  rw [none] at large
  exact Nat.not_lt.2 large one_pos

/-- Division by one or more stays finite. -/
theorem isFinite_div {x y : Binary64} (first : x.isFinite = true) (second : y.isFinite = true)
    (large : one ≤ y.units) : (x / y).isFinite = true := by
  have nonzero := code_ne_zero large
  have code : x.code < infinityCode := isFinite_iff.1 first
  rw [isFinite_iff, div_finite first second nonzero, (ofRatio_eq _ _ _).2]
  refine Nat.lt_of_le_of_lt ?_ code
  rw [← nearestCode_unitsAt one_pos (Nat.le_of_lt code)]
  exact nearestCode_mono _ (Nat.lt_of_lt_of_le one_pos large) one_pos (Nat.mul_le_mul_left _ large)

theorem ofNat_eq (value : Nat) : (ofNat value).negative = false ∧ (ofNat value).code = nearestCode (value * one) 1 :=
  ofRatio_eq false (value * one) 1

theorem code_ofNat_mono {value other : Nat} (le : value ≤ other) : (ofNat value).code ≤ (ofNat other).code := by
  rw [(ofNat_eq value).2, (ofNat_eq other).2]
  exact nearestCode_mono _ (by decide) (by decide) (Nat.mul_le_mul_right 1 (Nat.mul_le_mul_right one le))

/-- A whole number of no more than 53 bits is a double itself. -/
theorem unitsAt_placeOf {value : Nat} (small : value ≤ 2 * binade) (power : Nat) :
    unitsAt (placeOf (value * 2 ^ power) 1) = value * 2 ^ power := by
  obtain ⟨shift, row, bounded, full, ⟨_, above⟩, place, near, _⟩ := exists_rounded (value * 2 ^ power) (show 0 < 1 by decide)
  rw [place, unitsAt_place bounded full]
  rw [Nat.mul_one] at above near
  obtain ⟨count, whole⟩ : 2 ^ shift ∣ value * 2 ^ power := by
    obtain low | high := Nat.lt_or_ge power shift
    · -- Only the power of two after all rows of 53 bits is divided by its last bit.
      obtain ⟨more, rfl⟩ := Nat.exists_eq_add_of_lt low
      have full := above.resolve_left (by omega)
      have bits : 2 * binade * 2 ^ more * 2 ^ power ≤ value * 2 ^ power := by
        rw [Nat.pow_succ, Nat.pow_add] at full
        linarith
      have most := Nat.le_of_mul_le_mul_right bits (Nat.two_pow_pos power)
      have least := Nat.two_pow_pos more
      have last : 2 ^ more = 1 := by
        rw [binade_eq] at most small
        omega
      rw [last, Nat.mul_one] at most
      obtain rfl := Nat.le_antisymm small most
      refine ⟨binade, ?_⟩
      rw [Nat.pow_succ, Nat.pow_add, last]
      ring
    · exact Nat.dvd_mul_left_of_dvd (Nat.pow_dvd_pow 2 high) value
  have unit := Nat.two_pow_pos shift
  rw [whole, Nat.mul_comm (2 ^ shift)] at near ⊢
  refine congrArg (· * 2 ^ shift) (Nat.le_antisymm ?_ ?_)
  · have := Nat.le_of_mul_le_mul_right (show 2 * row * 2 ^ shift ≤ (2 * count + 1) * 2 ^ shift by linarith) unit
    omega
  · have := Nat.le_of_mul_le_mul_right (show 2 * count * 2 ^ shift ≤ (2 * row + 1) * 2 ^ shift by linarith) unit
    omega

theorem units_ofNat_shifted {value power : Nat} (small : value ≤ 2 * binade)
    (finite : (ofNat (value * 2 ^ power)).isFinite = true) : (ofNat (value * 2 ^ power)).units = value * 2 ^ power * one := by
  obtain ⟨more, same⟩ := exists_one
  have amount : value * 2 ^ power * one = value * 2 ^ (power + more) := by
    rw [same, Nat.pow_eq, Nat.pow_add, Nat.mul_assoc]
  have place := unitsAt_placeOf small (power + more)
  rw [isFinite_iff, (ofNat_eq _).2, nearestCode_eq] at finite
  rw [units, (ofNat_eq _).2, nearestCode_eq, Nat.min_eq_right (by omega), amount, place]

theorem units_ofNat {value : Nat} (small : value ≤ 2 * binade) : (ofNat value).units = value * one := by
  obtain ⟨power, same⟩ := exists_one
  have place := unitsAt_placeOf small power
  rw [← Nat.pow_eq, ← same] at place
  have most : 2 * binade * one < unitsAt infinityCode := by decide +kernel
  have below : placeOf (value * one) 1 < infinityCode := by
    rw [← unitsAt_strictMono.lt_iff_lt, place]
    exact Nat.lt_of_le_of_lt (Nat.mul_le_mul_right one small) most
  rw [units, (ofNat_eq value).2, nearestCode_eq, Nat.min_eq_right (Nat.le_of_lt below), place]

theorem one_le_ofNat {value : Nat} (inner : 0 < value) : one ≤ (ofNat value).units := by
  have first := units_ofNat (show 1 ≤ 2 * binade by decide)
  rw [Nat.one_mul] at first
  rw [← first]
  exact unitsAt_strictMono.monotone (code_ofNat_mono inner)

end StateAudit.Binary64
