import StateAudit.Binary64.Basic
import Mathlib.Tactic.Ring
import Mathlib.Tactic.Linarith

/-! Rounding to doubles. A quotient lies between the midpoints around the magnitude that it is
rounded to, and at a midpoint that magnitude is the even one. From this alone rounding is monotone
and leaves every magnitude as it is. -/

namespace StateAudit.Binary64

theorem binade_eq : binade = 4503599627370496 := rfl

theorem exists_one : ∃ power, one = Nat.pow 2 power := by
  unfold one
  generalize 1074 = power
  exact ⟨power, rfl⟩

theorem one_pos : 0 < one := by
  obtain ⟨power, same⟩ := exists_one
  rw [same]
  exact Nat.two_pow_pos power

theorem unitsAt_place {shift row : Nat} (small : row ≤ 2 * binade) (full : shift = 0 ∨ binade ≤ row) :
    unitsAt (shift * binade + row) = row * 2 ^ shift := by
  have pos : 0 < binade := by decide
  have quotient : (shift * binade + row) / binade = shift + row / binade := by
    rw [Nat.mul_comm, Nat.mul_add_div pos]
  simp only [unitsAt, quotient, Nat.pow_eq]
  obtain low | one | two : row / binade = 0 ∧ row < binade ∨ row / binade = 1 ∨ row / binade = 2 ∧ row = 2 * binade := by
    rw [binade_eq] at small ⊢
    omega
  · obtain rfl : shift = 0 := full.resolve_right (Nat.not_le.2 low.2)
    simp [low.1]
  · rw [one, Nat.add_sub_cancel, Nat.add_sub_cancel_left]
  · rw [two.1, two.2, show shift + 2 - 1 = shift + 1 by omega, Nat.pow_succ,
      show shift * binade + 2 * binade - (shift + 1) * binade = binade by rw [Nat.add_mul]; omega]
    ring

/-- Every magnitude is a row of 53 bits, or a shorter one at the smallest spacing, in some binade. -/
theorem exists_place (code : Nat) : ∃ shift row, row < 2 * binade ∧ (shift = 0 ∨ binade ≤ row) ∧
    code = shift * binade + row ∧ code / binade - 1 = shift := by
  refine ⟨code / binade - 1, code - (code / binade - 1) * binade, ?_, ?_, ?_, rfl⟩
  all_goals
    rw [binade_eq]
    omega

/-- The spacing from a magnitude to the next one. -/
theorem unitsAt_succ (code : Nat) : unitsAt (code + 1) = unitsAt code + 2 ^ (code / binade - 1) := by
  obtain ⟨shift, row, small, full, place, power⟩ := exists_place code
  rw [power, place, Nat.add_assoc, unitsAt_place small (full.imp_right Nat.le_succ_of_le),
    unitsAt_place (Nat.le_of_lt small) full, Nat.succ_mul]

theorem unitsAt_strictMono : StrictMono unitsAt := by
  refine strictMono_nat_of_lt_succ fun code => ?_
  rw [unitsAt_succ]
  exact Nat.lt_add_of_pos_right (Nat.two_pow_pos _)

/-- The rounded quotient is at most a half off, and even where it is a half. -/
theorem roundHalfEven_near (numerator : Nat) {denominator : Nat} (positive : 0 < denominator) :
    let found := roundHalfEven numerator denominator
    (2 * (found * denominator) ≤ 2 * numerator + denominator ∧ 2 * numerator ≤ 2 * (found * denominator) + denominator) ∧
      (2 * (found * denominator) = 2 * numerator + denominator ∨
        2 * numerator = 2 * (found * denominator) + denominator → found % 2 = 0) := by
  have split := Nat.div_add_mod numerator denominator
  have bounded := Nat.mod_lt numerator positive
  rw [Nat.mul_comm] at split
  simp only [roundHalfEven]
  generalize numerator / denominator = quotient at split
  generalize numerator % denominator = rest at split bounded
  have parity := Nat.mod_two_eq_zero_or_one quotient
  split
  · omega
  · split
    · simp only [Nat.add_mul, Nat.one_mul]
      omega
    · obtain even | odd := parity
      · rw [show quotient + quotient % 2 = quotient by omega]
        omega
      · rw [show quotient + quotient % 2 = quotient + 1 by omega, Nat.add_mul, Nat.one_mul]
        omega

/-- The place of the magnitude that a quotient is rounded to, were there no largest one. -/
def placeOf (numerator denominator : Nat) : Nat :=
  let shift := (numerator / denominator).log2 - 52
  shift * binade + roundHalfEven numerator (denominator * 2 ^ shift)

theorem nearestCode_eq (numerator denominator : Nat) :
    nearestCode numerator denominator = min infinityCode (placeOf numerator denominator) := rfl

/-- A quotient whose row of 53 bits, or fewer at the smallest spacing, counts units of `2 ^ shift`. -/
structure Scaled (numerator unit shift : Nat) : Prop where
  below : numerator < 2 * binade * unit
  above : shift = 0 ∨ binade * unit ≤ numerator

theorem scaled_log2 (numerator : Nat) {denominator : Nat} (positive : 0 < denominator) :
    let shift := (numerator / denominator).log2 - 52
    Scaled numerator (2 ^ shift * denominator) shift := by
  intro shift
  have power : binade * (2 ^ shift * denominator) = 2 ^ (52 + shift) * denominator := by
    rw [← Nat.mul_assoc, Nat.pow_add]
    rfl
  constructor
  · rw [Nat.mul_assoc 2, power, ← Nat.mul_assoc, ← Nat.pow_succ', ← Nat.div_lt_iff_lt_mul positive]
    refine Nat.lt_of_lt_of_le Nat.lt_log2_self (Nat.pow_le_pow_right (by decide) ?_)
    omega
  · obtain none | some := Nat.eq_zero_or_pos shift
    · exact .inl none
    · right
      rw [power, show 52 + shift = (numerator / denominator).log2 by omega, ← Nat.le_div_iff_mul_le positive]
      refine Nat.log2_self_le fun empty => ?_
      simp only [shift, empty] at some
      exact absurd some (by decide)

section Rounding
variable (numerator : Nat) {denominator : Nat} (positive : 0 < denominator)

include positive

/-- The row that a quotient is rounded to, with what is known of a rounded row. -/
theorem exists_rounded : ∃ shift row, row ≤ 2 * binade ∧ (shift = 0 ∨ binade ≤ row) ∧
    let unit := 2 ^ shift * denominator
    Scaled numerator unit shift ∧ placeOf numerator denominator = shift * binade + row ∧
      (2 * (row * unit) ≤ 2 * numerator + unit ∧ 2 * numerator ≤ 2 * (row * unit) + unit) ∧
      (2 * (row * unit) = 2 * numerator + unit ∨ 2 * numerator = 2 * (row * unit) + unit → row % 2 = 0) := by
  have scaled := scaled_log2 numerator positive
  simp only at scaled
  generalize shifted : (numerator / denominator).log2 - 52 = shift at scaled
  have spacing : 0 < 2 ^ shift * denominator := Nat.mul_pos (Nat.two_pow_pos shift) positive
  obtain ⟨near, tie⟩ := roundHalfEven_near numerator spacing
  generalize rounded : roundHalfEven numerator (2 ^ shift * denominator) = row at near tie
  have place : placeOf numerator denominator = shift * binade + row := by
    simp only [placeOf, shifted, Nat.mul_comm denominator, rounded]
  obtain ⟨below, above⟩ := scaled
  refine ⟨shift, row, ?_, ?_, ⟨below, above⟩, place, near, tie⟩
  · have less : 2 * row * (2 ^ shift * denominator) < (4 * binade + 1) * (2 ^ shift * denominator) := by
      rw [Nat.mul_assoc] at below ⊢
      rw [Nat.add_mul, Nat.mul_assoc]
      omega
    have := Nat.lt_of_mul_lt_mul_right less
    omega
  · refine above.imp_right fun full => ?_
    have least : 2 * binade * (2 ^ shift * denominator) ≤ (2 * row + 1) * (2 ^ shift * denominator) := by
      rw [Nat.add_mul, Nat.mul_assoc, Nat.mul_assoc]
      omega
    have := Nat.le_of_mul_le_mul_right least spacing
    omega

omit positive in
theorem parity_place (shift row : Nat) : (shift * binade + row) % 2 = row % 2 := by
  rw [binade_eq]
  omega

/-- The midpoint below the rounded magnitude is not above the quotient. -/
theorem midpoint_below (inner : 0 < placeOf numerator denominator) :
    let place := placeOf numerator denominator
    (unitsAt (place - 1) + unitsAt place) * denominator ≤ 2 * numerator ∧
      ((unitsAt (place - 1) + unitsAt place) * denominator = 2 * numerator → place % 2 = 0) := by
  intro place
  obtain ⟨shift, row, small, full, ⟨below, above⟩, same, near, tie⟩ := exists_rounded numerator positive
  have same : place = shift * binade + row := same
  have current : unitsAt place = row * 2 ^ shift := by rw [← unitsAt_place small full, ← same]
  have step := unitsAt_succ (place - 1)
  rw [Nat.sub_add_cancel inner] at step
  have sum : (unitsAt (place - 1) + unitsAt place) * denominator + 2 ^ ((place - 1) / binade - 1) * denominator =
      2 * (row * (2 ^ shift * denominator)) := by
    rw [← Nat.add_mul, Nat.add_right_comm, ← step, current]
    ring
  obtain ⟨half, first⟩ | whole : shift = (place - 1) / binade - 1 + 1 ∧ row = binade ∨ (place - 1) / binade - 1 = shift := by
    have inner : 0 < place := inner
    rw [binade_eq] at same full small ⊢
    omega
  · -- The first row of a binade is half as far from the last one of the binade below.
    have least := above.resolve_left (by omega)
    rw [half, Nat.pow_succ', Nat.mul_assoc] at least sum
    rw [first] at sum
    have := Nat.mul_pos (Nat.two_pow_pos ((place - 1) / binade - 1)) positive
    omega
  · have parity : place % 2 = row % 2 := by rw [same, parity_place]
    rw [whole] at sum
    omega

/-- The midpoint above the rounded magnitude is not below the quotient. -/
theorem midpoint_above :
    let place := placeOf numerator denominator
    2 * numerator ≤ (unitsAt place + unitsAt (place + 1)) * denominator ∧
      (2 * numerator = (unitsAt place + unitsAt (place + 1)) * denominator → place % 2 = 0) := by
  intro place
  obtain ⟨shift, row, small, full, ⟨below, above⟩, same, near, tie⟩ := exists_rounded numerator positive
  have same : place = shift * binade + row := same
  have current : unitsAt place = row * 2 ^ shift := by rw [← unitsAt_place small full, ← same]
  have sum : (unitsAt place + unitsAt (place + 1)) * denominator =
      2 * (row * (2 ^ shift * denominator)) + 2 ^ (place / binade - 1) * denominator := by
    rw [unitsAt_succ, current]
    ring
  obtain last | whole : row = 2 * binade ∨ place / binade - 1 = shift := by
    rw [binade_eq] at same full small ⊢
    omega
  · -- The quotient is below the end of its binade, which it is rounded to.
    rw [sum, last, Nat.mul_assoc 2]
    rw [Nat.mul_assoc] at below
    omega
  · have parity : place % 2 = row % 2 := by rw [same, parity_place]
    rw [sum, whole]
    omega

theorem placeOf_le {code : Nat} (below : 2 * numerator < (unitsAt code + unitsAt (code + 1)) * denominator ∨
    2 * numerator = (unitsAt code + unitsAt (code + 1)) * denominator ∧ code % 2 = 0) :
    placeOf numerator denominator ≤ code := by
  by_contra above
  obtain ⟨least, tie⟩ := midpoint_below numerator positive (by omega)
  generalize placeOf numerator denominator = place at above least tie
  obtain rfl | further : place = code + 1 ∨ code + 2 ≤ place := by omega
  · rw [Nat.add_sub_cancel] at least tie
    omega
  · have first := unitsAt_strictMono.monotone (show code + 1 ≤ place - 1 by omega)
    have second := unitsAt_strictMono (show code < place - 1 by omega)
    have third := unitsAt_strictMono (show place - 1 < place by omega)
    have more : (unitsAt code + unitsAt (code + 1)) * denominator < (unitsAt (place - 1) + unitsAt place) * denominator :=
      Nat.mul_lt_mul_of_pos_right (by omega) positive
    omega

theorem le_placeOf {code : Nat} (above : (unitsAt (code - 1) + unitsAt code) * denominator < 2 * numerator ∨
    (unitsAt (code - 1) + unitsAt code) * denominator = 2 * numerator ∧ code % 2 = 0) :
    code ≤ placeOf numerator denominator := by
  by_contra below
  obtain ⟨greatest, tie⟩ := midpoint_above numerator positive
  generalize placeOf numerator denominator = place at below greatest tie
  obtain rfl | further : code = place + 1 ∨ place + 2 ≤ code := by omega
  · rw [Nat.add_sub_cancel] at above
    omega
  · have first := unitsAt_strictMono.monotone (show place + 1 ≤ code - 1 by omega)
    have second := unitsAt_strictMono (show place < place + 1 by omega)
    have third := unitsAt_strictMono (show code - 1 < code by omega)
    have more : (unitsAt place + unitsAt (place + 1)) * denominator < (unitsAt (code - 1) + unitsAt code) * denominator :=
      Nat.mul_lt_mul_of_pos_right (by omega) positive
    omega

theorem placeOf_mono {other : Nat} {base : Nat} (large : 0 < base) (le : numerator * base ≤ other * denominator) :
    placeOf numerator denominator ≤ placeOf other base := by
  obtain ⟨greatest, tie⟩ := midpoint_above other large
  have scaled := Nat.mul_le_mul_right denominator greatest
  refine placeOf_le numerator positive ?_
  generalize placeOf other base = place at greatest tie scaled
  have whole : 2 * numerator * base ≤ (unitsAt place + unitsAt (place + 1)) * denominator * base := by
    calc 2 * numerator * base = 2 * (numerator * base) := Nat.mul_assoc _ _ _
      _ ≤ 2 * (other * denominator) := Nat.mul_le_mul_left 2 le
      _ = 2 * other * denominator := (Nat.mul_assoc _ _ _).symm
      _ ≤ _ := scaled
      _ = _ := Nat.mul_right_comm _ _ _
  obtain less | same := Nat.lt_or_eq_of_le (Nat.le_of_mul_le_mul_right whole large)
  · exact .inl less
  · refine .inr ⟨same, tie (Nat.le_antisymm greatest ?_)⟩
    refine Nat.le_of_mul_le_mul_right ?_ positive
    calc (unitsAt place + unitsAt (place + 1)) * base * denominator
        = (unitsAt place + unitsAt (place + 1)) * denominator * base := Nat.mul_right_comm _ _ _
      _ = 2 * (numerator * base) := by rw [← same, Nat.mul_assoc]
      _ ≤ 2 * (other * denominator) := Nat.mul_le_mul_left 2 le
      _ = 2 * other * denominator := (Nat.mul_assoc _ _ _).symm

theorem placeOf_unitsAt (code : Nat) : placeOf (unitsAt code * denominator) denominator = code := by
  have next := Nat.mul_lt_mul_of_pos_right (unitsAt_strictMono (Nat.lt_add_one code)) positive
  refine Nat.le_antisymm (placeOf_le _ positive (.inl ?_)) ?_
  · rw [Nat.add_mul]
    omega
  · obtain rfl | some := Nat.eq_zero_or_pos code
    · exact Nat.zero_le _
    · have previous := Nat.mul_lt_mul_of_pos_right (unitsAt_strictMono (Nat.sub_one_lt_of_lt some)) positive
      refine le_placeOf _ positive (.inl ?_)
      rw [Nat.add_mul]
      omega

theorem nearestCode_mono {other : Nat} {base : Nat} (large : 0 < base) (le : numerator * base ≤ other * denominator) :
    nearestCode numerator denominator ≤ nearestCode other base := by
  have := placeOf_mono numerator positive large le
  rw [nearestCode_eq, nearestCode_eq]
  omega

/-- A magnitude is left as it is. -/
theorem nearestCode_unitsAt {code : Nat} (finite : code ≤ infinityCode) :
    nearestCode (unitsAt code * denominator) denominator = code := by
  rw [nearestCode_eq, placeOf_unitsAt positive, Nat.min_eq_right finite]

/-- A quotient between the midpoints is rounded to the magnitude that they enclose. -/
theorem nearestCode_eq_of_between {code : Nat} (finite : code ≤ infinityCode)
    (above : (unitsAt (code - 1) + unitsAt code) * denominator < 2 * numerator ∨
      (unitsAt (code - 1) + unitsAt code) * denominator = 2 * numerator ∧ code % 2 = 0)
    (below : 2 * numerator < (unitsAt code + unitsAt (code + 1)) * denominator ∨
      2 * numerator = (unitsAt code + unitsAt (code + 1)) * denominator ∧ code % 2 = 0) :
    nearestCode numerator denominator = code := by
  rw [nearestCode_eq, Nat.le_antisymm (placeOf_le numerator positive below) (le_placeOf numerator positive above),
    Nat.min_eq_right finite]

end Rounding

/-- A factor on both sides of a quotient does not change what it is rounded to. -/
theorem nearestCode_cancel (numerator : Nat) {denominator factor : Nat} (positive : 0 < denominator) (some : 0 < factor) :
    nearestCode (numerator * factor) (denominator * factor) = nearestCode numerator denominator := by
  have large : 0 < denominator * factor := Nat.mul_pos positive some
  have same : numerator * factor * denominator = numerator * (denominator * factor) := by ring
  apply Nat.le_antisymm
  · exact nearestCode_mono _ large positive (Nat.le_of_eq same)
  · exact nearestCode_mono _ positive large (Nat.le_of_eq same.symm)

theorem le_nearestCode_of_le {code numerator denominator : Nat} (positive : 0 < denominator) (finite : code ≤ infinityCode)
    (above : unitsAt code * denominator ≤ numerator) : code ≤ nearestCode numerator denominator := by
  have mono := nearestCode_mono _ positive positive (Nat.mul_le_mul_right denominator above)
  rwa [nearestCode_unitsAt positive finite] at mono

theorem nearestCode_le_of_le {code numerator denominator : Nat} (positive : 0 < denominator) (finite : code ≤ infinityCode)
    (below : numerator ≤ unitsAt code * denominator) : nearestCode numerator denominator ≤ code := by
  have mono := nearestCode_mono _ positive positive (Nat.mul_le_mul_right denominator below)
  rwa [nearestCode_unitsAt positive finite] at mono

theorem make_eq {negative : Bool} {code : Nat} (small : code < signBit) :
    (make negative code).negative = negative ∧ (make negative code).code = code := by
  have sign : signBit = 9223372036854775808 := rfl
  rw [sign] at small
  simp only [Binary64.negative, Binary64.code, make, sign, UInt64.toNat_ofNat']
  cases negative
  · simp only [Bool.false_eq_true, ite_false, decide_eq_false_iff_not]
    omega
  · simp only [ite_true, decide_eq_true_eq]
    omega

end StateAudit.Binary64
