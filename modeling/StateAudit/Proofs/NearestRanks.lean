import StateAudit.Proofs.OrderStatistics
import StateAudit.Proofs.NumeralScaling

/-! The places of percentiles in whole numbers. A double that stands for a fraction is a little below
it, so a product that should be whole falls short, and the rounding of the product makes up for it. -/

namespace StateAudit

namespace Binary64

/-- How far the magnitude before another one falls short of it, at the least. -/
theorem unitsAt_before (code : Nat) : 9007199254740992 * unitsAt code ≤ 9007199254740991 * unitsAt (code + 1) := by
  have apart := unitsAt_ratio code 1
  rw [pow_one, ratio] at apart
  have whole : (9007199254740992 * unitsAt code : ℚ) ≤ 9007199254740991 * unitsAt (code + 1) := by linarith
  exact_mod_cast whole

/-- What falls short of a magnitude by less than one part in `2 ^ 54` is not rounded below it. -/
theorem le_placeOf_of_close {code numerator denominator : Nat} (positive : 0 < denominator)
    (close : 18014398509481983 * (unitsAt code * denominator) < 18014398509481984 * numerator) :
    code ≤ placeOf numerator denominator := by
  cases code with
  | zero => exact Nat.zero_le _
  | succ low =>
    apply le_placeOf numerator positive
    left
    have before := Nat.mul_le_mul_right denominator (unitsAt_before low)
    rw [Nat.mul_assoc, Nat.mul_assoc] at before
    rw [Nat.add_sub_cancel, Nat.add_mul]
    omega

theorem exists_eighths : ∃ power, one = 128 * 2 ^ power := ⟨1067, by decide +kernel⟩

end Binary64

open Binary64 (one unitsAt placeOf nearestCode infinityCode)

/-- A double that stands for a fraction: below it, but no further than rounding makes up for. -/
structure StandsFor (x : Binary64) (part whole : Nat) : Prop where
  unsigned : x.negative = false
  finite : x.isFinite = true
  proper : part < whole
  coarse : whole ≤ 128
  below : x.units * whole < part * one
  close : 18014398509481983 * (part * one) < 18014398509481984 * (x.units * whole)

theorem ninetyFive_stands : StandsFor Sample.ninetyFive 19 20 := by
  constructor <;> decide +kernel

theorem ninetyNine_stands : StandsFor Sample.ninetyNine 99 100 := by
  constructor <;> decide +kernel

namespace StandsFor
variable {x : Binary64} {part whole count : Nat} (stands : StandsFor x part whole) (small : count < 2 ^ 45)

include stands

theorem whole_pos : 0 < whole := Nat.lt_of_le_of_lt (Nat.zero_le part) stands.proper

theorem floor_le (count : Nat) : part * count / whole ≤ count :=
  Nat.div_le_of_le_mul (Nat.mul_le_mul_right count (Nat.le_of_lt stands.proper))

include small

/-- The exact product, rounded once. -/
theorem product : Binary64.ofNat count * x = Binary64.ofRatio false (count * x.units) 1 := by
  have exact := Binary64.units_ofNat (show count ≤ 2 * Binary64.binade by rw [Binary64.binade_eq]; omega)
  have finite := Json.Numeral.isFinite_ofNat (show count < Json.Numeral.wordLimit from Nat.lt_trans small (by decide))
  have rounded := Binary64.nearestCode_cancel (count * x.units) (show 0 < 1 by decide) Binary64.one_pos
  rw [Nat.one_mul, Nat.mul_right_comm] at rounded
  rw [Binary64.mul_finite finite stands.finite, (Binary64.ofNat_eq count).1, stands.unsigned, exact, Binary64.ofRatio, rounded]
  rfl

/-- The rounded product reaches every whole number that the fraction itself reaches. -/
theorem reaches (filled : 0 < count) : part * count / whole * one ≤ unitsAt (placeOf (count * x.units) 1) := by
  have positive := stands.whole_pos
  have least := stands.floor_le count
  have floor := Nat.div_mul_le_self (part * count) whole
  generalize part * count / whole = place at least floor
  have exact := Binary64.units_ofNat (show place ≤ 2 * Binary64.binade by rw [Binary64.binade_eq]; omega)
  rw [← exact]
  apply Binary64.unitsAt_strictMono.monotone
  apply Binary64.le_placeOf_of_close (by decide)
  rw [← Binary64.units, exact, Nat.mul_one]
  apply Nat.lt_of_mul_lt_mul_right (a := whole)
  calc 18014398509481983 * (place * one) * whole = 18014398509481983 * (place * whole * one) := by ring
    _ ≤ 18014398509481983 * (part * count * one) := Nat.mul_le_mul_left _ (Nat.mul_le_mul_right _ floor)
    _ = count * (18014398509481983 * (part * one)) := by ring
    _ < count * (18014398509481984 * (x.units * whole)) := Nat.mul_lt_mul_of_pos_left stands.close filled
    _ = 18014398509481984 * (count * x.units) * whole := by ring

/-- Between the fraction of a count and the next whole number there is a double that keeps them apart. -/
theorem stays : unitsAt (placeOf (count * x.units) 1) < (part * count / whole + 1) * one := by
  have least := stands.floor_le count
  have next := Nat.lt_mul_div_succ (part * count) stands.whole_pos
  generalize part * count / whole = place at least next
  obtain ⟨power, eighths⟩ := Binary64.exists_eighths
  have between := Binary64.unitsAt_placeOf (show 128 * place + 127 ≤ 2 * Binary64.binade by rw [Binary64.binade_eq]; omega) power
  have unit : 0 < 2 ^ power := Nat.two_pow_pos power
  have coarse := stands.coarse
  have room : 128 * (part * count) ≤ (128 * place + 127) * whole := by
    rw [Nat.mul_add, Nat.mul_comm whole place] at next
    rw [Nat.add_mul, Nat.mul_assoc]
    omega
  have below : placeOf (count * x.units) 1 ≤ placeOf ((128 * place + 127) * 2 ^ power) 1 := by
    apply Binary64.placeOf_mono _ (by decide) (by decide)
    rw [Nat.mul_one, Nat.mul_one]
    apply Nat.le_of_mul_le_mul_right _ stands.whole_pos
    calc count * x.units * whole = count * (x.units * whole) := Nat.mul_assoc _ _ _
      _ ≤ count * (part * one) := Nat.mul_le_mul_left count (Nat.le_of_lt stands.below)
      _ = 128 * (part * count) * 2 ^ power := by rw [eighths]; ring
      _ ≤ (128 * place + 127) * whole * 2 ^ power := Nat.mul_le_mul_right _ room
      _ = (128 * place + 127) * 2 ^ power * whole := Nat.mul_right_comm _ _ _
  calc unitsAt (placeOf (count * x.units) 1) ≤ unitsAt (placeOf ((128 * place + 127) * 2 ^ power) 1) :=
        Binary64.unitsAt_strictMono.monotone below
    _ = (128 * place + 127) * 2 ^ power := between
    _ < (128 * place + 128) * 2 ^ power := Nat.mul_lt_mul_of_pos_right (Nat.lt_succ_self _) unit
    _ = (place + 1) * one := by rw [eighths]; ring

theorem floorWithin_product (filled : 0 < count) :
    (Binary64.ofNat count * x).floorWithin indexLimit = part * count / whole := by
  have least := stands.floor_le count
  have above := stands.reaches small filled
  have below := stands.stays small
  rw [stands.product small]
  generalize part * count / whole = place at least above below
  obtain ⟨unsigned, code⟩ := Binary64.ofRatio_eq false (count * x.units) 1
  have inner : placeOf (count * x.units) 1 < infinityCode := by
    apply Binary64.unitsAt_strictMono.lt_iff_lt.1
    apply Nat.lt_of_lt_of_le below
    apply Nat.le_of_lt
    apply Nat.lt_of_le_of_lt (Nat.mul_le_mul_right one (show place + 1 ≤ 2 * Binary64.binade by rw [Binary64.binade_eq]; omega))
    decide +kernel
  rw [Binary64.nearestCode_eq, Nat.min_eq_right (Nat.le_of_lt inner)] at code
  generalize Binary64.ofRatio false (count * x.units) 1 = rounded at unsigned code
  have finite := Binary64.isNaN_finite (Binary64.isFinite_iff.2 (code ▸ inner))
  have floor : rounded.units / one = place := by
    rw [Binary64.units, code]
    exact Nat.div_eq_of_lt_le above below
  rw [Binary64.floorWithin, finite.1, finite.2, unsigned, floor]
  exact Nat.min_eq_right (Nat.le_trans least (Nat.le_trans (Nat.le_of_lt small) (by decide)))

theorem nearestRankIndex_eq (filled : 0 < count) : nearestRankIndex count x = part * count / whole := by
  rw [nearestRankIndex, stands.floorWithin_product small filled]
  apply Nat.min_eq_left
  apply Nat.le_sub_one_of_lt
  apply (Nat.div_lt_iff_lt_mul stands.whole_pos).2
  rw [Nat.mul_comm part count]
  exact Nat.mul_lt_mul_of_pos_left stands.proper filled

end StandsFor

/-- The index of a percentile is the fraction of the count in whole numbers, for a product that is exact
but for one rounding. -/
structure RanksExactly (fraction : Binary64) (part whole count : Nat) : Prop where
  product : Binary64.ofNat count * fraction = Binary64.ofRatio false (count * fraction.units) 1
  index : nearestRankIndex count fraction = part * count / whole
  inside : nearestRankIndex count fraction < count
  rises : ∀ fewer, 1 ≤ fewer → fewer ≤ count → nearestRankIndex fewer fraction ≤ nearestRankIndex count fraction

theorem StandsFor.ranksExactly {x : Binary64} {part whole count : Nat} (stands : StandsFor x part whole)
    (filled : 0 < count) (small : count < 2 ^ 45) : RanksExactly x part whole count where
  product := stands.product small
  index := stands.nearestRankIndex_eq small filled
  inside := nearestRankIndex_lt filled x
  rises := by
    intro fewer some less
    rw [stands.nearestRankIndex_eq small filled, stands.nearestRankIndex_eq (Nat.lt_of_le_of_lt less small) some]
    exact Nat.div_le_div_right (Nat.mul_le_mul_left part less)

/-- Neither 0.95 nor 0.99 is a double. Their products with a count still lead to the places that the
fractions lead to, so a percentile never drifts by a rank. -/
theorem nearestRanks_exact {count : Nat} (filled : 1 ≤ count) (small : count < 2 ^ 45) :
    (Sample.ninetyFive.units * 20 < 19 * one ∧ RanksExactly Sample.ninetyFive 19 20 count) ∧
      (Sample.ninetyNine.units * 100 < 99 * one ∧ RanksExactly Sample.ninetyNine 99 100 count) ∧
      nearestRankIndex count Sample.ninetyFive ≤ nearestRankIndex count Sample.ninetyNine := by
  have first := ninetyFive_stands.ranksExactly filled small
  have second := ninetyNine_stands.ranksExactly filled small
  refine ⟨⟨ninetyFive_stands.below, first⟩, ⟨ninetyNine_stands.below, second⟩, ?_⟩
  rw [first.index, second.index]
  omega

/-- The last multiple of twenty below the limit: the exact product is short of a whole number. -/
theorem nearestRanks_short : 1 ≤ 35184372088820 ∧ 35184372088820 < 2 ^ 45 ∧
    35184372088820 * Sample.ninetyFive.units < 33425153484379 * one ∧
    nearestRankIndex 35184372088820 Sample.ninetyFive = 33425153484379 := by
  have filled : 1 ≤ 35184372088820 := by decide
  have small : 35184372088820 < 2 ^ 45 := by decide
  refine ⟨filled, small, by decide +kernel, ?_⟩
  exact (nearestRanks_exact filled small).1.2.index

end StateAudit
