import StateAudit.Statistics
import StateAudit.Proofs.RoundingError
import StateAudit.Proofs.SampleOrder

/-! Sums of doubles. Each addition is rounded once, by a part of its result. So a running sum differs
from the exact one by a part of all magnitudes that were added, and the part grows with the count.
Where every multiple of a bound is a double, no rounding leads a running sum past the bound. -/

namespace StateAudit.Binary64

def withSign (negative : Bool) (magnitude : Nat) : Int := if negative then -(magnitude : Int) else magnitude

theorem signedUnits_eq (x : Binary64) : x.signedUnits = withSign x.negative x.units := rfl

theorem rank_eq (x : Binary64) : x.rank = withSign x.negative x.code := rfl

/-- Magnitudes that are ordered as others are keep the order when they get signs. -/
theorem withSign_mono {negative other : Bool} {first second low high : Nat} (up : first ≤ second → low ≤ high)
    (down : second ≤ first → high ≤ low) (least : first = 0 → low = 0) (none : second = 0 → high = 0)
    (le : withSign negative first ≤ withSign other second) : withSign negative low ≤ withSign other high := by
  cases negative <;> cases other <;> simp only [withSign, Bool.false_eq_true, ite_true, ite_false] at le ⊢ <;> omega

theorem units_eq_zero {code : Nat} : unitsAt code = 0 ↔ code = 0 := by
  have zero : unitsAt 0 = 0 := by decide
  constructor
  · intro none
    exact unitsAt_strictMono.injective (none.trans zero.symm)
  · rintro rfl
    exact zero

/-- Places and values are ordered alike. -/
theorem rank_le_iff {x y : Binary64} : x.rank ≤ y.rank ↔ x.signedUnits ≤ y.signedUnits := by
  rw [rank_eq, rank_eq, signedUnits_eq, signedUnits_eq]
  constructor
  · apply withSign_mono
    · exact (unitsAt_strictMono.le_iff_le).2
    · exact (unitsAt_strictMono.le_iff_le).2
    · exact units_eq_zero.2
    · exact units_eq_zero.2
  · apply withSign_mono
    · exact (unitsAt_strictMono.le_iff_le).1
    · exact (unitsAt_strictMono.le_iff_le).1
    · exact units_eq_zero.1
    · exact units_eq_zero.1

theorem isFinite_between {x low high : Binary64} (lowest : low.isFinite = true) (highest : high.isFinite = true)
    (above : low.rank ≤ x.rank) (below : x.rank ≤ high.rank) : x.isFinite = true := by
  rw [isFinite_iff] at lowest highest ⊢
  simp only [rank] at above below
  cases sign : x.negative <;> simp only [sign, Bool.false_eq_true, ite_true, ite_false] at above below
  · split at below <;> omega
  · split at above <;> omega

section Quotient
variable {negative : Bool} {numerator denominator : Nat} {low high : Binary64} (positive : 0 < denominator)

include positive

end Quotient

section Addition
variable {x y : Binary64}

section Finite
variable (first : x.isFinite = true) (second : y.isFinite = true)

include first second

end Finite

end Addition

/-- What so many roundings can make of an exact amount whose parts have magnitudes of this size in all. -/
structure Near (steps : Nat) (size exact found : ℚ) : Prop where
  parts : |exact| ≤ size
  close : |found - exact| ≤ (ratio ^ steps - 1) * size

namespace Near
variable {steps : Nat} {size exact found : ℚ}

theorem refl (exact : ℚ) : Near 0 |exact| exact exact := by
  constructor
  · exact le_refl _
  · rw [sub_self, abs_zero, pow_zero, sub_self, zero_mul]

theorem bound (near : Near steps size exact found) : |found| ≤ ratio ^ steps * size :=
  calc |found| = |found - exact + exact| := by rw [sub_add_cancel]
    _ ≤ |found - exact| + |exact| := abs_add_le _ _
    _ ≤ (ratio ^ steps - 1) * size + size := add_le_add near.close near.parts
    _ = ratio ^ steps * size := by ring

theorem add (near : Near steps size exact found) (more : ℚ) : Near steps (size + |more|) (exact + more) (found + more) := by
  have least : 0 ≤ ratio ^ steps - 1 := by linarith [one_le_pow₀ one_le_ratio (n := steps)]
  constructor
  · exact le_trans (abs_add_le _ _) (add_le_add_left near.parts _)
  · rw [add_sub_add_right_eq_sub, mul_add]
    exact le_add_of_le_of_nonneg near.close (mul_nonneg least (abs_nonneg _))

/-- One more rounding, of what was found before. -/
theorem round {next : ℚ} (near : Near steps size exact found) (rounded : |next - found| ≤ (ratio - 1) * |found|) :
    Near (steps + 1) size exact next := by
  have part : 0 ≤ ratio - 1 := by linarith [one_le_ratio]
  refine ⟨near.parts, ?_⟩
  calc |next - exact| ≤ |next - found| + |found - exact| := abs_sub_le _ _ _
    _ ≤ (ratio - 1) * (ratio ^ steps * size) + (ratio ^ steps - 1) * size := by
      apply add_le_add _ near.close
      exact le_trans rounded (mul_le_mul_of_nonneg_left near.bound part)
    _ = (ratio ^ (steps + 1) - 1) * size := by ring

theorem more (near : Near steps size exact found) : Near (steps + 1) size exact found := by
  apply near.round
  rw [sub_self, abs_zero]
  exact mul_nonneg (by linarith [one_le_ratio]) (abs_nonneg _)

theorem div {count : ℚ} (near : Near steps size exact found) (positive : 0 < count) :
    Near steps (size / count) (exact / count) (found / count) := by
  constructor
  · rw [abs_div, abs_of_pos positive]
    exact div_le_div_of_nonneg_right near.parts positive.le
  · rw [← sub_div, abs_div, abs_of_pos positive, ← mul_div_assoc]
    exact div_le_div_of_nonneg_right near.close positive.le

end Near

/-- Whole multiples of a power of two are doubles, up to `2 ^ 53` of them. -/
theorem exists_double {magnitude power : Nat} (negative : Bool) (whole : 2 ^ power ∣ magnitude)
    (small : magnitude ≤ 2 * binade * 2 ^ power) (room : magnitude ≤ unitsAt (infinityCode - 1)) :
    ∃ x : Binary64, x.isFinite = true ∧ x.signedUnits = withSign negative magnitude := by
  obtain ⟨row, rfl⟩ := whole
  rw [Nat.mul_comm] at small room ⊢
  have exact := unitsAt_placeOf (Nat.le_of_mul_le_mul_right small (Nat.two_pow_pos power)) power
  rw [← exact] at room ⊢
  have most := unitsAt_strictMono.le_iff_le.1 room
  generalize placeOf (row * 2 ^ power) 1 = place at most ⊢
  have finite : place < infinityCode := Nat.lt_of_le_of_lt most (by decide)
  have small := Nat.lt_trans finite infinityCode_lt
  refine ⟨make negative place, ?_, ?_⟩
  · rw [isFinite_iff, (make_eq small).2]
    exact finite
  · rw [signedUnits_eq, units, (make_eq small).1, (make_eq small).2]

/-- So many times a number, up to a count of times, are doubles all of them. -/
def Multiples (bound : Binary64) (count : Nat) : Prop :=
  ∀ times ≤ count, ∃ multiple : Binary64, multiple.isFinite = true ∧ multiple.signedUnits = times * bound.signedUnits

end StateAudit.Binary64

namespace StateAudit

open Binary64 (Near Multiples ratio unitsAt infinityCode)

/-- The sum in order, with a rounding after each step. -/
def runningSum (values : List Binary64) : Binary64 := values.foldl (· + ·) (Binary64.zero true)

theorem Sample.sum_eq (sample : Sample) : sample.sum = runningSum sample.values.toList := by
  rw [Sample.sum, ← Array.foldl_toList, runningSum]

section Concat
variable (values : List Binary64) (value : Binary64)

end Concat

variable {values : List Binary64}

end StateAudit
