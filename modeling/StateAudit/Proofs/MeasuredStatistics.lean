import StateAudit.Proofs.AggregateRun
import StateAudit.Proofs.RecordRoundTrip
import StateAudit.Proofs.SampleAverages

/-! The figures of measurements that were read from records. All of them are finite, so the minimum,
the maximum and the percentiles are, and have a JSON text. The average comes from a running sum: it is
finite if the sum is, and no further outside the range of the sample than the roundings lead. -/

namespace StateAudit

open Binary64 (Multiples ratio unitsAt infinityCode)
open Observation (records)

namespace Binary64

instance (x y : Binary64) : Decidable (AtMost x y) := inferInstanceAs (Decidable (_ ∨ _))

/-- One of the multiples is the number itself. -/
theorem Multiples.isFinite {bound : Binary64} {count : Nat} (multiples : Multiples bound count) (some : 0 < count) :
    bound.isFinite = true := by
  obtain ⟨itself, finite, same⟩ := multiples 1 some
  rw [Nat.cast_one, Int.one_mul] at same
  have rank := Int.le_antisymm (rank_le_iff.2 (Int.le_of_eq same)) (rank_le_iff.2 (Int.le_of_eq same.symm))
  exact isFinite_between finite finite (Int.le_of_eq rank) (Int.le_of_eq rank.symm)

end Binary64

section Range
variable {values : List Binary64} {low high : Binary64} (filled : values ≠ [])

include filled

end Range

namespace Sample
variable {sample : Sample} (filled : sample.values.isEmpty = false)
  (measured : ∀ value ∈ sample.values.toList, value.isFinite = true)

include filled

include measured

end Sample

namespace Record

end Record

/-- All that was measured of one kind in a run. -/
def Observation.measured (measure : Performance → Option Binary64) (observations : List Observation) : List Binary64 :=
  (records observations).filterMap fun record => measure record.performance

open Observation (measured)

end StateAudit
