import StateAudit.Statistics
import Mathlib.Data.List.Perm.Basic

/-! Figures of a sample that do not depend on the order in which its values came. Sorting leaves
one list, since the total order tells any two bit patterns apart. The minimum and the maximum are
found among the values, so two orders give the same number, but perhaps the other zero. -/

namespace StateAudit

namespace Binary64

/-- The same number: one bit pattern that is not NaN, or two zeros. -/
def Equal (x y : Binary64) : Prop := x.isNaN = false ∧ (x = y ∨ x.code = 0 ∧ y.code = 0)

instance (x y : Binary64) : Decidable (Equal x y) := inferInstanceAs (Decidable (_ ∧ _))

theorem toNat_bits (x : Binary64) : x.bits.toNat = if x.negative then signBit + x.code else x.code := by
  have bounded : x.bits.toNat < 2 * signBit := x.bits.toNat_lt
  simp only [negative, code, decide_eq_true_eq]
  split
  · rw [Nat.mod_eq_sub_mod (by assumption), Nat.mod_eq_of_lt (by omega)]
    omega
  · exact (Nat.mod_eq_of_lt (by omega)).symm

theorem eq_of_code {x y : Binary64} (sign : x.negative = y.negative) (magnitude : x.code = y.code) : x = y := by
  have bits : x.bits.toNat = y.bits.toNat := by rw [toNat_bits, toNat_bits y, sign, magnitude]
  obtain ⟨first⟩ := x
  obtain ⟨second⟩ := y
  exact congrArg mk (UInt64.toNat_inj.mp bits)

theorem totalRank_injective {x y : Binary64} (same : x.totalRank = y.totalRank) : x = y := by
  have sign : x.negative = y.negative := by
    rw [totalRank, totalRank] at same
    cases first : x.negative <;> cases second : y.negative <;> simp only [first, second, ite_true] at same ⊢
    all_goals
      simp only [Bool.false_eq_true, ite_false] at same
      omega
  refine eq_of_code sign ?_
  rw [totalRank, totalRank, sign] at same
  split at same <;> omega

theorem equal_of_rank {x y : Binary64} (number : x.isNaN = false) (same : x.rank = y.rank) : Equal x y := by
  refine ⟨number, ?_⟩
  rw [rank, rank] at same
  by_cases sign : x.negative = y.negative
  · refine .inl (eq_of_code sign ?_)
    rw [sign] at same
    split at same <;> omega
  · -- Numbers of different signs have ranks on different sides of zero, so equal ranks are both zero.
    right
    cases first : x.negative with
    | true =>
      have second : y.negative = false := by simpa [first] using sign
      simp only [first, second, ite_true, Bool.false_eq_true, ite_false] at same
      omega
    | false =>
      have second : y.negative = true := by simpa [first] using sign
      simp only [first, second, ite_true, Bool.false_eq_true, ite_false] at same
      omega

theorem totalLe_antisymm {x y : Binary64} (below : x.totalLe y = true) (above : y.totalLe x = true) : x = y := by
  simp only [totalLe, decide_eq_true_eq] at below above
  exact totalRank_injective (Int.le_antisymm below above)

theorem totalLe_trans (x y z : Binary64) (first : x.totalLe y = true) (second : y.totalLe z = true) :
    x.totalLe z = true := by
  simp only [totalLe, decide_eq_true_eq] at first second ⊢
  exact Int.le_trans first second

theorem totalLe_total (x y : Binary64) : (x.totalLe y || y.totalLe x) = true := by
  simp only [totalLe, Bool.or_eq_true, decide_eq_true_eq]
  exact Int.le_total _ _

/-- What a search for a first number by some key finds: where it began or one of the values, with
none of them before it. A value that is NaN is passed over. -/
structure First (key : Binary64 → Int) (start : Binary64) (values : List Binary64) (found : Binary64) : Prop where
  number : found.isNaN = false
  member : found = start ∨ found ∈ values
  origin : key found ≤ key start
  bound : ∀ value ∈ values, value.isNaN = false → key found ≤ key value

section Search
variable {key : Binary64 → Int} {pick : Binary64 → Binary64 → Binary64} {start : Binary64}

theorem First.le {values others : List Binary64} {found other : Binary64} (first : First key start values found)
    (second : First key start others other) (within : values ⊆ others) : key other ≤ key found := by
  rcases first.member with rfl | member
  · exact second.origin
  · exact second.bound found (within member) first.number

theorem First.of_foldl (picks : ∀ x y, x.isNaN = false →
      pick x y = if y.isNaN = false ∧ key y < key x then y else x)
    (number : start.isNaN = false) (values : List Binary64) : First key start values (values.foldl pick start) := by
  induction values generalizing start with
  | nil => exact ⟨number, .inl rfl, Int.le_refl _, fun _ member => nomatch member⟩
  | cons value rest ih =>
    rw [List.foldl_cons, picks start value number]
    split
    next taken =>
      have later := ih taken.1
      refine ⟨later.number, ?_, Int.le_trans later.origin (Int.le_of_lt taken.2), ?_⟩
      · exact .inr (List.mem_cons.mpr later.member)
      · intro other member real
        rcases List.mem_cons.mp member with rfl | member
        · exact later.origin
        · exact later.bound other member real
    next kept =>
      have later := ih number
      refine ⟨later.number, ?_, later.origin, ?_⟩
      · exact later.member.imp_right (List.mem_cons_of_mem _)
      · intro other member real
        rcases List.mem_cons.mp member with rfl | member
        · have behind : key start ≤ key other := by
            by_contra before
            exact kept ⟨real, Int.not_le.mp before⟩
          exact Int.le_trans later.origin behind
        · exact later.bound other member real

end Search

theorem isNaN_infinity (negative : Bool) : (infinity negative).isNaN = false := by
  cases negative <;> decide +kernel

/-- The least of the values and infinity. -/
theorem first_least (values : List Binary64) :
    First rank (infinity false) values (values.foldl least (infinity false)) := by
  refine First.of_foldl ?_ (isNaN_infinity false) values
  intro x y number
  cases real : y.isNaN <;> simp [least, less, number, real]

theorem first_greatest (values : List Binary64) :
    First (-rank ·) (infinity true) values (values.foldl greatest (infinity true)) := by
  refine First.of_foldl ?_ (isNaN_infinity true) values
  intro x y number
  cases real : y.isNaN <;> simp [greatest, less, number, real]

end Binary64

theorem sorted_sortTotal (values : List Binary64) : (sortTotal values).Pairwise (Binary64.totalLe · ·) :=
  List.pairwise_mergeSort Binary64.totalLe_trans Binary64.totalLe_total values

theorem perm_sortTotal (values : List Binary64) : (sortTotal values).Perm values := List.mergeSort_perm values _

/-- A sorted sample is one list, in whatever order its values came. -/
theorem sortTotal_perm {values others : List Binary64} (same : values.Perm others) :
    sortTotal values = sortTotal others := by
  refine List.Perm.eq_of_pairwise (fun _ _ _ _ => Binary64.totalLe_antisymm) (sorted_sortTotal values)
    (sorted_sortTotal others) ?_
  exact (perm_sortTotal values).trans (same.trans (perm_sortTotal others).symm)

/-- The figures on which all orders of a sample agree. -/
structure SampleSummary.Alike (summary other : SampleSummary) : Prop where
  count : summary.count = other.count
  min : summary.min.Equal other.min
  max : summary.max.Equal other.max

namespace Sample

theorem first_min {sample : Sample} (filled : sample.values.isEmpty = false) :
    Binary64.First Binary64.rank (Binary64.infinity false) sample.values.toList sample.summary.min := by
  have found := Binary64.first_least sample.values.toList
  rw [Array.foldl_toList] at found
  simpa only [summary, filled, Bool.false_eq_true, ite_false] using found

theorem first_max {sample : Sample} (filled : sample.values.isEmpty = false) :
    Binary64.First (-Binary64.rank ·) (Binary64.infinity true) sample.values.toList sample.summary.max := by
  have found := Binary64.first_greatest sample.values.toList
  rw [Array.foldl_toList] at found
  simpa only [summary, filled, Bool.false_eq_true, ite_false] using found

theorem count_summary (sample : Sample) : sample.summary.count = sample.size := by
  rw [summary]
  split
  next empty => rw [size, Array.isEmpty_iff_size_eq_zero.mp empty]
  next => rfl

theorem count_latencySummary (sample : Sample) : sample.latencySummary.count = sample.size :=
  sample.count_summary

theorem summary_perm {sample other : Sample} (same : sample.values.toList.Perm other.values.toList) :
    sample.summary.Alike other.summary := by
  have size : sample.values.size = other.values.size := by
    simpa only [Array.length_toList] using same.length_eq
  have count : sample.summary.count = other.summary.count := by
    rw [count_summary, count_summary]
    exact size
  have empty : sample.values.isEmpty = other.values.isEmpty := by
    simp only [Array.isEmpty, size]
  cases filled : sample.values.isEmpty with
  | true =>
    have zero : (Binary64.zero false).Equal (Binary64.zero false) := by decide +kernel
    rw [summary, summary, ← empty, filled]
    exact ⟨rfl, zero, zero⟩
  | false =>
    have least := first_min filled
    have greatest := first_max filled
    have otherLeast := first_min (empty ▸ filled)
    have otherGreatest := first_max (empty ▸ filled)
    refine ⟨count, Binary64.equal_of_rank least.number ?_, Binary64.equal_of_rank greatest.number ?_⟩
    · exact Int.le_antisymm (otherLeast.le least same.symm.subset) (least.le otherLeast same.subset)
    · exact Int.neg_inj.mp
        (Int.le_antisymm (otherGreatest.le greatest same.symm.subset) (greatest.le otherGreatest same.subset))

/-- The same figures with the percentiles, which agree in every bit. -/
theorem latencySummary_perm {sample other : Sample} (same : sample.values.toList.Perm other.values.toList) :
    sample.latencySummary.toSampleSummary.Alike other.latencySummary.toSampleSummary ∧
      sample.latencySummary.p95 = other.latencySummary.p95 ∧ sample.latencySummary.p99 = other.latencySummary.p99 := by
  have sorted := sortTotal_perm same
  refine ⟨summary_perm same, ?_, ?_⟩
  · simp only [latencySummary, sorted]
  · simp only [latencySummary, sorted]

end Sample

end StateAudit
