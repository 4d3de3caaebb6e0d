import StateAudit.Proofs.SampleOrder

/-! Percentiles as order statistics. What a percentile is does not mention sorting: at most so many
values of the sample are below it as its place has, and more are not above it. Where no value is NaN,
the minimum and the maximum are the ends of the sorted sample, and every percentile is between them. -/

namespace StateAudit

namespace Binary64

/-- Strictly before in total order. -/
def totalLess (x y : Binary64) : Bool := !y.totalLe x

/-- Not above by value. -/
def AtMost (x y : Binary64) : Prop := less x y = true ∨ x.Equal y

theorem atMost_of_rank {x y : Binary64} (first : x.isNaN = false) (second : y.isNaN = false) (le : x.rank ≤ y.rank) :
    x.AtMost y := by
  rcases Int.lt_or_eq_of_le le with before | same
  · left
    simp [less, first, second, before]
  · exact .inr (equal_of_rank first same)

/-- The total order only separates numbers that have one value. -/
theorem rank_le_of_totalLe {x y : Binary64} (le : x.totalLe y = true) : x.rank ≤ y.rank := by
  have le : x.totalRank ≤ y.totalRank := of_decide_eq_true le
  rw [totalRank, totalRank] at le
  rw [rank, rank]
  cases first : x.negative <;> cases second : y.negative <;>
    simp only [first, second, Bool.false_eq_true, ite_false, ite_true] at le ⊢ <;> omega

theorem rank_bounds {x : Binary64} (number : x.isNaN = false) :
    (infinity true).rank ≤ x.rank ∧ x.rank ≤ (infinity false).rank := by
  have below : (infinity true).rank = -(infinityCode : Int) := by decide +kernel
  have above : (infinity false).rank = (infinityCode : Int) := by decide +kernel
  simp only [isNaN, decide_eq_false_iff_not, Nat.not_lt] at number
  rw [below, above, rank]
  split <;> omega

theorem totalLe_refl (x : Binary64) : x.totalLe x = true := decide_eq_true (Int.le_refl _)

theorem head_totalLe {first : Binary64} {rest : List Binary64} (sorted : (first :: rest).Pairwise (totalLe · ·)) :
    ∀ value ∈ first :: rest, first.totalLe value = true := by
  intro value member
  rcases List.mem_cons.mp member with rfl | member
  · exact totalLe_refl _
  · exact (List.pairwise_cons.mp sorted).1 value member

theorem totalLe_last {earlier : List Binary64} {last : Binary64} (sorted : (earlier ++ [last]).Pairwise (totalLe · ·)) :
    ∀ value ∈ earlier ++ [last], value.totalLe last = true := by
  intro value member
  rcases List.mem_append.mp member with member | same
  · exact (List.pairwise_append.mp sorted).2.2 value member last (List.mem_singleton_self _)
  · rw [List.mem_singleton.mp same]
    exact totalLe_refl _

end Binary64

/-- A value at a place of a sample in total order, counted from zero. -/
structure OrderStatistic (values : List Binary64) (place : Nat) (value : Binary64) : Prop where
  member : value ∈ values
  below : values.countP (·.totalLess value) ≤ place
  reached : place < values.countP (·.totalLe value)

namespace OrderStatistic

theorem of_perm {values others : List Binary64} {place : Nat} {value : Binary64} (same : values.Perm others)
    (statistic : OrderStatistic values place value) : OrderStatistic others place value := by
  refine ⟨same.mem_iff.mp statistic.member, ?_, ?_⟩
  · rw [← same.countP_eq]
    exact statistic.below
  · rw [← same.countP_eq]
    exact statistic.reached

private theorem not_below {values : List Binary64} {place : Nat} {value other : Binary64}
    (first : OrderStatistic values place value) (second : OrderStatistic values place other) :
    value.totalLess other = false := by
  by_contra before
  rw [Bool.not_eq_false] at before
  -- All that is not above the smaller one is below the greater one, and there is too much of it.
  have less : values.countP (·.totalLe value) ≤ values.countP (·.totalLess other) := by
    refine List.countP_mono_left fun held _ le => ?_
    rw [Binary64.totalLess, Bool.not_eq_true'] at before ⊢
    by_contra above
    rw [Bool.not_eq_false] at above
    exact absurd (Binary64.totalLe_trans other held value above le) (by simp [before])
  exact absurd first.reached (Nat.not_lt.mpr (Nat.le_trans less second.below))

/-- A place has one value. -/
theorem unique {values : List Binary64} {place : Nat} {value other : Binary64}
    (first : OrderStatistic values place value) (second : OrderStatistic values place other) : value = other := by
  have notBelow := not_below first second
  have notAbove := not_below second first
  rw [Binary64.totalLess, Bool.not_eq_false'] at notBelow notAbove
  exact Binary64.totalLe_antisymm notAbove notBelow

/-- In a sorted list a value has as many others before it as its place says. -/
theorem of_sorted {before after : List Binary64} {value : Binary64}
    (sorted : (before ++ value :: after).Pairwise (Binary64.totalLe · ·)) :
    OrderStatistic (before ++ value :: after) before.length value := by
  obtain ⟨_, later, across⟩ := List.pairwise_append.mp sorted
  refine ⟨List.mem_append_right _ List.mem_cons_self, ?_, ?_⟩
  · have none : (value :: after).countP (·.totalLess value) = 0 := by
      refine List.countP_eq_zero.mpr fun held member => ?_
      simp [Binary64.totalLess, Binary64.head_totalLe later held member]
    rw [List.countP_append, none, Nat.add_zero]
    exact List.countP_le_length
  · have all : before.countP (·.totalLe value) = before.length :=
      List.countP_eq_length.mpr fun held member => across held member value List.mem_cons_self
    have counted : 0 < (value :: after).countP (·.totalLe value) :=
      List.countP_pos_iff.mpr ⟨value, List.mem_cons_self, Binary64.totalLe_refl value⟩
    rw [List.countP_append, all]
    omega

end OrderStatistic

theorem nearestRankIndex_lt {count : Nat} (filled : 0 < count) (fraction : Binary64) :
    nearestRankIndex count fraction < count := by
  have last : nearestRankIndex count fraction ≤ count - 1 := Nat.min_le_right _ _
  omega

section Percentile
variable {values : List Binary64} (filled : values ≠ [])
include filled

theorem index_lt (fraction : Binary64) : nearestRankIndex values.length fraction < values.length :=
  nearestRankIndex_lt (List.length_pos_iff.mpr filled) fraction

/-- The index is within the sorted sample, so what stands there is the percentile. -/
theorem getElem?_percentile (fraction : Binary64) :
    (sortTotal values)[nearestRankIndex values.length fraction]? = some (percentile values fraction) := by
  have size : (sortTotal values).length = values.length := (perm_sortTotal values).length_eq
  have inside : nearestRankIndex values.length fraction < (sortTotal values).length := by
    rw [size]
    exact index_lt filled fraction
  have nonempty : ¬ (sortTotal values).isEmpty = true := by
    rw [List.isEmpty_iff, ← List.length_eq_zero_iff]
    omega
  rw [percentile, percentileOfSorted, if_neg nonempty, size, List.getD_eq_getElem?_getD,
    List.getElem?_eq_getElem inside, Option.getD_some]

theorem orderStatistic_percentile (fraction : Binary64) :
    OrderStatistic values (nearestRankIndex values.length fraction) (percentile values fraction) := by
  obtain ⟨inside, found⟩ := List.getElem?_eq_some_iff.mp (getElem?_percentile filled fraction)
  have sorted := sorted_sortTotal values
  have cut := List.take_append_drop (nearestRankIndex values.length fraction) (sortTotal values)
  rw [List.drop_eq_getElem_cons inside, found] at cut
  rw [← cut] at sorted
  have statistic := OrderStatistic.of_sorted sorted
  rw [cut, List.length_take_of_le (Nat.le_of_lt inside)] at statistic
  exact statistic.of_perm (perm_sortTotal values)

end Percentile

/-- What the percentiles of a sample with values are. -/
structure Sample.Ranks (sample : Sample) : Prop where
  inside : ∀ fraction, nearestRankIndex sample.size fraction < sample.size
  indexed : ∀ fraction, (sortTotal sample.values.toList)[nearestRankIndex sample.size fraction]? =
    some (sample.percentile fraction)
  /-- The percentile is a value of the sample, and the only one that its place allows. -/
  statistic : ∀ fraction value,
    OrderStatistic sample.values.toList (nearestRankIndex sample.size fraction) value ↔
      value = sample.percentile fraction
  permuted : ∀ other : Sample, other.values.toList.Perm sample.values.toList →
    ∀ fraction, other.percentile fraction = sample.percentile fraction
  p95 : sample.latencySummary.p95 = sample.percentile ninetyFive
  p99 : sample.latencySummary.p99 = sample.percentile ninetyNine
  /-- Without NaN the minimum and the maximum are the ends of the sorted sample, up to the sign of a zero. -/
  ends : (∀ value ∈ sample.values.toList, value.isNaN = false) → ∃ first last,
    (sortTotal sample.values.toList).head? = some first ∧ (sortTotal sample.values.toList).getLast? = some last ∧
      sample.summary.min.Equal first ∧ sample.summary.max.Equal last
  between : (∀ value ∈ sample.values.toList, value.isNaN = false) → ∀ fraction,
    sample.summary.min.AtMost (sample.percentile fraction) ∧ (sample.percentile fraction).AtMost sample.summary.max

namespace Sample
variable {sample : Sample}

section Numbers
variable (filled : sample.values.isEmpty = false) (numbers : ∀ value ∈ sample.values.toList, value.isNaN = false)
include filled numbers

/-- The minimum has the value of an element that no other one is below. -/
theorem min_equal {first : Binary64} (member : first ∈ sample.values.toList)
    (least : ∀ value ∈ sample.values.toList, first.totalLe value = true) : sample.summary.min.Equal first := by
  have found := first_min filled
  refine Binary64.equal_of_rank found.number (Int.le_antisymm (found.bound first member (numbers first member)) ?_)
  rcases found.member with infinite | member
  · rw [infinite]
    exact (Binary64.rank_bounds (numbers first ‹_›)).2
  · exact Binary64.rank_le_of_totalLe (least _ member)

theorem max_equal {last : Binary64} (member : last ∈ sample.values.toList)
    (greatest : ∀ value ∈ sample.values.toList, value.totalLe last = true) : sample.summary.max.Equal last := by
  have found := first_max filled
  have bound := found.bound last member (numbers last member)
  refine Binary64.equal_of_rank found.number (Int.le_antisymm ?_ (by omega))
  rcases found.member with infinite | member
  · rw [infinite]
    exact (Binary64.rank_bounds (numbers last ‹_›)).1
  · exact Binary64.rank_le_of_totalLe (greatest _ member)

theorem between_ends {value : Binary64} (member : value ∈ sample.values.toList) :
    sample.summary.min.AtMost value ∧ value.AtMost sample.summary.max := by
  have number := numbers value member
  have least := first_min filled
  have greatest := first_max filled
  have above := greatest.bound value member number
  exact ⟨Binary64.atMost_of_rank least.number number (least.bound value member number),
    Binary64.atMost_of_rank number greatest.number (by omega)⟩

theorem sorted_ends : ∃ first last,
    (sortTotal sample.values.toList).head? = some first ∧ (sortTotal sample.values.toList).getLast? = some last ∧
      sample.summary.min.Equal first ∧ sample.summary.max.Equal last := by
  have same := perm_sortTotal sample.values.toList
  have sorted := sorted_sortTotal sample.values.toList
  have nonempty : sortTotal sample.values.toList ≠ [] := by
    intro none
    rw [none, List.nil_perm, Array.toList_eq_nil_iff] at same
    simp [same] at filled
  obtain ⟨first, rest, ascending⟩ := List.exists_cons_of_ne_nil nonempty
  obtain ⟨earlier, last, ending⟩ := (List.eq_nil_or_concat' _).resolve_left nonempty
  have least := Binary64.head_totalLe (ascending ▸ sorted)
  have greatest := Binary64.totalLe_last (ending ▸ sorted)
  rw [← ascending] at least
  rw [← ending] at greatest
  refine ⟨first, last, by rw [ascending, List.head?_cons], by rw [ending, List.getLast?_concat], ?_, ?_⟩
  · refine min_equal filled numbers (same.mem_iff.mp (by simp [ascending])) fun value member => ?_
    exact least value (same.mem_iff.mpr member)
  · refine max_equal filled numbers (same.mem_iff.mp (by simp [ending])) fun value member => ?_
    exact greatest value (same.mem_iff.mpr member)

end Numbers

/-- Percentiles are order statistics, for every fraction and for all bit patterns. -/
theorem ranks_percentile (filled : sample.values.isEmpty = false) : sample.Ranks := by
  have nonempty : sample.values.toList ≠ [] := by
    intro none
    simp [Array.toList_eq_nil_iff.mp none] at filled
  have statistic (fraction : Binary64) := orderStatistic_percentile nonempty fraction
  constructor
  case inside => exact index_lt nonempty
  case indexed => exact getElem?_percentile nonempty
  case statistic =>
    intro fraction value
    constructor
    · intro ranked
      exact ranked.unique (statistic fraction)
    · rintro rfl
      exact statistic fraction
  case permuted =>
    intro other same fraction
    rw [percentile, percentile, StateAudit.percentile, sortTotal_perm same, ← StateAudit.percentile]
  case p95 => rfl
  case p99 => rfl
  case ends => exact sorted_ends filled
  case between =>
    intro numbers fraction
    exact between_ends filled numbers (statistic fraction).member

/-- Both zeros, both infinities and no number. -/
def mixed : Sample := { values := #[.zero false, .nan, .infinity false, .zero true, .infinity true] }

def zeros : Sample := { values := #[.zero false, .zero true] }

/-- A fraction that is no number leads to the first place and a large one to the last. Of two zeros the
minimum is the one that came first, and the percentile at the first place is the negative one. -/
theorem ranks_mixed :
    mixed.values.isEmpty = false ∧ mixed.percentile .nan = .infinity true ∧
      mixed.percentile (.infinity false) = .nan ∧ mixed.percentile (.infinity true) = .infinity true ∧
    zeros.values.isEmpty = false ∧ (∀ value ∈ zeros.values.toList, value.isNaN = false) ∧
      zeros.percentile (.zero true) = .zero true ∧ zeros.summary.min = .zero false ∧
      zeros.summary.min.AtMost (zeros.percentile (.zero true)) := by
  have filled : mixed.values.isEmpty = false := rfl
  have ranks : mixed.Ranks := ranks_percentile filled
  have pair : zeros.values.isEmpty = false := rfl
  have numbers : ∀ value ∈ zeros.values.toList, value.isNaN = false := by decide +kernel
  have placed : zeros.Ranks := ranks_percentile pair
  refine ⟨filled, ?_, ?_, ?_, pair, numbers, ?_, by decide +kernel, (placed.between numbers _).1⟩
  · exact ((ranks.statistic .nan (.infinity true)).mp ⟨by decide +kernel, by decide +kernel, by decide +kernel⟩).symm
  · exact ((ranks.statistic _ .nan).mp ⟨by decide +kernel, by decide +kernel, by decide +kernel⟩).symm
  · exact ((ranks.statistic _ (.infinity true)).mp ⟨by decide +kernel, by decide +kernel, by decide +kernel⟩).symm
  · exact ((placed.statistic _ (.zero true)).mp ⟨by decide +kernel, by decide +kernel, by decide +kernel⟩).symm

end Sample

end StateAudit
