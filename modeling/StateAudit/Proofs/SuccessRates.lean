import StateAudit.Proofs.AggregateConservation
import StateAudit.Proofs.NumeralScaling
import StateAudit.Report.Basic

/-! Success rates at their ends. A rate is rounded twice, and near one hundred percent both roundings
are as coarse as they can be. Up to `2 ^ 53` entries they still leave a gap for a single failure. -/

namespace StateAudit

open Binary64 (one unitsAt nearestCode)

namespace Binary64

theorem less_of_code {x y : Binary64} (first : x.negative = false) (second : y.negative = false)
    (finite : y.isFinite = true) (below : x.code < y.code) : less x y = true := by
  have bounded := isFinite_iff.1 finite
  have number := (isNaN_finite (isFinite_iff.2 (Nat.lt_trans below bounded))).1
  simp [less, rank, number, (isNaN_finite finite).1, first, second, below]

theorem ne_of_less {x y : Binary64} (below : less x y = true) : x ≠ y := by
  rintro rfl
  simp [less] at below

end Binary64

def hundred : Binary64 := Binary64.ofNat 100

theorem negative_percentage (part total : Nat) : (percentage part total).negative = false := by
  rw [percentage]
  split
  · decide +kernel
  · apply Binary64.unsigned_mul
    · exact Binary64.unsigned_div (Binary64.ofNat_eq part).1 (Binary64.ofNat_eq total).1
    · exact (Binary64.ofNat_eq 100).1

/-- The two roundings of a rate, the first one of the quotient. -/
theorem percentage_eq {part total : Nat} (some : 0 < total) (least : part ≤ total) (small : total < 2 ^ 53) :
    percentage part total = Binary64.ofRatio false (unitsAt (nearestCode (part * one) total) * 100) 1 := by
  have double : 2 * Binary64.binade = 2 ^ 53 := by decide
  have word : 2 ^ 53 < Json.Numeral.wordLimit := by decide
  have first := Json.Numeral.isFinite_ofNat (show part < Json.Numeral.wordLimit by omega)
  have second := Json.Numeral.isFinite_ofNat (show total < Json.Numeral.wordLimit by omega)
  have third := Json.Numeral.isFinite_ofNat (show 100 < Json.Numeral.wordLimit by decide)
  have large := Binary64.one_le_ofNat some
  have quotient := Binary64.div_finite first second (Binary64.code_ne_zero large)
  have finite := Binary64.isFinite_div first second large
  have cancel := Binary64.nearestCode_cancel (part * one) some Binary64.one_pos
  rw [Binary64.units_ofNat (by omega), Binary64.units_ofNat (by omega), (Binary64.ofNat_eq part).1,
    (Binary64.ofNat_eq total).1] at quotient
  rw [percentage, if_neg (Nat.ne_of_gt some), Binary64.mul_finite finite third, (Binary64.ofNat_eq 100).1, quotient,
    (Binary64.ofRatio_eq _ _ _).1, Binary64.units, (Binary64.ofRatio_eq _ _ _).2, cancel,
    Binary64.units_ofNat (show 100 ≤ 2 * Binary64.binade by decide)]
  have scaled := Binary64.nearestCode_cancel (unitsAt (nearestCode (part * one) total) * 100) (show 0 < 1 by decide)
    Binary64.one_pos
  rw [Nat.one_mul, Nat.mul_assoc] at scaled
  rw [Binary64.ofRatio, scaled]
  rfl

theorem percentage_none {total : Nat} (small : total < 2 ^ 53) : percentage 0 total = Binary64.zero false := by
  obtain rfl | some := Nat.eq_zero_or_pos total
  · rfl
  · have nothing := Binary64.nearestCode_unitsAt some (Nat.zero_le Binary64.infinityCode)
    rw [show unitsAt 0 = 0 by decide, Nat.zero_mul] at nothing
    rw [percentage_eq some (Nat.zero_le total) small, Nat.zero_mul, nothing]
    decide +kernel

theorem percentage_all {total : Nat} (some : 0 < total) (small : total < 2 ^ 53) : percentage total total = hundred := by
  have finite : (Binary64.ofNat 1).code ≤ Binary64.infinityCode := by decide +kernel
  have exact := Binary64.units_ofNat (show 1 ≤ 2 * Binary64.binade by decide)
  have whole := Binary64.nearestCode_unitsAt some finite
  rw [← Binary64.units, exact, Nat.one_mul, Nat.mul_comm] at whole
  rw [percentage_eq some (Nat.le_refl total) small, whole, ← Binary64.units, exact, Nat.one_mul, Nat.mul_comm]
  rfl

section Between
variable {part total : Nat} (small : total < 2 ^ 53)
include small

/-- One success in the whole total is a rate above zero. -/
theorem code_percentage_pos (succeeded : 0 < part) (least : part ≤ total) : 0 < (percentage part total).code := by
  have some : 0 < total := Nat.lt_of_lt_of_le succeeded least
  have unit : unitsAt 1 = 1 := by decide
  have limit : 2 ^ 53 < one := by decide +kernel
  have finite : 1 ≤ Binary64.infinityCode := by decide
  rw [percentage_eq some least small, (Binary64.ofRatio_eq _ _ _).2]
  -- Both the quotient and its hundredfold are no less than the smallest positive double.
  have quotient : 1 ≤ nearestCode (part * one) total := by
    apply Binary64.le_nearestCode_of_le some finite
    rw [unit, Nat.one_mul]
    exact Nat.le_trans (Nat.le_of_lt (Nat.lt_trans small limit)) (Nat.le_mul_of_pos_left one succeeded)
  have units := Binary64.unitsAt_strictMono.monotone quotient
  apply Nat.lt_of_lt_of_le Nat.zero_lt_one
  apply Binary64.le_nearestCode_of_le (by decide) finite
  omega

/-- One failure in the whole total keeps the rate below one hundred: the quotient is at most the double
before one, and a hundred times that is nearer to the double before one hundred. -/
theorem code_percentage_lt (failed : part < total) : (percentage part total).code < hundred.code := by
  have some : 0 < total := Nat.lt_of_le_of_lt (Nat.zero_le part) failed
  rw [percentage_eq some (Nat.le_of_lt failed) small, (Binary64.ofRatio_eq _ _ _).2]
  generalize before : (Binary64.ofNat 1).code - 1 = last
  have short : 2 ^ 53 * unitsAt last = (2 ^ 53 - 1) * one := by
    rw [← before]
    decide +kernel
  have finite : last ≤ Binary64.infinityCode := by
    rw [← before]
    decide +kernel
  have lifted : nearestCode (unitsAt last * 100) 1 < hundred.code := by
    rw [← before]
    decide +kernel
  have quotient : nearestCode (part * one) total ≤ last := by
    apply Binary64.nearestCode_le_of_le some finite
    apply Nat.le_of_mul_le_mul_left _ (Nat.two_pow_pos 53)
    calc 2 ^ 53 * (part * one) = 2 ^ 53 * part * one := (Nat.mul_assoc _ _ _).symm
      _ ≤ (2 ^ 53 - 1) * total * one := Nat.mul_le_mul_right one (by omega)
      _ = 2 ^ 53 * (unitsAt last * total) := by rw [← Nat.mul_assoc (2 ^ 53), short, Nat.mul_right_comm]
  apply Nat.lt_of_le_of_lt _ lifted
  apply Binary64.nearestCode_mono _ (by decide) (by decide)
  rw [Nat.mul_one, Nat.mul_one]
  exact Nat.mul_le_mul_right 100 (Binary64.unitsAt_strictMono.monotone quotient)

end Between

/-- A rate of `part` in `total`, where `rest` is all but the part, that tells none and all from some. -/
structure RatesFaithfully (part rest total : Nat) (rate : Binary64) : Prop where
  sum : total = part + rest
  none : rate = Binary64.zero false ↔ part = 0
  all : rate = hundred ↔ 0 < total ∧ rest = 0
  between : part ≠ 0 → rest ≠ 0 → (Binary64.zero false).less rate = true ∧ rate.less hundred = true

theorem percentage_between {part rest : Nat} (succeeded : part ≠ 0) (failed : rest ≠ 0) (small : part + rest < 2 ^ 53) :
    (Binary64.zero false).less (percentage part (part + rest)) = true ∧ (percentage part (part + rest)).less hundred = true := by
  have top : hundred.isFinite = true := by decide +kernel
  have unsigned := negative_percentage part (part + rest)
  have above := code_percentage_pos small (Nat.pos_of_ne_zero succeeded) (Nat.le_add_right part rest)
  have below := code_percentage_lt small (show part < part + rest by omega)
  have finite := Binary64.isFinite_iff.2 (Nat.lt_trans below (Binary64.isFinite_iff.1 top))
  constructor
  · exact Binary64.less_of_code (by decide +kernel) unsigned finite above
  · exact Binary64.less_of_code unsigned (by decide +kernel) top below

theorem percentage_faithful {part rest : Nat} (small : part + rest < 2 ^ 53) :
    RatesFaithfully part rest (part + rest) (percentage part (part + rest)) := by
  have apart : Binary64.zero false ≠ hundred := by decide +kernel
  have all (filled : 0 < part + rest) (passed : rest = 0) : percentage part (part + rest) = hundred := by
    subst passed
    exact percentage_all filled small
  have none (nothing : part = 0) : percentage part (part + rest) = Binary64.zero false := by
    subst nothing
    exact percentage_none small
  constructor
  case sum => rfl
  case none =>
    refine ⟨fun zero => ?_, none⟩
    by_contra succeeded
    by_cases passed : rest = 0
    · exact apart (zero.symm.trans (all (by omega) passed))
    · exact Binary64.ne_of_less (percentage_between succeeded passed small).1 zero.symm
  case all =>
    refine ⟨fun full => ?_, fun passed => all passed.1 passed.2⟩
    have succeeded : part ≠ 0 := fun nothing => apart ((none nothing).symm.trans full)
    refine ⟨by omega, ?_⟩
    by_contra failed
    exact Binary64.ne_of_less (percentage_between succeeded failed small).2 full
  case between => exact fun succeeded failed => percentage_between succeeded failed small

/-- Reports that records and malformed lines lead to, whatever the verdicts on the records. -/
inductive Report.Reachable : Report → Prop where
  | empty : Reachable {}
  | push {report : Report} (reached : Reachable report) (line : Nat) (record : Record) (verdict : Verdict) :
      Reachable (report.push line record verdict)
  | pushMalformed {report : Report} (reached : Reachable report) (line : Nat) (error : RecordError) :
      Reachable (report.pushMalformed line error)

theorem Report.Reachable.sum {report : Report} (reached : report.Reachable) : report.total = report.valid + report.invalid := by
  induction reached with
  | empty => rfl
  | push _ _ _ verdict ih =>
    simp only [Report.push]
    split
    · simp only [ih]
      omega
    · simp only [ih]
      omega
  | pushMalformed _ _ _ ih =>
    simp only [Report.pushMalformed, ih]
    omega

theorem Report.Reachable.ratesFaithfully {report : Report} (reached : report.Reachable) (small : report.total < 2 ^ 53) :
    RatesFaithfully report.valid report.invalid report.total report.successRate := by
  rw [Report.successRate, reached.sum]
  exact percentage_faithful (reached.sum ▸ small)

theorem Summary.sum_outcomes (config : Config) (observations : List Observation) :
    let summary := ((Aggregate.ofConfig config).run observations).summarize
    summary.total = summary.successful + (summary.warnings + summary.errors + summary.critical + summary.unknown) := by
  have statuses := StatusCounts.foldl_add {} ((Observation.records observations).map Record.status)
  have length := Status.sum_count ((Observation.records observations).map Record.status)
  rw [List.length_map] at length
  simp only [Aggregate.run_eq, Aggregate.summarize, Aggregate.ofConfig, statuses, Nat.zero_add]
  omega

/-- A rate is zero or one hundred exactly when nothing or everything succeeded, in the report on a stream
as in the summary of several, so a report that is not empty passes exactly at one hundred. -/
theorem successRate_faithful :
    (∀ report : Report, report.Reachable → report.total < 2 ^ 53 →
      RatesFaithfully report.valid report.invalid report.total report.successRate ∧
        (0 < report.total → (report.passed = true ↔ report.successRate = hundred))) ∧
    ∀ (config : Config) (observations : List Observation),
      let summary := ((Aggregate.ofConfig config).run observations).summarize
      summary.total < 2 ^ 53 →
        RatesFaithfully summary.successful (summary.warnings + summary.errors + summary.critical + summary.unknown)
            summary.total summary.successRate ∧
          (0 < summary.total → (summary.successful = summary.total ↔ summary.successRate = hundred)) := by
  constructor
  · intro report reached small
    have faithful := reached.ratesFaithfully small
    refine ⟨faithful, fun filled => ?_⟩
    rw [faithful.all, Report.passed, beq_iff_eq]
    exact ⟨fun passed => ⟨filled, passed⟩, And.right⟩
  · intro config observations summary small
    have sum := Summary.sum_outcomes config observations
    have rate : summary.successRate = percentage summary.successful summary.total := rfl
    have faithful : RatesFaithfully summary.successful (summary.warnings + summary.errors + summary.critical + summary.unknown)
        summary.total summary.successRate := by
      rw [rate, show summary.total = _ from sum]
      exact percentage_faithful (sum ▸ small)
    refine ⟨faithful, fun filled => ?_⟩
    rw [faithful.all]
    have sum := faithful.sum
    omega

def blankRecord : Record :=
  { primitive := none, context := none, stateId := none, status := .success, message := none, performance := {}, members := [] }

/-- So many valid entries after a single malformed line. -/
def afterFailure : (count : Nat) → Report
  | 0 => ({} : Report).pushMalformed 1 .encoding
  | count + 1 => (afterFailure count).push (count + 2) blankRecord {}

theorem afterFailure_reached (count : Nat) :
    (afterFailure count).Reachable ∧ (afterFailure count).valid = count ∧ (afterFailure count).invalid = 1 := by
  induction count with
  | zero => exact ⟨.pushMalformed .empty 1 .encoding, rfl, rfl⟩
  | succ count ih => exact ⟨.push ih.1 _ _ _, congrArg (· + 1) ih.2.1, ih.2.2⟩

/-- As many entries as the theorem reaches: one failure among them is still seen. -/
theorem successRate_afterFailure :
    (afterFailure 9007199254740990).Reachable ∧ (afterFailure 9007199254740990).total < 2 ^ 53 ∧
      (afterFailure 9007199254740990).successRate.less hundred = true ∧ (afterFailure 9007199254740990).passed = false ∧
    ((Aggregate.ofConfig {}).run [.record blankRecord, .malformed]).summarize.total < 2 ^ 53 ∧
      ((Aggregate.ofConfig {}).run [.record blankRecord, .malformed]).summarize.successRate = hundred := by
  obtain ⟨reached, valid, invalid⟩ := afterFailure_reached 9007199254740990
  have small : (afterFailure 9007199254740990).total < 2 ^ 53 := by
    rw [reached.sum, valid, invalid]
    decide
  have few : ((Aggregate.ofConfig {}).run [.record blankRecord, .malformed]).summarize.total < 2 ^ 53 := by decide +kernel
  obtain ⟨faithful, passes⟩ := successRate_faithful.1 _ reached small
  have below := (faithful.between (by rw [valid]; decide) (by rw [invalid]; decide)).2
  refine ⟨reached, small, below, ?_, few, ?_⟩
  · rw [Report.passed, invalid]
    rfl
  · exact ((successRate_faithful.2 {} [.record blankRecord, .malformed] few).2 (by decide +kernel)).1 (by decide +kernel)

end StateAudit
