import StateAudit.Proofs.AggregateRun
import StateAudit.Proofs.RecentWindow

/-! The recent errors of an aggregate, at every moment of a run: the newest records of an error or
a critical failure, in their order, and as many as there is room for. -/

namespace StateAudit

open Observation (records failures)

def Record.Failed (record : Record) : Prop := record.status = .error ∨ record.status = .critical

instance (record : Record) : Decidable record.Failed := inferInstanceAs (Decidable (_ ∨ _))

theorem Record.isError_iff (record : Record) : record.status.isError = true ↔ record.Failed := by
  rw [Failed]
  cases record.status <;> simp [Status.isError]

theorem Observation.failures_eq (observations : List Observation) :
    failures observations = (records observations).filter (·.Failed) := by
  rw [failures]
  refine List.filter_congr fun record _ => ?_
  rw [Bool.eq_iff_iff, Record.isError_iff, decide_eq_true_eq]

/-- An observation that is no failure: a malformed line, or a record with another status. -/
def Observation.Harmless (observation : Observation) : Prop := ∀ record, observation = .record record → ¬ record.Failed

/-- What an aggregate with some room for recent errors holds of the observations behind it. -/
structure Aggregate.Recalls (room : Nat) (observations : List Observation) (aggregate : Aggregate) : Prop where
  newest : aggregate.recent.toList <:+ (records observations).filter (·.Failed)
  length : aggregate.recent.toList.length = min room ((records observations).filter (·.Failed)).length
  bounded : aggregate.recent.toList.length ≤ room
  failed : ∀ record ∈ aggregate.recent.toList, record.status = .error ∨ record.status = .critical
  kept : ∀ observation, observation.Harmless → (aggregate.receive observation).recent = aggregate.recent
  shown : aggregate.summarize.errorAnalysis.recent = aggregate.recent.toList

namespace Aggregate

/-- Only a failure changes the window. -/
theorem recent_receive (aggregate : Aggregate) (observation : Observation) :
    (aggregate.receive observation).recent =
      (failures [observation]).foldl (Window.push aggregate.recentCapacity) aggregate.recent :=
  congrArg recent (run_eq aggregate [observation])

theorem recent_run (config : Config) (observations : List Observation) :
    ((ofConfig config).run observations).recent.toList =
      ((records observations).filter (·.Failed)).rtake config.recentErrors := by
  rw [run_eq, ← Observation.failures_eq]
  exact Window.toList_foldl_push config.recentErrors (failures observations)

/-- What a run has behind it at any moment is a run itself, so this holds all along every run. -/
theorem run_recalls (config : Config) (observations : List Observation) :
    ((ofConfig config).run observations).Recalls config.recentErrors observations := by
  have held := recent_run config observations
  have length := congrArg List.length held
  rw [List.rtake, List.length_drop] at length
  constructor
  case newest =>
    rw [held]
    exact List.drop_suffix _ _
  case length =>
    rw [length]
    omega
  case bounded =>
    rw [length]
    omega
  case failed =>
    intro record member
    rw [held] at member
    have known := (List.drop_suffix _ _).subset member
    exact of_decide_eq_true (List.mem_filter.mp known).2
  case kept =>
    intro observation harmless
    rw [recent_receive]
    cases observation with
    | malformed => rfl
    | record record =>
      have passing := harmless record rfl
      rw [Observation.failures_eq, Observation.records_record, List.filter_cons_of_neg (by simpa using passing)]
      rfl
  case shown => rfl

end Aggregate

end StateAudit
