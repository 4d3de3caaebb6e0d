import StateAudit.Proofs.RecordVerdict
import Mathlib.Data.List.DropRight
import Mathlib.Data.List.Induction

/-! Of all that was done to it a tracker keeps one identifier, that of the last valid record since
it was last reset. Any legal state can be there and no other, so a transition is never judged
from an unknown state, and records that were not valid might as well not have been observed. -/

namespace StateAudit.Tracker

/-- One use of a tracker over a vocabulary. Each record brings the rules and the limit of
suggestions that it is judged with. -/
inductive Step where
  | observe (rules : TransitionRules) (limit : Nat) (record : Record)
  | reset

section History
variable (vocabulary : Vocabulary)

def perform (tracker : Tracker) : Step → Option Verdict × Tracker
  | .observe rules limit record =>
    let (verdict, next) := tracker.observe ⟨vocabulary, rules, limit⟩ record
    (some verdict, next)
  | .reset => (none, tracker.reset)

/-- The tracker behind some steps. -/
def run (tracker : Tracker) (steps : List Step) : Tracker :=
  steps.foldl (fun tracker step => (tracker.perform vocabulary step).2) tracker

/-- The verdicts of some steps; a reset has none. -/
def results (tracker : Tracker) : List Step → List (Option Verdict)
  | [] => []
  | step :: rest => (tracker.perform vocabulary step).1 :: results (tracker.perform vocabulary step).2 rest

def Step.isReset : Step → Bool
  | .observe _ _ _ => false
  | .reset => true

def Step.valid? : Step → Option Record
  | .observe rules limit record => if Validator.accepts ⟨vocabulary, rules, limit⟩ record then some record else none
  | .reset => none

/-- The last valid record behind the last reset. -/
def lastValid (steps : List Step) : Option Record :=
  ((steps.rtakeWhile (!·.isReset)).filterMap (Step.valid? vocabulary)).getLast?

/-- All that a tracker tells of the steps behind it. -/
structure Remembers (steps : List Step) (tracker : Tracker) : Prop where
  valid : ∀ rules limit record,
    (tracker.observe ⟨vocabulary, rules, limit⟩ record).1.isValid = Validator.accepts ⟨vocabulary, rules, limit⟩ record
  previous : tracker.previous = (lastValid vocabulary steps).map Record.derivedId
  known : ∀ stateId, tracker.previous = some stateId → vocabulary.contains stateId = true
  faultless : ∀ rules limit record source target stateId, .invalidTransition source target (.unknownState stateId) ∉
    (tracker.observe ⟨vocabulary, rules, limit⟩ record).1.warnings
  determined : ∀ others, (lastValid vocabulary others).map Record.derivedId =
    (lastValid vocabulary steps).map Record.derivedId →
    ∀ later, results vocabulary (run vocabulary {} others) later = results vocabulary tracker later
  dispensable : ∀ rules limit record, Validator.accepts ⟨vocabulary, rules, limit⟩ record = false →
    ∀ later, results vocabulary {} (steps ++ later) =
      (results vocabulary {} (steps ++ .observe rules limit record :: later)).eraseIdx steps.length

theorem run_append (tracker : Tracker) (first second : List Step) :
    run vocabulary tracker (first ++ second) = run vocabulary (run vocabulary tracker first) second :=
  List.foldl_append

theorem results_append (tracker : Tracker) (first second : List Step) :
    results vocabulary tracker (first ++ second) =
      results vocabulary tracker first ++ results vocabulary (run vocabulary tracker first) second := by
  induction first generalizing tracker with
  | nil => rfl
  | cons step rest ih => exact congrArg _ (ih _)

theorem length_results (tracker : Tracker) (steps : List Step) :
    (results vocabulary tracker steps).length = steps.length := by
  induction steps generalizing tracker with
  | nil => rfl
  | cons step rest ih => exact congrArg _ (ih _)

theorem lastValid_reset (steps : List Step) : lastValid vocabulary (steps ++ [.reset]) = none := by
  rw [lastValid, List.rtakeWhile_concat]
  rfl

theorem lastValid_observe (steps : List Step) (rules : TransitionRules) (limit : Nat) (record : Record) :
    lastValid vocabulary (steps ++ [.observe rules limit record]) =
      if Validator.accepts ⟨vocabulary, rules, limit⟩ record then some record else lastValid vocabulary steps := by
  rw [lastValid, List.rtakeWhile_concat]
  simp only [Step.isReset, Bool.not_false, ite_true, List.filterMap_append, List.filterMap_cons, List.filterMap_nil,
    Step.valid?]
  cases Validator.accepts ⟨vocabulary, rules, limit⟩ record with
  | true => exact List.getLast?_concat
  | false => exact congrArg List.getLast? (List.append_nil _)

theorem previous_observe (tracker : Tracker) (rules : TransitionRules) (limit : Nat) (record : Record) :
    (tracker.perform vocabulary (.observe rules limit record)).2.previous =
      if Validator.accepts ⟨vocabulary, rules, limit⟩ record then some record.derivedId else tracker.previous :=
  Validator.next_validate _ _ _

theorem previous_run (steps : List Step) :
    (run vocabulary {} steps).previous = (lastValid vocabulary steps).map Record.derivedId := by
  induction steps using List.reverseRecOn with
  | nil => rfl
  | append_singleton steps step ih =>
    rw [run_append]
    cases step with
    | reset =>
      rw [lastValid_reset]
      rfl
    | observe rules limit record =>
      rw [lastValid_observe]
      refine (previous_observe vocabulary _ rules limit record).trans ?_
      split
      · rfl
      · exact ih

theorem run_rejected (tracker : Tracker) {rules : TransitionRules} {limit : Nat} {record : Record}
    (rejected : Validator.accepts ⟨vocabulary, rules, limit⟩ record = false) :
    (tracker.perform vocabulary (.observe rules limit record)).2 = tracker := by
  have kept := previous_observe vocabulary tracker rules limit record
  rw [rejected] at kept
  exact congrArg mk kept

theorem contains_lastValid {steps : List Step} {record : Record} (last : lastValid vocabulary steps = some record) :
    vocabulary.contains record.derivedId = true := by
  obtain ⟨step, _, valid⟩ := List.mem_filterMap.mp (List.mem_of_getLast? last)
  cases step with
  | reset => cases valid
  | observe rules limit other =>
    rw [Step.valid?] at valid
    split at valid
    next accepted =>
      obtain rfl := Option.some.inj valid
      exact ((Validator.accepts_iff _ _).mp accepted).2.2
    next => cases valid

/-- From a legal state, or from none, only an edge that is not listed raises a transition warning. -/
theorem notAllowed_of_mem {tracker : Tracker}
    (known : ∀ stateId, tracker.previous = some stateId → vocabulary.contains stateId = true)
    {rules : TransitionRules} {limit : Nat} {record : Record} {source target : String} {cause : TransitionFault}
    (member : .invalidTransition source target cause ∈
      (tracker.observe ⟨vocabulary, rules, limit⟩ record).1.warnings) : cause = .notAllowed := by
  rw [observe, Validator.warnings_validate, List.mem_append] at member
  rcases member with mismatch | transition
  · rcases Validator.mismatch_cases ⟨vocabulary, rules, limit⟩ record with none | ⟨logged, one⟩
    · cases none ▸ mismatch
    · cases List.mem_singleton.mp (one ▸ mismatch)
  · split at transition
    next accepted =>
      have reached := ((Validator.accepts_iff _ _).mp accepted).2.2
      cases previous : tracker.previous with
      | none => cases previous ▸ transition
      | some origin =>
        rw [previous] at transition
        cases named : origin.isEmpty with
        | true => simp [Validator.transitionWarnings, named] at transition
        | false =>
          rw [Validator.transitionWarnings_known _ named (known origin previous) reached] at transition
          split at transition
          · cases transition
          · cases List.mem_singleton.mp transition
            rfl
    next => cases transition

/-- A tracker remembers the last valid record since its last reset, and nothing else. -/
theorem run_remembers (steps : List Step) : Remembers vocabulary steps (run vocabulary {} steps) := by
  have previous := previous_run vocabulary steps
  have known : ∀ stateId, (run vocabulary {} steps).previous = some stateId → vocabulary.contains stateId = true := by
    intro stateId found
    rw [previous, Option.map_eq_some_iff] at found
    obtain ⟨record, last, rfl⟩ := found
    exact contains_lastValid vocabulary last
  constructor
  case valid =>
    intro rules limit record
    exact Validator.isValid_validate _ record _
  case previous => exact previous
  case known => exact known
  case faultless =>
    intro rules limit record source target stateId member
    cases notAllowed_of_mem vocabulary known member
  case determined =>
    intro others same later
    have equal : run vocabulary {} others = run vocabulary {} steps :=
      congrArg mk ((previous_run vocabulary others).trans (same.trans previous.symm))
    rw [equal]
  case dispensable =>
    intro rules limit record rejected later
    -- The verdict on the record stands where the steps before it end, and its state is the one before.
    rw [results_append, results_append, List.eraseIdx_append_of_length_le (Nat.le_of_eq (length_results _ _ _)),
      length_results, Nat.sub_self, results, List.eraseIdx_cons_zero, run_rejected vocabulary _ rejected]

end History

end StateAudit.Tracker
