import StateAudit.Vocabulary
import StateAudit.Proofs.DictionaryEntries
import Mathlib.Logic.Basic

/-! What a vocabulary knows, by the states that were put in: identifiers, primitives and contexts
are three separate sets. -/

namespace StateAudit.Vocabulary

theorem mem_addLabel {label text : String} {labels : Labels} :
    text ∈ addLabel label labels ↔ (text ≠ "" ∧ label = text) ∨ text ∈ labels := by
  rw [addLabel]
  split
  next empty =>
    rw [String.isEmpty_iff] at empty
    subst empty
    exact ⟨.inr, fun known => known.resolve_left fun same => same.1 same.2.symm⟩
  next filled =>
    rw [String.isEmpty_iff] at filled
    rw [Labels.mem_insert]
    exact or_congr_left ⟨fun same => ⟨same ▸ filled, same.symm⟩, fun same => same.2.symm⟩

theorem mem_foldl_addLabel (label : State → String) (states : List State) {text : String} {labels : Labels} :
    text ∈ states.foldl (fun labels state => addLabel (label state) labels) labels ↔
      (text ≠ "" ∧ ∃ state ∈ states, label state = text) ∨ text ∈ labels := by
  induction states generalizing labels with
  | nil => simp
  | cons state rest ih =>
    rw [List.foldl_cons, ih, mem_addLabel, ← or_assoc, ← and_or_left]
    simp only [List.mem_cons, exists_eq_or_imp, or_comm]

theorem sorted_addLabel (label : String) {labels : Labels} (sorted : labels.Pairwise (· < ·)) :
    (addLabel label labels).Pairwise (· < ·) := by
  rw [addLabel]
  split
  · exact sorted
  · exact Labels.sorted_insert label sorted

theorem sorted_foldl_addLabel (label : State → String) (states : List State) {labels : Labels}
    (sorted : labels.Pairwise (· < ·)) :
    (states.foldl (fun labels state => addLabel (label state) labels) labels).Pairwise (· < ·) := by
  induction states generalizing labels with
  | nil => exact sorted
  | cons state rest ih => exact ih (sorted_addLabel (label state) sorted)

private theorem primitives_foldl (states : List State) (vocabulary : Vocabulary) :
    (states.foldl insert vocabulary).primitives =
      states.foldl (fun labels state => addLabel state.primitive labels) vocabulary.primitives := by
  induction states generalizing vocabulary with
  | nil => rfl
  | cons state rest ih => exact ih (vocabulary.insert state)

private theorem contexts_foldl (states : List State) (vocabulary : Vocabulary) :
    (states.foldl insert vocabulary).contexts =
      states.foldl (fun labels state => addLabel state.context labels) vocabulary.contexts := by
  induction states generalizing vocabulary with
  | nil => rfl
  | cons state rest ih => exact ih (vocabulary.insert state)

private theorem contains_foldl (states : List State) (vocabulary : Vocabulary) (stateId : String) :
    (states.foldl insert vocabulary).contains stateId = true ↔
      (∃ state ∈ states, state.stateId = stateId) ∨ vocabulary.contains stateId = true := by
  induction states generalizing vocabulary with
  | nil => simp
  | cons state rest ih =>
    have inserted : (vocabulary.insert state).contains stateId = true ↔
        state.stateId = stateId ∨ vocabulary.contains stateId = true := by
      simp only [contains, get?, insert, Dictionary.get?_insert]
      split
      next same => simp [same]
      next different => simp [Ne.symm different]
    rw [List.foldl_cons, ih, inserted, ← or_assoc]
    simp only [List.mem_cons, exists_eq_or_imp, or_comm]

theorem contains_ofStates (states : List State) (stateId : String) :
    (ofStates states).contains stateId = true ↔ stateId ≠ "" ∧ ∃ state ∈ states, state.stateId = stateId := by
  rw [ofStates, contains_foldl]
  simp only [List.mem_filter, Bool.not_eq_true', String.isEmpty_eq_false_iff]
  constructor
  · rintro (⟨state, ⟨member, named⟩, rfl⟩ | impossible)
    · exact ⟨named, state, member, rfl⟩
    · cases impossible
  · rintro ⟨named, state, member, rfl⟩
    exact .inl ⟨state, ⟨member, named⟩, rfl⟩

theorem hasPrimitive_ofStates (states : List State) (primitive : String) :
    (ofStates states).hasPrimitive primitive = true ↔
      primitive ≠ "" ∧ ∃ state ∈ states, state.stateId ≠ "" ∧ state.primitive = primitive := by
  rw [hasPrimitive, List.contains_iff_mem, ofStates, primitives_foldl, mem_foldl_addLabel]
  simp [and_assoc]

theorem hasContext_ofStates (states : List State) (context : String) :
    (ofStates states).hasContext context = true ↔
      context ≠ "" ∧ ∃ state ∈ states, state.stateId ≠ "" ∧ state.context = context := by
  rw [hasContext, List.contains_iff_mem, ofStates, contexts_foldl, mem_foldl_addLabel]
  simp [and_assoc]

theorem sorted_primitives (states : List State) : (ofStates states).primitives.Pairwise (· < ·) := by
  rw [ofStates, primitives_foldl]
  exact sorted_foldl_addLabel _ _ .nil

theorem sorted_contexts (states : List State) : (ofStates states).contexts.Pairwise (· < ·) := by
  rw [ofStates, contexts_foldl]
  exact sorted_foldl_addLabel _ _ .nil

end StateAudit.Vocabulary
