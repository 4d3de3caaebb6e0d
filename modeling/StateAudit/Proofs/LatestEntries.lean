import StateAudit.Proofs.VocabularyContents
import Mathlib.Data.List.Dedup
import Mathlib.Data.List.Induction

/-! Of several entries with one key the last one stands. This holds of the pairs of a dictionary, of
the columns of a row, and of the states of a vocabulary, which therefore has as many states as there
are identifiers. -/

namespace StateAudit

/-- An element with some property that no later one has. -/
def LastWith (has : α → Prop) (items : List α) (item : α) : Prop :=
  ∃ earlier later, items = earlier ++ item :: later ∧ has item ∧ ∀ other ∈ later, ¬ has other

theorem LastWith.mem {has : α → Prop} {items : List α} {item : α} (last : LastWith has items item) : item ∈ items := by
  obtain ⟨earlier, later, rfl, _⟩ := last
  exact List.mem_append_right _ List.mem_cons_self

theorem LastWith.holds {has : α → Prop} {items : List α} {item : α} (last : LastWith has items item) : has item := by
  obtain ⟨_, _, _, holds, _⟩ := last
  exact holds

theorem lastWith_nil {has : α → Prop} {item : α} : ¬ LastWith has [] item := by
  rintro ⟨earlier, later, cut, _⟩
  simp at cut

theorem lastWith_concat {has : α → Prop} {items : List α} {final item : α} :
    LastWith has (items ++ [final]) item ↔ (has final ∧ item = final) ∨ (¬ has final ∧ LastWith has items item) := by
  constructor
  · rintro ⟨earlier, later, cut, holds, none⟩
    rcases List.eq_nil_or_concat' later with rfl | ⟨between, other, rfl⟩
    · obtain ⟨rfl, same⟩ := List.append_inj' cut rfl
      obtain rfl := List.singleton_inj.mp same
      exact .inl ⟨holds, rfl⟩
    · rw [← List.cons_append, ← List.append_assoc] at cut
      obtain ⟨rfl, same⟩ := List.append_inj' cut rfl
      obtain rfl := List.singleton_inj.mp same
      exact .inr ⟨none _ (by simp), earlier, between, rfl, holds, fun other member => none other (by simp [member])⟩
  · rintro (⟨holds, rfl⟩ | ⟨fails, earlier, later, rfl, holds, none⟩)
    · exact ⟨items, [], rfl, holds, List.forall_mem_nil _⟩
    · refine ⟨earlier, later ++ [final], by simp, holds, ?_⟩
      intro other member
      rcases List.mem_append.mp member with member | same
      · exact none other member
      · rwa [List.mem_singleton.mp same]

theorem exists_lastWith {has : α → Prop} {items : List α} {item : α} (member : item ∈ items) (holds : has item) :
    ∃ last, LastWith has items last := by
  induction items using List.reverseRecOn with
  | nil => cases member
  | append_singleton items final ih =>
    by_cases also : has final
    · exact ⟨final, lastWith_concat.mpr (.inl ⟨also, rfl⟩)⟩
    · rcases List.mem_append.mp member with member | same
      · obtain ⟨last, found⟩ := ih member
        exact ⟨last, lastWith_concat.mpr (.inr ⟨also, found⟩)⟩
      · exact absurd (List.mem_singleton.mp same ▸ holds) also

theorem lastWith_filter {has : α → Prop} {keep : α → Bool} {items : List α} {item : α} :
    LastWith has (items.filter keep) item ↔ LastWith (fun other => keep other = true ∧ has other) items item := by
  induction items using List.reverseRecOn with
  | nil => exact iff_of_false lastWith_nil lastWith_nil
  | append_singleton items final ih =>
    rw [List.filter_append, lastWith_concat, ← ih]
    cases kept : keep final with
    | true => simp [kept, lastWith_concat]
    | false => simp [kept]

/-- The last element with a property, by its place. -/
theorem lastWith_iff_getElem? {has : α → Prop} {items : List α} {item : α} :
    LastWith has items item ↔ ∃ place : Nat, items[place]? = some item ∧ has item ∧
      ∀ later other, place < later → items[later]? = some other → ¬ has other := by
  constructor
  · rintro ⟨earlier, rest, rfl, holds, none⟩
    refine ⟨earlier.length, by simp, holds, ?_⟩
    intro later other behind found
    rw [List.getElem?_append_right (Nat.le_of_lt behind), List.getElem?_cons, if_neg (by omega)] at found
    exact none other (List.mem_of_getElem? found)
  · rintro ⟨place, found, holds, none⟩
    obtain ⟨inside, same⟩ := List.getElem?_eq_some_iff.mp found
    refine ⟨items.take place, items.drop (place + 1), ?_, holds, ?_⟩
    · rw [← same, ← List.drop_eq_getElem_cons inside, List.take_append_drop]
    · intro other member
      obtain ⟨offset, there⟩ := List.mem_iff_getElem?.mp member
      rw [List.getElem?_drop] at there
      exact none _ other (by omega) there

theorem getLast?_filter_eq_some {keep : α → Bool} {items : List α} {item : α} :
    (items.filter keep).getLast? = some item ↔ LastWith (keep · = true) items item := by
  induction items using List.reverseRecOn with
  | nil => exact ⟨nofun, fun last => absurd last lastWith_nil⟩
  | append_singleton items final ih =>
    rw [lastWith_concat, ← ih, List.filter_append]
    cases kept : keep final with
    | true => simp [kept, eq_comm]
    | false => simp [kept]

namespace Dictionary

theorem get?_ofList {entries : List (String × α)} {key : String} {value : α} :
    get? (ofList entries) key = some value ↔ LastWith (·.1 = key) entries (key, value) := by
  induction entries using List.reverseRecOn with
  | nil => exact ⟨nofun, fun last => absurd last lastWith_nil⟩
  | append_singleton entries final ih =>
    rw [lastWith_concat, ← ih, ofList, List.foldl_append, ← ofList, List.foldl_cons, List.foldl_nil, get?_insert]
    obtain ⟨other, held⟩ := final
    by_cases same : key = other
    · simp [same, eq_comm]
    · simp [same, Ne.symm same]

theorem sorted_ofList (entries : List (String × α)) : Sorted (ofList entries) := by
  induction entries using List.reverseRecOn with
  | nil => exact sorted_nil
  | append_singleton entries final ih =>
    rw [ofList, List.foldl_append, ← ofList]
    exact sorted_insert final.1 final.2 ih

theorem mem_keys {entries : Dictionary α} {key : String} : key ∈ entries.map Prod.fst ↔ (get? entries key).isSome := by
  rw [get?, List.lookup_isSome_iff, List.mem_map]
  refine exists_congr fun entry => and_congr_right fun _ => ?_
  rw [beq_iff_eq, eq_comm]

end Dictionary

/-- A set of labels has as many as there are different ones among some that it was made of. -/
theorem Labels.length_eq {labels : Labels} {others : List String} (sorted : labels.Pairwise (· < ·))
    (same : ∀ label, label ∈ labels ↔ label ∈ others) : labels.length = others.dedup.length := by
  refine List.Perm.length_eq ((List.perm_ext_iff_of_nodup (sorted.imp ne_of_lt) (List.nodup_dedup others)).mpr ?_)
  intro label
  rw [same, List.mem_dedup]

namespace Vocabulary

/-- The states that have an identifier, the only ones that a vocabulary is made of. -/
def named (states : List State) : List State := states.filter (!·.stateId.isEmpty)

theorem mem_named {states : List State} {state : State} :
    state ∈ named states ↔ state ∈ states ∧ state.stateId ≠ "" := by
  rw [named, List.mem_filter, Bool.not_eq_true', String.isEmpty_eq_false_iff]

theorem ofStates_named (states : List State) : ofStates (named states) = ofStates states := by
  rw [ofStates, named, List.filter_filter, ofStates]
  simp only [Bool.and_self]

theorem ofStates_concat (states : List State) (final : State) : ofStates (states ++ [final]) =
    if final.stateId = "" then ofStates states else (ofStates states).insert final := by
  rw [ofStates, List.filter_append, List.foldl_append, ← ofStates]
  by_cases unnamed : final.stateId = ""
  · simp [unnamed]
  · simp [unnamed]

/-- Looking up an identifier finds the last state that has it. -/
theorem get?_ofStates {states : List State} {stateId : String} {state : State} :
    (ofStates states).get? stateId = some state ↔ stateId ≠ "" ∧ LastWith (·.stateId = stateId) states state := by
  induction states using List.reverseRecOn with
  | nil => exact ⟨nofun, fun last => absurd last.2 lastWith_nil⟩
  | append_singleton states final ih =>
    rw [lastWith_concat, ofStates_concat]
    by_cases unnamed : final.stateId = ""
    · rw [if_pos unnamed, ih]
      refine and_congr_right fun filled => ?_
      have other : final.stateId ≠ stateId := unnamed ▸ Ne.symm filled
      simp [other]
    · rw [if_neg unnamed, get?, insert, Dictionary.get?_insert]
      split
      next same => simp [same, unnamed, eq_comm]
      next different =>
        rw [← get?, ih]
        simp [Ne.symm different]

theorem sorted_states (states : List State) : Dictionary.Sorted (ofStates states).states := by
  induction states using List.reverseRecOn with
  | nil => exact Dictionary.sorted_nil
  | append_singleton states final ih =>
    rw [ofStates_concat]
    split
    · exact ih
    · exact Dictionary.sorted_insert final.stateId final ih

theorem size_ofStates (states : List State) :
    (ofStates states).size = ((named states).map State.stateId).dedup.length := by
  have keys : ∀ stateId,
      stateId ∈ (ofStates states).states.map Prod.fst ↔ stateId ∈ (named states).map State.stateId := by
    intro stateId
    rw [Dictionary.mem_keys, ← get?, ← contains, contains_ofStates, List.mem_map]
    simp only [mem_named]
    constructor
    · rintro ⟨filled, state, member, rfl⟩
      exact ⟨state, ⟨member, filled⟩, rfl⟩
    · rintro ⟨state, ⟨member, filled⟩, rfl⟩
      exact ⟨filled, state, member, rfl⟩
  rw [size, ← Labels.length_eq (sorted_states states) keys, List.length_map]

/-- The labels of the states that have an identifier, as often as they occur. -/
def labels (label : State → String) (states : List State) : List String :=
  ((named states).map label).filter (!·.isEmpty)

theorem mem_labels {label : State → String} {states : List State} {text : String} :
    text ∈ labels label states ↔ text ≠ "" ∧ ∃ state ∈ states, state.stateId ≠ "" ∧ label state = text := by
  simp [labels, mem_named, and_assoc, and_comm]

theorem primitiveCount_ofStates (states : List State) :
    (ofStates states).primitiveCount = (labels State.primitive states).dedup.length := by
  refine Labels.length_eq (sorted_primitives states) fun label => ?_
  rw [mem_labels, ← hasPrimitive_ofStates, hasPrimitive, List.contains_iff_mem]

theorem contextCount_ofStates (states : List State) :
    (ofStates states).contextCount = (labels State.context states).dedup.length := by
  refine Labels.length_eq (sorted_contexts states) fun label => ?_
  rw [mem_labels, ← hasContext_ofStates, hasContext, List.contains_iff_mem]

end Vocabulary

end StateAudit
