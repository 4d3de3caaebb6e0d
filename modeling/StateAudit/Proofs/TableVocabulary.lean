import StateAudit.Proofs.ByteOrder
import StateAudit.Proofs.LatestEntries
import StateAudit.Proofs.MatrixMembership

/-! The vocabulary of a table, whatever its header and its rows look like. A row has under a name what
stands in the last column of that name that it reaches. Of rows with one identifier the last one is the
state, while the labels of all of them are known. -/

namespace StateAudit

/-- The value in the last column with a name that a row reaches. -/
def Reached (header row : List String) (name value : String) : Prop :=
  ∃ place : Nat, header[place]? = some name ∧ row[place]? = some value ∧
    ∀ later, place < later → header[later]? = some name → row[later]? = none

/-- What a row has under a name. Nothing is what it has if it reaches no column of that name. -/
def Under (header row : List String) (name value : String) : Prop :=
  Reached header row name value ∨ value = "" ∧ ∀ place : Nat, header[place]? = some name → row[place]? = none

/-- A row read as a state, column by column. -/
structure State.Reads (header row : List String) (state : State) : Prop where
  stateId : Under header row "state_id" state.stateId
  primitive : Under header row "primitive" state.primitive
  context : Under header row "context" state.context
  metadata : ∀ name value, Dictionary.get? state.metadata name = some value ↔
    name ∉ ["state_id", "primitive", "context"] ∧ Reached header row name value
  sorted : Dictionary.Sorted state.metadata

/-- The smallest of some texts by their bytes, in increasing order, as many as a limit allows. -/
structure Smallest (known : String → Prop) (count limit : Nat) (shown : List String) : Prop where
  increasing : shown.Pairwise Utf8.Before
  length : shown.length = min limit count
  member : ∀ label ∈ shown, known label
  rest : ∀ label, known label → label ∉ shown → ∀ other ∈ shown, Utf8.Before other label

/-- What a vocabulary knows of the rows of a table. -/
structure Vocabulary.Tabulates (header : List String) (rows : List (List String)) (vocabulary : Vocabulary) : Prop where
  read : ∀ row ∈ rows, (State.ofRow header row).Reads header row
  unnamed : vocabulary = ofTable { header, rows := rows.filter fun row => (State.ofRow header row).stateId ≠ "" }
  get : ∀ stateId state, vocabulary.get? stateId = some state ↔
    stateId ≠ "" ∧ LastWith (·.stateId = stateId) (rows.map (State.ofRow header)) state
  contains : ∀ stateId, vocabulary.contains stateId = true ↔
    stateId ≠ "" ∧ ∃ row ∈ rows, (State.ofRow header row).stateId = stateId
  size : vocabulary.size = ((named (rows.map (State.ofRow header))).map State.stateId).dedup.length
  primitive : ∀ label, vocabulary.hasPrimitive label = true ↔
    label ≠ "" ∧ ∃ row ∈ rows, (State.ofRow header row).stateId ≠ "" ∧ (State.ofRow header row).primitive = label
  context : ∀ label, vocabulary.hasContext label = true ↔
    label ≠ "" ∧ ∃ row ∈ rows, (State.ofRow header row).stateId ≠ "" ∧ (State.ofRow header row).context = label
  primitiveCount : vocabulary.primitiveCount = (labels State.primitive (rows.map (State.ofRow header))).dedup.length
  contextCount : vocabulary.contextCount = (labels State.context (rows.map (State.ofRow header))).dedup.length
  primitives : ∀ limit, Smallest (vocabulary.hasPrimitive · = true) vocabulary.primitiveCount limit
    (vocabulary.primitiveExamples limit)
  contexts : ∀ limit, Smallest (vocabulary.hasContext · = true) vocabulary.contextCount limit
    (vocabulary.contextExamples limit)

theorem reached_iff {header row : List String} {name value : String} :
    Reached header row name value ↔ LastWith (·.1 = name) (header.zip row) (name, value) := by
  rw [lastWith_iff_getElem?, Reached]
  refine exists_congr fun place => ?_
  rw [List.getElem?_zip_eq_some, and_assoc]
  refine and_congr_right fun _ => and_congr_right fun _ => ?_
  constructor
  · intro missed
    refine ⟨rfl, ?_⟩
    rintro later ⟨other, held⟩ behind found rfl
    rw [List.getElem?_zip_eq_some] at found
    exact absurd ((missed later behind found.1).symm.trans found.2) nofun
  · rintro ⟨_, none⟩ later behind named
    by_contra reached
    obtain ⟨held, found⟩ := Option.ne_none_iff_exists'.mp reached
    exact none later (name, held) behind (List.getElem?_zip_eq_some.mpr ⟨named, found⟩) rfl

theorem State.under_column (name : String) (header row : List String) :
    Under header row name (column name (header.zip row)) := by
  rw [column]
  cases last : ((header.zip row).filter (·.1 == name)).getLast? with
  | some cell =>
    obtain ⟨other, value⟩ := cell
    have found := getLast?_filter_eq_some.mp last
    simp only [beq_iff_eq] at found
    obtain rfl : other = name := found.holds
    exact .inl (reached_iff.mpr found)
  | none =>
    refine .inr ⟨rfl, ?_⟩
    intro place named
    by_contra reached
    obtain ⟨value, found⟩ := Option.ne_none_iff_exists'.mp reached
    have member : (name, value) ∈ header.zip row :=
      List.mem_of_getElem? (List.getElem?_zip_eq_some.mpr ⟨named, found⟩)
    rw [List.getLast?_eq_none_iff, List.filter_eq_nil_iff] at last
    exact last _ member (beq_self_eq_true name)

theorem State.reads_ofRow (header row : List String) : (ofRow header row).Reads header row where
  stateId := under_column _ header row
  primitive := under_column _ header row
  context := under_column _ header row
  metadata := by
    intro name value
    simp only [ofRow]
    rw [Dictionary.get?_ofList, lastWith_filter, reached_iff]
    by_cases special : name ∈ columnNames
    · refine iff_of_false (fun last => ?_) fun other => other.1 special
      simpa [special] using last.holds.1
    · have same (cell : String × String) :
          ((!columnNames.contains cell.1) = true ∧ cell.1 = name) ↔ cell.1 = name :=
        and_iff_right_of_imp fun named => by simpa [named] using special
      rw [funext fun cell => propext (same cell)]
      exact (and_iff_right special).symm
  sorted := Dictionary.sorted_ofList _

theorem smallest_take {labels : Labels} (sorted : labels.Pairwise (· < ·)) (limit : Nat) :
    Smallest (· ∈ labels) labels.length limit (labels.take limit) := by
  have cut := List.take_append_drop limit labels
  constructor
  case increasing => exact (sorted.sublist (List.take_sublist _ _)).imp Utf8.before_iff.mpr
  case length => exact List.length_take
  case member => exact fun label shown => List.mem_of_mem_take shown
  case rest =>
    intro label known hidden other shown
    rw [← cut, List.mem_append] at known
    rw [← cut, List.pairwise_append] at sorted
    exact Utf8.before_iff.mpr (sorted.2.2 other shown label (known.resolve_left hidden))

namespace Vocabulary

theorem tabulates_ofTable (table : Csv.Table) : (ofTable table).Tabulates table.header table.rows := by
  have primitives := sorted_primitives (table.rows.map (State.ofRow table.header))
  have contexts := sorted_contexts (table.rows.map (State.ofRow table.header))
  constructor
  case read => exact fun row _ => State.reads_ofRow table.header row
  case unnamed =>
    have kept :
        (table.rows.filter fun row => (State.ofRow table.header row).stateId ≠ "").map (State.ofRow table.header) =
          named (table.rows.map (State.ofRow table.header)) := by
      rw [named, List.filter_map]
      refine congrArg _ (List.filter_congr fun row _ => ?_)
      rw [Function.comp_apply, Bool.eq_iff_iff, decide_eq_true_eq, Bool.not_eq_true', String.isEmpty_eq_false_iff]
    rw [ofTable, ofTable, kept, ofStates_named]
  case get => exact fun stateId state => get?_ofStates
  case contains =>
    intro stateId
    rw [ofTable, contains_ofStates]
    simp only [List.mem_map, exists_exists_and_eq_and]
  case size => exact size_ofStates _
  case primitive =>
    intro label
    rw [ofTable, hasPrimitive_ofStates]
    simp only [List.mem_map, exists_exists_and_eq_and]
  case context =>
    intro label
    rw [ofTable, hasContext_ofStates]
    simp only [List.mem_map, exists_exists_and_eq_and]
  case primitiveCount => exact primitiveCount_ofStates _
  case contextCount => exact contextCount_ofStates _
  case primitives =>
    intro limit
    have smallest := smallest_take primitives limit
    simpa only [hasPrimitive, primitiveCount, primitiveExamples, ofTable, List.contains_iff_mem] using smallest
  case contexts =>
    intro limit
    have smallest := smallest_take contexts limit
    simpa only [hasContext, contextCount, contextExamples, ofTable, List.contains_iff_mem] using smallest

/-- Whatever header and rows a table has, its vocabulary is told by the last rows, the last columns and
the smallest labels. An input that is read as the table, with nothing that breaks it, has this vocabulary. -/
theorem ofCsv_tabulates (table : Csv.Table) : (ofTable table).Tabulates table.header table.rows ∧
    ∀ input, Csv.readTable true input = table → table.broken = none → ofCsv input = .ok (ofTable table) := by
  refine ⟨tabulates_ofTable table, ?_⟩
  rintro input rfl whole
  exact ofCsv_matrix whole

/-- Two columns have their names twice. The rows are longer than the header, shorter, without an
identifier, and one of them has the identifier of an earlier one. -/
def raggedMatrix : Bytes := Utf8.encode
  ("layer,state_id,primitive,layer,state_id,context\n" ++ "a,one,read,b,two,fs,more\n" ++ "c,three,write\n" ++
    "d,,ghost\n" ++ "e,two\n").toList

def raggedTable : Csv.Table where
  header := ["layer", "state_id", "primitive", "layer", "state_id", "context"]
  rows := [["a", "one", "read", "b", "two", "fs", "more"], ["c", "three", "write"], ["d", "", "ghost"], ["e", "two"]]

theorem ofCsv_raggedTable : Csv.readTable true raggedMatrix = raggedTable ∧ raggedTable.broken = none ∧
    ∃ vocabulary, ofCsv raggedMatrix = .ok vocabulary ∧
      vocabulary.get? "two" = some ⟨"two", "", "", [("layer", "e")]⟩ ∧
      vocabulary.get? "three" = some ⟨"three", "write", "", [("layer", "c")]⟩ ∧
      vocabulary.contains "one" = false ∧ vocabulary.size = 2 ∧
      vocabulary.hasPrimitive "read" = true ∧ vocabulary.hasPrimitive "ghost" = false ∧
      (vocabulary.primitiveExamples 1).length = 1 := by
  have read : Csv.readTable true raggedMatrix = raggedTable := by decide +kernel
  obtain ⟨tabulates, loads⟩ := ofCsv_tabulates raggedTable
  refine ⟨read, rfl, _, loads raggedMatrix read rfl, ?_, ?_, ?_, ?_, ?_, ?_, ?_⟩
  · refine (tabulates.get _ _).mpr ⟨by decide, [_, _, _], [], rfl, by decide +kernel, List.forall_mem_nil _⟩
  · exact (tabulates.get _ _).mpr ⟨by decide, [_], [_, _], rfl, by decide +kernel, by decide +kernel⟩
  · rw [Bool.eq_false_iff, Ne, tabulates.contains]
    decide +kernel
  · rw [tabulates.size]
    decide +kernel
  · rw [tabulates.primitive]
    decide +kernel
  · rw [Bool.eq_false_iff, Ne, tabulates.primitive]
    decide +kernel
  · rw [(tabulates.primitives 1).length, tabulates.primitiveCount]
    decide +kernel

end Vocabulary

end StateAudit
