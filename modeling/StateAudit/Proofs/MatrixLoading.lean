import StateAudit.Proofs.MatrixMembership
import StateAudit.Proofs.TreePaths
import StateAudit.Vocabulary.Loading
import Mathlib.Data.List.Forall2

/-! A matrix in a file is read as the same bytes are in memory. Where its table breaks, loading
keeps the rows before the break, and every way to end up with too few rows has a problem of its own. -/

namespace StateAudit

namespace Csv

/-- The states of a table and what breaks it: its header, which leaves none, or the first row that
does not decode, which leaves those of the rows before it. -/
inductive Breaks (content : Bytes) (bad : BadField) : List State → Prop
  | header {first : Row} {others : List Row} : rows true content = first :: others →
      decodeHeader first = .error bad → Breaks content bad []
  | row {first failing : Row} {good others : List Row} {header : List String} {texts : List (List String)} :
      rows true content = first :: (good ++ failing :: others) → decodeHeader first = .ok header →
      List.Forall₂ (fun row cells => decodeRow row = .ok cells) good texts → decodeRow failing = .error bad →
      Breaks content bad (texts.map (State.ofRow header))

theorem decodeRows_broken {rows : List Row} {bad : BadField} (broken : (decodeRows rows).2 = some bad) :
    ∃ good failing others, rows = good ++ failing :: others ∧
      List.Forall₂ (fun row cells => decodeRow row = .ok cells) good (decodeRows rows).1 ∧
      decodeRow failing = .error bad := by
  induction rows with
  | nil => cases broken
  | cons row rest ih =>
    rw [decodeRows] at broken ⊢
    cases decoded : decodeRow row with
    | error found =>
      rw [decoded] at broken
      obtain rfl : found = bad := Option.some.inj broken
      exact ⟨[], row, rest, rfl, .nil, decoded⟩
    | ok cells =>
      rw [decoded] at broken
      obtain ⟨good, failing, others, rfl, texts, failed⟩ := ih broken
      exact ⟨row :: good, failing, others, rfl, .cons decoded texts, failed⟩

theorem breaks_of_broken {content : Bytes} {bad : BadField} (broken : (readTable true content).broken = some bad) :
    Breaks content bad (Vocabulary.matrix content) := by
  cases cut : rows true content with
  | nil =>
    simp only [readTable, cut] at broken
    cases broken
  | cons first others =>
    cases decoded : decodeHeader first with
    | error found =>
      simp only [readTable, cut, decoded, Option.some.injEq] at broken
      subst broken
      have none : Vocabulary.matrix content = [] := by simp only [Vocabulary.matrix, readTable, cut, decoded, List.map_nil]
      exact none ▸ .header cut decoded
    | ok header =>
      simp only [readTable, cut, decoded] at broken
      obtain ⟨good, failing, later, rfl, texts, failed⟩ := decodeRows_broken broken
      have before : Vocabulary.matrix content =
          (decodeRows (good ++ failing :: later)).1.map (State.ofRow header) := by
        simp only [Vocabulary.matrix, readTable, cut, decoded]
      exact before ▸ .row cut decoded texts failed

end Csv

namespace Vocabulary

theorem isEmpty_ofStates (states : List State) :
    (ofStates states).isEmpty = true ↔ ∀ state ∈ states, state.stateId = "" := by
  constructor
  · intro empty state member
    by_contra named
    have known := (contains_ofStates states state.stateId).mpr ⟨named, state, member, rfl⟩
    rw [contains, get?, List.isEmpty_iff.mp empty] at known
    cases known
  · intro unnamed
    have none : states.filter (!·.stateId.isEmpty) = [] := by
      rw [List.filter_eq_nil_iff]
      intro state member
      simp [unnamed state member]
    rw [ofStates, none]
    rfl

/-- What loading says of a matrix, by the state of its file. -/
structure Loads (tree : Files.Tree) (path : String) : Prop where
  /-- A table that decodes has no problem, and the vocabulary that it has in memory. -/
  whole : ∀ content vocabulary, tree.openRead path = .ok { content } → ofCsv content = .ok vocabulary →
    load tree path = { value := vocabulary }
  /-- A table that breaks has the problem that it has in memory, and the rows before the break. -/
  broken : ∀ content bad, tree.openRead path = .ok { content } → ofCsv content = .error bad →
    ∃ states, Csv.Breaks content bad states ∧
      load tree path = { value := ofStates states, problems := [.table path (.badField bad)] }
  missing : tree.isPresent path = false → load tree path = { value := {}, problems := [.notFound path] }
  refused : ∀ fault, tree.isPresent path = true → tree.openRead path = .error fault →
    load tree path = { value := {}, problems := [.io path fault] }
  directory : ∀ entries, tree.find path = .ok (.directory entries) →
    load tree path = { value := {}, problems := [.table path (.unreadable .isADirectory)] }
  /-- Without a problem the file was read to its end, and an empty vocabulary means that no row has
  an identifier. -/
  silent : (load tree path).problems = [] → ∃ content, tree.openRead path = .ok { content } ∧
    ofCsv content = .ok (load tree path).value ∧
    ((load tree path).value.isEmpty = true ↔ ∀ state ∈ matrix content, state.stateId = "")

section Load
variable {tree : Files.Tree} {path : String}

theorem load_opened {handle : Files.Handle} (opened : tree.openRead path = .ok handle) : load tree path =
    let table := Csv.readTable handle.broken.isNone handle.content
    let error := (table.broken.map TableError.badField).or (handle.broken.map TableError.unreadable)
    { value := ofTable table, problems := (error.map (LoadError.table path)).toList } := by
  simp only [load, Files.Tree.isPresent_of_openRead opened, opened, Bool.not_true, Bool.false_eq_true, ite_false]

theorem load_whole {content : Bytes} {vocabulary : Vocabulary} (opened : tree.openRead path = .ok { content })
    (read : ofCsv content = .ok vocabulary) : load tree path = { value := vocabulary } := by
  rw [load_opened opened]
  simp only [ofCsv] at read
  cases intact : (Csv.readTable true content).broken with
  | some bad =>
    rw [intact] at read
    cases read
  | none =>
    rw [intact] at read
    obtain rfl := Except.ok.inj read
    simp [intact]

theorem load_broken {content : Bytes} {bad : Csv.BadField} (opened : tree.openRead path = .ok { content })
    (read : ofCsv content = .error bad) :
    load tree path = { value := ofStates (matrix content), problems := [.table path (.badField bad)] } ∧
      Csv.Breaks content bad (matrix content) := by
  rw [load_opened opened]
  simp only [ofCsv] at read
  cases torn : (Csv.readTable true content).broken with
  | none =>
    rw [torn] at read
    cases read
  | some found =>
    rw [torn] at read
    obtain rfl := Except.error.inj read
    refine ⟨?_, Csv.breaks_of_broken torn⟩
    simp only [Option.isNone_none, torn]
    rfl

/-- A table is read without a problem only if it decodes and its file was read to its end. -/
theorem load_silent (silent : (load tree path).problems = []) :
    ∃ content, tree.openRead path = .ok { content } ∧ ofCsv content = .ok (load tree path).value := by
  cases present : tree.isPresent path with
  | false =>
    simp only [load, present, Bool.not_false, ite_true] at silent
    cases silent
  | true =>
    cases opened : tree.openRead path with
    | error fault =>
      simp only [load, present, opened, Bool.not_true, Bool.false_eq_true, ite_false] at silent
      cases silent
    | ok handle =>
      obtain ⟨content, broken⟩ := handle
      rw [load_opened opened] at silent ⊢
      cases broken with
      | some fault =>
        cases torn : (Csv.readTable false content).broken <;> simp [torn] at silent
      | none =>
        cases intact : (Csv.readTable true content).broken with
        | some bad => simp [intact] at silent
        | none => exact ⟨content, rfl, ofCsv_matrix intact⟩

end Load

/-- Loading and reading in memory agree on every table, and every other state of the file has the
one problem that tells it. -/
theorem load_tells (tree : Files.Tree) (path : String) : Loads tree path := by
  constructor
  case whole =>
    intro content vocabulary opened read
    exact load_whole opened read
  case broken =>
    intro content bad opened read
    obtain ⟨loaded, breaks⟩ := load_broken opened read
    exact ⟨matrix content, breaks, loaded⟩
  case missing =>
    intro missing
    simp only [load, missing, Bool.not_false, ite_true]
  case refused =>
    intro fault present refused
    simp only [load, present, refused, Bool.not_true, Bool.false_eq_true, ite_false]
  case directory =>
    intro entries found
    have opened : tree.openRead path = .ok { content := [], broken := some .isADirectory } := by
      rw [Files.Tree.openRead, found]
      rfl
    rw [load_opened opened]
    rfl
  case silent =>
    intro silent
    obtain ⟨content, opened, read⟩ := load_silent silent
    refine ⟨content, opened, read, ?_⟩
    rw [ofCsv_eq_ok read, isEmpty_ofStates]

/-- The second of three rows does not decode. -/
def tornMatrix : Bytes :=
  Utf8.encode "state_id,primitive,context\nPRIM_read_CTX_fs,read,fs\n".toList ++ [0xFF, 44, 44, 10] ++
    Utf8.encode "PRIM_write_CTX_fs,write,fs\n".toList

def tornTree : Files.Tree :=
  { top := .directory [("logs", .directory []), ("matrix.csv", .ofBytes tornMatrix), ("socket", .socket)] }

theorem load_torn :
    (∃ bad states, Csv.Breaks tornMatrix bad states ∧ load tornTree "matrix.csv" =
      { value := ofStates states, problems := [.table "matrix.csv" (.badField bad)] }) ∧
    (load tornTree "matrix.csv").value.contains "PRIM_read_CTX_fs" = true ∧
    (load tornTree "matrix.csv").value.contains "PRIM_write_CTX_fs" = false ∧
    load tornTree "logs" = { value := {}, problems := [.table "logs" (.unreadable .isADirectory)] } ∧
    load tornTree "socket" = { value := {}, problems := [.io "socket" .noDevice] } ∧
    load tornTree "lost" = { value := {}, problems := [.notFound "lost"] } := by
  obtain ⟨bad, torn⟩ : ∃ bad, ofCsv tornMatrix = .error bad := by
    cases read : ofCsv tornMatrix with
    | error bad => exact ⟨bad, rfl⟩
    | ok vocabulary =>
      have refused : (ofCsv tornMatrix).toOption.isNone = true := by decide +kernel
      rw [read] at refused
      cases refused
  obtain ⟨states, found⟩ := (load_tells tornTree "matrix.csv").broken tornMatrix bad rfl torn
  refine ⟨⟨bad, states, found⟩, by decide +kernel, by decide +kernel, ?_, ?_, ?_⟩
  · exact (load_tells tornTree "logs").directory [] rfl
  · exact (load_tells tornTree "socket").refused .noDevice rfl rfl
  · exact (load_tells tornTree "lost").missing rfl

end Vocabulary

end StateAudit
