import StateAudit.Proofs.InterruptedStreams
import StateAudit.Proofs.TreePaths
import StateAudit.Stream.File
import Mathlib.Data.List.Forall2

/-! Logs folded one after another. Each adds the observations on its complete lines and at most
one problem, so a list of logs adds what their lines add one after another, and a log that cannot
be opened might as well not be in the list. -/

namespace StateAudit.Stream

/-- What an analysis takes from the log at a path. -/
structure Log where
  lines : List Bytes := []
  problem? : Option LoadError := none

/-- The log at a path, in each state that its file can be in. -/
inductive Log.At (tree : Files.Tree) (path : String) : Log → Prop
  | missing : tree.isPresent path = false → At tree path { problem? := some (.notFound path) }
  | unopenable {fault : Files.Fault} : tree.isPresent path = true → tree.openRead path = .error fault →
      At tree path { problem? := some (.io path fault) }
  | readable {content : Bytes} {lines : List Bytes} : tree.openRead path = .ok { content } →
      Delimited content lines → At tree path { lines }
  | interrupted {content : Bytes} {fault : Files.Fault} {lines : List Bytes} :
      tree.openRead path = .ok { content, broken := some fault } → Delimited (completePart content) lines →
      At tree path { lines, problem? := some (.interrupted path (content.count 10) fault) }

section Opening
variable {tree : Files.Tree} {path : String}

theorem openLog_ok {handle : Files.Handle} (opened : tree.openRead path = .ok handle) :
    openLog tree path = .ok (chunksOf handle) := by
  rw [openLog, Files.Tree.isPresent_of_openRead opened, opened]
  rfl

theorem exists_log (tree : Files.Tree) (path : String) : ∃ log, Log.At tree path log := by
  cases opened : tree.openRead path with
  | error fault =>
    cases present : tree.isPresent path with
    | false => exact ⟨_, .missing present⟩
    | true => exact ⟨_, .unopenable present opened⟩
  | ok handle =>
    obtain ⟨content, broken⟩ := handle
    cases broken with
    | none => exact ⟨_, .readable opened (contentLines_delimited _)⟩
    | some fault => exact ⟨_, .interrupted opened (contentLines_delimited _)⟩

end Opening

theorem analyzeFile_at {tree : Files.Tree} {path : String} {log : Log} (found : Log.At tree path log)
    (aggregate : Aggregate) : analyzeFile tree aggregate path =
      { value := aggregate.run (observations log.lines), problems := log.problem?.toList } := by
  cases found with
  | missing absent =>
    simp only [analyzeFile, openLog, absent]
    rfl
  | unopenable present refused =>
    simp only [analyzeFile, openLog, present, refused]
    rfl
  | @readable content lines opened cut =>
    obtain rfl : lines = contentLines content := cut.unique (contentLines_delimited _)
    have read := analyze_bytes aggregate path [content]
    rw [List.map_singleton, List.flatten_singleton] at read
    simp only [analyzeFile, openLog_ok opened, chunksOf, Option.map_none, Option.toList_none, read]
  | @interrupted content fault lines opened cut =>
    obtain rfl : lines = contentLines (completePart content) := cut.unique (contentLines_delimited _)
    have read := analyze_interrupted aggregate path [some content] fault []
    rw [List.reduceOption_singleton, Option.toList_some, List.flatten_singleton] at read
    have chunks : [some content].map Chunk.ofRead ++ [.failure fault] = [.bytes content, .failure fault] := rfl
    rw [chunks] at read
    simp only [analyzeFile, openLog_ok opened, chunksOf, Option.map_some, Option.toList_some, read]

theorem analyzeFile_refused {tree : Files.Tree} {path : String} (refused : (tree.openRead path).isOk = false)
    (aggregate : Aggregate) : (analyzeFile tree aggregate path).value = aggregate := by
  obtain ⟨log, found⟩ := exists_log tree path
  rw [analyzeFile_at found]
  cases found with
  | missing _ => rfl
  | unopenable _ _ => rfl
  | readable opened _ =>
    rw [opened] at refused
    cases refused
  | interrupted opened _ =>
    rw [opened] at refused
    cases refused

theorem analyzeFiles_append (tree : Files.Tree) (aggregate : Aggregate) (first second : List String) :
    analyzeFiles tree aggregate (first ++ second) =
      { value := (analyzeFiles tree (analyzeFiles tree aggregate first).value second).value
        problems := (analyzeFiles tree aggregate first).problems ++
          (analyzeFiles tree (analyzeFiles tree aggregate first).value second).problems } := by
  induction first generalizing aggregate with
  | nil => rfl
  | cons path rest ih =>
    simp only [List.cons_append, analyzeFiles, ih, List.append_assoc]

theorem exists_logs (tree : Files.Tree) (paths : List String) : ∃ logs, List.Forall₂ (Log.At tree) paths logs := by
  induction paths with
  | nil => exact ⟨[], .nil⟩
  | cons path rest ih =>
    obtain ⟨log, found⟩ := exists_log tree path
    obtain ⟨logs, others⟩ := ih
    exact ⟨log :: logs, .cons found others⟩

theorem analyzeFiles_logs {tree : Files.Tree} {paths : List String} {logs : List Log}
    (found : List.Forall₂ (Log.At tree) paths logs) (aggregate : Aggregate) : analyzeFiles tree aggregate paths =
      { value := aggregate.run (observations (logs.flatMap Log.lines)), problems := logs.filterMap Log.problem? } := by
  induction found generalizing aggregate with
  | nil => rfl
  | @cons path log paths logs found others ih =>
    simp only [analyzeFiles, analyzeFile_at found, ih, List.flatMap_cons, observations_append, Aggregate.run_append,
      List.filterMap_cons]
    cases log.problem? <;> rfl

theorem analyzeFiles_filter (tree : Files.Tree) (aggregate : Aggregate) (paths : List String) (keep : String → Bool)
    (refused : ∀ path ∈ paths, keep path = false → (tree.openRead path).isOk = false) :
    (analyzeFiles tree aggregate (paths.filter keep)).value = (analyzeFiles tree aggregate paths).value := by
  induction paths generalizing aggregate with
  | nil => rfl
  | cons path rest ih =>
    have others := fun aggregate => ih aggregate fun other member => refused other (List.mem_cons_of_mem _ member)
    cases kept : keep path with
    | true =>
      rw [List.filter_cons_of_pos kept]
      exact others _
    | false =>
      rw [List.filter_cons_of_neg (by simp [kept]), others]
      simp only [analyzeFiles, analyzeFile_refused (refused path List.mem_cons_self kept)]

theorem analyzeFiles_joined {tree other : Files.Tree} {first second joined : String} {front back : Bytes}
    (left : tree.openRead first = .ok { content := front }) (right : tree.openRead second = .ok { content := back })
    (both : other.openRead joined = .ok { content := front ++ back }) (ended : Whole front) (aggregate : Aggregate) :
    analyzeFiles tree aggregate [first, second] = analyzeFiles other aggregate [joined] := by
  have cut := (contentLines_delimited front).append (contentLines_delimited back) ended
  simp only [analyzeFiles, analyzeFile_at (.readable left (contentLines_delimited front)),
    analyzeFile_at (.readable right (contentLines_delimited back)), analyzeFile_at (.readable both cut),
    observations_append, Aggregate.run_append]
  rfl

/-- An analysis of logs is one run over the observations on their complete lines, in the order of
the paths, with the problem of each log that has one. -/
theorem analyzeFiles_folds (tree : Files.Tree) (aggregate : Aggregate) (paths : List String) :
    ((∃ logs, List.Forall₂ (Log.At tree) paths logs) ∧
      ∀ logs, List.Forall₂ (Log.At tree) paths logs → analyzeFiles tree aggregate paths =
        { value := aggregate.run (observations (logs.flatMap Log.lines)), problems := logs.filterMap Log.problem? }) ∧
    (∀ keep : String → Bool, (∀ path ∈ paths, keep path = false → (tree.openRead path).isOk = false) →
      (analyzeFiles tree aggregate (paths.filter keep)).value = (analyzeFiles tree aggregate paths).value) ∧
    (∀ more,
      let first := analyzeFiles tree aggregate paths
      let second := analyzeFiles tree first.value more
      analyzeFiles tree aggregate (paths ++ more) =
        { value := second.value, problems := first.problems ++ second.problems }) ∧
    ∀ (other : Files.Tree) (first second joined : String) (front back : Bytes),
      tree.openRead first = .ok { content := front } → tree.openRead second = .ok { content := back } →
      other.openRead joined = .ok { content := front ++ back } → Whole front →
      analyzeFiles tree aggregate [first, second] = analyzeFiles other aggregate [joined] := by
  refine ⟨⟨exists_logs tree paths, ?_⟩, ?_, ?_, ?_⟩
  · exact fun logs found => analyzeFiles_logs found aggregate
  · exact fun keep refused => analyzeFiles_filter tree aggregate paths keep refused
  · exact fun more => analyzeFiles_append tree aggregate paths more
  · exact fun other first second joined front back left right both ended =>
      analyzeFiles_joined left right both ended aggregate

/-- A log of one record, and one of the same record in two lines. -/
def recordTree : Files.Tree where
  top := .directory [("one", .ofBytes [123, 125, 10]), ("two", .ofBytes [123, 125, 10, 123, 125, 10])]

theorem analyzeFiles_twice : (recordTree.openRead "none").isOk = false ∧
    (analyzeFiles recordTree (.ofConfig {}) ["one", "none", "one"]).value.total =
      (analyzeFiles recordTree (.ofConfig {}) ["two"]).value.total ∧
    (analyzeFiles recordTree (.ofConfig {}) ["two"]).value.total = 2 := by
  have one : recordTree.openRead "one" = .ok { content := [123, 125, 10] } := by rfl
  have two : recordTree.openRead "two" = .ok { content := [123, 125, 10] ++ [123, 125, 10] } := by rfl
  have absent : (recordTree.openRead "none").isOk = false := by rfl
  obtain ⟨_, kept, _, joined⟩ := analyzeFiles_folds recordTree (.ofConfig {}) ["one", "none", "one"]
  have same := joined recordTree "one" "one" "two" _ _ one one two (.inr rfl)
  have without := kept (· != "none") (by simp [absent])
  refine ⟨absent, ?_, by decide +kernel⟩
  rw [← without, ← same]
  rfl

end StateAudit.Stream
