import StateAudit.Proofs.AnalysisRun
import Mathlib.Data.List.DropRight

/-! A stream whose reading breaks off counts up to its last line feed. What was read of the
unfinished line is lost to every reader, wherever in it the failure came. -/

namespace StateAudit.Stream

/-- A content up to its last line feed and with it. -/
def completePart (content : Bytes) : Bytes := content.rdropWhile (· != 10)

theorem completePart_append {complete tail : Bytes} (whole : Whole complete) (unfinished : 10 ∉ tail) :
    completePart (complete ++ tail) = complete := by
  have lost : ∀ byte ∈ tail.reverse, (byte != 10) = true := by
    intro byte member
    rw [bne_iff_ne]
    rintro rfl
    exact unfinished (List.mem_reverse.mp member)
  rw [completePart, List.rdropWhile, List.reverse_append, List.dropWhile_append_of_pos lost]
  rcases whole with rfl | fed
  · rfl
  · obtain ⟨front, rfl⟩ := List.getLast?_eq_some_iff.mp fed
    simp

theorem length_splitFrom (pending content : Bytes) : (splitFrom pending content).1.length = content.count 10 := by
  induction content generalizing pending with
  | nil => rfl
  | cons byte rest ih =>
    rw [splitFrom, List.count_cons]
    split
    · simp only [List.length_cons, ih]
    · exact ih (byte :: pending)

theorem splitFrom_delimited (content : Bytes) :
    Delimited (splitFrom [] content).1.flatten (splitFrom [] content).1 where
  covers := rfl
  ended := by
    intro line member
    obtain ⟨body, rfl, _⟩ := (splitFrom_unbroken [] content (by simp)).1 line (List.mem_of_mem_dropLast member)
    simp
  unbroken := by
    intro line member
    obtain ⟨body, rfl, free⟩ := (splitFrom_unbroken [] content (by simp)).1 line member
    simpa using free
  inhabited := by
    intro member
    obtain ⟨body, empty, _⟩ := (splitFrom_unbroken [] content (by simp)).1 [] member
    simp at empty

theorem splitFrom_whole (content : Bytes) : Whole (splitFrom [] content).1.flatten := by
  obtain ⟨ended, _⟩ := splitFrom_unbroken [] content (by simp)
  rcases List.eq_nil_or_concat (splitFrom [] content).1 with none | ⟨front, last, lines⟩
  · exact .inl (by rw [none, List.flatten_nil])
  · rw [List.concat_eq_append] at lines
    obtain ⟨body, rfl, _⟩ := ended last (by simp [lines])
    refine .inr ?_
    rw [lines, List.flatten_append, List.flatten_singleton, ← List.append_assoc, List.getLast?_concat]

theorem splitFrom_tail (content : Bytes) :
    content = (splitFrom [] content).1.flatten ++ (splitFrom [] content).2.reverse ∧
      10 ∉ (splitFrom [] content).2.reverse := by
  have covers := splitFrom_flatten [] content
  obtain ⟨_, unfinished⟩ := splitFrom_unbroken [] content (by simp)
  rw [List.reverse_nil, List.nil_append] at covers
  exact ⟨covers.symm, by simpa using unfinished⟩

theorem completePart_eq (content : Bytes) : completePart content = (splitFrom [] content).1.flatten := by
  obtain ⟨covers, unfinished⟩ := splitFrom_tail content
  rw [← completePart_append (splitFrom_whole content) unfinished, ← covers]

theorem contentLines_completePart (content : Bytes) : contentLines (completePart content) = (splitFrom [] content).1 := by
  rw [completePart_eq]
  exact (contentLines_delimited _).unique (splitFrom_delimited content)

theorem lines_interrupted (reads : List (Option Bytes)) (fault : Files.Fault) (rest : List Chunk) :
    lines (reads.map .ofRead ++ .failure fault :: rest) =
      (contentLines (completePart reads.reduceOption.flatten)).map .full ++ .failed fault :: linesFrom [] rest := by
  rw [lines, linesFrom_reads, contentLines_completePart]
  rfl

@[simp] theorem untilFailure_failed (contents : List Bytes) (fault : Files.Fault) (rest : List Line) :
    untilFailure (contents.map .full ++ .failed fault :: rest) = contents := by
  induction contents with
  | nil => rfl
  | cons content contents ih => rw [List.map_cons, List.cons_append, untilFailure, ih]

section Interruption
variable (source : String) (number : Nat) (contents : List Bytes)

private theorem interruption_ofResult (line : Nat) (result : Except RecordError Record) (rest : List Entry) :
    interruption source (.ofResult line result :: rest) = interruption source rest := by
  cases result <;> rfl

theorem interruption_full : interruption source (entriesFrom number (contents.map .full)) = [] := by
  induction contents generalizing number with
  | nil => rfl
  | cons content contents ih =>
    rw [List.map_cons, entriesFrom]
    cases readLine? content with
    | none => exact ih (number + 1)
    | some result => exact (interruption_ofResult source _ result _).trans (ih (number + 1))

/-- A failed read is reported behind the last line that came before it, blank or not. -/
theorem interruption_failed (fault : Files.Fault) (rest : List Line) :
    interruption source (entriesFrom number (contents.map .full ++ .failed fault :: rest)) =
      [.interrupted source (number + contents.length) fault] := by
  induction contents generalizing number with
  | nil => rfl
  | cons content contents ih =>
    have later := ih (number + 1)
    rw [Nat.add_assoc, Nat.add_comm 1] at later
    rw [List.map_cons, List.cons_append, entriesFrom, List.length_cons]
    cases readLine? content with
    | none => exact later
    | some result => exact (interruption_ofResult source _ result _).trans later

end Interruption

section Streams
variable (aggregate : Aggregate) (source : String) (contents : List Bytes)

theorem untilFailure_bytes : untilFailure (lines (contents.map .bytes)) = contentLines contents.flatten := by
  rw [lines_bytes, untilFailure_full]

theorem interruption_bytes : interruption source (entries (contents.map .bytes)) = [] := by
  rw [entries, lines_bytes, interruption_full]

theorem analyze_bytes : analyze aggregate source (contents.map .bytes) =
    { value := aggregate.run (observations (contentLines contents.flatten)) } := by
  rw [analyze_eq, untilFailure_bytes, interruption_bytes]

variable (reads : List (Option Bytes)) (fault : Files.Fault) (rest : List Chunk)

theorem untilFailure_interrupted : untilFailure (lines (reads.map .ofRead ++ .failure fault :: rest)) =
    contentLines (completePart reads.reduceOption.flatten) := by
  rw [lines_interrupted, untilFailure_failed]

theorem interruption_interrupted : interruption source (entries (reads.map .ofRead ++ .failure fault :: rest)) =
    [.interrupted source (reads.reduceOption.flatten.count 10) fault] := by
  rw [entries, lines_interrupted, interruption_failed, Nat.zero_add, contentLines_completePart, length_splitFrom]

theorem analyze_interrupted : analyze aggregate source (reads.map .ofRead ++ .failure fault :: rest) =
    { value := aggregate.run (observations (contentLines (completePart reads.reduceOption.flatten)))
      problems := [.interrupted source (reads.reduceOption.flatten.count 10) fault] } := by
  rw [analyze_eq, untilFailure_interrupted, interruption_interrupted]

end Streams

/-- A stream is read to its end, or up to its first failure. -/
theorem exists_reads (chunks : List Chunk) :
    (∃ reads : List (Option Bytes), chunks = reads.map .ofRead) ∨
      ∃ (reads : List (Option Bytes)) (fault : Files.Fault) (rest : List Chunk),
        chunks = reads.map .ofRead ++ .failure fault :: rest := by
  induction chunks with
  | nil => exact .inl ⟨[], rfl⟩
  | cons chunk chunks ih =>
    cases chunk with
    | failure fault => exact .inr ⟨[], fault, chunks, rfl⟩
    | bytes content =>
      obtain ⟨reads, rfl⟩ | ⟨reads, fault, rest, rfl⟩ := ih
      · exact .inl ⟨some content :: reads, rfl⟩
      · exact .inr ⟨some content :: reads, fault, rest, rfl⟩
    | retried =>
      obtain ⟨reads, rfl⟩ | ⟨reads, fault, rest, rfl⟩ := ih
      · exact .inl ⟨none :: reads, rfl⟩
      · exact .inr ⟨none :: reads, fault, rest, rfl⟩

/-- Validation and analysis of a stream are clean just where no read fails; one that was only
interrupted does not count. -/
theorem isClean_iff (validator : Validator) (aggregate : Aggregate) (source : String) (chunks : List Chunk) :
    (validate validator source chunks).isClean = (analyze aggregate source chunks).isClean ∧
      ((validate validator source chunks).isClean = true ↔ ∀ fault, .failure fault ∉ chunks) := by
  rw [validate_lines, analyze_eq]
  refine ⟨rfl, ?_⟩
  obtain ⟨reads, rfl⟩ | ⟨reads, fault, rest, rfl⟩ := exists_reads chunks
  · rw [entries, lines_reads, interruption_full]
    refine iff_of_true rfl fun fault member => ?_
    obtain ⟨_ | content, -, failed⟩ := List.mem_map.mp member
    · cases failed
    · cases failed
  · rw [interruption_interrupted]
    exact iff_of_false Bool.false_ne_true fun none => none fault (List.mem_append_right _ List.mem_cons_self)

end StateAudit.Stream
