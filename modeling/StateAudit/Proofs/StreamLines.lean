import StateAudit.Stream.Line
import Mathlib.Data.List.Infix
import Mathlib.Data.List.ReduceOption

/-! The lines of a stream depend on its bytes alone, not on how they arrive in chunks or on reads that
had to be made again. They are the one way to cut the bytes behind every line feed. -/

namespace StateAudit.Stream

/-- A content cut behind each of its line feeds. Only the last line may lack one, and none is empty. -/
structure Delimited (content : Bytes) (lines : List Bytes) : Prop where
  covers : lines.flatten = content
  ended : ∀ line ∈ lines.dropLast, line.getLast? = some 10
  unbroken : ∀ line ∈ lines, 10 ∉ line.dropLast
  inhabited : [] ∉ lines

/-- A content that a line can follow. -/
def Whole (content : Bytes) : Prop := content = [] ∨ content.getLast? = some 10

private theorem Delimited.empty {lines : List Bytes} (cut : Delimited [] lines) : lines = [] := by
  cases lines with
  | nil => rfl
  | cons line rest =>
    have covers := cut.covers
    rw [List.flatten_cons, List.append_eq_nil_iff] at covers
    exact absurd (by simp [covers.1]) cut.inhabited

private theorem Delimited.head {content line : Bytes} {rest : List Bytes} (cut : Delimited content (line :: rest)) :
    line = content.takeWhile (· != 10) ++ (content.dropWhile (· != 10)).take 1 := by
  obtain ⟨body, last, rfl⟩ : ∃ body last, line = body ++ [last] := by
    have filled : line ≠ [] := fun empty => cut.inhabited (by simp [empty])
    exact ⟨line.dropLast, line.getLast filled, (List.dropLast_append_getLast filled).symm⟩
  have free : ∀ byte ∈ body, (byte != 10) = true := by
    have unbroken := cut.unbroken (body ++ [last]) List.mem_cons_self
    rw [List.dropLast_concat] at unbroken
    intro byte member
    simp only [bne_iff_ne]
    rintro rfl
    exact unbroken member
  rw [← cut.covers, List.flatten_cons, List.append_assoc, List.takeWhile_append_of_pos free,
    List.dropWhile_append_of_pos free]
  by_cases feed : last = 10
  · simp [feed]
  · have alone : rest = [] := by
      by_contra more
      have ended := cut.ended (body ++ [last]) (by simp [List.dropLast_cons_of_ne_nil more])
      simp only [List.getLast?_concat, Option.some.injEq] at ended
      exact feed ended
    simp [alone, feed]

private theorem Delimited.tail {content line : Bytes} {rest : List Bytes} (cut : Delimited content (line :: rest)) :
    Delimited rest.flatten rest where
  covers := rfl
  ended := by
    intro other member
    apply cut.ended
    cases rest with
    | nil => cases member
    | cons next rest => exact List.mem_cons_of_mem _ member
  unbroken other member := cut.unbroken other (List.mem_cons_of_mem _ member)
  inhabited empty := cut.inhabited (List.mem_cons_of_mem _ empty)

theorem Delimited.unique {content : Bytes} {lines others : List Bytes} (cut : Delimited content lines)
    (other : Delimited content others) : lines = others := by
  induction lines generalizing content others with
  | nil =>
    obtain rfl : [] = content := cut.covers
    exact other.empty.symm
  | cons line rest ih =>
    cases others with
    | nil =>
      obtain rfl : [] = content := other.covers
      exact cut.empty
    | cons first others =>
      -- A first line is all bytes up to the first line feed and that one, whatever follows it.
      obtain rfl : line = first := cut.head.trans other.head.symm
      have left : rest.flatten = others.flatten := by
        have covers := cut.covers.trans other.covers.symm
        simpa only [List.flatten_cons, List.append_cancel_left_eq] using covers
      rw [ih cut.tail (left ▸ other.tail)]

theorem Delimited.append {first second : Bytes} {lines others : List Bytes} (cut : Delimited first lines)
    (other : Delimited second others) (whole : Whole first) : Delimited (first ++ second) (lines ++ others) := by
  -- The last line of the first part ends as the part does; all others end so in any part.
  have ended : ∀ line ∈ lines, line.getLast? = some 10 := by
    intro line member
    rcases List.eq_nil_or_concat lines with rfl | ⟨front, last, rfl⟩
    · cases member
    rw [List.concat_eq_append] at cut member
    rcases List.mem_append.mp member with earlier | final
    · exact cut.ended line (by simpa using earlier)
    · obtain rfl := List.mem_singleton.mp final
      have filled : line ≠ [] := fun empty => cut.inhabited (by simp [empty])
      have covers := cut.covers
      rw [List.flatten_append, List.flatten_singleton] at covers
      rcases whole with empty | fed
      · rw [empty, List.append_eq_nil_iff] at covers
        exact absurd covers.2 filled
      · rwa [← covers, List.getLast?_append_of_ne_nil _ filled] at fed
  refine ⟨by rw [List.flatten_append, cut.covers, other.covers], ?_, ?_, ?_⟩
  · intro line member
    cases others with
    | nil =>
      rw [List.append_nil] at member
      exact ended line (List.mem_of_mem_dropLast member)
    | cons next rest =>
      rw [List.dropLast_append_cons, List.mem_append] at member
      rcases member with member | member
      · exact ended line member
      · exact other.ended line member
  · intro line member
    rcases List.mem_append.mp member with member | member
    · exact cut.unbroken line member
    · exact other.unbroken line member
  · intro empty
    rcases List.mem_append.mp empty with member | member
    · exact cut.inhabited member
    · exact other.inhabited member

theorem splitFrom_flatten (pending content : Bytes) :
    (splitFrom pending content).1.flatten ++ (splitFrom pending content).2.reverse = pending.reverse ++ content := by
  induction content generalizing pending with
  | nil => simp [splitFrom]
  | cons byte rest ih =>
    rw [splitFrom]
    split
    · have next := ih []
      simp only [List.flatten_cons, List.append_assoc]
      rw [next]
      simp
    · rw [ih]
      simp

theorem splitFrom_unbroken (pending content : Bytes) (free : 10 ∉ pending) :
    (∀ line ∈ (splitFrom pending content).1, ∃ body, line = body ++ [10] ∧ 10 ∉ body) ∧
      10 ∉ (splitFrom pending content).2 := by
  induction content generalizing pending with
  | nil => exact ⟨by simp [splitFrom], free⟩
  | cons byte rest ih =>
    rw [splitFrom]
    split
    next feed =>
      obtain rfl : byte = 10 := by simpa using feed
      obtain ⟨lines, left⟩ := ih [] (by simp)
      refine ⟨?_, left⟩
      intro line member
      rcases List.mem_cons.mp member with rfl | member
      · exact ⟨pending.reverse, by simp, by simpa using free⟩
      · exact lines line member
    next other =>
      apply ih
      simp only [List.mem_cons, not_or]
      exact ⟨fun same => other (by simp [← same]), free⟩

theorem splitFrom_append (pending first second : Bytes) :
    splitFrom pending (first ++ second) =
      ((splitFrom pending first).1 ++ (splitFrom (splitFrom pending first).2 second).1,
        (splitFrom (splitFrom pending first).2 second).2) := by
  induction first generalizing pending with
  | nil => simp [splitFrom]
  | cons byte rest ih =>
    simp only [List.cons_append, splitFrom]
    split
    · simp only [ih, List.cons_append]
    · exact ih (byte :: pending)

theorem contentLines_delimited (content : Bytes) : Delimited content (contentLines content) := by
  have covers := splitFrom_flatten [] content
  obtain ⟨fed, left⟩ := splitFrom_unbroken [] content (by simp)
  simp only [contentLines]
  generalize splitFrom [] content = split at covers fed left ⊢
  obtain ⟨lines, rest⟩ := split
  simp only [List.reverse_nil, List.nil_append] at covers fed left ⊢
  have ended : ∀ line ∈ lines, line.getLast? = some 10 ∧ 10 ∉ line.dropLast ∧ line ≠ [] := by
    intro line member
    obtain ⟨body, rfl, free⟩ := fed line member
    exact ⟨by simp, by simpa using free, by simp⟩
  by_cases empty : rest = []
  · simp only [empty, List.isEmpty_nil, ↓reduceIte]
    refine ⟨by simpa [empty] using covers, ?_, ?_, ?_⟩
    · exact fun line member => (ended line (List.mem_of_mem_dropLast member)).1
    · exact fun line member => (ended line member).2.1
    · exact fun member => (ended [] member).2.2 rfl
  · simp only [List.isEmpty_eq_false_iff.mpr empty, Bool.false_eq_true, ↓reduceIte]
    refine ⟨by simpa using covers, ?_, ?_, ?_⟩
    · intro line member
      rw [List.dropLast_concat] at member
      exact (ended line member).1
    · intro line member
      rcases List.mem_append.mp member with member | member
      · exact (ended line member).2.1
      · obtain rfl := List.mem_singleton.mp member
        exact fun inside => left (by simpa using List.mem_of_mem_dropLast inside)
    · intro member
      rcases List.mem_append.mp member with member | member
      · exact (ended [] member).2.2 rfl
      · exact empty (by simpa using member)

theorem contentLines_append {first : Bytes} (second : Bytes) (whole : Whole first) :
    contentLines (first ++ second) = contentLines first ++ contentLines second :=
  (contentLines_delimited _).unique ((contentLines_delimited first).append (contentLines_delimited second) whole)

/-- A read that gives some bytes, or one that is interrupted. -/
def Chunk.ofRead : Option Bytes → Chunk
  | some content => .bytes content
  | none => .retried

theorem ofRead_some (contents : List Bytes) : (contents.map some).map Chunk.ofRead = contents.map .bytes :=
  List.map_map

theorem reduceOption_some (contents : List Bytes) : (contents.map some).reduceOption = contents := by
  rw [List.reduceOption, List.filterMap_map]
  exact List.filterMap_some

/-- Reads before any failure act as their bytes in one piece, however often one was made again. -/
theorem linesFrom_reads (pending : Bytes) (reads : List (Option Bytes)) (rest : List Chunk) :
    linesFrom pending (reads.map .ofRead ++ rest) =
      (splitFrom pending reads.reduceOption.flatten).1.map .full ++
        linesFrom (splitFrom pending reads.reduceOption.flatten).2 rest := by
  induction reads generalizing pending with
  | nil => simp [splitFrom]
  | cons read reads ih =>
    cases read with
    | none => exact ih pending
    | some content =>
      simp only [List.map_cons, List.cons_append, Chunk.ofRead, linesFrom, List.reduceOption_cons_of_some,
        List.flatten_cons, splitFrom_append]
      rw [ih]
      simp

theorem lines_reads (reads : List (Option Bytes)) :
    lines (reads.map .ofRead) = (contentLines reads.reduceOption.flatten).map .full := by
  have joined := linesFrom_reads [] reads []
  rw [List.append_nil] at joined
  simp only [lines, joined, linesFrom, contentLines]
  split
  · simp
  · simp

theorem lines_bytes (contents : List Bytes) :
    lines (contents.map .bytes) = (contentLines contents.flatten).map .full := by
  rw [← ofRead_some, lines_reads, reduceOption_some]

end StateAudit.Stream
