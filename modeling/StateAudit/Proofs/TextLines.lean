import StateAudit.Text.Column
import StateAudit.Decimal.Fixed
import StateAudit.Proofs.ShortestDecimal

/-! The lines of a text. A text takes up one line more than it has line feeds, and rows that are joined
with a line feed after each take up the lines of each in turn. Numerals have no line feeds. -/

namespace StateAudit

namespace Text

def lineFeeds (text : String) : Nat := text.toList.count '\n'

/-- The lines that a text takes up when a line feed follows it. -/
def pieces (text : String) : List String := (text.toList.splitOn '\n').map String.ofList

theorem lineFeeds_append (first second : String) : lineFeeds (first ++ second) = lineFeeds first + lineFeeds second := by
  rw [lineFeeds, String.toList_append, List.count_append, ← lineFeeds, ← lineFeeds]

theorem lineFeeds_toString (text : String) : lineFeeds (toString text) = lineFeeds text := rfl

theorem count_digits (number : Nat) : (Decimal.digits number).count '\n' = 0 := by
  refine List.count_eq_zero.2 fun member => ?_
  cases Decimal.isDigit_digits _ member

theorem lineFeeds_nat (number : Nat) : lineFeeds (toString number) = 0 := by
  have digits : (toString number).toList = Decimal.digits number := Nat.toList_repr
  rw [lineFeeds, digits, count_digits]

theorem lineFeeds_intercalate {separator : String} (plain : lineFeeds separator = 0) (texts : List String) :
    lineFeeds (separator.intercalate texts) = (texts.map lineFeeds).sum := by
  induction texts with
  | nil => rfl
  | cons text rest ih =>
    cases rest with
    | nil => simp
    | cons next rest =>
      rw [String.intercalate_cons_cons, lineFeeds_append, lineFeeds_append, ih, plain]
      rfl

theorem lineFeeds_fixed (places : Nat) (x : Binary64) : lineFeeds (Decimal.fixed places x) = 0 := by
  have row (value : Nat) : (Decimal.point places value).count '\n' = 0 := by
    rw [Decimal.point]
    split
    · exact count_digits _
    · have zeros (count : Nat) : (List.replicate count '0').count '\n' = 0 := by
        rw [List.count_replicate, if_neg (by decide)]
      have point (rest : List Char) : ('.' :: rest).count '\n' = rest.count '\n' := List.count_cons_of_ne (by decide)
      rw [List.count_append, List.count_append, point, count_digits, count_digits, zeros]
  have magnitude (value : Nat) : lineFeeds (String.ofList (Decimal.point places value)) = 0 := by
    rw [lineFeeds, String.toList_ofList, row]
  have words : lineFeeds "NaN" + lineFeeds "inf" + lineFeeds "-" = 0 := by decide +kernel
  rw [Decimal.fixed]
  split
  · omega
  · simp only
    split
    · rw [lineFeeds_append]
      split
      · omega
      · rw [magnitude]
        omega
    · split
      · omega
      · exact magnitude _

theorem length_splitOn (text : List Char) : (text.splitOn '\n').length = text.count '\n' + 1 := by
  induction text with
  | nil => rfl
  | cons char rest ih =>
    rw [List.splitOn_cons_eq_if_modifyHead, List.count_cons]
    split
    · rw [List.length_cons, ih]
    · rw [List.length_modifyHead, ih]

theorem length_pieces (text : String) : (pieces text).length = lineFeeds text + 1 := by
  rw [pieces, List.length_map, length_splitOn, lineFeeds]

theorem pieces_plain {text : String} (plain : lineFeeds text = 0) : pieces text = [text] := by
  rw [pieces, List.splitOn_eq_singleton (List.count_eq_zero.1 plain), List.map_singleton, String.ofList_toList]

theorem pieces_line (line rest : String) : pieces (line ++ "\n" ++ rest) = pieces line ++ pieces rest := by
  have form : (line ++ "\n" ++ rest).toList = line.toList ++ '\n' :: rest.toList := by simp
  rw [pieces, form, List.splitOn_append_cons_self, List.map_append, ← pieces, ← pieces]

theorem unlines_cons (line : String) (rest : List String) : unlines (line :: rest) = line ++ "\n" ++ unlines rest := by
  rw [unlines, List.map_cons, String.join_cons, ← unlines]

theorem flatMap_pieces {lines : List String} (plain : ∀ line ∈ lines, lineFeeds line = 0) : lines.flatMap pieces = lines := by
  induction lines with
  | nil => rfl
  | cons line rest ih =>
    rw [List.flatMap_cons, pieces_plain (plain line List.mem_cons_self), ih fun other member => plain other
      (List.mem_cons_of_mem _ member), List.singleton_append]

/-- Rows with line feeds after them: the lines of each, and nothing after the last. -/
theorem pieces_unlines (lines : List String) : pieces (unlines lines) = lines.flatMap pieces ++ [""] := by
  induction lines with
  | nil => decide +kernel
  | cons line rest ih => rw [unlines_cons, pieces_line, ih, List.flatMap_cons, List.append_assoc]

theorem lineFeeds_unlines (lines : List String) : lineFeeds (unlines lines) = lines.length + (lines.map lineFeeds).sum := by
  induction lines with
  | nil => decide +kernel
  | cons line rest ih =>
    have one : lineFeeds "\n" = 1 := by decide +kernel
    rw [unlines_cons, lineFeeds_append, lineFeeds_append, ih, one, List.length_cons, List.map_cons, List.sum_cons]
    omega

end Text

end StateAudit
