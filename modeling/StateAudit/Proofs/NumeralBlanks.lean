import StateAudit.Json.Parser
import Mathlib.Data.List.TakeWhile

/-! Blanks behind a number. Every reader finds the same with them and leaves them unread, or fails
with them as it fails without: nothing that is cut off becomes whole by blanks. -/

namespace StateAudit.Json

/-- How a reader fares with and without the same text behind its own. What it finds leaves no more
than `bound` characters of its own text. -/
inductive Again (behind : List Char) (bound : Nat) : Reading α → Reading α → Prop
  | found {value : α} {rest : List Char} : rest.length ≤ bound →
      Again behind bound (.ok (value, rest)) (.ok (value, rest ++ behind))
  | failed {failure other : Failure} : Again behind bound (.error failure) (.error other)

section Readers
variable {behind : List Char} {bound : Nat}

theorem Again.mono {limit : Nat} {found again : Reading α} (same : Again behind bound found again)
    (within : bound ≤ limit) : Again behind limit found again := by
  cases same with
  | found short => exact .found (Nat.le_trans short within)
  | failed => exact .failed

theorem Again.andThen {found again : Reading α} {next other : α → List Char → Reading β}
    (same : Again behind bound found again)
    (goes : ∀ value rest, rest.length ≤ bound → Again behind bound (next value rest) (other value (rest ++ behind))) :
    Again behind bound (found.andThen next) (again.andThen other) := by
  cases same with
  | found short => exact goes _ _ short
  | failed => exact .failed

theorem Again.of_errors {found again : Reading α} (first : ∃ failure, found = .error failure)
    (second : ∃ failure, again = .error failure) : Again behind bound found again := by
  obtain ⟨failure, rfl⟩ := first
  obtain ⟨other, rfl⟩ := second
  exact .failed

end Readers

theorem length_dropWhile_le (accept : Char → Bool) (text : List Char) : (text.dropWhile accept).length ≤ text.length :=
  (List.dropWhile_sublist accept).length_le

/-- Characters that are nothing but white space. -/
def Blank (blanks : List Char) : Prop := ∀ char ∈ blanks, Parser.isSpace char = true

section Blanks
variable {blanks : List Char} (blank : Blank blanks)

theorem eq_of_isSpace {char : Char} (space : Parser.isSpace char = true) :
    char = ' ' ∨ char = '\n' ∨ char = '\t' ∨ char = '\r' := by
  simpa [Parser.isSpace, or_assoc] using space

include blank in
/-- A test that every blank fails ends at blanks as at the end of the text. -/
theorem takeWhile_blanks {accept : Char → Bool} (none : ∀ char, Parser.isSpace char = true → accept char = false)
    (text : List Char) : (text ++ blanks).takeWhile accept = text.takeWhile accept ∧
      (text ++ blanks).dropWhile accept = text.dropWhile accept ++ blanks := by
  have still : blanks.takeWhile accept = [] ∧ blanks.dropWhile accept = blanks := by
    cases blanks with
    | nil => exact ⟨rfl, rfl⟩
    | cons char rest =>
      have refused := none char (blank char List.mem_cons_self)
      exact ⟨List.takeWhile_cons_of_neg (by simp [refused]), List.dropWhile_cons_of_neg (by simp [refused])⟩
  induction text with
  | nil => exact still
  | cons char text ih =>
    rw [List.cons_append, List.takeWhile_cons, List.takeWhile_cons, List.dropWhile_cons, List.dropWhile_cons, ih.1, ih.2]
    split
    · exact ⟨rfl, rfl⟩
    · exact ⟨rfl, rfl⟩

theorem isDigit_blank (char : Char) (space : Parser.isSpace char = true) : Decimal.isDigit char = false := by
  rcases eq_of_isSpace space with rfl | rfl | rfl | rfl <;> rfl

end Blanks

namespace Numeral

section Blanks
variable {blanks : List Char} (blank : Blank blanks)

theorem again_finish (negative : Bool) (significand : Nat) (exponent : Int) (rest : List Char) :
    Again blanks rest.length (finish negative significand exponent rest)
      (finish negative significand exponent (rest ++ blanks)) := by
  rw [finish, finish]
  cases scale? significand exponent with
  | none => exact .failed
  | some x => exact .found (Nat.le_refl _)

include blank in
theorem exponentDigits_append (read : Nat) (text : List Char) : exponentDigits read (text ++ blanks) =
    ((exponentDigits read text).1, (exponentDigits read text).2 ++ blanks) := by
  induction text generalizing read with
  | nil =>
    cases blanks with
    | nil => rfl
    | cons char rest =>
      have refused := isDigit_blank char (blank char List.mem_cons_self)
      simp [exponentDigits, refused]
  | cons char text ih =>
    rw [List.cons_append, exponentDigits, exponentDigits]
    split
    · simp only
      split
      · exact ih _
      · rfl
    · rfl

theorem length_exponentDigits (read : Nat) (text : List Char) : (exponentDigits read text).2.length ≤ text.length := by
  induction text generalizing read with
  | nil => exact Nat.le_refl _
  | cons char text ih =>
    rw [exponentDigits]
    split
    · simp only
      split
      · exact Nat.le_succ_of_le (ih _)
      · exact Nat.le_succ _
    · exact Nat.le_refl _

/-- The digits of an exponent whose sign has been read. -/
def afterSign (negative : Bool) (significand : Nat) (exponent : Int) (down : Bool) (text : List Char) : Reading Number :=
  match text with
  | [] => stop .endInValue text
  | char :: _ =>
    if Decimal.isDigit char then
      match exponentDigits 0 text with
      | (some read, rest) => finish negative significand (if down then exponent - read else exponent + read) rest
      | (none, rest) =>
        if significand ≠ 0 ∧ !down then stop .numberOutOfRange rest
        else .ok (.double (signed negative (Binary64.zero false)), rest.dropWhile Decimal.isDigit)
    else stopAt .invalidNumber text

theorem exponentPart_unsigned (negative : Bool) (significand : Nat) (exponent : Int) {char : Char} {rest : List Char}
    (plus : char ≠ '+') (minus : char ≠ '-') :
    exponentPart negative significand exponent (char :: rest) = afterSign negative significand exponent false (char :: rest) := by
  rw [exponentPart]
  · rfl
  · intro rest same
    exact plus (List.cons.inj same).1
  · intro rest same
    exact minus (List.cons.inj same).1

include blank in
theorem again_afterSign (negative : Bool) (significand : Nat) (exponent : Int) (down : Bool) (text : List Char) :
    Again blanks text.length (afterSign negative significand exponent down text)
      (afterSign negative significand exponent down (text ++ blanks)) := by
  cases text with
  | nil =>
    refine .of_errors ⟨_, rfl⟩ ?_
    cases blanks with
    | nil => exact ⟨_, rfl⟩
    | cons char rest =>
      have refused := isDigit_blank char (blank char List.mem_cons_self)
      exact ⟨_, by simp only [List.nil_append, afterSign, refused]; rfl⟩
  | cons char text =>
    have short := length_exponentDigits 0 (char :: text)
    simp only [List.cons_append, afterSign]
    rw [← List.cons_append, exponentDigits_append blank]
    split
    · rcases taken : exponentDigits 0 (char :: text) with ⟨_ | read, rest⟩
      · rw [taken] at short
        simp only
        split
        · exact .failed
        · rw [(takeWhile_blanks blank isDigit_blank rest).2]
          exact .found (Nat.le_trans (length_dropWhile_le _ rest) short)
      · rw [taken] at short
        exact (again_finish negative significand _ rest).mono short
    · exact .failed

include blank in
theorem again_exponentPart (negative : Bool) (significand : Nat) (exponent : Int) (text : List Char) :
    Again blanks text.length (exponentPart negative significand exponent text)
      (exponentPart negative significand exponent (text ++ blanks)) := by
  cases text with
  | nil =>
    refine .of_errors ⟨_, rfl⟩ ?_
    cases blanks with
    | nil => exact ⟨_, rfl⟩
    | cons char rest =>
      have space := blank char List.mem_cons_self
      rw [List.nil_append, exponentPart_unsigned _ _ _ (by rintro rfl; cases space) (by rintro rfl; cases space)]
      exact ⟨_, by simp only [afterSign, isDigit_blank char space]; rfl⟩
  | cons char text =>
    by_cases plus : char = '+'
    · subst plus
      exact (again_afterSign blank negative significand exponent false text).mono (Nat.le_succ _)
    · by_cases minus : char = '-'
      · subst minus
        exact (again_afterSign blank negative significand exponent true text).mono (Nat.le_succ _)
      · rw [List.cons_append, exponentPart_unsigned _ _ _ plus minus, exponentPart_unsigned _ _ _ plus minus]
        exact again_afterSign blank negative significand exponent false (char :: text)

theorem isExponentMark_blank (char : Char) (space : Parser.isSpace char = true) : isExponentMark char = false := by
  rcases eq_of_isSpace space with rfl | rfl | rfl | rfl <;> rfl

include blank in
theorem again_afterDigits (negative : Bool) (significand : Nat) (exponent : Int) (text : List Char) :
    Again blanks text.length (afterDigits negative significand exponent text)
      (afterDigits negative significand exponent (text ++ blanks)) := by
  cases text with
  | nil =>
    have same : afterDigits negative significand exponent blanks = finish negative significand exponent blanks := by
      cases blanks with
      | nil => rfl
      | cons char rest => simp [afterDigits, isExponentMark_blank char (blank char List.mem_cons_self)]
    rw [List.nil_append, same]
    exact again_finish negative significand exponent []
  | cons char text =>
    rw [List.cons_append, afterDigits, afterDigits]
    split
    · exact (again_exponentPart blank negative significand exponent text).mono (Nat.le_succ _)
    · exact again_finish negative significand exponent (char :: text)

include blank in
theorem again_fractionPart (negative : Bool) (significand : Nat) (exponent : Int) (text : List Char) :
    Again blanks text.length (fractionPart negative significand exponent text)
      (fractionPart negative significand exponent (text ++ blanks)) := by
  obtain ⟨row, left⟩ := takeWhile_blanks blank isDigit_blank text
  simp only [fractionPart, row, left]
  split
  · refine .of_errors ?_ ?_
    · split
      · exact ⟨_, rfl⟩
      · exact ⟨_, rfl⟩
    · split
      · exact ⟨_, rfl⟩
      · exact ⟨_, rfl⟩
  · exact (again_afterDigits blank negative _ _ _).mono (length_dropWhile_le _ text)

/-- What follows the digits before the point. -/
def afterRow (negative : Bool) (significand : Nat) (dropped rest : List Char) : Reading Number :=
  match rest with
  | '.' :: rest => fractionPart negative significand dropped.length rest
  | rest =>
    if dropped.isEmpty && !(rest.head?.any isExponentMark) then .ok (whole negative significand, rest)
    else afterDigits negative significand dropped.length rest

theorem afterRow_pointless (negative : Bool) (significand : Nat) (dropped : List Char) {rest : List Char}
    (pointless : rest.head? ≠ some '.') : afterRow negative significand dropped rest =
      if dropped.isEmpty && !(rest.head?.any isExponentMark) then .ok (whole negative significand, rest)
      else afterDigits negative significand dropped.length rest := by
  rw [afterRow]
  rintro rest rfl
  exact pointless rfl

include blank in
theorem again_afterRow (negative : Bool) (significand : Nat) (dropped rest : List Char) :
    Again blanks rest.length (afterRow negative significand dropped rest)
      (afterRow negative significand dropped (rest ++ blanks)) := by
  by_cases point : rest.head? = some '.'
  · obtain ⟨rest, rfl⟩ := List.head?_eq_some_iff.1 point
    exact (again_fractionPart blank negative significand dropped.length rest).mono (Nat.le_succ _)
  · have still : (rest ++ blanks).head? ≠ some '.' ∧
        (rest ++ blanks).head?.any isExponentMark = rest.head?.any isExponentMark := by
      cases rest with
      | cons char rest => exact ⟨point, rfl⟩
      | nil =>
        cases blanks with
        | nil => exact ⟨point, rfl⟩
        | cons char others =>
          have space := blank char List.mem_cons_self
          refine ⟨?_, isExponentMark_blank char space⟩
          intro dot
          cases Option.some.inj dot
          cases space
    rw [afterRow_pointless negative significand dropped point, afterRow_pointless negative significand dropped still.1, still.2]
    split
    · exact .found (Nat.le_refl _)
    · exact again_afterDigits blank negative significand dropped.length rest

theorem read_row (negative : Bool) {text : List Char} (nonempty : text.takeWhile Decimal.isDigit ≠ [])
    (unled : ∀ next more, text.takeWhile Decimal.isDigit ≠ '0' :: next :: more) : read negative text =
      afterRow negative (absorb 0 (text.takeWhile Decimal.isDigit)).1 (absorb 0 (text.takeWhile Decimal.isDigit)).2
        (text.dropWhile Decimal.isDigit) := by
  rw [read]
  split
  · rename_i none
    exact absurd none nonempty
  · rename_i led
    exact absurd led (unled _ _)
  · rfl

include blank in
theorem again_read (negative : Bool) (text : List Char) :
    Again blanks text.length (read negative text) (read negative (text ++ blanks)) := by
  obtain ⟨row, left⟩ := takeWhile_blanks blank isDigit_blank text
  by_cases none : text.takeWhile Decimal.isDigit = []
  · have failing (other : List Char) (empty : other.takeWhile Decimal.isDigit = []) :
        ∃ failure, read negative other = .error failure := by
      simp only [read, empty]
      split
      · exact ⟨_, rfl⟩
      · exact ⟨_, rfl⟩
    exact .of_errors (failing text none) (failing _ (row.trans none))
  · by_cases led : ∃ next more, text.takeWhile Decimal.isDigit = '0' :: next :: more
    · obtain ⟨next, more, led⟩ := led
      refine .of_errors ⟨_, by rw [read, led]; rfl⟩ ⟨_, by rw [read, row, led]; rfl⟩
    · have unled : ∀ next more, text.takeWhile Decimal.isDigit ≠ '0' :: next :: more := by
        intro next more same
        exact led ⟨next, more, same⟩
      rw [read_row negative none unled, read_row negative (row ▸ none) (row ▸ unled), row, left]
      exact (again_afterRow blank negative _ _ _).mono (length_dropWhile_le _ text)

end Blanks

end Numeral
end StateAudit.Json
