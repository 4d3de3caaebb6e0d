import StateAudit.Proofs.JsonReadings
import StateAudit.Proofs.NumeralText

/-! A value that was read, written in the compact form and read again. Everything is found as it
was, but a double is found as what its text is read as: the reader may miss the nearest double. -/

namespace StateAudit

/-- The double that the JSON text of a double is read as. -/
def Binary64.reread (x : Binary64) : Binary64 :=
  match Json.parse (Json.doubleLayout.print x) with
  | .ok (.number (.double found)) => found
  | _ => x

def Number.reread : Number → Number
  | .whole value => .whole value
  | .double value => .double value.reread

namespace Json

mutual
/-- The value with every double replaced by what its text is read as. -/
def reread : Json → Json
  | .null => .null
  | .bool value => .bool value
  | .number value => .number value.reread
  | .string text => .string text
  | .array items => .array (rereadItems items)
  | .object members => .object (rereadMembers members)
termination_by structural value => value

def rereadItems : List Json → List Json
  | [] => []
  | item :: others => item.reread :: rereadItems others
termination_by structural items => items

def rereadMembers : List (String × Json) → List (String × Json)
  | [] => []
  | (key, value) :: others => (key, value.reread) :: rereadMembers others
termination_by structural members => members
end

namespace Parser

open Numeral (Ends)

theorem skipSpace_visible {char : Char} (visible : isSpace char = false) (rest : List Char) :
    skipSpace (char :: rest) = char :: rest := List.dropWhile_cons_of_neg (by simp [visible])

theorem value_visible {char : Char} (visible : isSpace char = false) (depth : Nat) (rest : List Char) :
    value depth (char :: rest) = valueFrom (deeper depth) char rest := value_cons (skipSpace_visible visible rest)

section Strings

/-- Characters as a string has them between its quotes. -/
def escaped (text rest : List Char) : List Char := text.foldr (fun char rest => printChar char ++ rest) rest

theorem printString_eq (text : String) (rest : List Char) :
    printString text rest = '"' :: escaped text.toList ('"' :: rest) := rfl

theorem hexValue?_hexDigit (value : Nat) : hexValue? (hexDigit value) = some (value % 16) := by
  have all : ∀ digit < 16, hexValue? (Nat.digitChar digit) = some digit := by decide
  exact all (value % 16) (Nat.mod_lt _ (by decide))

/-- The characters that are escaped by a letter or by themselves. -/
def shortEscapes : List Char := ['"', '\\', '\n', '\r', '\t', '\x08', '\x0c']

theorem printChar_eq {char : Char} (other : char ∉ shortEscapes) : printChar char =
    if char.toNat < 0x20 then ['\\', 'u', '0', '0', hexDigit (char.toNat / 16), hexDigit char.toNat] else [char] := by
  simp only [shortEscapes, List.mem_cons, List.not_mem_nil, or_false, not_or] at other
  simp [printChar, other]

theorem printChar_ne_nil (char : Char) : printChar char ≠ [] := by
  by_cases known : char ∈ shortEscapes
  · simp only [shortEscapes, List.mem_cons, List.not_mem_nil, or_false] at known
    rcases known with rfl | rfl | rfl | rfl | rfl | rfl | rfl <;> exact List.cons_ne_nil _ _
  · rw [printChar_eq known]
    split <;> exact List.cons_ne_nil _ _

/-- A control character comes back from its four digits. -/
theorem escape_control {char : Char} (control : char.toNat < 0x20) (rest : List Char) :
    escape ('u' :: '0' :: '0' :: hexDigit (char.toNat / 16) :: hexDigit char.toNat :: rest) = .ok (char, rest) := by
  have zero : hexValue? '0' = some 0 := rfl
  have unit : 0 * 4096 + 0 * 256 + char.toNat / 16 % 16 * 16 + char.toNat % 16 = char.toNat := by omega
  have trailing : isTrailing char.toNat = false := by
    simp only [isTrailing, Bool.and_eq_false_iff, decide_eq_false_iff_not]
    omega
  have leading : isLeading char.toNat = false := by
    simp only [isLeading, Bool.and_eq_false_iff, decide_eq_false_iff_not]
    omega
  rw [escape, hexUnit_four, zero, hexValue?_hexDigit, hexValue?_hexDigit]
  simp only [Reading.andThen, unit, trailing, leading, Bool.false_eq_true, ite_false, Char.ofNat_toNat]

/-- A character as it is written is one step of reading a string. -/
theorem stringBody_printChar (char : Char) (read : List Char) (limit : Char) (bound rest : List Char) :
    stringBody read (limit :: bound) (printChar char ++ rest) = stringBody (char :: read) bound rest := by
  by_cases known : char ∈ shortEscapes
  · simp only [shortEscapes, List.mem_cons, List.not_mem_nil, or_false] at known
    rcases known with rfl | rfl | rfl | rfl | rfl | rfl | rfl <;> rfl
  · rw [printChar_eq known]
    simp only [shortEscapes, List.mem_cons, List.not_mem_nil, or_false, not_or] at known
    split
    next control =>
      simp only [List.cons_append, List.nil_append]
      rw [stringBody, if_neg (by decide), if_pos rfl, escape_control control]
      rfl
    next plain =>
      rw [List.singleton_append, stringBody, if_neg known.1, if_neg known.2.1, if_neg plain]

theorem stringBody_escaped (text read bound rest : List Char) (within : text.length < bound.length) :
    stringBody read bound (escaped text ('"' :: rest)) = .ok (String.ofList (read.reverse ++ text), rest) := by
  induction text generalizing read bound with
  | nil =>
    cases bound with
    | nil => cases within
    | cons limit bound => simp [escaped, stringBody]
  | cons char text ih =>
    cases bound with
    | nil => cases within
    | cons limit bound =>
      have step := ih (char :: read) bound (Nat.lt_of_succ_lt_succ within)
      rw [List.reverse_cons, List.append_assoc, List.singleton_append] at step
      exact (stringBody_printChar char read limit bound _).trans step

theorem length_escaped (text rest : List Char) : text.length + rest.length ≤ (escaped text rest).length := by
  induction text with
  | nil => simp [escaped]
  | cons char text ih =>
    have filled := List.length_pos_of_ne_nil (printChar_ne_nil char)
    have form : escaped (char :: text) rest = printChar char ++ escaped text rest := rfl
    rw [form, List.length_append, List.length_cons]
    omega

theorem string_escaped (text : String) (rest : List Char) :
    string (escaped text.toList ('"' :: rest)) = .ok (text, rest) := by
  have long := length_escaped text.toList ('"' :: rest)
  rw [List.length_cons] at long
  rw [string, stringBody_escaped text.toList [] _ rest (by omega), List.reverse_nil, List.nil_append, String.ofList_toList]

end Strings

section Numbers
variable (depth : Nat) {rest : List Char}

theorem valueFrom_digit {char : Char} (digit : Decimal.isDigit char = true) (nested : Option (List Char → Reading Json)) :
    valueFrom nested char rest =
      (Numeral.read false (char :: rest)).andThen fun number rest => .ok (.number number, rest) := by
  have other (letter : Char) (outside : Decimal.isDigit letter = false) : char ≠ letter := by
    rintro rfl
    rw [digit] at outside
    cases outside
  rw [valueFrom, if_neg (other 'n' (by decide)), if_neg (other 't' (by decide)), if_neg (other 'f' (by decide)),
    if_neg (other '"' (by decide)), if_neg (other '[' (by decide)), if_neg (other '\x7b' (by decide)),
    if_neg (other '-' (by decide)), if_pos digit]

theorem isSpace_digit {char : Char} (digit : Decimal.isDigit char = true) : isSpace char = false := by
  by_contra space
  rw [isDigit_blank char (Bool.not_eq_false _ ▸ space)] at digit
  cases digit

theorem digit_of_read {negative : Bool} {text : List Char} {found : Number × List Char}
    (read : Numeral.read negative text = .ok found) : ∃ char others, text = char :: others ∧ Decimal.isDigit char = true := by
  have filled : text.takeWhile Decimal.isDigit ≠ [] := by
    intro none
    simp only [Numeral.read, none] at read
    split at read
    · cases read
    · cases read
  cases text with
  | nil => exact absurd rfl filled
  | cons char others =>
    refine ⟨char, others, rfl, ?_⟩
    by_contra other
    exact filled (List.takeWhile_cons_of_neg other)

/-- A number whose digits are read is a value, with a minus sign before them or without. -/
theorem value_unsigned {text : List Char} {number : Number}
    (read : Numeral.read false text = .ok (number, rest)) : value depth text = .ok (.number number, rest) := by
  obtain ⟨char, others, rfl, digit⟩ := digit_of_read read
  rw [value_visible (isSpace_digit digit), valueFrom_digit digit, read]
  rfl

theorem value_signed {text : List Char} {number : Number}
    (read : Numeral.read true text = .ok (number, rest)) : value depth ('-' :: text) = .ok (.number number, rest) := by
  have first : valueFrom (deeper depth) '-' text =
      (Numeral.read true text).andThen fun number rest => .ok (.number number, rest) := rfl
  rw [value_visible (by decide), first, read]
  rfl

theorem value_whole {number : Int} (readable : (Number.whole number).Readable) (ends : Ends rest) :
    value depth (printNumber (.whole number) ++ rest) = .ok (.number (.whole number), rest) := by
  obtain ⟨least, most⟩ : -2 ^ 63 ≤ number ∧ number < 2 ^ 64 := readable
  have limit : Numeral.wordLimit = 2 ^ 64 := rfl
  have amount := Decimal.value_digits number.natAbs
  have read (negative : Bool) := Numeral.read_whole negative (Decimal.row_digits number.natAbs) (by omega) ends
  rw [amount] at read
  have written : printNumber (.whole number) = Decimal.signed number := rfl
  rw [written, Decimal.signed]
  split
  next below =>
    have found : Numeral.whole true number.natAbs = .whole number := by
      have sign : ¬ (!true) = true := by decide
      have inner : ¬ (number.natAbs = 0 ∨ Nat.pow 2 63 < number.natAbs) := by
        rw [Nat.pow_eq]
        omega
      rw [Numeral.whole, if_neg sign, if_neg inner]
      exact congrArg Number.whole (by omega)
    exact value_signed depth (found ▸ read true)
  next above =>
    have found : Numeral.whole false number.natAbs = .whole number := congrArg Number.whole (by omega)
    exact value_unsigned depth (found ▸ read false)

/-- A written double is read alike at every depth and before every rest. -/
theorem exists_double {x : Binary64} (finite : x.isFinite = true) :
    ∃ found, (∃ y, Numeral.scale? (Numeral.carried doubleLayout x.code).1 (Numeral.carried doubleLayout x.code).2 = some y ∧
        found = Numeral.signed x.negative y) ∧
      ∀ depth rest, Ends rest → value depth (doubleLayout.print x ++ rest) = .ok (.number (.double found), rest) := by
  obtain ⟨y, scaled, reads⟩ := Numeral.read_double (Binary64.isFinite_iff.1 finite) x.negative
  refine ⟨_, ⟨y, scaled, rfl⟩, fun depth rest ends => ?_⟩
  rw [Decimal.Layout.print]
  have read := reads rest ends
  cases sign : x.negative with
  | true =>
    rw [sign] at read
    exact value_signed depth read
  | false =>
    rw [sign] at read
    exact value_unsigned depth read

theorem reread_spec {x : Binary64} (finite : x.isFinite = true) :
    (∃ y, Numeral.scale? (Numeral.carried doubleLayout x.code).1 (Numeral.carried doubleLayout x.code).2 = some y ∧
        x.reread = Numeral.signed x.negative y) ∧
      ∀ depth rest, Ends rest → value depth (printNumber (.double x) ++ rest) = .ok (.number (.double x.reread), rest) := by
  obtain ⟨found, scaled, reads⟩ := exists_double finite
  have whole := reads depthLimit [] (by rintro char ⟨⟩)
  rw [List.append_nil] at whole
  have parsed : parse (doubleLayout.print x) = .ok (.number (.double found)) := by
    simp only [parse, document, whole, Reading.andThen, skipSpace, List.dropWhile_nil]
  have same : x.reread = found := by rw [Binary64.reread, parsed]
  rw [same]
  refine ⟨scaled, fun depth rest ends => ?_⟩
  rw [printNumber, if_pos finite]
  exact reads depth rest ends

end Numbers

theorem rereadMembers_eq (members : List (String × Json)) :
    rereadMembers members = members.map fun member => (member.1, member.2.reread) := by
  induction members with
  | nil => rfl
  | cons member others ih =>
    obtain ⟨key, value⟩ := member
    rw [rereadMembers, ih, List.map_cons]

theorem signed_head (value : Int) :
    ∃ char others, Decimal.signed value = char :: others ∧ (char = '-' ∨ Decimal.isDigit char = true) := by
  obtain ⟨char, others, form⟩ := List.exists_cons_of_ne_nil (Decimal.row_digits value.natAbs).filled
  rw [Decimal.signed]
  split
  · exact ⟨_, _, rfl, .inl rfl⟩
  · refine ⟨char, others, form, .inr ?_⟩
    exact Decimal.isDigit_digits char (by rw [form]; exact List.mem_cons_self)

/-- A written number begins with a minus sign or a digit. -/
theorem printNumber_head {number : Number} (readable : number.Readable) :
    ∃ char others, printNumber number = char :: others ∧ (char = '-' ∨ Decimal.isDigit char = true) := by
  cases number with
  | whole value => exact signed_head value
  | double value =>
    have finite : value.isFinite = true := readable
    rw [printNumber, if_pos finite, Decimal.Layout.print]
    split
    · exact ⟨_, _, rfl, .inl rfl⟩
    · obtain ⟨_, _, reads⟩ := Numeral.read_double (Binary64.isFinite_iff.1 finite) false
      have read := reads [] (by rintro char ⟨⟩)
      rw [List.append_nil] at read
      obtain ⟨char, others, form, digit⟩ := digit_of_read read
      exact ⟨char, others, form, .inr digit⟩

/-- A written value begins with a character that ends no list. -/
theorem print_head {depth : Nat} {value : Json} (readable : Readable depth value) (rest : List Char) :
    ∃ char others, value.print rest = char :: others ∧ isSpace char = false ∧ char ≠ ']' := by
  cases readable with
  | null => exact ⟨_, _, rfl, by decide, by decide⟩
  | bool value => cases value <;> exact ⟨_, _, rfl, by decide, by decide⟩
  | number readable =>
    obtain ⟨char, others, form, rfl | digit⟩ := printNumber_head readable
    · exact ⟨_, _, congrArg (· ++ rest) form, by decide, by decide⟩
    · refine ⟨_, _, congrArg (· ++ rest) form, isSpace_digit digit, ?_⟩
      rintro rfl
      cases digit
  | string text => exact ⟨_, _, rfl, by decide, by decide⟩
  | array items => exact ⟨_, _, rfl, by decide, by decide⟩
  | object sorted members => exact ⟨_, _, rfl, by decide, by decide⟩

/-- A value as it is written, and a reader that reads it before any rest that is no more of a number. -/
structure Reads (item : List Char → Reading Json) (value : Json) : Prop where
  head : ∀ rest, ∃ char others, value.print rest = char :: others ∧ isSpace char = false ∧ char ≠ ']'
  longer : ∀ rest, rest.length < (value.print rest).length
  found : ∀ rest, Ends rest → item (value.print rest) = .ok (value.reread, rest)

theorem ends_mark {mark : Char} {rest : List Char} (known : mark = ',' ∨ mark = ']' ∨ mark = '\x7d') : Ends (mark :: rest) := by
  rintro char ⟨⟩
  rcases known with rfl | rfl | rfl <;> decide

section Brackets
variable {item : List Char → Reading Json}

theorem items_head {value : Json} (reads : Reads item value) (others : List Json) (rest : List Char) :
    ∃ char text, printItems (value :: others) rest = char :: text ∧ isSpace char = false ∧ char ≠ ']' := by
  rw [printItems]
  exact reads.head _

theorem items_print {values : List Json} (reads : ∀ value ∈ values, Reads item value) (filled : values ≠ [])
    (read : List Json) (bound rest : List Char) (within : values.length ≤ bound.length) :
    items item read bound (printItems values (']' :: rest)) =
      .ok (.array (read.reverse ++ rereadItems values), rest) := by
  induction values generalizing read bound with
  | nil => exact absurd rfl filled
  | cons value others ih =>
    cases bound with
    | nil => cases within
    | cons limit bound =>
      have first := (reads value List.mem_cons_self).found
      cases others with
      | nil =>
        rw [printItems, items]
        simp only [List.isEmpty_nil, ite_true, first _ (ends_mark (.inr (.inl rfl))), Reading.andThen,
          skipSpace_visible (show isSpace ']' = false by decide), List.reverse_cons, rereadItems]
      | cons next others =>
        have later := ih (fun value member => reads value (List.mem_cons_of_mem _ member)) (List.cons_ne_nil _ _)
          (value.reread :: read) bound (Nat.le_of_succ_le_succ within)
        rw [printItems, items]
        simp only [List.isEmpty_cons, Bool.false_eq_true, ite_false, first _ (ends_mark (.inl rfl)), Reading.andThen,
          skipSpace_visible (show isSpace ',' = false by decide)]
        obtain ⟨char, text, form, visible, further⟩ :=
          items_head (reads next (List.mem_cons_of_mem _ List.mem_cons_self)) others (']' :: rest)
        rw [form] at later ⊢
        rw [skipSpace_visible visible]
        simp only [List.cons.injEq, further, false_and, imp_self, implies_true]
        rw [later, List.reverse_cons, List.append_assoc, List.singleton_append]
        rfl

theorem length_printItems {values : List Json} (reads : ∀ value ∈ values, Reads item value) (rest : List Char) :
    values.length + rest.length ≤ (printItems values rest).length := by
  induction values with
  | nil => simp [printItems]
  | cons value others ih =>
    have later := ih fun value member => reads value (List.mem_cons_of_mem _ member)
    have longer := (reads value List.mem_cons_self).longer
    rw [printItems]
    split
    next last =>
      rw [List.isEmpty_iff.1 last]
      have := longer rest
      simp only [List.length_singleton]
      omega
    next =>
      have := longer (',' :: printItems others rest)
      simp only [List.length_cons] at this ⊢
      omega

theorem list_print {values : List Json} (reads : ∀ value ∈ values, Reads item value) (rest : List Char) :
    list item (printItems values (']' :: rest)) = .ok (.array (rereadItems values), rest) := by
  cases values with
  | nil => rfl
  | cons value others =>
    have long := length_printItems reads (']' :: rest)
    have read := items_print reads (List.cons_ne_nil _ _) [] (printItems (value :: others) (']' :: rest)) rest (by omega)
    obtain ⟨char, text, form, visible, further⟩ := items_head (reads value List.mem_cons_self) others (']' :: rest)
    rw [form] at read ⊢
    rw [list, skipSpace_visible visible]
    simp only [List.cons.injEq, further, false_and, imp_self, implies_true]
    rw [read]
    rfl

/-- The members of an object after the quote that opens the first key. -/
def printTail (key : String) (value : Json) (others : Members) (rest : List Char) : List Char :=
  escaped key.toList ('"' :: ':' :: value.print (if others.isEmpty then rest else ',' :: printMembers others rest))

theorem printMembers_cons (key : String) (value : Json) (others : Members) (rest : List Char) :
    printMembers ((key, value) :: others) rest = '"' :: printTail key value others rest := by
  rw [printMembers]
  rfl

theorem length_printMembers {entries : Members} (reads : ∀ member ∈ entries, Reads item member.2) (rest : List Char) :
    entries.length + rest.length ≤ (printMembers entries rest).length := by
  induction entries with
  | nil => simp [printMembers]
  | cons entry others ih =>
    obtain ⟨key, value⟩ := entry
    have later := ih fun member inside => reads member (List.mem_cons_of_mem _ inside)
    have longer := (reads (key, value) List.mem_cons_self).longer
    rw [printMembers_cons, printTail]
    split
    next last =>
      rw [List.isEmpty_iff.1 last]
      have := longer rest
      have := length_escaped key.toList ('"' :: ':' :: value.print rest)
      simp only [List.length_cons, List.length_nil] at *
      omega
    next =>
      have := longer (',' :: printMembers others rest)
      have := length_escaped key.toList ('"' :: ':' :: value.print (',' :: printMembers others rest))
      simp only [List.length_cons] at *
      omega

theorem member_print {key : String} {value : Json} (reads : Reads item value) {rest : List Char} (ends : Ends rest) :
    member item (escaped key.toList ('"' :: ':' :: value.print rest)) = .ok ((key, value.reread), rest) := by
  rw [member, string_escaped]
  simp only [Reading.andThen, skipSpace_visible (show isSpace ':' = false by decide), reads.found rest ends]

theorem insert_reread {read others : Members} {key : String} {value : Json}
    (sorted : Dictionary.Sorted (read ++ (key, value) :: others)) :
    Dictionary.insert key value.reread (rereadMembers read) = rereadMembers (read ++ [(key, value)]) := by
  rw [Dictionary.Sorted, List.map_append, List.map_cons, List.pairwise_append] at sorted
  rw [rereadMembers_eq, rereadMembers_eq, List.map_append, List.map_singleton, Dictionary.insert_last]
  intro entry member
  obtain ⟨before, inside, rfl⟩ := List.mem_map.1 member
  exact sorted.2.2 _ (List.mem_map_of_mem inside) _ List.mem_cons_self

theorem members_print {read others : Members} {key : String} {value : Json}
    (sorted : Dictionary.Sorted (read ++ (key, value) :: others))
    (reads : ∀ member ∈ (key, value) :: others, Reads item member.2)
    (bound rest : List Char) (within : others.length < bound.length) :
    members item (rereadMembers read) bound (printTail key value others ('\x7d' :: rest)) =
      .ok (.object (rereadMembers (read ++ (key, value) :: others)), rest) := by
  induction others generalizing read key value bound with
  | nil =>
    cases bound with
    | nil => cases within
    | cons limit bound =>
      have first : member item (escaped key.toList ('"' :: ':' :: value.print ('\x7d' :: rest))) =
          .ok ((key, value.reread), '\x7d' :: rest) :=
        member_print (reads (key, value) List.mem_cons_self) (ends_mark (.inr (.inr rfl)))
      rw [members, printTail]
      simp only [List.isEmpty_nil, ite_true, first, Reading.andThen,
        skipSpace_visible (show isSpace '\x7d' = false by decide), insert_reread sorted]
  | cons next others ih =>
    obtain ⟨nextKey, nextValue⟩ := next
    cases bound with
    | nil => cases within
    | cons limit bound =>
      have joined : read ++ (key, value) :: (nextKey, nextValue) :: others =
          (read ++ [(key, value)]) ++ (nextKey, nextValue) :: others := by simp
      rw [joined] at sorted ⊢
      have later := ih sorted (fun member inside => reads member (List.mem_cons_of_mem _ inside)) bound
        (Nat.lt_of_succ_lt_succ within)
      have first : member item (escaped key.toList
            ('"' :: ':' :: value.print (',' :: '"' :: printTail nextKey nextValue others ('\x7d' :: rest)))) =
          .ok ((key, value.reread), ',' :: '"' :: printTail nextKey nextValue others ('\x7d' :: rest)) :=
        member_print (reads (key, value) List.mem_cons_self) (ends_mark (.inl rfl))
      rw [members, printTail, printMembers_cons]
      simp only [List.isEmpty_cons, Bool.false_eq_true, ite_false, first, Reading.andThen,
        skipSpace_visible (show isSpace ',' = false by decide), skipSpace_visible (show isSpace '"' = false by decide)]
      rw [← later, insert_reread (joined ▸ sorted)]

theorem dictionary_print {entries : Members} (sorted : Dictionary.Sorted entries)
    (reads : ∀ member ∈ entries, Reads item member.2) (rest : List Char) :
    dictionary item (printMembers entries ('\x7d' :: rest)) = .ok (.object (rereadMembers entries), rest) := by
  cases entries with
  | nil => rfl
  | cons entry others =>
    obtain ⟨key, value⟩ := entry
    have long := length_printMembers reads ('\x7d' :: rest)
    rw [printMembers_cons] at long ⊢
    rw [dictionary, skipSpace_visible (by decide)]
    have first : Dictionary.Sorted ([] ++ (key, value) :: others) := sorted
    exact members_print first reads _ rest (by simp only [List.length_cons] at long ⊢; omega)

end Brackets

/-- A readable value is read back up to its doubles. -/
theorem reads_value {depth : Nat} {json : Json} (readable : Readable depth json) : Reads (value depth) json := by
  have behind (text rest : List Char) (filled : text ≠ []) : rest.length < (text ++ rest).length := by
    have := List.length_pos_of_ne_nil filled
    rw [List.length_append]
    omega
  induction readable with
  | @null depth =>
    have made : Readable depth .null := .null
    refine ⟨print_head made, fun rest => behind "null".toList rest (by decide), fun rest _ => ?_⟩
    exact value_visible (by decide) _ _
  | @bool depth value =>
    have made : Readable depth (.bool value) := .bool value
    refine ⟨print_head made, fun rest => behind (printBool value) rest (by cases value <;> decide), fun rest _ => ?_⟩
    cases value with
    | true => exact value_visible (by decide) _ _
    | false => exact value_visible (by decide) _ _
  | @number depth number readable =>
    obtain ⟨char, others, form, _⟩ := printNumber_head readable
    have made : Readable depth (.number number) := .number readable
    refine ⟨print_head made, fun rest => behind _ rest (form ▸ List.cons_ne_nil _ _), fun rest ends => ?_⟩
    cases number with
    | whole number => exact value_whole depth readable ends
    | double x => exact (reread_spec readable).2 depth rest ends
  | @string depth text =>
    have made : Readable depth (.string text) := .string text
    refine ⟨print_head made, fun rest => ?_, fun rest _ => ?_⟩
    · have := length_escaped text.toList ('"' :: rest)
      rw [print, printString_eq]
      simp only [List.length_cons] at *
      omega
    · have first : valueFrom (deeper depth) '"' (escaped text.toList ('"' :: rest)) =
          (string (escaped text.toList ('"' :: rest))).andThen fun text rest => .ok (.string text, rest) := rfl
      rw [print, printString_eq, value_visible (by decide), first, string_escaped]
      rfl
  | @array depth items readable ih =>
    refine ⟨print_head (.array readable), fun rest => ?_, fun rest _ => ?_⟩
    · have := length_printItems ih (']' :: rest)
      rw [print]
      simp only [List.length_cons] at *
      omega
    · rw [print, value_visible (by decide)]
      exact list_print ih rest
  | @object depth members sorted readable ih =>
    refine ⟨print_head (.object sorted readable), fun rest => ?_, fun rest _ => ?_⟩
    · have := length_printMembers ih ('\x7d' :: rest)
      rw [print]
      simp only [List.length_cons] at *
      omega
    · rw [print, value_visible (by decide)]
      exact dictionary_print sorted ih rest

end Parser

/-- What was read from a text is read back from its compact text, up to its doubles. -/
theorem parse_compact {text : List Char} {value : Json} (read : parse text = .ok value) :
    parse value.compact.toList = .ok value.reread := by
  have whole := (Parser.reads_value (readable_parse read)).found [] (by rintro char ⟨⟩)
  simp only [compact, String.toList_ofList, parse, Parser.document, whole, Reading.andThen, Parser.skipSpace, List.dropWhile_nil]

end Json

end StateAudit
