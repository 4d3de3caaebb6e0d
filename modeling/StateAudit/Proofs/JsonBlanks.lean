import StateAudit.Proofs.NumeralBlanks

/-! Blanks behind a JSON text. It is read to the same value with them, or it is refused with them
as without: no list, object, string, escape, word or number that is cut off becomes whole by
blanks, and none that is whole is spoilt by them. -/

namespace StateAudit.Json

namespace Parser

section Blanks
variable {blanks : List Char} (blank : Blank blanks)

include blank in
theorem skipSpace_blanks : skipSpace blanks = [] := List.dropWhile_eq_nil_iff.2 blank

include blank in
/-- Behind white space a text ends with the blanks as without them, or goes on with the same character. -/
theorem skipSpace_append (text : List Char) : (skipSpace text = [] ∧ skipSpace (text ++ blanks) = []) ∨
    ∃ char rest, skipSpace text = char :: rest ∧ skipSpace (text ++ blanks) = char :: (rest ++ blanks) ∧
      rest.length < text.length := by
  have short := length_dropWhile_le isSpace text
  rw [← skipSpace] at short
  rw [skipSpace.eq_1 (text ++ blanks), List.dropWhile_append, ← skipSpace]
  cases found : skipSpace text with
  | nil => exact .inl ⟨rfl, skipSpace_blanks blank⟩
  | cons char rest =>
    rw [found] at short
    exact .inr ⟨char, rest, rfl, rfl, short⟩

include blank in
theorem again_word (value : Json) (expected text : List Char) (visible : ∀ char ∈ expected, isSpace char = false) :
    Again blanks text.length (word value expected text) (word value expected (text ++ blanks)) := by
  induction expected generalizing text with
  | nil =>
    rw [word, word]
    exact .found (Nat.le_refl _)
  | cons wanted expected ih =>
    cases text with
    | nil =>
      refine .of_errors ⟨_, rfl⟩ ?_
      cases blanks with
      | nil => exact ⟨_, rfl⟩
      | cons char rest =>
        have differs : char ≠ wanted := by
          rintro rfl
          have seen := visible char List.mem_cons_self
          rw [blank char List.mem_cons_self] at seen
          cases seen
        exact ⟨_, by rw [List.nil_append, word, if_neg differs]; rfl⟩
    | cons char text =>
      rw [List.cons_append, word, word]
      split
      · exact (ih text fun char member => visible char (List.mem_cons_of_mem _ member)).mono (Nat.le_succ _)
      · exact .failed

theorem hexValue?_blank {char : Char} (space : isSpace char = true) : hexValue? char = none := by
  rcases eq_of_isSpace space with rfl | rfl | rfl | rfl <;> rfl


theorem hexUnit_short {text : List Char} (short : text.length < 4) : ∃ failure, hexUnit text = .error failure := by
  unfold hexUnit
  split
  · exact ⟨_, rfl⟩
  · split
    · simp only [List.length_cons] at short
      omega
    · exact ⟨_, rfl⟩

theorem hexUnit_four (a b c d : Char) (rest : List Char) : hexUnit (a :: b :: c :: d :: rest) =
    match hexValue? a, hexValue? b, hexValue? c, hexValue? d with
    | some a, some b, some c, some d => .ok (a * 4096 + b * 256 + c * 16 + d, rest)
    | _, _, _, _ => .error ⟨.invalidEscape, a :: b :: c :: d :: rest, 4⟩ := by
  have wide : ¬ Utf8.size ((a :: b :: c :: d :: rest).take 4) < 4 := by
    have := a.utf8Size_pos
    have := b.utf8Size_pos
    have := c.utf8Size_pos
    have := d.utf8Size_pos
    simp only [List.take_succ_cons, List.take_zero, Utf8.size]
    omega
  rw [hexUnit]
  exact if_neg wide

theorem hexUnit_misfit {a b c d : Char} {rest : List Char}
    (misfit : hexValue? a = none ∨ hexValue? b = none ∨ hexValue? c = none ∨ hexValue? d = none) :
    ∃ failure, hexUnit (a :: b :: c :: d :: rest) = .error failure := by
  rw [hexUnit_four]
  split
  · rename_i first second third fourth
    simp [first, second, third, fourth] at misfit
  · exact ⟨_, rfl⟩

include blank in
/-- Where fewer than four characters stand before the blanks, the first blank is among the four. -/
theorem hexUnit_torn {text : List Char} (short : text.length < 4) :
    ∃ failure, hexUnit (text ++ blanks) = .error failure := by
  by_cases whole : (text ++ blanks).length < 4
  · exact hexUnit_short whole
  · rw [List.length_append, Nat.not_lt] at whole
    cases blanks with
    | nil => exact absurd short (Nat.not_lt.2 whole)
    | cons char rest =>
      have refused : hexValue? char = none := hexValue?_blank (blank char List.mem_cons_self)
      match text, rest, whole with
      | [], _ :: _ :: _ :: _, _ => exact hexUnit_misfit (.inl refused)
      | [_], _ :: _ :: _, _ => exact hexUnit_misfit (.inr (.inl refused))
      | [_, _], _ :: _, _ => exact hexUnit_misfit (.inr (.inr (.inl refused)))
      | [_, _, _], _, _ => exact hexUnit_misfit (.inr (.inr (.inr refused)))

include blank in
theorem again_hexUnit (text : List Char) : Again blanks text.length (hexUnit text) (hexUnit (text ++ blanks)) := by
  by_cases short : text.length < 4
  · exact .of_errors (hexUnit_short short) (hexUnit_torn blank short)
  · match text, Nat.not_lt.1 short with
    | a :: b :: c :: d :: rest, _ =>
      simp only [List.cons_append, hexUnit_four]
      split
      · exact .found (by simp only [List.length_cons]; omega)
      · exact .failed

theorem trailingUnit_error (leading : Nat) {text : List Char} (other : ∀ rest, text ≠ '\\' :: 'u' :: rest) :
    ∃ failure, trailingUnit leading text = .error failure := by
  unfold trailingUnit
  split
  · exact ⟨_, rfl⟩
  · exact ⟨_, rfl⟩
  · exact absurd rfl (other _)
  · exact ⟨_, rfl⟩
  · exact ⟨_, rfl⟩

include blank in
theorem again_trailingUnit (leading : Nat) (text : List Char) :
    Again blanks text.length (trailingUnit leading text) (trailingUnit leading (text ++ blanks)) := by
  by_cases marked : ∃ rest, text = '\\' :: 'u' :: rest
  · obtain ⟨text, rfl⟩ := marked
    rw [List.cons_append, List.cons_append, trailingUnit, trailingUnit]
    refine Again.mono (Again.andThen (again_hexUnit blank text) ?_) (Nat.le_add_right _ 2)
    intro trailing rest short
    split
    · exact .found short
    · exact .failed
  · have other : ∀ rest, text ≠ '\\' :: 'u' :: rest := fun rest same => marked ⟨rest, same⟩
    refine .of_errors (trailingUnit_error leading other) (trailingUnit_error leading ?_)
    intro rest same
    match text, other with
    | [], _ =>
      have space := blank '\\' (by rw [← List.nil_append blanks, same]; exact List.mem_cons_self)
      cases space
    | [char], _ =>
      have behind : blanks = 'u' :: rest := (List.cons.inj same).2
      have space := blank 'u' (by rw [behind]; exact List.mem_cons_self)
      cases space
    | first :: second :: text, other =>
      simp only [List.cons_append, List.cons.injEq] at same
      exact other text (by rw [same.1, same.2.1])

theorem escape_single {char : Char} (other : char ≠ 'u') :
    (∃ found, ∀ rest, escape (char :: rest) = .ok (found, rest)) ∨
      ∀ rest, ∃ failure, escape (char :: rest) = .error failure := by
  by_cases known : char ∈ ['"', '\\', '/', 'b', 'f', 'n', 'r', 't']
  · simp only [List.mem_cons, List.not_mem_nil, or_false] at known
    rcases known with rfl | rfl | rfl | rfl | rfl | rfl | rfl | rfl <;> exact .inl ⟨_, fun rest => rfl⟩
  · simp only [List.mem_cons, List.not_mem_nil, or_false, not_or] at known
    right
    intro rest
    simp only [escape]
    split <;> first | exact ⟨_, rfl⟩ | simp at known

include blank in
theorem again_escape (text : List Char) : Again blanks text.length (escape text) (escape (text ++ blanks)) := by
  cases text with
  | nil =>
    refine .of_errors ⟨_, rfl⟩ ?_
    cases blanks with
    | nil => exact ⟨_, rfl⟩
    | cons char rest =>
      rcases eq_of_isSpace (blank char List.mem_cons_self) with rfl | rfl | rfl | rfl <;> exact ⟨_, rfl⟩
  | cons char text =>
    by_cases unit : char = 'u'
    · subst unit
      rw [List.cons_append, escape, escape]
      refine Again.mono (Again.andThen (again_hexUnit blank text) ?_) (Nat.le_succ _)
      intro unit rest short
      split
      · exact .failed
      · split
        · exact (again_trailingUnit blank unit rest).mono short
        · exact .found short
    · obtain ⟨found, plain⟩ | misfit := escape_single unit
      · rw [List.cons_append, plain, plain]
        exact .found (Nat.le_succ _)
      · exact .of_errors (misfit text) (misfit (text ++ blanks))

include blank in
theorem stringBody_blanks (read bound : List Char) : ∃ failure, stringBody read bound blanks = .error failure := by
  induction bound generalizing read blanks with
  | nil =>
    cases blanks with
    | nil => exact ⟨_, rfl⟩
    | cons char rest => exact ⟨_, rfl⟩
  | cons _ bound ih =>
    cases blanks with
    | nil => exact ⟨_, rfl⟩
    | cons char rest =>
      have further := ih (fun char member => blank char (List.mem_cons_of_mem _ member)) (char :: read)
      rw [stringBody]
      rcases eq_of_isSpace (blank char List.mem_cons_self) with rfl | rfl | rfl | rfl
      · exact further
      · exact ⟨_, rfl⟩
      · exact ⟨_, rfl⟩
      · exact ⟨_, rfl⟩

include blank in
theorem again_stringBody (read bound larger text : List Char) (within : text.length ≤ bound.length)
    (wider : (text ++ blanks).length ≤ larger.length) :
    Again blanks text.length (stringBody read bound text) (stringBody read larger (text ++ blanks)) := by
  induction bound generalizing read larger text with
  | nil =>
    obtain rfl := List.length_eq_zero_iff.1 (Nat.le_zero.1 within)
    exact .of_errors ⟨_, rfl⟩ (stringBody_blanks blank read larger)
  | cons _ bound ih =>
    match text, larger, within, wider with
    | [], larger, _, _ => exact .of_errors ⟨_, rfl⟩ (stringBody_blanks blank read larger)
    | char :: text, _ :: larger, within, wider =>
      rw [List.cons_append, stringBody, stringBody]
      split
      · exact .found (Nat.le_succ _)
      · split
        · refine Again.mono (Again.andThen (again_escape blank text) ?_) (Nat.le_succ _)
          intro char rest short
          refine (ih (char :: read) larger rest ?_ ?_).mono short
          · exact Nat.le_trans short (Nat.le_of_succ_le_succ within)
          · simp only [List.length_append, List.length_cons] at wider ⊢
            omega
        · split
          · exact .failed
          · exact (ih (char :: read) larger text (Nat.le_of_succ_le_succ within) (Nat.le_of_succ_le_succ wider)).mono
              (Nat.le_succ _)

include blank in
theorem again_string (text : List Char) : Again blanks text.length (string text) (string (text ++ blanks)) :=
  again_stringBody blank [] text (text ++ blanks) text (Nat.le_refl _) (Nat.le_refl _)

theorem items_cut {item : List Char → Reading Json} {text : List Char}
    (ends : ∀ value rest, item text = .ok (value, rest) → skipSpace rest = []) (read : List Json) (bound : List Char) :
    ∃ failure, items item read bound text = .error failure := by
  cases bound with
  | nil => exact ⟨_, rfl⟩
  | cons _ bound =>
    rw [items]
    cases taken : item text with
    | error failure => exact ⟨_, rfl⟩
    | ok found => exact ⟨_, by simp only [Reading.andThen, ends _ _ taken]; rfl⟩

theorem member_cut {item : List Char → Reading Json} {text : List Char}
    (torn : ∃ failure, string text = .error failure) (read : Members) (bound : List Char) :
    ∃ failure, members item read bound text = .error failure := by
  cases bound with
  | nil => exact ⟨_, rfl⟩
  | cons _ bound =>
    obtain ⟨failure, torn⟩ := torn
    exact ⟨failure, by rw [members, member, torn]; rfl⟩

section Brackets
variable {item : List Char → Reading Json}
  (each : ∀ text, Again blanks text.length (item text) (item (text ++ blanks)))

include blank each

theorem again_items_nil (read : List Json) (bound larger : List Char) :
    Again blanks 0 (items item read bound []) (items item read larger blanks) := by
  have first := each []
  refine .of_errors (items_cut ?_ read bound) (items_cut ?_ read larger)
  · intro value rest taken
    rw [taken] at first
    generalize item ([] ++ blanks) = again at first
    cases first with
    | found short => rw [List.length_eq_zero_iff.1 (Nat.le_zero.1 short)]; rfl
  · intro value rest taken
    rw [List.nil_append, taken] at first
    generalize item [] = found at first
    cases first with
    | found short =>
      rw [List.length_eq_zero_iff.1 (Nat.le_zero.1 short)]
      exact skipSpace_blanks blank

theorem again_items (read : List Json) (bound larger text : List Char) (within : text.length ≤ bound.length)
    (wider : (text ++ blanks).length ≤ larger.length) :
    Again blanks text.length (items item read bound text) (items item read larger (text ++ blanks)) := by
  induction bound generalizing read larger text with
  | nil =>
    obtain rfl := List.length_eq_zero_iff.1 (Nat.le_zero.1 within)
    exact again_items_nil blank each read [] larger
  | cons limit bound ih =>
    cases larger with
    | nil =>
      obtain rfl := (List.append_eq_nil_iff.1 (List.length_eq_zero_iff.1 (Nat.le_zero.1 wider))).1
      exact again_items_nil blank each read (limit :: bound) []
    | cons _ larger =>
      rw [items, items]
      refine Again.andThen (each text) ?_
      intro value rest short
      obtain ⟨ended, still⟩ | ⟨char, rest, behind, again, shorter⟩ := skipSpace_append blank rest
      · rw [ended, still]
        exact .failed
      rw [behind, again]
      by_cases closing : char = ']'
      · subst closing
        exact .found (by omega)
      by_cases comma : char = ','
      · subst comma
        simp only
        obtain ⟨ended, still⟩ | ⟨next, rest, ahead, again, less⟩ := skipSpace_append blank rest
        · rw [ended, still]
          exact .failed
        rw [ahead, again]
        by_cases trailing : next = ']'
        · subst trailing
          exact .failed
        · simp only [List.cons.injEq, trailing, false_and, imp_self, implies_true]
          refine (ih (value :: read) larger (next :: rest) ?_ ?_).mono ?_
          · simp only [List.length_cons] at within ⊢
            omega
          · simp only [List.length_cons, List.length_append] at wider ⊢
            omega
          · simp only [List.length_cons]
            omega
      · simp only [List.cons.injEq, closing, comma, false_and, imp_self, implies_true]
        exact .failed

theorem again_list (text : List Char) : Again blanks text.length (list item text) (list item (text ++ blanks)) := by
  rw [list, list]
  obtain ⟨ended, still⟩ | ⟨char, rest, first, again, short⟩ := skipSpace_append blank text
  · rw [ended, still]
    exact .failed
  rw [first, again]
  by_cases closing : char = ']'
  · subst closing
    exact .found (Nat.le_of_lt short)
  · simp only [List.cons.injEq, closing, false_and, imp_self, implies_true]
    exact (again_items blank each [] (char :: rest) (char :: (rest ++ blanks)) (char :: rest) (Nat.le_refl _)
      (Nat.le_refl _)).mono short

theorem again_member (text : List Char) :
    Again blanks text.length (member item text) (member item (text ++ blanks)) := by
  rw [member, member]
  refine Again.andThen (again_string blank text) ?_
  intro key rest short
  obtain ⟨ended, still⟩ | ⟨char, rest, behind, again, shorter⟩ := skipSpace_append blank rest
  · rw [ended, still]
    exact .failed
  rw [behind, again]
  by_cases colon : char = ':'
  · subst colon
    refine Again.mono (Again.andThen (each rest) ?_) (by omega)
    intro value rest within
    exact .found within
  · simp only [List.cons.injEq, colon, false_and, imp_self, implies_true]
    exact .failed

omit each in
theorem again_members_nil (read : Members) (bound larger : List Char) :
    Again blanks 0 (members item read bound []) (members item read larger blanks) :=
  .of_errors (member_cut ⟨_, rfl⟩ read bound) (member_cut (stringBody_blanks blank [] blanks) read larger)

theorem again_members (read : Members) (bound larger text : List Char) (within : text.length ≤ bound.length)
    (wider : (text ++ blanks).length ≤ larger.length) :
    Again blanks text.length (members item read bound text) (members item read larger (text ++ blanks)) := by
  induction bound generalizing read larger text with
  | nil =>
    obtain rfl := List.length_eq_zero_iff.1 (Nat.le_zero.1 within)
    exact again_members_nil blank read [] larger
  | cons limit bound ih =>
    cases larger with
    | nil =>
      obtain rfl := (List.append_eq_nil_iff.1 (List.length_eq_zero_iff.1 (Nat.le_zero.1 wider))).1
      exact again_members_nil blank read (limit :: bound) []
    | cons _ larger =>
      rw [members, members]
      refine Again.andThen (again_member blank each text) ?_
      rintro ⟨key, value⟩ rest short
      simp only
      obtain ⟨ended, still⟩ | ⟨char, rest, behind, again, shorter⟩ := skipSpace_append blank rest
      · rw [ended, still]
        exact .failed
      rw [behind, again]
      by_cases closing : char = '\x7d'
      · subst closing
        exact .found (by omega)
      by_cases comma : char = ','
      · subst comma
        simp only
        obtain ⟨ended, still⟩ | ⟨next, rest, ahead, again, less⟩ := skipSpace_append blank rest
        · rw [ended, still]
          exact .failed
        rw [ahead, again]
        by_cases quote : next = '"'
        · subst quote
          refine (ih (Dictionary.insert key value read) larger rest ?_ ?_).mono ?_
          · simp only [List.length_cons] at within
            omega
          · simp only [List.length_cons, List.length_append] at wider ⊢
            omega
          · omega
        by_cases trailing : next = '\x7d'
        · subst trailing
          exact .failed
        · simp only [List.cons.injEq, quote, trailing, false_and, imp_self, implies_true]
          exact .failed
      · simp only [List.cons.injEq, closing, comma, false_and, imp_self, implies_true]
        exact .failed

theorem again_dictionary (text : List Char) :
    Again blanks text.length (dictionary item text) (dictionary item (text ++ blanks)) := by
  rw [dictionary, dictionary]
  obtain ⟨ended, still⟩ | ⟨char, rest, first, again, short⟩ := skipSpace_append blank text
  · rw [ended, still]
    exact .failed
  rw [first, again]
  by_cases closing : char = '\x7d'
  · subst closing
    exact .found (Nat.le_of_lt short)
  by_cases quote : char = '"'
  · subst quote
    exact (again_members blank each [] ('"' :: rest) ('"' :: (rest ++ blanks)) rest (Nat.le_succ _)
      (Nat.le_succ _)).mono (Nat.le_of_lt short)
  · simp only [List.cons.injEq, closing, quote, false_and, imp_self, implies_true]
    exact .failed

end Brackets

end Blanks

/-- The value that begins with `char`; what stands in brackets is read by `nested`, unless they are too deep. -/
def valueFrom (nested : Option (List Char → Reading Json)) (char : Char) (rest : List Char) : Reading Json :=
  if char = 'n' then word .null "ull".toList rest
  else if char = 't' then word (.bool true) "rue".toList rest
  else if char = 'f' then word (.bool false) "alse".toList rest
  else if char = '"' then (string rest).andThen fun text rest => .ok (.string text, rest)
  else if char = '[' then nested.elim (stopAt .tooDeep (char :: rest)) (list · rest)
  else if char = '\x7b' then nested.elim (stopAt .tooDeep (char :: rest)) (dictionary · rest)
  else if char = '-' then (Numeral.read true rest).andThen fun number rest => .ok (.number number, rest)
  else if Decimal.isDigit char then
    (Numeral.read false (char :: rest)).andThen fun number rest => .ok (.number number, rest)
  else stopAt .expectedValue (char :: rest)

def deeper : Nat → Option (List Char → Reading Json)
  | 0 => none
  | depth + 1 => some (value depth)

theorem value_cons {depth : Nat} {text : List Char} {char : Char} {rest : List Char}
    (first : skipSpace text = char :: rest) : value depth text = valueFrom (deeper depth) char rest := by
  cases depth with
  | zero =>
    rw [value, first]
    simp only
    split <;> simp_all [valueFrom, deeper]
  | succ depth =>
    rw [value, first]
    split <;> simp_all [valueFrom, deeper]

theorem value_nil {depth : Nat} {text : List Char} (empty : skipSpace text = []) :
    value depth text = stop .endInValue [] := by
  cases depth with
  | zero => rw [value, empty]
  | succ depth => rw [value, empty]

section Values
variable {blanks : List Char} (blank : Blank blanks)

include blank

theorem again_valueFrom {nested : Option (List Char → Reading Json)}
    (each : ∀ item ∈ nested, ∀ text, Again blanks text.length (item text) (item (text ++ blanks)))
    (char : Char) (rest : List Char) :
    Again blanks (rest.length + 1) (valueFrom nested char rest) (valueFrom nested char (rest ++ blanks)) := by
  have words (value : Json) (expected : List Char) (visible : expected.all (!isSpace ·) = true) :=
    (again_word blank value expected rest fun char member => by
      simpa using List.all_eq_true.1 visible char member).mono (Nat.le_succ _)
  have numbers {bound : Nat} {found again : Reading Number} (same : Again blanks bound found again) :
      Again blanks bound (found.andThen fun number rest => .ok (Json.number number, rest))
        (again.andThen fun number rest => .ok (Json.number number, rest)) :=
    Again.andThen same fun number rest short => .found short
  unfold valueFrom
  split
  · exact words .null _ (by decide)
  split
  · exact words (.bool true) _ (by decide)
  split
  · exact words (.bool false) _ (by decide)
  split
  · refine (Again.andThen (again_string blank rest) ?_).mono (Nat.le_succ _)
    intro text rest short
    exact .found short
  split
  · cases nested with
    | none => exact .failed
    | some item => exact (again_list blank (each item rfl) rest).mono (Nat.le_succ _)
  split
  · cases nested with
    | none => exact .failed
    | some item => exact (again_dictionary blank (each item rfl) rest).mono (Nat.le_succ _)
  split
  · exact (numbers (Numeral.again_read blank true rest)).mono (Nat.le_succ _)
  split
  · exact numbers (Numeral.again_read blank false (char :: rest))
  · exact .failed

theorem again_value (depth : Nat) (text : List Char) :
    Again blanks text.length (value depth text) (value depth (text ++ blanks)) := by
  have step {depth : Nat} (each : ∀ item ∈ deeper depth, ∀ text, Again blanks text.length (item text) (item (text ++ blanks)))
      (text : List Char) : Again blanks text.length (value depth text) (value depth (text ++ blanks)) := by
    obtain ⟨ended, still⟩ | ⟨char, rest, first, again, short⟩ := skipSpace_append blank text
    · rw [value_nil ended, value_nil still]
      exact .failed
    · rw [value_cons first, value_cons again]
      exact (again_valueFrom blank each char rest).mono short
  induction depth generalizing text with
  | zero =>
    refine step ?_ text
    rintro item ⟨⟩
  | succ depth ih =>
    refine step ?_ text
    rintro item ⟨⟩
    exact ih

end Values

end Parser

/-- A text has the same value with blanks behind it, or it is no JSON with them nor without. -/
theorem parse_blanks {blanks : List Char} (blank : Blank blanks) (text : List Char) :
    (∃ value, parse text = .ok value ∧ parse (text ++ blanks) = .ok value) ∨
      ∃ error other, parse text = .error error ∧ parse (text ++ blanks) = .error other := by
  have same := Parser.again_value blank Parser.depthLimit text
  simp only [parse, Parser.document]
  generalize Parser.value Parser.depthLimit text = found, Parser.value Parser.depthLimit (text ++ blanks) = again at same
  cases same with
  | @found value rest short =>
    obtain ⟨ended, still⟩ | ⟨char, others, behind, again, _⟩ := Parser.skipSpace_append blank rest
    · exact .inl ⟨value, by simp only [Reading.andThen, ended], by simp only [Reading.andThen, still]⟩
    · exact .inr ⟨_, _, by simp only [Reading.andThen, behind]; rfl, by simp only [Reading.andThen, again]; rfl⟩
  | failed => exact .inr ⟨_, _, rfl, rfl⟩

end StateAudit.Json
