import StateAudit.Proofs.DictionaryEntries
import StateAudit.Proofs.JsonBlanks
import StateAudit.Proofs.NumeralScaling

/-! What a JSON text can be read to: brackets that nest no deeper than the limit, objects by
strictly increasing key, whole numbers of 64 bits, and doubles that are finite. -/

namespace StateAudit

/-- Whole numbers within 64 bits, with or without sign, and finite doubles. -/
def Number.Readable : Number → Prop
  | .whole value => -2 ^ 63 ≤ value ∧ value < 2 ^ 64
  | .double value => value.isFinite = true

namespace Json

inductive Readable : (depth : Nat) → Json → Prop
  | null {depth : Nat} : Readable depth .null
  | bool {depth : Nat} (value : Bool) : Readable depth (.bool value)
  | number {depth : Nat} {value : Number} : value.Readable → Readable depth (.number value)
  | string {depth : Nat} (text : String) : Readable depth (.string text)
  | array {depth : Nat} {items : List Json} : (∀ item ∈ items, Readable depth item) → Readable (depth + 1) (.array items)
  | object {depth : Nat} {members : Members} : Dictionary.Sorted members →
      (∀ member ∈ members, Readable depth member.2) → Readable (depth + 1) (.object members)

/-- Whatever a reader finds has the property. -/
def Reading.Yields (property : α → Prop) (found : Reading α) : Prop :=
  ∀ value rest, found = .ok (value, rest) → property value

section Readers
variable {property : α → Prop} {value : α} {rest : List Char}

theorem yields_ok (holds : property value) : Reading.Yields property (.ok (value, rest)) := by
  rintro _ _ ⟨⟩
  exact holds

theorem yields_error (failure : Failure) : Reading.Yields property (.error failure) := nofun

theorem yields_any (found : Reading α) : found.Yields fun _ => True := fun _ _ _ => trivial

theorem Reading.Yields.andThen {given : β → Prop} {found : Reading β} {next : β → List Char → Reading α}
    (first : found.Yields given) (goes : ∀ value rest, given value → (next value rest).Yields property) :
    (found.andThen next).Yields property := by
  cases found with
  | error failure => exact yields_error failure
  | ok pair => exact goes pair.1 pair.2 (first pair.1 pair.2 rfl)

end Readers

namespace Numeral

open Binary64

theorem absorb_lt {significand : Nat} (word : significand < wordLimit) (row : List Char) :
    (absorb significand row).1 < wordLimit := by
  induction row generalizing significand with
  | nil => exact word
  | cons char row ih =>
    rw [absorb]
    split
    next next => exact ih next
    next => exact word

theorem isFinite_signed {x : Binary64} (finite : x.isFinite = true) (negative : Bool) :
    (signed negative x).isFinite = true := by
  cases negative with
  | false => exact finite
  | true =>
    rw [isFinite_iff] at finite ⊢
    exact (neg_eq x).2 ▸ finite

section Reading
variable (negative : Bool) {significand : Nat} (word : significand < wordLimit)

theorem readable_zero : (Number.double (signed negative (zero false))).Readable := by
  have finite : (zero false).isFinite = true := by decide +kernel
  exact isFinite_signed finite negative

include word

theorem yields_finish (exponent : Int) (rest : List Char) :
    (finish negative significand exponent rest).Yields Number.Readable := by
  rw [finish]
  split
  next x scaled => exact yields_ok (isFinite_signed (isFinite_scale? word scaled) negative)
  next => exact yields_error _

theorem yields_afterSign (exponent : Int) (down : Bool) (text : List Char) :
    (afterSign negative significand exponent down text).Yields Number.Readable := by
  cases text with
  | nil => exact yields_error _
  | cons char text =>
    simp only [afterSign]
    split
    · split
      · exact yields_finish negative word _ _
      · split
        · exact yields_error _
        · exact yields_ok (readable_zero negative)
    · exact yields_error _

theorem yields_exponentPart (exponent : Int) (text : List Char) :
    (exponentPart negative significand exponent text).Yields Number.Readable := by
  cases text with
  | nil => exact yields_error _
  | cons char text =>
    by_cases plus : char = '+'
    · subst plus
      exact yields_afterSign negative word exponent false text
    · by_cases minus : char = '-'
      · subst minus
        exact yields_afterSign negative word exponent true text
      · rw [exponentPart_unsigned _ _ _ plus minus]
        exact yields_afterSign negative word exponent false (char :: text)

theorem yields_afterDigits (exponent : Int) (text : List Char) :
    (afterDigits negative significand exponent text).Yields Number.Readable := by
  cases text with
  | nil => exact yields_finish negative word exponent []
  | cons char text =>
    rw [afterDigits]
    split
    · exact yields_exponentPart negative word exponent text
    · exact yields_finish negative word exponent (char :: text)

theorem yields_fractionPart (exponent : Int) (text : List Char) :
    (fractionPart negative significand exponent text).Yields Number.Readable := by
  simp only [fractionPart]
  split
  · split
    · exact yields_error _
    · exact yields_error _
  · exact yields_afterDigits negative (absorb_lt word _) _ _

theorem readable_whole : (whole negative significand).Readable := by
  have limit : wordLimit = 2 ^ 64 := rfl
  rw [whole]
  split
  · exact ⟨by omega, by omega⟩
  · split
    · exact isFinite_signed (isFinite_ofNat word) true
    next small =>
      simp only [not_or, Nat.pow_eq] at small
      exact ⟨by omega, by omega⟩

theorem yields_afterRow (dropped rest : List Char) :
    (afterRow negative significand dropped rest).Yields Number.Readable := by
  by_cases point : rest.head? = some '.'
  · obtain ⟨rest, rfl⟩ := List.head?_eq_some_iff.1 point
    exact yields_fractionPart negative word dropped.length rest
  · rw [afterRow_pointless negative significand dropped point]
    split
    · exact yields_ok (readable_whole negative word)
    · exact yields_afterDigits negative word dropped.length rest

end Reading

theorem yields_read (negative : Bool) (text : List Char) : (read negative text).Yields Number.Readable := by
  by_cases none : text.takeWhile Decimal.isDigit = []
  · simp only [read, none]
    split
    · exact yields_error _
    · exact yields_error _
  · by_cases led : ∃ next more, text.takeWhile Decimal.isDigit = '0' :: next :: more
    · obtain ⟨next, more, led⟩ := led
      simp only [read, led]
      exact yields_error _
    · rw [read_row negative none fun next more same => led ⟨next, more, same⟩]
      exact yields_afterRow negative (absorb_lt (by decide) _) _ _

end Numeral

namespace Parser

theorem yields_word {depth : Nat} {value : Json} (readable : Readable depth value) (expected text : List Char) :
    (word value expected text).Yields (Readable depth) := by
  induction expected generalizing text with
  | nil => exact yields_ok readable
  | cons wanted expected ih =>
    cases text with
    | nil => exact yields_error _
    | cons char text =>
      rw [word]
      split
      · exact ih text
      · exact yields_error _

section Brackets
variable {depth : Nat} {item : List Char → Reading Json} (each : ∀ text, (item text).Yields (Readable depth))

include each

theorem yields_items {read : List Json} (before : ∀ item ∈ read, Readable depth item) (bound text : List Char) :
    (items item read bound text).Yields (Readable (depth + 1)) := by
  induction bound generalizing read text with
  | nil => exact yields_error _
  | cons _ bound ih =>
    rw [items]
    refine (each text).andThen fun value rest readable => ?_
    have all : ∀ item ∈ value :: read, Readable depth item := by
      intro item member
      obtain rfl | earlier := List.mem_cons.1 member
      · exact readable
      · exact before item earlier
    split
    · exact yields_error _
    · exact yields_ok (.array fun item member => all item (List.mem_reverse.1 member))
    · split
      · exact yields_error _
      · exact yields_error _
      · exact ih all _
    · exact yields_error _

theorem yields_list (text : List Char) : (list item text).Yields (Readable (depth + 1)) := by
  rw [list]
  split
  · exact yields_error _
  · exact yields_ok (.array (List.forall_mem_nil _))
  · exact yields_items each (List.forall_mem_nil _) _ _

theorem yields_member (text : List Char) : (member item text).Yields fun found => Readable depth found.2 := by
  rw [member]
  refine (yields_any (string text)).andThen fun key rest _ => ?_
  split
  · exact yields_error _
  · exact (each _).andThen fun value rest readable => yields_ok readable
  · exact yields_error _

theorem yields_members {read : Members} (sorted : Dictionary.Sorted read) (before : ∀ member ∈ read, Readable depth member.2)
    (bound text : List Char) : (members item read bound text).Yields (Readable (depth + 1)) := by
  induction bound generalizing read text with
  | nil => exact yields_error _
  | cons _ bound ih =>
    rw [members]
    refine (yields_member each text).andThen fun found rest readable => ?_
    obtain ⟨key, value⟩ := found
    have next : Dictionary.Sorted (Dictionary.insert key value read) := Dictionary.sorted_insert key value sorted
    have all : ∀ member ∈ Dictionary.insert key value read, Readable depth member.2 := by
      intro member inside
      obtain rfl | earlier := Dictionary.mem_insert inside
      · exact readable
      · exact before member earlier
    simp only
    split
    · exact yields_error _
    · exact yields_ok (.object next all)
    · split
      · exact yields_error _
      · exact ih next all _
      · exact yields_error _
      · exact yields_error _
    · exact yields_error _

theorem yields_dictionary (text : List Char) : (dictionary item text).Yields (Readable (depth + 1)) := by
  rw [dictionary]
  split
  · exact yields_error _
  · exact yields_ok (.object Dictionary.sorted_nil (List.forall_mem_nil _))
  · exact yields_members each Dictionary.sorted_nil (List.forall_mem_nil _) _ _
  · exact yields_error _

end Brackets

theorem yields_value (depth : Nat) (text : List Char) : (value depth text).Yields (Readable depth) := by
  have step {depth : Nat} (list : ∀ item ∈ deeper depth, ∀ text, (list item text).Yields (Readable depth))
      (dictionary : ∀ item ∈ deeper depth, ∀ text, (dictionary item text).Yields (Readable depth)) (text : List Char) :
      (value depth text).Yields (Readable depth) := by
    have numbers {found : Reading Number} (yields : found.Yields Number.Readable) :
        (found.andThen fun number rest => .ok (Json.number number, rest)).Yields (Readable depth) :=
      yields.andThen fun number rest readable => yields_ok (.number readable)
    cases first : skipSpace text with
    | nil =>
      rw [value_nil first]
      exact yields_error _
    | cons char rest =>
      rw [value_cons first, valueFrom]
      split
      · exact yields_word .null _ _
      split
      · exact yields_word (.bool true) _ _
      split
      · exact yields_word (.bool false) _ _
      split
      · exact (yields_any (string rest)).andThen fun text rest _ => yields_ok (.string text)
      split
      · cases nested : deeper depth with
        | none => exact yields_error _
        | some item => exact list item nested rest
      split
      · cases nested : deeper depth with
        | none => exact yields_error _
        | some item => exact dictionary item nested rest
      split
      · exact numbers (Numeral.yields_read true rest)
      split
      · exact numbers (Numeral.yields_read false (char :: rest))
      · exact yields_error _
  induction depth generalizing text with
  | zero => exact step (by rintro item ⟨⟩) (by rintro item ⟨⟩) text
  | succ depth ih =>
    refine step ?_ ?_ text
    · rintro item ⟨⟩ text
      exact yields_list ih text
    · rintro item ⟨⟩ text
      exact yields_dictionary ih text

end Parser

theorem readable_parse {text : List Char} {value : Json} (read : parse text = .ok value) :
    Readable Parser.depthLimit value := by
  have yields : (Parser.document text).Yields (Readable Parser.depthLimit) := by
    refine (Parser.yields_value Parser.depthLimit text).andThen fun value rest readable => ?_
    split
    · exact yields_ok readable
    · exact yields_error _
  rw [parse] at read
  split at read
  next found rest parsed =>
    obtain rfl := Except.ok.inj read
    exact yields found rest parsed
  next => cases read

end Json

end StateAudit
