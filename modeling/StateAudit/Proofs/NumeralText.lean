import StateAudit.Json.Printer
import StateAudit.Proofs.NumeralBlanks
import StateAudit.Proofs.NumeralScaling

/-! Written numbers as they are read. A whole number is read as itself; a double is read as the
significand and the power of ten that its text carries, and these always scale to a double. -/

namespace StateAudit

namespace Decimal

theorem value_cons (char : Char) (row : List Char) :
    value (char :: row) = digitValue char * 10 ^ row.length + value row := by
  rw [← List.singleton_append, value_append]
  congr 2
  exact Nat.zero_add _

theorem digitValue_lt {char : Char} (digit : isDigit char = true) : digitValue char < 10 := by
  simp only [isDigit, Bool.and_eq_true, decide_eq_true_eq] at digit
  have high : char.toNat ≤ 57 := digit.2
  rw [digitValue]
  omega

theorem value_lt {row : List Char} (digits : ∀ char ∈ row, isDigit char = true) : value row < 10 ^ row.length := by
  induction row with
  | nil => decide
  | cons char row ih =>
    have first := digitValue_lt (digits char List.mem_cons_self)
    have later := ih fun other member => digits other (List.mem_cons_of_mem _ member)
    have most := Nat.mul_le_mul_right (10 ^ row.length) (Nat.le_of_lt_succ first)
    rw [value_cons, List.length_cons, Nat.pow_succ']
    omega

end Decimal

namespace Json.Numeral

open Decimal (Row isDigit value)

/-- A text that goes on with nothing of a number. -/
def Ends (rest : List Char) : Prop :=
  ∀ char ∈ rest.head?, isDigit char = false ∧ char ≠ '.' ∧ isExponentMark char = false

theorem takeWhile_row {row rest : List Char} (digits : ∀ char ∈ row, isDigit char = true)
    (ends : ∀ char ∈ rest.head?, isDigit char = false) :
    (row ++ rest).takeWhile isDigit = row ∧ (row ++ rest).dropWhile isDigit = rest := by
  rw [List.takeWhile_append_of_pos digits, List.dropWhile_append_of_pos digits]
  cases rest with
  | nil => simp
  | cons char rest =>
    have other := ends char rfl
    simp [other]

theorem absorb_row {row : List Char} (digits : ∀ char ∈ row, isDigit char = true) (significand : Nat)
    (word : significand * 10 ^ row.length + value row < wordLimit) :
    absorb significand row = (significand * 10 ^ row.length + value row, []) := by
  induction row generalizing significand with
  | nil => simp [absorb, value]
  | cons char row ih =>
    rw [Decimal.value_cons, List.length_cons, Nat.pow_succ', ← Nat.mul_assoc, ← Nat.add_assoc, ← Nat.add_mul] at word ⊢
    have next : significand * 10 + Decimal.digitValue char < wordLimit := by
      refine Nat.lt_of_le_of_lt (Nat.le_trans (Nat.le_mul_of_pos_right _ ?_) (Nat.le_add_right _ _)) word
      exact Nat.pow_pos (by decide)
    rw [absorb]
    simp only [next, ite_true]
    exact ih (fun other member => digits other (List.mem_cons_of_mem _ member)) _ word

theorem exponentDigits_row {row rest : List Char} (digits : ∀ char ∈ row, isDigit char = true)
    (ends : ∀ char ∈ rest.head?, isDigit char = false) (read : Nat)
    (small : read * 10 ^ row.length + value row < exponentLimit) :
    exponentDigits read (row ++ rest) = (some (read * 10 ^ row.length + value row), rest) := by
  induction row generalizing read with
  | nil =>
    cases rest with
    | nil => simp [exponentDigits, value]
    | cons char rest =>
      have other := ends char rfl
      simp [exponentDigits, value, other]
  | cons char row ih =>
    rw [Decimal.value_cons, List.length_cons, Nat.pow_succ', ← Nat.mul_assoc, ← Nat.add_assoc, ← Nat.add_mul] at small ⊢
    have next : read * 10 + Decimal.digitValue char < exponentLimit := by
      refine Nat.lt_of_le_of_lt (Nat.le_trans (Nat.le_mul_of_pos_right _ ?_) (Nat.le_add_right _ _)) small
      exact Nat.pow_pos (by decide)
    rw [List.cons_append, exponentDigits, if_pos (digits char List.mem_cons_self)]
    simp only [next, ite_true]
    exact ih (fun other member => digits other (List.mem_cons_of_mem _ member)) _ small

section Reading
variable {row rest : List Char} (negative : Bool)

theorem read_append (whole : Row row) (word : value row < wordLimit) (ends : ∀ char ∈ rest.head?, isDigit char = false) :
    read negative (row ++ rest) = afterRow negative (value row) [] rest := by
  obtain ⟨taken, left⟩ := takeWhile_row whole.digits ends
  have absorbed := absorb_row whole.digits 0 (by rwa [Nat.zero_mul, Nat.zero_add])
  rw [Nat.zero_mul, Nat.zero_add] at absorbed
  rw [read_row negative (by rw [taken]; exact whole.filled) (by rw [taken]; exact whole.unled), taken, left, absorbed]

theorem unmarked (ends : Ends rest) : rest.head?.any isExponentMark = false := by
  cases rest with
  | nil => rfl
  | cons char rest => exact (ends char rfl).2.2

theorem read_whole (digits : Row row) (word : value row < wordLimit) (ends : Ends rest) :
    read negative (row ++ rest) = .ok (whole negative (value row), rest) := by
  have pointless : rest.head? ≠ some '.' := fun point => (ends '.' point).2.1 rfl
  rw [read_append negative digits word fun char member => (ends char member).1, afterRow_pointless _ _ _ pointless,
    unmarked ends]
  rfl

/-- How reading goes on behind the digits of a double. -/
theorem afterDigits_ends (significand : Nat) (exponent : Int) (ends : Ends rest) :
    afterDigits negative significand exponent rest = finish negative significand exponent rest := by
  cases rest with
  | nil => rfl
  | cons char rest => simp [afterDigits, (ends char rfl).2.2]

theorem afterDigits_exponent (significand : Nat) (exponent power : Int) (small : power.natAbs < exponentLimit)
    (ends : Ends rest) :
    afterDigits negative significand exponent
        ('e' :: (if power < 0 then '-' else '+') :: (Decimal.digits power.natAbs ++ rest)) =
      finish negative significand (exponent + power) rest := by
  have row := Decimal.row_digits power.natAbs
  have amount := Decimal.value_digits power.natAbs
  have found := exponentDigits_row row.digits (fun char member => (ends char member).1) 0
    (by rwa [Nat.zero_mul, Nat.zero_add, amount])
  rw [Nat.zero_mul, Nat.zero_add, amount] at found
  have signed (down : Bool) : afterSign negative significand exponent down (Decimal.digits power.natAbs ++ rest) =
      finish negative significand (if down then exponent - power.natAbs else exponent + power.natAbs) rest := by
    cases first : Decimal.digits power.natAbs with
    | nil => exact absurd first row.filled
    | cons char others =>
      have digit := row.digits char (by rw [first]; exact List.mem_cons_self)
      rw [first] at found
      rw [List.cons_append] at found ⊢
      simp only [afterSign, digit, found, ite_true]
  have mark : isExponentMark 'e' = true := rfl
  rw [afterDigits, if_pos mark]
  split
  next below =>
    refine (signed true).trans ?_
    congr 1
    simp only [ite_true]
    omega
  next above =>
    refine (signed false).trans ?_
    congr 1
    simp only [Bool.false_eq_true, ite_false]
    omega

theorem fractionPart_row {fraction : List Char} (digits : ∀ char ∈ fraction, isDigit char = true) (filled : fraction ≠ [])
    (significand : Nat) (word : significand * 10 ^ fraction.length + value fraction < wordLimit)
    (ends : ∀ char ∈ rest.head?, isDigit char = false) :
    fractionPart negative significand 0 (fraction ++ rest) =
      afterDigits negative (significand * 10 ^ fraction.length + value fraction) (-fraction.length) rest := by
  obtain ⟨taken, left⟩ := takeWhile_row digits ends
  have some : fraction.isEmpty = false := List.isEmpty_eq_false_iff.2 filled
  simp only [fractionPart, taken, left, some, absorb_row digits significand word]
  simp

/-- Digits, a point and more digits, before the end or an exponent. -/
theorem read_point {fraction : List Char} (whole : Row row) (digits : ∀ char ∈ fraction, isDigit char = true)
    (filled : fraction ≠ []) (word : value (row ++ fraction) < wordLimit) (ends : ∀ char ∈ rest.head?, isDigit char = false) :
    read negative (row ++ '.' :: (fraction ++ rest)) =
      afterDigits negative (value (row ++ fraction)) (-fraction.length) rest := by
  rw [Decimal.value_append] at word ⊢
  have small : value row < wordLimit := by
    refine Nat.lt_of_le_of_lt (Nat.le_trans (Nat.le_mul_of_pos_right _ ?_) (Nat.le_add_right _ _)) word
    exact Nat.pow_pos (by decide)
  rw [read_append negative whole small (by simp; decide)]
  exact fractionPart_row negative digits filled _ word ends

/-- Digits and an exponent, without a point. -/
theorem read_mark (whole : Row row) (word : value row < wordLimit) :
    read negative (row ++ 'e' :: rest) = afterDigits negative (value row) 0 ('e' :: rest) := by
  have ends : ∀ char ∈ ('e' :: rest).head?, isDigit char = false := by
    rintro char ⟨⟩
    decide
  have mark : ('e' :: rest).head?.any isExponentMark = true := by
    rw [List.head?_cons, Option.any_some]
    decide
  rw [read_append negative whole word ends, afterRow_pointless _ _ _ (by simp), mark]
  rw [if_neg (by simp)]
  exact congrArg (afterDigits negative (value row) · ('e' :: rest)) Nat.cast_zero

/-- The significand and the exponent that a positional text carries: a whole number has a zero behind its point. -/
def carriedPositional (significand : Nat) (exponent : Int) : Nat × Int :=
  if 0 ≤ exponent then (significand * 10 ^ (exponent.toNat + 1), -1) else (significand, exponent)

theorem carriedPositional_le {exponent : Int} (digits : ∀ char ∈ row, isDigit char = true) (word : value row ≤ 10 ^ 17)
    (length : exponent + row.length ≤ 16) : (carriedPositional (value row) exponent).1 ≤ 10 ^ 17 := by
  rw [carriedPositional]
  split
  next nonnegative =>
    obtain ⟨count, rfl⟩ := Int.eq_ofNat_of_zero_le nonnegative
    have least : value row * 10 ^ (count + 1) ≤ 10 ^ row.length * 10 ^ (count + 1) :=
      Nat.mul_le_mul_right _ (Nat.le_of_lt (Decimal.value_lt digits))
    rw [← Nat.pow_add] at least
    exact Nat.le_trans least (Nat.pow_le_pow_right (by decide) (by omega))
  next => exact word

theorem row_zeros {count : Nat} (whole : Row row) (led : row = ['0'] → count = 0) : Row (row ++ List.replicate count '0') := by
  refine ⟨?_, by simp [whole.filled], ?_⟩
  · intro char member
    obtain inside | zero := List.mem_append.1 member
    · exact whole.digits char inside
    · rw [(List.mem_replicate.1 zero).2]
      rfl
  · intro next more same
    match row, whole, led with
    | [], whole, _ => exact whole.filled rfl
    | [char], _, led =>
      obtain ⟨rfl, same⟩ := List.cons.inj same
      rw [led rfl] at same
      cases same
    | first :: second :: others, whole, _ =>
      obtain ⟨rfl, _⟩ := List.cons.inj same
      exact whole.unled second others rfl

theorem row_take {count : Nat} (whole : Row row) (some : 0 < count) : Row (row.take count) := by
  refine ⟨fun char member => whole.digits char (List.mem_of_mem_take member), ?_, ?_⟩
  · simp only [ne_eq, List.take_eq_nil_iff, whole.filled, or_false]
    omega
  · intro next more same
    refine whole.unled next (more ++ row.drop count) ?_
    conv_lhs => rw [← List.take_append_drop count row, same]
    rfl

/-- A row with zeros before it, so that one digit stands before the point. -/
theorem padded_spec (digits : Row row) (places : Nat) :
    let padded := List.replicate (places + 1 - row.length) '0' ++ row
    Row (padded.take (padded.length - places)) ∧ (∀ char ∈ padded, isDigit char = true) ∧
      (padded.drop (padded.length - places)).length = places ∧ value padded = value row := by
  intro padded
  have width : padded.length = max (places + 1) row.length := by
    rw [List.length_append, List.length_replicate]
    omega
  refine ⟨?_, ?_, ?_, ?_⟩
  · by_cases short : row.length ≤ places
    · have one : padded.length - places = 1 := by omega
      obtain ⟨more, count⟩ : ∃ more, places + 1 - row.length = more + 1 := ⟨places - row.length, by omega⟩
      have led : padded = '0' :: (List.replicate more '0' ++ row) := by
        simp only [padded, count, List.replicate_succ, List.cons_append]
      rw [one, led]
      exact Decimal.row_zero
    · have none : places + 1 - row.length = 0 := by omega
      have same : padded = row := by simp only [padded, none, List.replicate_zero, List.nil_append]
      rw [same] at width ⊢
      exact row_take digits (by omega)
  · intro char member
    obtain zero | inside := List.mem_append.1 member
    · rw [(List.mem_replicate.1 zero).2]
      rfl
    · exact digits.digits char inside
  · rw [List.length_drop]
    omega
  · rw [Decimal.value_append, Decimal.value_zeros, Nat.zero_mul, Nat.zero_add]

theorem read_padded (digits : Row row) (word : value row < wordLimit) (ends : Ends rest) {places : Nat} (some : 0 < places) :
    let padded := List.replicate (places + 1 - row.length) '0' ++ row
    read negative (padded.take (padded.length - places) ++ '.' :: (padded.drop (padded.length - places) ++ rest)) =
      finish negative (value row) (-places) rest := by
  intro padded
  obtain ⟨head, all, behind, amount⟩ := padded_spec digits places
  have filled : padded.drop (padded.length - places) ≠ [] := by
    intro none
    rw [none, List.length_nil] at behind
    omega
  have whole : value (padded.take (padded.length - places) ++ padded.drop (padded.length - places)) = value row := by
    rw [List.take_append_drop, amount]
  rw [read_point negative head (fun char member => all char (List.mem_of_mem_drop member)) filled (whole ▸ word)
    (fun char member => (ends char member).1), afterDigits_ends negative _ _ ends, whole, behind]

theorem read_zeros (digits : Row row) {count : Nat} (led : row = ['0'] → count = 0) (ends : Ends rest)
    (word : value row * 10 ^ (count + 1) < wordLimit) :
    read negative ((row ++ List.replicate count '0') ++ '.' :: (['0'] ++ rest)) =
      finish negative (value row * 10 ^ (count + 1)) (-1) rest := by
  have amount : value (row ++ List.replicate count '0' ++ ['0']) = value row * 10 ^ (count + 1) := by
    have zero : value ['0'] = 0 := rfl
    rw [Decimal.value_append, Decimal.value_append, Decimal.value_zeros, List.length_replicate, zero, Nat.pow_succ]
    simp only [Nat.add_zero, List.length_singleton, Nat.pow_one, Nat.mul_assoc]
  rw [read_point negative (row_zeros digits led) Decimal.row_zero.digits Decimal.row_zero.filled (amount ▸ word)
    fun char member => (ends char member).1, afterDigits_ends negative _ _ ends, amount]
  rfl

theorem read_positional {exponent : Int} (digits : Row row) (led : row = ['0'] → exponent = 0) (ends : Ends rest)
    (word : value row ≤ 10 ^ 17) (length : exponent + row.length ≤ 16) :
    read negative (Decimal.positional row exponent ++ rest) =
      finish negative (carriedPositional (value row) exponent).1 (carriedPositional (value row) exponent).2 rest := by
  have limit : (10 : Nat) ^ 17 < wordLimit := by decide
  have most := Nat.lt_of_le_of_lt (carriedPositional_le digits.digits word length) limit
  rw [carriedPositional] at most ⊢
  rw [Decimal.positional]
  split
  next nonnegative =>
    rw [if_pos nonnegative] at most
    obtain ⟨count, rfl⟩ := Int.eq_ofNat_of_zero_le nonnegative
    have text : row ++ List.replicate count '0' ++ ['.', '0'] ++ rest =
        (row ++ List.replicate count '0') ++ '.' :: (['0'] ++ rest) := by simp
    simp only [Int.toNat_natCast] at most ⊢
    rw [text]
    exact read_zeros negative digits (fun zero => by have := led zero; omega) ends most
  next below =>
    have read := read_padded negative digits (Nat.lt_of_le_of_lt word limit) ends (show 0 < exponent.natAbs by omega)
    have places : -(exponent.natAbs : Int) = exponent := by omega
    rw [places] at read
    rw [List.append_assoc, List.cons_append]
    exact read

theorem read_scientific {exponent : Int} (digits : Row row) (ends : Ends rest) (word : value row ≤ 10 ^ 17)
    (small : (exponent + row.length - 1).natAbs < exponentLimit) :
    read negative (Decimal.scientific row exponent ++ rest) = finish negative (value row) exponent rest := by
  have limit : (10 : Nat) ^ 17 < wordLimit := by decide
  match row, digits with
  | [], digits => exact absurd rfl digits.filled
  | [first], digits =>
    have text : Decimal.scientific [first] exponent ++ rest = [first] ++ 'e' ::
        (if exponent + [first].length - 1 < 0 then '-' else '+') ::
          (Decimal.digits (exponent + [first].length - 1).natAbs ++ rest) := by
      simp [Decimal.scientific]
    rw [text, read_mark negative digits (by omega), afterDigits_exponent negative _ _ _ small ends]
    congr 1
    simp
  | first :: second :: others, digits =>
    have text : Decimal.scientific (first :: second :: others) exponent ++ rest = [first] ++ '.' :: ((second :: others) ++
        'e' :: (if exponent + (first :: second :: others).length - 1 < 0 then '-' else '+') ::
          (Decimal.digits (exponent + (first :: second :: others).length - 1).natAbs ++ rest)) := by
      simp [Decimal.scientific]
    have ends' : ∀ char ∈ ('e' :: (if exponent + (first :: second :: others).length - 1 < 0 then '-' else '+') ::
        (Decimal.digits (exponent + (first :: second :: others).length - 1).natAbs ++ rest)).head?,
        isDigit char = false := by
      rintro char ⟨⟩
      decide
    have head : Row [first] := row_take digits (show 0 < 1 by decide)
    rw [text, read_point negative head (fun char member => digits.digits char (List.mem_cons_of_mem _ member))
      (List.cons_ne_nil _ _) (by rw [List.singleton_append]; omega) ends', afterDigits_exponent negative _ _ _ small ends]
    simp only [List.singleton_append, List.length_cons]
    congr 1
    push_cast
    omega

end Reading

/-- The significand and the exponent that the text of a magnitude carries. -/
def carried (layout : Decimal.Layout) (code : Nat) : Nat × Int :=
  let (row, exponent) := Decimal.significant code
  let leading := exponent + row.length - 1
  if layout.lowest ≤ leading ∧ leading ≤ layout.highest then carriedPositional (value row) exponent
  else (value row, exponent)

theorem read_magnitude {code : Nat} (finite : code < Binary64.infinityCode) (negative : Bool) {rest : List Char}
    (ends : Ends rest) :
    read negative (doubleLayout.magnitude code ++ rest) =
      finish negative (carried doubleLayout code).1 (carried doubleLayout code).2 rest := by
  obtain ⟨digits, word, range, form⟩ := Decimal.significant_spec finite
  have led : (Decimal.significant code).1 = ['0'] → (Decimal.significant code).2 = 0 := by
    intro zero
    obtain ⟨_, form⟩ | ⟨_, positive, _⟩ := form
    · rw [form]
    · rw [zero] at positive
      exact absurd positive (by decide)
  have limit : exponentLimit = 2147483648 := by decide
  have low : doubleLayout.lowest = -5 := rfl
  have high : doubleLayout.highest = 15 := rfl
  simp only [Decimal.Layout.magnitude, carried, low, high]
  generalize Decimal.significant code = written at *
  split
  next within => exact read_positional negative digits led ends word (by omega)
  next => exact read_scientific negative digits ends word (by omega)

/-- A zero more in the significand is a power of ten less. -/
theorem carried_spec {code : Nat} (inner : 0 < code) (finite : code < Binary64.infinityCode) :
    let written := carried doubleLayout code
    (0 < written.1 ∧ written.1 ≤ 10 ^ 17) ∧ -400 ≤ written.2 ∧
      Decimal.Enclosed code (written.1 * 10 ^ written.2 * Binary64.one) := by
  obtain ⟨digits, word, range, ⟨zero, _⟩ | ⟨_, positive, enclosed⟩⟩ := Decimal.significant_spec finite
  · omega
  · have low : doubleLayout.lowest = -5 := rfl
    have high : doubleLayout.highest = 15 := rfl
    simp only [carried, low, high]
    generalize Decimal.significant code = found at *
    split
    next within =>
      have length : found.2 + found.1.length ≤ 16 := by omega
      have most := carriedPositional_le digits.digits word length
      rw [carriedPositional] at most ⊢
      split
      next nonnegative =>
        rw [if_pos nonnegative] at most
        refine ⟨⟨Nat.mul_pos positive (Nat.pow_pos (by decide)), most⟩, show (-400 : Int) ≤ -1 by decide, ?_⟩
        obtain ⟨count, same⟩ := Int.eq_ofNat_of_zero_le nonnegative
        rw [same, zpow_natCast] at enclosed
        have amount : ((value found.1 * 10 ^ (count + 1) : Nat) : ℚ) * 10 ^ (-1 : Int) = value found.1 * 10 ^ count := by
          push_cast
          rw [pow_succ, zpow_neg_one]
          field_simp
        rw [same, Int.toNat_natCast, amount]
        exact enclosed
      next => exact ⟨⟨positive, word⟩, range.1, enclosed⟩
    next => exact ⟨⟨positive, word⟩, range.1, enclosed⟩

theorem scale?_carried {code : Nat} (finite : code < Binary64.infinityCode) :
    (scale? (carried doubleLayout code).1 (carried doubleLayout code).2).isSome = true := by
  have plain := scale?_significant finite
  simp only [carried]
  split
  · rw [carriedPositional]
    split
    · rfl
    · exact plain
  · exact plain

/-- A written double is read to a double, of the same sign, whatever follows that goes on with no number. -/
theorem read_double {code : Nat} (finite : code < Binary64.infinityCode) (negative : Bool) :
    ∃ x, scale? (carried doubleLayout code).1 (carried doubleLayout code).2 = some x ∧
      ∀ rest, Ends rest →
        read negative (doubleLayout.magnitude code ++ rest) = .ok (.double (signed negative x), rest) := by
  obtain ⟨x, scaled⟩ := Option.isSome_iff_exists.1 (scale?_carried finite)
  refine ⟨x, scaled, fun rest ends => ?_⟩
  rw [read_magnitude finite negative ends, finish, scaled]

end Json.Numeral

end StateAudit
