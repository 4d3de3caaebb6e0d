import StateAudit.Decimal.Shortest
import StateAudit.Proofs.DoubleRounding
import Mathlib.Algebra.Order.Field.Rat
import Mathlib.Data.Nat.Digits.Defs
import Mathlib.Tactic.FieldSimp
import Mathlib.Tactic.Positivity

/-! The digits that a double is written with. They are a decimal between the midpoints to its two
neighbours, so seventeen are always enough, and they begin with no zero that could be left out. -/

namespace StateAudit.Decimal

theorem isDigit_digits {number : Nat} : ∀ char ∈ digits number, isDigit char = true :=
  fun _ member => Nat.isDigit_of_mem_toDigits (by decide) (by decide) member

theorem value_digits (number : Nat) : value (digits number) = number := Nat.ofDigitChars_ten_toDigits

theorem value_append (first second : List Char) :
    value (first ++ second) = value first * 10 ^ second.length + value second := by
  have shift : Nat.ofDigitChars 10 second (value first) = 10 ^ second.length * value first + value second :=
    Nat.ofDigitChars_eq_ofDigitChars_zero
  rw [Nat.mul_comm, ← shift]
  exact Nat.ofDigitChars_append 0

theorem value_zeros (count : Nat) : value (List.replicate count '0') = 0 := by
  induction count with
  | zero => rfl
  | succ count ih =>
    rw [List.replicate_succ', value_append, ih]
    rfl

/-- A row of digits that begins with no zero unless it is one. -/
structure Row (row : List Char) : Prop where
  digits : ∀ char ∈ row, isDigit char = true
  filled : row ≠ []
  unled : ∀ next more, row ≠ '0' :: next :: more

theorem row_zero : Row ['0'] := ⟨List.forall_mem_singleton.2 rfl, List.cons_ne_nil _ _, nofun⟩

theorem row_digits (number : Nat) : Row (digits number) := by
  refine ⟨isDigit_digits, Nat.toDigits_ne_nil, ?_⟩
  induction number using Nat.strongRecOn with
  | ind number ih =>
    intro next more led
    obtain small | large := Nat.lt_or_ge number 10
    · rw [digits, Nat.toDigits_of_lt_base small] at led
      exact absurd led (by simp)
    · have further : digits number = digits (number / 10) ++ [(number % 10).digitChar] :=
        Nat.toDigits_of_base_le (by decide) large
      rw [further] at led
      cases front : digits (number / 10) with
      | nil => exact Nat.toDigits_ne_nil front
      | cons first rest =>
        rw [front, List.cons_append, List.cons.injEq] at led
        obtain ⟨rfl, _⟩ := led
        cases rest with
        | nil =>
          have zero := value_digits (number / 10)
          rw [front] at zero
          have : number / 10 = 0 := zero.symm
          omega
        | cons second rest => exact ih (number / 10) (by omega) second rest front

/-- A row without the zeros at its end. -/
theorem exists_zeros (row : List Char) :
    ∃ count, row = (row.reverse.dropWhile (· == '0')).reverse ++ List.replicate count '0' := by
  refine ⟨(row.reverse.takeWhile (· == '0')).length, ?_⟩
  have zeros : (row.reverse.takeWhile (· == '0')).reverse =
      List.replicate (row.reverse.takeWhile (· == '0')).length '0' := by
    refine List.eq_replicate_iff.2 ⟨List.length_reverse, fun char member => ?_⟩
    simpa using List.all_eq_true.1 List.all_takeWhile char (List.mem_reverse.1 member)
  rw [← zeros, ← List.reverse_append, List.takeWhile_append_dropWhile, List.reverse_reverse]

theorem tenPow_split (exponent : Int) : (10 : ℚ) ^ exponent * 10 ^ (-exponent).toNat = 10 ^ exponent.toNat := by
  rw [← zpow_natCast, ← zpow_natCast, ← zpow_add₀ (by norm_num)]
  congr 1
  omega

/-- A comparison with a power of ten, put without fractions. -/
theorem tenPow_le {exponent : Int} {first second : Nat} :
    Nat.pow 10 exponent.toNat * first ≤ second * Nat.pow 10 (-exponent).toNat ↔ (10 : ℚ) ^ exponent * first ≤ second := by
  have positive : (0 : ℚ) < 10 ^ (-exponent).toNat := by positivity
  rw [← mul_le_mul_iff_of_pos_right positive, mul_right_comm, tenPow_split]
  simp only [Nat.pow_eq]
  exact_mod_cast Iff.rfl

theorem le_tenPow {exponent : Int} {first second : Nat} :
    second * Nat.pow 10 (-exponent).toNat ≤ Nat.pow 10 exponent.toNat * first ↔ (second : ℚ) ≤ 10 ^ exponent * first := by
  have positive : (0 : ℚ) < 10 ^ (-exponent).toNat := by positivity
  rw [← mul_le_mul_iff_of_pos_right positive, mul_right_comm, tenPow_split]
  simp only [Nat.pow_eq]
  exact_mod_cast Iff.rfl

/-- The exponent guessed from a binary length is that of the leading digit or the one below it. -/
def guessFits (length : Nat) : Bool :=
  let guess : Int := ((length : Int) - 1074) * 30103 / 100000
  Nat.ble (Nat.pow 10 guess.toNat * Binary64.one) (Nat.pow 2 length * Nat.pow 10 (-guess).toNat) &&
    Nat.ble (Nat.pow 2 (length + 1) * Nat.pow 10 (-(guess + 2)).toNat) (Nat.pow 10 (guess + 2).toNat * Binary64.one)

theorem all_guessFits : (List.range 2098).all guessFits = true := by decide +kernel

theorem leadingExponent_bounds {units : Nat} (positive : 0 < units) (length : units.log2 < 2098) :
    (10 : ℚ) ^ leadingExponent units * Binary64.one ≤ units ∧
      (units : ℚ) < 10 ^ (leadingExponent units + 1) * Binary64.one := by
  have fits := List.all_eq_true.1 all_guessFits units.log2 (List.mem_range.2 length)
  simp only [guessFits, Bool.and_eq_true, Nat.ble_eq, tenPow_le, le_tenPow] at fits
  have least : ((Nat.pow 2 units.log2 : Nat) : ℚ) ≤ units := by
    exact_mod_cast Nat.log2_self_le (Nat.ne_of_gt positive)
  have greatest : (units : ℚ) < (Nat.pow 2 (units.log2 + 1) : Nat) := by
    exact_mod_cast Nat.lt_log2_self
  rw [leadingExponent]
  simp only [tenPow_le]
  split
  next reached =>
    refine ⟨reached, lt_of_lt_of_le greatest ?_⟩
    rw [add_assoc]
    exact fits.2
  next missed => exact ⟨le_trans fits.1 least, not_le.1 missed⟩

open Binary64 (unitsAt infinityCode binade one)

theorem log2_unitsAt {code : Nat} (finite : code < infinityCode) : (unitsAt code).log2 < 2098 := by
  obtain empty | positive := Nat.eq_zero_or_pos (unitsAt code)
  · rw [empty]
    decide
  · have below (limit : Nat) (last : unitsAt infinityCode = Nat.pow 2 limit) : (unitsAt code).log2 < limit := by
      rw [Nat.log2_lt (Nat.ne_of_gt positive), ← Nat.pow_eq, ← last]
      exact Binary64.unitsAt_strictMono finite
    exact below 2098 (by decide +kernel)

/-- The midpoints around a magnitude are further apart than two steps of seventeen digits. -/
theorem unitsAt_wide {code : Nat} (inner : 0 < code) :
    2 * unitsAt code + 10 ^ 16 * unitsAt (code - 1) < 10 ^ 16 * unitsAt (code + 1) := by
  obtain ⟨shift, row, small, full, place, power⟩ := Binary64.exists_place code
  have next := Binary64.unitsAt_succ code
  rw [power] at next
  have current : unitsAt code = row * 2 ^ shift := by rw [place, Binary64.unitsAt_place (Nat.le_of_lt small) full]
  have previous := Binary64.unitsAt_strictMono (Nat.sub_one_lt_of_lt inner)
  have spacing := Nat.two_pow_pos shift
  rw [Binary64.binade_eq] at small full
  by_cases first : row = binade
  · rw [first, Binary64.binade_eq] at current
    omega
  · rw [Binary64.binade_eq] at first
    have regular : 0 < row ∧ (shift = 0 ∨ binade ≤ row - 1) := by
      rw [Binary64.binade_eq] at place ⊢
      obtain rfl | large := full
      · exact ⟨by omega, .inl rfl⟩
      · exact ⟨by omega, by omega⟩
    have before : unitsAt (code - 1) = (row - 1) * 2 ^ shift := by
      rw [← Binary64.unitsAt_place (by rw [Binary64.binade_eq]; omega) regular.2, place, Nat.add_sub_assoc regular.1]
    have bounded : row * 2 ^ shift < 2 * 4503599627370496 * 2 ^ shift := Nat.mul_lt_mul_of_pos_right small spacing
    have split : (row - 1) * 2 ^ shift + 2 ^ shift = row * 2 ^ shift := by
      rw [← Nat.succ_mul, Nat.succ_eq_add_one, Nat.sub_add_cancel regular.1]
    omega

/-- A decimal between the midpoints around a magnitude; at a midpoint the magnitude is even. -/
structure Enclosed (code : Nat) (amount : ℚ) : Prop where
  above : (unitsAt (code - 1) + unitsAt code : ℚ) < 2 * amount ∨
    (unitsAt (code - 1) + unitsAt code : ℚ) = 2 * amount ∧ code % 2 = 0
  below : 2 * amount < unitsAt code + unitsAt (code + 1) ∨
    2 * amount = unitsAt code + unitsAt (code + 1) ∧ code % 2 = 0

theorem Enclosed.le_midpoint {code top significand exponent : Nat} (below : code < top)
    (enclosed : Enclosed code (significand * 10 ^ exponent * one)) :
    2 * (significand * Nat.pow 10 exponent * one) ≤ unitsAt (top - 1) + unitsAt top := by
  have most : (unitsAt code + unitsAt (code + 1) : ℚ) ≤ unitsAt (top - 1) + unitsAt top := by
    have first := Binary64.unitsAt_strictMono.monotone (Nat.le_sub_one_of_lt below)
    have second := Binary64.unitsAt_strictMono.monotone (Nat.succ_le_of_lt below)
    exact_mod_cast Nat.add_le_add first second
  have least := enclosed.below.elim le_of_lt (fun same => le_of_eq same.1)
  exact_mod_cast le_trans least most

theorem Enclosed.nearestCode_eq {code numerator denominator : Nat} {amount : ℚ} (enclosed : Enclosed code amount)
    (finite : code ≤ infinityCode) (positive : 0 < denominator) (same : amount * denominator = numerator) :
    Binary64.nearestCode numerator denominator = code := by
  have unit : (0 : ℚ) < denominator := by exact_mod_cast positive
  have twice : (2 * numerator : ℚ) = 2 * amount * denominator := by rw [mul_assoc, same]
  refine Binary64.nearestCode_eq_of_between numerator positive finite ?_ ?_
  · refine enclosed.above.imp (fun less => ?_) (fun tie => ⟨?_, tie.2⟩)
    · have := mul_lt_mul_of_pos_right less unit
      rw [← twice] at this
      exact_mod_cast this
    · have := congrArg (· * (denominator : ℚ)) tie.1
      simp only [← twice] at this
      exact_mod_cast this
  · refine enclosed.below.imp (fun less => ?_) (fun tie => ⟨?_, tie.2⟩)
    · have := mul_lt_mul_of_pos_right less unit
      rw [← twice] at this
      exact_mod_cast this
    · have := congrArg (· * (denominator : ℚ)) tie.1
      simp only [← twice] at this
      exact_mod_cast this

namespace Grid
variable {grid : Grid} {unit found : Nat}

theorem of_multiple? (search : grid.multiple? unit = some found) :
    grid.least ≤ found ∧ found ≤ grid.greatest ∧ found ≤ grid.whole / unit * unit + unit := by
  simp only [multiple?] at search
  generalize grid.whole / unit * unit = below at search ⊢
  split at search
  · cases search
  next reads _ =>
    obtain rfl := Option.some.inj search
    simp only [Bool.and_eq_true, decide_eq_true_eq] at reads
    omega
  next _ reads =>
    obtain rfl := Option.some.inj search
    simp only [Bool.and_eq_true, decide_eq_true_eq] at reads
    omega
  next first second =>
    simp only [Bool.and_eq_true, decide_eq_true_eq] at first second
    have either : found = below ∨ found = below + unit := by
      split at search
      · exact .inl (Option.some.inj search).symm
      · split at search
        · exact .inr (Option.some.inj search).symm
        · split at search
          · exact .inl (Option.some.inj search).symm
          · exact .inr (Option.some.inj search).symm
    omega

theorem multiple?_one (reads : grid.least ≤ grid.whole ∧ grid.whole ≤ grid.greatest ∨
    grid.least ≤ grid.whole + 1 ∧ grid.whole + 1 ≤ grid.greatest) : (grid.multiple? 1).isSome = true := by
  simp only [multiple?, Nat.div_one, Nat.mul_one]
  split
  next first second =>
    simp only [Bool.and_eq_false_iff, decide_eq_false_iff_not] at first second
    omega
  · rfl
  · rfl
  · split
    · rfl
    · split <;> rfl

end Grid

/-- The grid around a magnitude, with its steps and its ends as they are before the division. -/
theorem around_bounds {code : Nat} (inner : 0 < code) (finite : code < infinityCode) :
    let grid := Grid.around code
    let finer := Nat.pow 10 (-grid.exponent).toNat
    (0 < grid.step ∧ 0 < finer ∧ (grid.step : ℚ) = 10 ^ grid.exponent * one * finer) ∧
      (grid.step * 10 ^ 16 ≤ unitsAt code * finer ∧ unitsAt code * finer < grid.step * 10 ^ 17) ∧
      (∀ steps, grid.least ≤ steps ↔
        (unitsAt (code - 1) + unitsAt code) * finer + code % 2 ≤ 2 * (steps * grid.step)) ∧
      (∀ steps, steps ≤ grid.greatest ↔
        2 * (steps * grid.step) + code % 2 ≤ (unitsAt code + unitsAt (code + 1)) * finer) ∧
      grid.whole = unitsAt code * finer / grid.step := by
  intro grid finer
  have positive : 0 < unitsAt code := Nat.lt_of_le_of_lt (Nat.zero_le _) (Binary64.unitsAt_strictMono inner)
  obtain ⟨least, greatest⟩ := leadingExponent_bounds positive (log2_unitsAt finite)
  have exponent : leadingExponent (unitsAt code) = grid.exponent + 16 := by
    simp only [grid, Grid.around]
    omega
  have step : grid.step = Nat.pow 10 grid.exponent.toNat * one := rfl
  have unit : 0 < grid.step := Nat.mul_pos (Nat.pow_pos (by decide)) Binary64.one_pos
  have fine : 0 < finer := Nat.pow_pos (by decide)
  have scale (count : Nat) : (10 : ℚ) ^ (grid.exponent + count) * one = 10 ^ grid.exponent * (10 ^ count * one : Nat) := by
    rw [zpow_add₀ (by norm_num), zpow_natCast]
    push_cast
    ring
  refine ⟨⟨unit, fine, ?_⟩, ⟨?_, ?_⟩, ?_, ?_, rfl⟩
  · rw [step, mul_right_comm]
    simp only [finer, Nat.pow_eq]
    push_cast
    rw [tenPow_split]
  · rw [exponent, show (16 : Int) = (16 : Nat) from rfl, scale, ← tenPow_le] at least
    rw [step, Nat.mul_assoc, Nat.mul_comm one]
    exact least
  · rw [exponent, add_assoc, show (16 + 1 : Int) = (17 : Nat) from rfl, scale, ← not_le, ← tenPow_le, not_le] at greatest
    rw [step, Nat.mul_assoc, Nat.mul_comm one]
    exact greatest
  · intro steps
    have below : grid.least =
        ((unitsAt (code - 1) + unitsAt code) * finer + code % 2 + 2 * grid.step - 1) / (2 * grid.step) := rfl
    rw [below, Nat.div_le_iff_le_mul_add_pred (by omega), Nat.mul_assoc 2, Nat.mul_comm grid.step]
    omega
  · intro steps
    have above : grid.greatest = ((unitsAt code + unitsAt (code + 1)) * finer - code % 2) / (2 * grid.step) := rfl
    have full : 0 < (unitsAt code + unitsAt (code + 1)) * finer := Nat.mul_pos (by omega) fine
    rw [above, Nat.le_div_iff_mul_le (by omega), Nat.mul_left_comm]
    omega

/-- Seventeen digits are enough. -/
theorem multiple?_around {code : Nat} (inner : 0 < code) (finite : code < infinityCode) :
    ((Grid.around code).multiple? 1).isSome = true := by
  obtain ⟨⟨unit, fine, _⟩, ⟨coarse, _⟩, least, greatest, whole⟩ := around_bounds inner finite
  have wide := Nat.mul_lt_mul_of_pos_right (unitsAt_wide inner) fine
  have below := Nat.mul_lt_mul_of_pos_right (Binary64.unitsAt_strictMono (Nat.sub_one_lt_of_lt inner)) fine
  have above := Nat.mul_lt_mul_of_pos_right (Binary64.unitsAt_strictMono (Nat.lt_add_one code)) fine
  have parity := Nat.mod_lt code (show 0 < 2 by decide)
  refine Grid.multiple?_one ?_
  simp only [least, greatest]
  generalize Grid.around code = grid at *
  have split := Nat.div_add_mod (unitsAt code * Nat.pow 10 (-grid.exponent).toNat) grid.step
  have bounded := Nat.mod_lt (unitsAt code * Nat.pow 10 (-grid.exponent).toNat) unit
  rw [← whole, Nat.mul_comm] at split
  simp only [Nat.add_mul, Nat.mul_assoc, Nat.one_mul] at *
  generalize Nat.pow 10 (-grid.exponent).toNat = finer at *
  omega

theorem exponent_around {code : Nat} (finite : code < infinityCode) :
    -340 ≤ (Grid.around code).exponent ∧ (Grid.around code).exponent ≤ 293 := by
  have length := log2_unitsAt finite
  have form : (Grid.around code).exponent = leadingExponent (unitsAt code) - 16 := rfl
  rw [form, leadingExponent]
  split
  · omega
  · omega

/-- A comparison that is strict for odd magnitudes, freed of what both sides are multiplied with. -/
theorem less_or_even {first second scale : ℚ} {code : Nat} (positive : 0 < scale)
    (le : first * scale + (code % 2 : Nat) ≤ second * scale) : first < second ∨ first = second ∧ code % 2 = 0 := by
  obtain even | odd := Nat.mod_two_eq_zero_or_one code
  · rw [even, Nat.cast_zero, add_zero] at le
    exact (lt_or_eq_of_le (le_of_mul_le_mul_right le positive)).imp_right fun same => ⟨same, even⟩
  · rw [odd, Nat.cast_one] at le
    exact .inl (lt_of_mul_lt_mul_right (by linarith) positive.le)

/-- The decimal that is found: positive, of seventeen digits or the power of ten after them, and enclosed. -/
theorem shortest_enclosed {code : Nat} (inner : 0 < code) (finite : code < infinityCode) :
    let found := shortest code
    0 < found.digits ∧ found.digits ≤ 10 ^ 17 ∧ Enclosed code (found.digits * 10 ^ found.exponent * one) := by
  intro found
  obtain ⟨⟨unit, fine, step⟩, ⟨_, bounded⟩, least, greatest, whole⟩ := around_bounds inner finite
  obtain ⟨steps, search⟩ : ∃ steps, (List.range 17).findSome?
      (fun more => (Grid.around code).multiple? (Nat.pow 10 (16 - more))) = some steps := by
    refine Option.isSome_iff_exists.1 (List.findSome?_isSome_iff.2 ⟨16, List.mem_range.2 (by decide), ?_⟩)
    exact multiple?_around inner finite
  have digits : found.digits = steps := by simp only [found, shortest, search, Option.getD_some]
  have exponent : found.exponent = (Grid.around code).exponent := rfl
  rw [digits, exponent]
  obtain ⟨more, member, reads⟩ := List.exists_of_findSome?_eq_some search
  obtain ⟨first, last, limit⟩ := Grid.of_multiple? reads
  rw [least] at first
  rw [greatest] at last
  generalize Grid.around code = grid at *
  generalize same : Nat.pow 10 (-grid.exponent).toNat = finer at *
  have value : ((steps * grid.step : Nat) : ℚ) = steps * 10 ^ grid.exponent * one * finer := by
    push_cast
    rw [step]
    ring
  have positive : (0 : ℚ) < finer := by exact_mod_cast fine
  refine ⟨?_, ?_, ?_, ?_⟩
  · have filled : 0 < unitsAt code * finer :=
      Nat.mul_pos (Nat.lt_of_le_of_lt (Nat.zero_le _) (Binary64.unitsAt_strictMono inner)) fine
    rw [Nat.add_mul] at first
    exact Nat.pos_of_mul_pos_right (show 0 < steps * grid.step by omega)
  · have places : 10 ^ (more + 1) * Nat.pow 10 (16 - more) = 10 ^ 17 := by
      have := List.mem_range.1 member
      rw [Nat.pow_eq, ← Nat.pow_add, show more + 1 + (16 - more) = 17 by omega]
    have small : grid.whole < Nat.pow 10 (16 - more) * 10 ^ (more + 1) := by
      rw [Nat.mul_comm, places, whole]
      exact Nat.div_lt_of_lt_mul bounded
    have rounded := Nat.mul_le_mul_right (Nat.pow 10 (16 - more)) (Nat.div_lt_of_lt_mul small)
    rw [Nat.succ_eq_add_one, Nat.succ_mul, places] at rounded
    exact Nat.le_trans limit rounded
  · refine less_or_even positive ?_
    rw [mul_assoc, ← value]
    exact_mod_cast first
  · refine less_or_even positive ?_
    rw [mul_assoc, ← value]
    exact_mod_cast last

/-- What a magnitude is written with: a row of digits and the exponent of the last one. -/
theorem significant_spec {code : Nat} (finite : code < infinityCode) :
    let written := significant code
    Row written.1 ∧ value written.1 ≤ 10 ^ 17 ∧ (-400 ≤ written.2 ∧ written.2 + written.1.length ≤ 400) ∧
      (code = 0 ∧ written = (['0'], 0) ∨
        0 < code ∧ 0 < value written.1 ∧ Enclosed code (value written.1 * 10 ^ written.2 * one)) := by
  intro written
  obtain rfl | inner := Nat.eq_zero_or_pos code
  · exact ⟨row_zero, by decide, by decide, .inl ⟨rfl, rfl⟩⟩
  · obtain ⟨positive, limit, enclosed⟩ := shortest_enclosed inner finite
    have form : written = ((digits (shortest code).digits).reverse.dropWhile (· == '0') |>.reverse,
        (shortest code).exponent + ((digits (shortest code).digits).length -
          ((digits (shortest code).digits).reverse.dropWhile (· == '0')).reverse.length : Nat)) := by
      simp only [written, significant, if_neg (Nat.ne_of_gt inner)]
    have exponent : (shortest code).exponent = (Grid.around code).exponent := rfl
    have range := exponent_around finite
    have length : (digits (shortest code).digits).length ≤ 18 := by
      rw [digits, Nat.length_toDigits_le_iff (by decide) (by decide)]
      omega
    rw [form]
    generalize shortest code = found at *
    obtain ⟨count, zeros⟩ := exists_zeros (digits found.digits)
    have whole := row_digits found.digits
    have amount := value_digits found.digits
    generalize ((digits found.digits).reverse.dropWhile (· == '0')).reverse = kept at *
    generalize digits found.digits = row at *
    subst zeros
    rw [value_append, value_zeros, List.length_replicate, Nat.add_zero] at amount
    have some : 0 < value kept := Nat.pos_of_mul_pos_right (amount ▸ positive)
    have power : 0 < 10 ^ count := Nat.pow_pos (by decide)
    refine ⟨⟨fun char member => whole.digits char (List.mem_append_left _ member), ?_, ?_⟩, ?_, ?_, .inr ⟨inner, some, ?_⟩⟩
    · rintro rfl
      exact absurd some (by decide)
    · intro next more led
      exact whole.unled next (more ++ List.replicate count '0') (congrArg (· ++ _) led)
    · exact Nat.le_trans (Nat.le_mul_of_pos_right _ power) (amount ▸ limit)
    · simp only [List.length_append, Nat.add_sub_cancel_left, List.length_replicate] at length ⊢
      omega
    · rw [List.length_append, Nat.add_sub_cancel_left, List.length_replicate, zpow_add₀ (by norm_num), zpow_natCast]
      rw [← amount] at enclosed
      push_cast at enclosed
      rw [mul_right_comm (value kept : ℚ)] at enclosed
      rwa [← mul_assoc]

end StateAudit.Decimal
