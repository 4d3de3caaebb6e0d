import StateAudit.Binary64.Basic
import StateAudit.Decimal.Basic

/-! The fewest digits that read back. A decimal reads back as a number when it lies between
the midpoints to the two neighbours; an end counts when the number is the even one. Of the
decimals with the fewest digits the nearest is taken, the even one of two. -/

namespace StateAudit.Decimal

structure Scientific where
  digits : Nat
  exponent : Int

/-- The exponent of the leading digit of a positive magnitude in units. The binary length
gives it, or the number below it. -/
def leadingExponent (units : Nat) : Int :=
  let guess : Int := ((units.log2 : Int) - 1074) * 30103 / 100000
  let next := guess + 1
  if Nat.pow 10 next.toNat * Binary64.one ≤ units * Nat.pow 10 (-next).toNat then next else guess

/-- The decimals of seventeen digits around a magnitude, each a number of steps of
`10 ^ exponent`: those from `least` to `greatest` read back, and `whole` is the last one that
is not above the magnitude. -/
structure Grid where
  exponent : Int
  /-- The magnitude, to the scale of `step`. -/
  value : Nat
  step : Nat
  whole : Nat
  least : Nat
  greatest : Nat

def Grid.around (code : Nat) : Grid :=
  let units := Binary64.unitsAt code
  let exponent := leadingExponent units - 16
  let finer := Nat.pow 10 (-exponent).toNat
  let step := Nat.pow 10 exponent.toNat * Binary64.one
  let value := units * finer
  let lower := (Binary64.unitsAt (code - 1) + units) * finer + code % 2
  let upper := (units + Binary64.unitsAt (code + 1)) * finer - code % 2
  { exponent, value, step, whole := value / step
    least := (lower + 2 * step - 1) / (2 * step), greatest := upper / (2 * step) }

/-- The nearest number of steps that reads back and is a multiple of `unit`. -/
def Grid.multiple? (grid : Grid) (unit : Nat) : Option Nat :=
  let below := grid.whole / unit * unit
  let above := below + unit
  let readsBack (steps : Nat) : Bool := grid.least ≤ steps && steps ≤ grid.greatest
  match readsBack below, readsBack above with
  | false, false => none
  | true, false => some below
  | false, true => some above
  | true, true =>
    let middle := (below + above) * grid.step
    if 2 * grid.value < middle then some below
    else if middle < 2 * grid.value then some above
    else some (if grid.whole / unit % 2 = 0 then below else above)

/-- Seventeen digits are always enough. -/
def shortest (code : Nat) : Scientific :=
  let grid := Grid.around code
  let found := (List.range 17).findSome? fun more => grid.multiple? (Nat.pow 10 (16 - more))
  ⟨found.getD 0, grid.exponent⟩

/-- Whole digits, a point, and at least one digit after it. -/
def positional (row : List Char) (exponent : Int) : List Char :=
  if 0 ≤ exponent then row ++ List.replicate exponent.toNat '0' ++ ['.', '0']
  else
    let places := exponent.natAbs
    let padded := List.replicate (places + 1 - row.length) '0' ++ row
    padded.take (padded.length - places) ++ '.' :: padded.drop (padded.length - places)

/-- One digit, a point before any others, and the exponent with its sign. -/
def scientific (row : List Char) (exponent : Int) : List Char :=
  let leading := exponent + row.length - 1
  row.take 1 ++ (if row.length = 1 then [] else '.' :: row.drop 1) ++
    'e' :: (if leading < 0 then '-' else '+') :: digits leading.natAbs

/-- The digits of a magnitude with no zero at their end, and the exponent of the last one. -/
def significant (code : Nat) : List Char × Int :=
  if code = 0 then (['0'], 0)
  else
    let found := shortest code
    let row := digits found.digits
    let kept := (row.reverse.dropWhile (· == '0')).reverse
    (kept, found.exponent + (row.length - kept.length : Nat))

/-- Positional for leading exponents from `lowest` to `highest`, scientific for the others. -/
structure Layout where
  lowest : Int
  highest : Int

def Layout.magnitude (layout : Layout) (code : Nat) : List Char :=
  let (row, exponent) := significant code
  let leading := exponent + row.length - 1
  if layout.lowest ≤ leading ∧ leading ≤ layout.highest then positional row exponent
  else scientific row exponent

def Layout.print (layout : Layout) (x : Binary64) : List Char :=
  if x.negative then '-' :: layout.magnitude x.code else layout.magnitude x.code

/-- Every digit in its place; NaN has no sign. -/
def plain (x : Binary64) : String :=
  if x.isNaN then "NaN"
  else if x.isInfinite then (if x.negative then "-inf" else "inf")
  else
    let (row, exponent) := significant x.code
    String.ofList ((if x.negative then ['-'] else []) ++ positional row exponent)

end StateAudit.Decimal
