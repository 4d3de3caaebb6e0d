import StateAudit.Binary64.Basic
import StateAudit.Decimal.Basic

/-! The double nearest to a decimal. -/

namespace StateAudit.Decimal

/-- `significand * 10 ^ exponent`, rounded once. Far outside the range of doubles only the
side counts. -/
def nearest (negative : Bool) (significand : Nat) (exponent : Int) : Binary64 :=
  let leading := exponent + (digits significand).length
  if significand = 0 ∨ leading < -400 then Binary64.zero negative
  else if 400 < leading then Binary64.infinity negative
  else
    Binary64.ofRatio negative (significand * Nat.pow 10 exponent.toNat * Binary64.one) (Nat.pow 10 (-exponent).toNat)

/-- More digits than it takes to write any finite double, or any point halfway between two. -/
def digitLimit : Nat := 800

/-- The double nearest to a row of digits times a power of ten. Past the limit digits count
only by whether one of them is not zero. -/
def nearestOfDigits (negative : Bool) (row : List Char) (exponent : Int) : Binary64 :=
  let row := row.dropWhile (· == '0')
  let kept := value (row.take digitLimit)
  let dropped := row.drop digitLimit
  if dropped.all (· == '0') then nearest negative kept (exponent + dropped.length)
  else nearest negative (10 * kept + 1) (exponent + dropped.length - 1)

end StateAudit.Decimal
