import StateAudit.Binary64.Basic
import StateAudit.Decimal.Basic

/-! Numbers with a fixed count of decimal places: the exact value, rounded once, a half
going to the even neighbour. The sign is kept even where every digit is zero. -/

namespace StateAudit.Decimal

/-- A whole number with a point before its last `places` digits. -/
def point (places value : Nat) : List Char :=
  let whole := digits (value / Nat.pow 10 places)
  if places = 0 then whole
  else
    let fraction := digits (value % Nat.pow 10 places)
    whole ++ '.' :: List.replicate (places - fraction.length) '0' ++ fraction

def fixed (places : Nat) (x : Binary64) : String :=
  if x.isNaN then "NaN"
  else
    let magnitude :=
      if x.isInfinite then "inf"
      else String.ofList (point places (Binary64.roundHalfEven (x.units * Nat.pow 10 places) Binary64.one))
    if x.negative then "-" ++ magnitude else magnitude

end StateAudit.Decimal
