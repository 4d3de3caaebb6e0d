import StateAudit.Binary64.Basic

/-! Arithmetic: the exact result of an operation, rounded once. -/

namespace StateAudit.Binary64

def neg (x : Binary64) : Binary64 := make (!x.negative) x.code

def add (x y : Binary64) : Binary64 :=
  if x.isNaN || y.isNaN then nan
  else if x.isInfinite then (if y.isInfinite && x.negative != y.negative then nan else x)
  else if y.isInfinite then y
  else
    let sum := x.signedUnits + y.signedUnits
    if sum = 0 then zero (x.negative && y.negative)
    else ofRatio (sum < 0) sum.natAbs 1

def mul (x y : Binary64) : Binary64 :=
  let negative := x.negative != y.negative
  if x.isNaN || y.isNaN then nan
  else if x.isInfinite || y.isInfinite then
    if x.code == 0 || y.code == 0 then nan else infinity negative
  else ofRatio negative (x.units * y.units) one

def div (x y : Binary64) : Binary64 :=
  let negative := x.negative != y.negative
  if x.isNaN || y.isNaN then nan
  else if x.isInfinite then (if y.isInfinite then nan else infinity negative)
  else if y.isInfinite then zero negative
  else if y.code == 0 then (if x.code == 0 then nan else infinity negative)
  else ofRatio negative (x.units * one) y.units

instance : Neg Binary64 := ⟨neg⟩
instance : Add Binary64 := ⟨add⟩
instance : Mul Binary64 := ⟨mul⟩
instance : Div Binary64 := ⟨div⟩

/-- The largest whole number at or below a number, kept within `0` and `limit`; `0` for NaN. -/
def floorWithin (limit : Nat) (x : Binary64) : Nat :=
  if x.isNaN || x.negative then 0
  else if x.isInfinite then limit
  else min limit (x.units / one)

end StateAudit.Binary64
