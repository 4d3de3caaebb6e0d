/-! Double-precision numbers as exact integers. Every finite magnitude is a whole number of
units, one unit being 2^-1074, and the bits below the sign number the magnitudes in
increasing order. Rounding finds the nearest magnitude of a quotient, ties to even. -/

namespace StateAudit

/-- The 64 bits of a double-precision number: sign, 11 bits of exponent, 52 of fraction. -/
structure Binary64 where
  bits : UInt64
deriving DecidableEq

namespace Binary64

def signBit : Nat := Nat.pow 2 63

def binade : Nat := Nat.pow 2 52

/-- The number of the first magnitude past the finite ones. -/
def infinityCode : Nat := 2047 * binade

/-- The value one, in units. -/
def one : Nat := Nat.pow 2 1074

def negative (x : Binary64) : Bool := signBit ≤ x.bits.toNat

/-- The place of the magnitude among all magnitudes. -/
def code (x : Binary64) : Nat := x.bits.toNat % signBit

def isNaN (x : Binary64) : Bool := infinityCode < x.code

def isInfinite (x : Binary64) : Bool := x.code == infinityCode

def isFinite (x : Binary64) : Bool := x.code < infinityCode

/-- The magnitude at a place, in units. Two binades share the smallest spacing; each later
one doubles it. -/
def unitsAt (code : Nat) : Nat :=
  let shift := code / binade - 1
  (code - shift * binade) * Nat.pow 2 shift

def units (x : Binary64) : Nat := unitsAt x.code

/-- The value of a finite number, in units. -/
def signedUnits (x : Binary64) : Int := if x.negative then -(x.units : Int) else x.units

def make (negative : Bool) (code : Nat) : Binary64 :=
  ⟨UInt64.ofNat (if negative then signBit + code else code)⟩

def nan : Binary64 := make false (infinityCode + binade / 2)

def infinity (negative : Bool) : Binary64 := make negative infinityCode

def zero (negative : Bool) : Binary64 := make negative 0

/-- The quotient as a whole number, a half going to the even neighbour. -/
def roundHalfEven (numerator denominator : Nat) : Nat :=
  let quotient := numerator / denominator
  let twice := 2 * (numerator % denominator)
  if twice < denominator then quotient
  else if denominator < twice then quotient + 1
  else quotient + quotient % 2

/-- The magnitude nearest to a quotient of units: 53 significant bits are kept, or all of
them at the smallest spacing, and what rounds past the largest finite magnitude is infinite. -/
def nearestCode (numerator denominator : Nat) : Nat :=
  let shift := (numerator / denominator).log2 - 52
  min infinityCode (shift * binade + roundHalfEven numerator (denominator * Nat.pow 2 shift))

def ofRatio (negative : Bool) (numerator denominator : Nat) : Binary64 :=
  make negative (nearestCode numerator denominator)

def ofNat (value : Nat) : Binary64 := ofRatio false (value * one) 1

def ofInt (value : Int) : Binary64 := ofRatio (value < 0) (value.natAbs * one) 1

end Binary64

end StateAudit
