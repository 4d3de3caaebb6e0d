/-! Decimal numerals. -/

namespace StateAudit.Decimal

def digits (value : Nat) : List Char := Nat.toDigits 10 value

def isDigit (char : Char) : Bool := '0' ≤ char && char ≤ '9'

def digitValue (char : Char) : Nat := char.toNat - 48

def value (row : List Char) : Nat := row.foldl (fun read char => 10 * read + digitValue char) 0

def signed (value : Int) : List Char :=
  if value < 0 then '-' :: digits value.natAbs else digits value.natAbs

end StateAudit.Decimal
