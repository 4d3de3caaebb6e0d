import StateAudit.Binary64.Arithmetic

/-! Rates in percent. -/

namespace StateAudit

/-- Part of a total in percent; zero of nothing. -/
def percentage (part total : Nat) : Binary64 :=
  if total = 0 then Binary64.zero false
  else Binary64.ofNat part / Binary64.ofNat total * Binary64.ofNat 100

end StateAudit
