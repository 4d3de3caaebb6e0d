import StateAudit.Binary64.Basic

/-! Two orders. Comparison by value puts both zeros together and NaN nowhere; the total order
ranks every bit pattern, negative ones first and downwards. -/

namespace StateAudit.Binary64

/-- The value of a number that is not NaN, up to an increasing map. -/
def rank (x : Binary64) : Int := if x.negative then -(x.code : Int) else x.code

def less (x y : Binary64) : Bool := !x.isNaN && !y.isNaN && x.rank < y.rank

/-- The smaller number, the first of equal ones, the other one of NaN. -/
def least (x y : Binary64) : Binary64 := if x.isNaN || less y x then y else x

def greatest (x y : Binary64) : Binary64 := if x.isNaN || less x y then y else x

def totalRank (x : Binary64) : Int := if x.negative then -(x.code : Int) - 1 else x.code

def totalLe (x y : Binary64) : Bool := x.totalRank ≤ y.totalRank

end StateAudit.Binary64
