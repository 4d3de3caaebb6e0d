import StateAudit.Binary64.Arithmetic
import StateAudit.Binary64.Order

/-! Samples of measurements and their summary figures. Percentiles take an element by
nearest rank: of `n` elements in total order, the one at `floor (n * fraction)`, but at most
the last. -/

namespace StateAudit

def indexLimit : Nat := Nat.pow 2 64 - 1

def nearestRankIndex (count : Nat) (fraction : Binary64) : Nat :=
  min ((Binary64.ofNat count * fraction).floorWithin indexLimit) (count - 1)

def sortTotal (values : List Binary64) : List Binary64 := values.mergeSort Binary64.totalLe

def percentileOfSorted (sorted : List Binary64) (fraction : Binary64) : Binary64 :=
  if sorted.isEmpty then Binary64.zero false
  else sorted.getD (nearestRankIndex sorted.length fraction) (Binary64.zero false)

/-- The nearest-rank percentile; zero of nothing. -/
def percentile (values : List Binary64) (fraction : Binary64) : Binary64 :=
  percentileOfSorted (sortTotal values) fraction

/-- All zero for an empty sample. -/
structure SampleSummary where
  count : Nat := 0
  min : Binary64 := Binary64.zero false
  max : Binary64 := Binary64.zero false
  avg : Binary64 := Binary64.zero false
deriving DecidableEq

structure LatencySummary extends SampleSummary where
  p95 : Binary64 := Binary64.zero false
  p99 : Binary64 := Binary64.zero false
deriving DecidableEq

structure Sample where
  values : Array Binary64 := #[]

namespace Sample

def push (sample : Sample) (value : Binary64) : Sample := { values := sample.values.push value }

def push? (sample : Sample) : Option Binary64 → Sample
  | none => sample
  | some value => sample.push value

def size (sample : Sample) : Nat := sample.values.size

/-- The sum in order, from negative zero, which changes no value. -/
def sum (sample : Sample) : Binary64 := sample.values.foldl (· + ·) (Binary64.zero true)

def summary (sample : Sample) : SampleSummary :=
  if sample.values.isEmpty then {}
  else
    { count := sample.size
      min := sample.values.foldl Binary64.least (Binary64.infinity false)
      max := sample.values.foldl Binary64.greatest (Binary64.infinity true)
      avg := sample.sum / Binary64.ofNat sample.size }

/-- 0.95 to the nearest double. -/
def ninetyFive : Binary64 := Binary64.ofRatio false (95 * Binary64.one) 100

def ninetyNine : Binary64 := Binary64.ofRatio false (99 * Binary64.one) 100

def latencySummary (sample : Sample) : LatencySummary :=
  let sorted := sortTotal sample.values.toList
  { sample.summary with
    p95 := percentileOfSorted sorted ninetyFive
    p99 := percentileOfSorted sorted ninetyNine }

def percentile (sample : Sample) (fraction : Binary64) : Binary64 :=
  StateAudit.percentile sample.values.toList fraction

end Sample

end StateAudit
