import StateAudit.Dictionary

/-! Counts of texts in the order of their first occurrence. An index leads from each text to the
slot of its entry, so that counting does not search the entries. -/

namespace StateAudit

structure FrequencyTable where
  index : Dictionary Nat := []
  entries : Array (String × Nat) := #[]

namespace FrequencyTable

def countUp (entry : String × Nat) : String × Nat := (entry.1, entry.2 + 1)

def slot? (table : FrequencyTable) (value : String) : Option Nat := Dictionary.get? table.index value

def add (table : FrequencyTable) (value : String) : FrequencyTable :=
  match table.slot? value with
  | some slot => { table with entries := table.entries.modify slot countUp }
  | none =>
    { index := Dictionary.insert value table.entries.size table.index
      entries := table.entries.push (value, 1) }

def count (table : FrequencyTable) (value : String) : Nat :=
  match table.slot? value with
  | some slot => ((table.entries[slot]?).map (·.2)).getD 0
  | none => 0

def size (table : FrequencyTable) : Nat := table.entries.size

def isEmpty (table : FrequencyTable) : Bool := table.entries.isEmpty

/-- The entries by decreasing count; of equal counts the first seen comes first. -/
def ranked (table : FrequencyTable) : List (String × Nat) :=
  table.entries.toList.mergeSort fun first second => second.2 ≤ first.2

def mostCommon (table : FrequencyTable) (limit : Nat) : List (String × Nat) := table.ranked.take limit

end FrequencyTable

end StateAudit
