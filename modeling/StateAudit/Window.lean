/-! A window over a sequence: the newest elements, at most as many as its capacity. -/

namespace StateAudit

/-- Both ends are at hand: one list begins with the oldest element, the other with the newest. -/
structure Window (α : Type) where
  older : List α := []
  newer : List α := []
  size : Nat := 0
  size_eq : size = older.length + newer.length := by rfl

namespace Window

def toList (window : Window α) : List α := window.older ++ window.newer.reverse

def add (window : Window α) (element : α) : Window α :=
  { older := window.older, newer := element :: window.newer, size := window.size + 1
    size_eq := by simp [window.size_eq, Nat.add_assoc] }

def dropOldest : Window α → Window α
  | ⟨_ :: older, newer, size, size_eq⟩ => ⟨older, newer, size - 1, by simp at size_eq; omega⟩
  | ⟨[], newer, size, size_eq⟩ => ⟨newer.reverse.tail, [], size - 1, by simp at size_eq ⊢; omega⟩

/-- Adds an element to a full window in the place of the oldest one. -/
def push (capacity : Nat) (window : Window α) (element : α) : Window α :=
  if capacity = 0 then window
  else (if window.size = capacity then window.dropOldest else window).add element

theorem length_toList (window : Window α) : window.toList.length = window.size := by
  simp [toList, window.size_eq]

theorem toList_add (window : Window α) (element : α) : (window.add element).toList = window.toList ++ [element] := by
  simp [toList, add]

theorem toList_dropOldest (window : Window α) : window.dropOldest.toList = window.toList.tail := by
  obtain ⟨older, newer, size, size_eq⟩ := window
  cases older <;> simp [toList, dropOldest]

end Window

end StateAudit
