import Mathlib.Data.List.DropRight
import Mathlib.Data.List.Induction
import StateAudit.Window

/-! What a window holds after a run: the last elements that were pushed, as many as it has room for. -/

namespace StateAudit.Window

theorem toList_push {capacity : Nat} {window : Window α} {elements : List α}
    (held : window.toList = elements.rtake capacity) (element : α) :
    (window.push capacity element).toList = (elements ++ [element]).rtake capacity := by
  cases capacity with
  | zero => rw [push, if_pos rfl, held, List.rtake_zero, List.rtake_zero]
  | succ room =>
    have size : window.size = min elements.length (room + 1) := by
      rw [← length_toList, held, List.rtake, List.length_drop]
      omega
    rw [push, if_neg (Nat.succ_ne_zero room), toList_add, List.rtake_concat_succ]
    congr 1
    split
    next full =>
      rw [toList_dropOldest, held, List.rtake, List.rtake, List.tail_drop]
      congr 1
      omega
    next spare =>
      rw [held, List.rtake, List.rtake]
      congr 1
      omega

theorem toList_foldl_push (capacity : Nat) (elements : List α) :
    (elements.foldl (push capacity) {}).toList = elements.rtake capacity := by
  induction elements using List.reverseRecOn with
  | nil => exact (List.rtake_nil capacity).symm
  | append_singleton earlier element ih => rw [List.foldl_append, List.foldl_cons, List.foldl_nil, toList_push ih]

/-- A window with less room holds the newest part of what one with more room holds. -/
theorem suffix_foldl_push {capacity more : Nat} (smaller : capacity ≤ more) (elements : List α) :
    (elements.foldl (push capacity) {}).toList <:+ (elements.foldl (push more) {}).toList := by
  rw [toList_foldl_push, toList_foldl_push, List.rtake, List.rtake]
  apply List.drop_suffix_drop_left
  exact Nat.sub_le_sub_left smaller elements.length

end StateAudit.Window
