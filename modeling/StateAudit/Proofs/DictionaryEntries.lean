import StateAudit.Dictionary
import Mathlib.Data.String.Basic

/-! What a dictionary holds after an insertion, and which texts a set of labels has. Looking up
does not depend on the order of the entries, but the order is kept: a set of labels has one form. -/

namespace StateAudit

namespace Dictionary

theorem get?_cons (key other : String) (value : α) (rest : Dictionary α) :
    get? ((other, value) :: rest) key = if key = other then some value else get? rest key := by
  rw [get?, List.lookup_cons]
  by_cases same : key = other
  · simp [same]
  · simp [beq_eq_false_iff_ne.mpr same, same, get?]

theorem get?_insert (key other : String) (value : α) (entries : Dictionary α) :
    get? (insert key value entries) other = if other = key then some value else get? entries other := by
  induction entries with
  | nil => rw [insert, get?_cons]
  | cons entry rest ih =>
    obtain ⟨head, held⟩ := entry
    rw [insert]
    split
    · rw [get?_cons]
    · split
      next same =>
        subst same
        rw [get?_cons, get?_cons]
        split <;> rfl
      next different =>
        rw [get?_cons, get?_cons, ih]
        by_cases first : other = head
        · have later : other ≠ key := fun same => different (same.symm.trans first)
          simp [first, show head ≠ key from first ▸ later]
        · simp [first]

theorem get?_filter (keep : String → Bool) (entries : Dictionary α) (key : String) :
    get? (entries.filter (keep ·.1)) key = if keep key then get? entries key else none := by
  induction entries with
  | nil => simp [get?]
  | cons entry rest ih =>
    obtain ⟨head, held⟩ := entry
    rw [List.filter_cons]
    by_cases first : key = head
    · subst first
      cases kept : keep key <;> simp [get?_cons, ih, kept]
    · cases keep head <;> simp [get?_cons, ih, first]

/-- Pairs by strictly increasing key. -/
def Sorted (entries : Dictionary α) : Prop := (entries.map Prod.fst).Pairwise (· < ·)

theorem sorted_nil : Sorted ([] : Dictionary α) := .nil

theorem mem_insert {key : String} {value : α} {entries : Dictionary α} {entry : String × α}
    (member : entry ∈ insert key value entries) : entry = (key, value) ∨ entry ∈ entries := by
  induction entries with
  | nil => exact .inl (List.mem_singleton.mp member)
  | cons head rest ih =>
    obtain ⟨other, held⟩ := head
    rw [insert] at member
    split at member
    · exact List.mem_cons.mp member
    · split at member
      · exact (List.mem_cons.mp member).imp_right (List.mem_cons_of_mem _)
      · obtain rfl | later := List.mem_cons.mp member
        · exact .inr List.mem_cons_self
        · exact (ih later).imp_right (List.mem_cons_of_mem _)

theorem sorted_cons {key : String} {value : α} {entries : Dictionary α} :
    Sorted ((key, value) :: entries) ↔ (∀ entry ∈ entries, key < entry.1) ∧ Sorted entries := by
  simp only [Sorted, List.map_cons, List.pairwise_cons, List.forall_mem_map]

theorem sorted_insert (key : String) (value : α) {entries : Dictionary α} (sorted : Sorted entries) :
    Sorted (insert key value entries) := by
  induction entries with
  | nil => exact sorted_cons.mpr ⟨List.forall_mem_nil _, sorted⟩
  | cons head rest ih =>
    obtain ⟨other, held⟩ := head
    obtain ⟨first, later⟩ := sorted_cons.mp sorted
    rw [insert]
    split
    next before =>
      refine sorted_cons.mpr ⟨?_, sorted⟩
      intro entry member
      obtain rfl | member := List.mem_cons.mp member
      · exact before
      · exact lt_trans before (first entry member)
    next notBefore =>
      split
      next same =>
        subst same
        exact sorted_cons.mpr ⟨first, later⟩
      next differs =>
        refine sorted_cons.mpr ⟨?_, ih later⟩
        intro entry member
        obtain rfl | member := mem_insert member
        · exact lt_of_le_of_ne (not_lt.mp notBefore) (Ne.symm differs)
        · exact first entry member

theorem mem_iff_get? {key : String} {value : α} {entries : Dictionary α} (sorted : Sorted entries) :
    (key, value) ∈ entries ↔ get? entries key = some value := by
  induction entries with
  | nil => simp [get?]
  | cons head rest ih =>
    obtain ⟨other, held⟩ := head
    obtain ⟨first, later⟩ := sorted_cons.mp sorted
    rw [List.mem_cons, get?_cons]
    split
    next same =>
      subst same
      have absent : (key, value) ∉ rest := fun member => lt_irrefl key (first (key, value) member)
      simp [absent, eq_comm]
    next differs => simp [differs, ih later]

/-- A key behind all others is put at the end. -/
theorem insert_last {key : String} {value : α} {entries : Dictionary α} (last : ∀ entry ∈ entries, entry.1 < key) :
    insert key value entries = entries ++ [(key, value)] := by
  induction entries with
  | nil => rfl
  | cons head rest ih =>
    obtain ⟨other, held⟩ := head
    have before := last (other, held) List.mem_cons_self
    rw [insert, if_neg (lt_asymm before), if_neg (ne_of_gt before),
      ih fun entry member => last entry (List.mem_cons_of_mem _ member)]
    rfl

end Dictionary

theorem Labels.mem_insert {label other : String} {labels : Labels} :
    other ∈ labels.insert label ↔ other = label ∨ other ∈ labels := by
  induction labels with
  | nil => simp [Labels.insert]
  | cons head rest ih =>
    rw [Labels.insert]
    split
    · exact List.mem_cons
    · split
      next same => simp [same]
      next => rw [List.mem_cons, ih, List.mem_cons, or_left_comm]

theorem Labels.sorted_insert (label : String) {labels : Labels} (sorted : labels.Pairwise (· < ·)) :
    (labels.insert label).Pairwise (· < ·) := by
  induction labels with
  | nil => exact List.pairwise_singleton _ _
  | cons head rest ih =>
    obtain ⟨first, later⟩ := List.pairwise_cons.mp sorted
    rw [Labels.insert]
    split
    next before =>
      refine List.pairwise_cons.mpr ⟨?_, sorted⟩
      intro other member
      obtain rfl | member := List.mem_cons.mp member
      · exact before
      · exact lt_trans before (first other member)
    next notBefore =>
      split
      next => exact sorted
      next differs =>
        refine List.pairwise_cons.mpr ⟨?_, ih later⟩
        intro other member
        obtain rfl | member := Labels.mem_insert.mp member
        · exact lt_of_le_of_ne (not_lt.mp notBefore) (Ne.symm differs)
        · exact first other member

/-- A set of labels has one order. -/
theorem Labels.eq_of_mem_iff {labels others : Labels} (sorted : labels.Pairwise (· < ·))
    (also : others.Pairwise (· < ·)) (same : ∀ label, label ∈ labels ↔ label ∈ others) : labels = others := by
  have distinct (held : Labels) (sorted : held.Pairwise (· < ·)) : held.Nodup := sorted.imp ne_of_lt
  refine List.Perm.eq_of_pairwise (fun _ _ _ _ before after => absurd after (lt_asymm before)) sorted also ?_
  exact (List.perm_ext_iff_of_nodup (distinct labels sorted) (distinct others also)).mpr same

end StateAudit
