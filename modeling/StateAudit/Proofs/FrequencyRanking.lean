import StateAudit.Proofs.FrequencyTallies
import Mathlib.Data.Finset.Card

/-! The ranking of a frequency table: the distinct labels by decreasing count, those of one count in
the order in which they were first added. A limit keeps the front of that order. -/

namespace StateAudit.FrequencyTable

/-- Which of two labels comes first in a ranking of all that were added. -/
def Before (labels : List String) (first second : String) : Prop :=
  labels.count second < labels.count first ∨
    labels.count first = labels.count second ∧ labels.idxOf first < labels.idxOf second

theorem Before.count_le {labels : List String} {first second : String} (before : Before labels first second) :
    labels.count second ≤ labels.count first := by
  rcases before with fewer | ⟨equal, _⟩
  · exact Nat.le_of_lt fewer
  · exact Nat.le_of_eq equal.symm

/-- What a table is after the labels that were added to it. -/
structure Represents (table : FrequencyTable) (labels : List String) : Prop where
  added : ∀ label, (table.slot? label).isSome = true ↔ label ∈ labels
  /-- A slot is inside the entries, and it is that of its own label alone. -/
  indexed : ∀ label slot, table.slot? label = some slot ↔ ∃ number, table.entries[slot]? = some (label, number)
  exact : ∀ entry ∈ table.entries, entry.2 = labels.count entry.1
  count : ∀ label, table.count label = labels.count label
  size : table.size = labels.toFinset.card
  /-- One order of the distinct labels serves every limit. -/
  ranking : ∃ order : List String, (∀ label, label ∈ order ↔ label ∈ labels) ∧ order.Pairwise (Before labels) ∧
    ∀ limit, table.mostCommon limit = (order.take limit).map fun label => (label, labels.count label)
  length : ∀ limit, (table.mostCommon limit).length = min limit table.size
  omitted : ∀ limit, ∀ entry ∈ table.mostCommon limit, ∀ label ∈ labels,
    label ∉ (table.mostCommon limit).map Prod.fst → labels.count label ≤ entry.2

theorem pairwise_idxOf (labels : List String) :
    labels.eraseDups.Pairwise fun first second => labels.idxOf first < labels.idxOf second := by
  induction labels using List.reverseRecOn with
  | nil => exact .nil
  | append_singleton labels label ih =>
    have kept : labels.eraseDups.Pairwise fun first second =>
        (labels ++ [label]).idxOf first < (labels ++ [label]).idxOf second := by
      refine ih.imp_of_mem fun first second before => ?_
      rwa [List.idxOf_append_of_mem (List.mem_eraseDups.mp first), List.idxOf_append_of_mem (List.mem_eraseDups.mp second)]
    rw [eraseDups_concat]
    split
    · exact kept
    next fresh =>
      refine List.pairwise_append.mpr ⟨kept, List.pairwise_singleton _ _, ?_⟩
      intro other member last same
      obtain rfl := List.mem_singleton.mp same
      have known : other ∈ labels := List.mem_eraseDups.mp member
      rw [List.idxOf_append_of_mem known, List.idxOf_append_of_notMem fresh]
      exact Nat.lt_add_right _ (List.idxOf_lt_length_of_mem known)

theorem map_ranked (labels : List String) :
    ((ofLabels labels).ranked.map Prod.fst).Perm labels.eraseDups ∧
      (ofLabels labels).ranked =
        ((ofLabels labels).ranked.map Prod.fst).map fun label => (label, labels.count label) := by
  have entries : (ofLabels labels).ranked.Perm (labels.eraseDups.map fun label => (label, labels.count label)) :=
    entries_ofLabels labels ▸ List.mergeSort_perm _ _
  constructor
  · simpa [Function.comp_def] using entries.map Prod.fst
  · rw [List.map_map]
    refine (List.map_id _).symm.trans (List.map_congr_left fun entry member => ?_)
    obtain ⟨label, _, rfl⟩ := List.mem_map.mp (entries.mem_iff.mp member)
    rfl

/-- The sort is stable: of labels with one count it changes nothing. -/
theorem filter_ranked (labels : List String) (number : Nat) :
    ((ofLabels labels).ranked.map Prod.fst).filter (labels.count · == number) =
      labels.eraseDups.filter (labels.count · == number) := by
  obtain ⟨moved, counted⟩ := map_ranked labels
  have level : ((labels.eraseDups.filter (labels.count · == number)).map fun label => (label, labels.count label)).Pairwise
      fun first second => decide (second.2 ≤ first.2) = true := by
    refine List.pairwise_map.mpr (List.pairwise_of_forall_mem_list fun first one second other => ?_)
    rw [List.mem_filter, beq_iff_eq] at one other
    exact decide_eq_true (Nat.le_of_eq (other.2.trans one.2.symm))
  have inside : ((labels.eraseDups.filter (labels.count · == number)).map fun label => (label, labels.count label)).Sublist
      (ofLabels labels).entries.toList := by
    rw [entries_ofLabels]
    exact List.filter_sublist.map _
  have kept : (labels.eraseDups.filter (labels.count · == number)).Sublist ((ofLabels labels).ranked.map Prod.fst) := by
    have sorted := (List.sublist_mergeSort rank_trans rank_total level inside).map Prod.fst
    rwa [List.map_map, Function.comp_def, List.map_id'] at sorted
  refine (List.Sublist.eq_of_length ?_ (moved.filter _).length_eq.symm).symm
  simpa [List.filter_filter] using kept.filter (labels.count · == number)

theorem pairwise_before (labels : List String) : ((ofLabels labels).ranked.map Prod.fst).Pairwise (Before labels) := by
  obtain ⟨moved, counted⟩ := map_ranked labels
  have decreasing : ((ofLabels labels).ranked.map Prod.fst).Pairwise
      fun first second => labels.count second ≤ labels.count first := by
    have counts := pairwise_ranked (ofLabels labels)
    rw [counted, List.map_map] at counts
    exact List.pairwise_map.mp counts
  rw [List.pairwise_iff_forall_sublist] at decreasing ⊢
  intro first second pair
  rcases Nat.lt_or_eq_of_le (decreasing pair) with fewer | equal
  · exact .inl fewer
  · refine .inr ⟨equal.symm, ?_⟩
    have tied := pair.filter (labels.count · == labels.count first)
    rw [filter_ranked] at tied
    simp only [List.filter_cons, List.filter_nil, equal, beq_self_eq_true, ite_true] at tied
    exact List.pairwise_iff_forall_sublist.mp (pairwise_idxOf labels) (tied.trans List.filter_sublist)

theorem slot?_ofLabels {labels : List String} {label : String} {slot : Nat} :
    (ofLabels labels).slot? label = some slot ↔ labels.eraseDups[slot]? = some label :=
  slot?_eq_some (indexed_ofLabels labels) (entries_ofLabels labels)

theorem getElem?_entries {labels : List String} {label : String} {slot : Nat} (place : labels.eraseDups[slot]? = some label) :
    (ofLabels labels).entries[slot]? = some (label, labels.count label) := by
  rw [← Array.getElem?_toList, entries_ofLabels, List.getElem?_map, place, Option.map_some]

theorem count_ofLabels (labels : List String) (label : String) : (ofLabels labels).count label = labels.count label := by
  rw [count]
  cases found : (ofLabels labels).slot? label with
  | some slot => simp only [getElem?_entries (slot?_ofLabels.mp found), Option.map_some, Option.getD_some]
  | none =>
    refine (List.count_eq_zero_of_not_mem fun known => ?_).symm
    obtain ⟨slot, held⟩ := List.mem_iff_getElem?.mp (List.mem_eraseDups.mpr known)
    rw [slot?_ofLabels.mpr held] at found
    cases found

theorem mostCommon_ofLabels (labels : List String) (limit : Nat) : (ofLabels labels).mostCommon limit =
    (((ofLabels labels).ranked.map Prod.fst).take limit).map fun label => (label, labels.count label) := by
  rw [mostCommon, List.map_take, ← (map_ranked labels).2]

/-- After any labels the index leads to every entry, the counts are exact, and a ranking is the front
of the one order of the labels by decreasing count and first occurrence. -/
theorem represents_ofLabels (labels : List String) : (ofLabels labels).Represents labels := by
  have order (label : String) : label ∈ (ofLabels labels).ranked.map Prod.fst ↔ label ∈ labels := by
    rw [(map_ranked labels).1.mem_iff, List.mem_eraseDups]
  have before := pairwise_before labels
  constructor
  case added =>
    intro label
    rw [Option.isSome_iff_exists, ← List.mem_eraseDups, List.mem_iff_getElem?]
    exact exists_congr fun slot => slot?_ofLabels
  case indexed =>
    intro label slot
    rw [indexed_ofLabels labels label slot, Option.map_eq_some_iff]
    simp
  case exact =>
    intro entry member
    rw [← Array.mem_toList_iff, entries_ofLabels] at member
    obtain ⟨label, _, rfl⟩ := List.mem_map.mp member
    rfl
  case count => exact count_ofLabels labels
  case size =>
    rw [size, ← Array.length_toList, entries_ofLabels, List.length_map, (eraseDups_perm_dedup labels).length_eq,
      List.card_toFinset]
  case ranking => exact ⟨_, order, before, mostCommon_ofLabels labels⟩
  case length =>
    intro limit
    rw [mostCommon, List.length_take, ranked, List.length_mergeSort, Array.length_toList, size]
  case omitted =>
    intro limit entry shown label member hidden
    rw [mostCommon_ofLabels] at shown hidden
    rw [List.map_map] at hidden
    obtain ⟨first, early, rfl⟩ := List.mem_map.mp shown
    have late : label ∈ ((ofLabels labels).ranked.map Prod.fst).drop limit := by
      rw [← order, ← List.take_append_drop limit (List.map _ _), List.mem_append] at member
      exact member.resolve_left fun early => hidden (List.mem_map.mpr ⟨label, early, rfl⟩)
    rw [← List.take_append_drop limit (List.map _ _)] at before
    exact ((List.pairwise_append.mp before).2.2 first early label late).count_le

end StateAudit.FrequencyTable
