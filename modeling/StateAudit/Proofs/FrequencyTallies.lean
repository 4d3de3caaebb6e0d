import StateAudit.Frequency
import StateAudit.Proofs.DictionaryEntries
import Mathlib.Algebra.BigOperators.Group.List.Lemmas
import Mathlib.Algebra.GroupWithZero.Nat
import Mathlib.Data.List.Induction

/-! A frequency table holds the labels that were added to it, each one once, in the order of
their first occurrence and with the number of their occurrences. Its index leads to every entry.
What a ranking shows of it is right at any limit, and is all of it where the limit leaves nothing out. -/

namespace StateAudit.FrequencyTable

def ofLabels (labels : List String) : FrequencyTable := labels.foldl add {}

/-- What at most `limit` entries tell of the labels that were counted. -/
structure Tally (labels : List String) (limit : Nat) (shown : List (String × Nat)) : Prop where
  counted : ∀ entry ∈ shown, entry.1 ∈ labels ∧ entry.2 = labels.count entry.1
  distinct : (shown.map Prod.fst).Nodup
  complete : labels.eraseDups.length ≤ limit → ∀ label, (shown.lookup label).getD 0 = labels.count label
  sum : labels.eraseDups.length ≤ limit → (shown.map Prod.snd).sum = labels.length

theorem eraseDups_concat (labels : List String) (label : String) :
    (labels ++ [label]).eraseDups = if label ∈ labels then labels.eraseDups else labels.eraseDups ++ [label] := by
  rw [List.eraseDups_append, List.removeAll, List.filter_singleton]
  by_cases known : label ∈ labels
  · simp [known]
  · simp [known, List.eraseDups_cons]

theorem nodup_eraseDups (labels : List String) : labels.eraseDups.Nodup := by
  induction labels using List.reverseRecOn with
  | nil => exact .nil
  | append_singleton labels label ih =>
    rw [eraseDups_concat]
    split
    · exact ih
    next fresh =>
      rw [← List.concat_eq_append]
      exact ih.concat (by rwa [List.mem_eraseDups])

/-- The index leads from each label to the slot that its entry has, and from nothing else to anywhere. -/
def Indexed (table : FrequencyTable) : Prop :=
  ∀ label slot, table.slot? label = some slot ↔ (table.entries[slot]?).map Prod.fst = some label

theorem add_known {table : FrequencyTable} {label : String} {slot : Nat} (known : table.slot? label = some slot) :
    table.add label = { table with entries := table.entries.modify slot countUp } := by
  rw [add, known]

theorem add_fresh {table : FrequencyTable} {label : String} (fresh : table.slot? label = none) :
    table.add label =
      { index := Dictionary.insert label table.entries.size table.index
        entries := table.entries.push (label, 1) } := by
  rw [add, fresh]

theorem indexed_empty : Indexed {} := by
  intro label slot
  simp [slot?, Dictionary.get?]

/-- Counting changes no label and moves no entry; a fresh label gets the first free slot. -/
theorem indexed_add {table : FrequencyTable} (indexed : Indexed table) (label : String) : Indexed (table.add label) := by
  intro other slot
  cases found : table.slot? label with
  | some place =>
    rw [add_known found]
    have labels : ((table.entries.modify place countUp)[slot]?).map Prod.fst = (table.entries[slot]?).map Prod.fst := by
      rw [Array.getElem?_modify]
      split
      · rw [Option.map_map]
        rfl
      · rfl
    rw [labels]
    exact indexed other slot
  | none =>
    rw [add_fresh found, slot?, Dictionary.get?_insert, Array.getElem?_push]
    by_cases same : other = label
    · subst same
      rw [if_pos rfl, Option.some.injEq]
      by_cases last : slot = table.entries.size
      · simp [last]
      · have absent := (indexed other slot).not.mp (by simp [found])
        simp only [if_neg last, absent, iff_false]
        exact Ne.symm last
    · rw [if_neg same]
      by_cases last : slot = table.entries.size
      · have absent := (indexed other slot).not.mpr (by simp [last])
        simpa [last, Ne.symm same] using last ▸ absent
      · rw [if_neg last]
        exact indexed other slot

theorem indexed_ofLabels (labels : List String) : Indexed (ofLabels labels) :=
  List.foldlRecOn labels add indexed_empty fun _ indexed label _ => indexed_add indexed label

theorem modify_map {labels : List String} (distinct : labels.Nodup) (counts : String → Nat) {label : String}
    {slot : Nat} (place : labels[slot]? = some label) :
    (labels.map fun other => (other, counts other)).modify slot countUp =
      labels.map fun other => (other, counts other + if other = label then 1 else 0) := by
  refine List.ext_getElem? fun index => ?_
  rw [List.getElem?_modify, List.getElem?_map, List.getElem?_map]
  cases held : labels[index]? with
  | none => rfl
  | some other =>
    by_cases here : slot = index
    · subst here
      obtain rfl : label = other := Option.some.inj (place.symm.trans held)
      simp [countUp]
    · have differs : other ≠ label := by
        rintro rfl
        have inside : slot < labels.length := (List.getElem?_eq_some_iff.mp place).1
        exact here ((List.getElem?_inj inside distinct).mp (place.trans held.symm))
      simp [here, differs]

theorem slot?_eq_some {table : FrequencyTable} (indexed : Indexed table) {labels : List String} {counts : String → Nat}
    (entries : table.entries.toList = labels.map fun label => (label, counts label)) {label : String} {slot : Nat} :
    table.slot? label = some slot ↔ labels[slot]? = some label := by
  rw [indexed label slot, ← Array.getElem?_toList, entries, List.getElem?_map, Option.map_map]
  simp [Function.comp_def]

/-- The labels in the order of their first occurrence, each with its number of occurrences. -/
theorem entries_ofLabels (labels : List String) :
    (ofLabels labels).entries.toList = labels.eraseDups.map fun label => (label, labels.count label) := by
  induction labels using List.reverseRecOn with
  | nil => rfl
  | append_singleton labels label ih =>
    have step : ofLabels (labels ++ [label]) = (ofLabels labels).add label := by
      rw [ofLabels, List.foldl_append]
      rfl
    have counted : ∀ other, (labels ++ [label]).count other =
        labels.count other + if other = label then 1 else 0 := by
      intro other
      rw [List.count_append, List.count_singleton]
      by_cases same : other = label
      · simp [same]
      · simp [same, Ne.symm same]
    have place {slot : Nat} : (ofLabels labels).slot? label = some slot ↔ labels.eraseDups[slot]? = some label :=
      slot?_eq_some (indexed_ofLabels labels) ih
    simp only [step, counted, eraseDups_concat]
    cases found : (ofLabels labels).slot? label with
    | some slot =>
      have held := place.mp found
      have known : label ∈ labels := List.mem_eraseDups.mp (List.mem_of_getElem? held)
      rw [if_pos known, add_known found, Array.toList_modify, ih, modify_map (nodup_eraseDups labels) _ held]
    | none =>
      have fresh : label ∉ labels := by
        intro known
        obtain ⟨slot, held⟩ := List.mem_iff_getElem?.mp (List.mem_eraseDups.mpr known)
        rw [place.mpr held] at found
        cases found
      have others : ∀ other ∈ labels.eraseDups, (other, labels.count other) =
          (other, labels.count other + if other = label then 1 else 0) := by
        intro other member
        rw [List.mem_eraseDups] at member
        rw [if_neg fun same : other = label => fresh (same ▸ member), Nat.add_zero]
      rw [if_neg fresh, add_fresh found, Array.toList_push, ih, List.map_append, List.map_singleton, if_pos rfl,
        List.count_eq_zero_of_not_mem fresh, List.map_congr_left others]

theorem lookup_eq {entries : List (String × Nat)} (distinct : (entries.map Prod.fst).Nodup) {label : String}
    {number : Nat} (member : (label, number) ∈ entries) : (entries.lookup label).getD 0 = number := by
  obtain ⟨before, after, rfl⟩ := List.append_of_mem member
  have first : ∀ entry ∈ before, (label != entry.1) = true := by
    intro entry inside
    rw [List.map_append, List.map_cons, List.nodup_append] at distinct
    exact bne_iff_ne.mpr (distinct.2.2 _ (List.mem_map_of_mem inside) _ List.mem_cons_self).symm
  rw [List.lookup_eq_some_iff.mpr ⟨before, after, rfl, first⟩, Option.getD_some]

theorem lookup_eq_zero {entries : List (String × Nat)} {label : String} (absent : label ∉ entries.map Prod.fst) :
    (entries.lookup label).getD 0 = 0 := by
  have none : entries.lookup label = none := by
    refine List.lookup_eq_none_iff.mpr fun entry member => bne_iff_ne.mpr ?_
    rintro rfl
    exact absent (List.mem_map_of_mem member)
  rw [none, Option.getD_none]

theorem rank_trans (first second third : String × Nat) (before : decide (second.2 ≤ first.2) = true)
    (after : decide (third.2 ≤ second.2) = true) : decide (third.2 ≤ first.2) = true := by
  rw [decide_eq_true_eq] at before after ⊢
  exact Nat.le_trans after before

theorem rank_total (first second : String × Nat) :
    (decide (second.2 ≤ first.2) || decide (first.2 ≤ second.2)) = true := by
  rw [Bool.or_eq_true, decide_eq_true_eq, decide_eq_true_eq]
  exact Nat.le_total second.2 first.2

theorem pairwise_ranked (table : FrequencyTable) : (table.ranked.map Prod.snd).Pairwise (· ≥ ·) :=
  List.pairwise_map.mpr ((List.pairwise_mergeSort rank_trans rank_total _).imp of_decide_eq_true)

theorem eraseDups_perm_dedup (labels : List String) : labels.eraseDups.Perm labels.dedup := by
  rw [List.perm_ext_iff_of_nodup (nodup_eraseDups labels) labels.nodup_dedup]
  simp

theorem sum_counts (labels : List String) : (labels.eraseDups.map labels.count).sum = labels.length := by
  rw [((eraseDups_perm_dedup labels).map _).sum_eq, List.sum_map_count_dedup_eq_length]

/-- A table over some of the labels never tells more of a label than a table over all of them. -/
theorem Tally.le {some all : List String} (part : some.Sublist all) {limit : Nat} {shown others : List (String × Nat)}
    (fewer : Tally some limit shown) (more : Tally all limit others) {label : String} {number : Nat}
    (member : (label, number) ∈ shown) :
    number ≤ all.count label ∧ ∀ whole, (label, whole) ∈ others → number ≤ whole := by
  have counted : number = some.count label := (fewer.counted _ member).2
  have bounded : number ≤ all.count label := counted ▸ part.count_le label
  refine ⟨bounded, fun whole other => ?_⟩
  have total : whole = all.count label := (more.counted _ other).2
  exact total ▸ bounded

/-- A ranking of the labels that were added is right about them, and leaves none out but for its limit. -/
theorem tally_mostCommon (labels : List String) (limit : Nat) :
    Tally labels limit ((ofLabels labels).mostCommon limit) := by
  have entries := entries_ofLabels labels
  have ranked : (ofLabels labels).ranked.Perm (labels.eraseDups.map fun label => (label, labels.count label)) :=
    entries ▸ List.mergeSort_perm _ _
  have counted : ∀ entry ∈ (ofLabels labels).ranked, entry.1 ∈ labels ∧ entry.2 = labels.count entry.1 := by
    intro entry member
    obtain ⟨label, inside, rfl⟩ := List.mem_map.mp (ranked.mem_iff.mp member)
    exact ⟨List.mem_eraseDups.mp inside, rfl⟩
  have distinct : ((ofLabels labels).ranked.map Prod.fst).Nodup := by
    rw [(ranked.map Prod.fst).nodup_iff, List.map_map]
    simpa [Function.comp_def] using nodup_eraseDups labels
  have whole : labels.eraseDups.length ≤ limit → (ofLabels labels).mostCommon limit = (ofLabels labels).ranked := by
    intro enough
    refine List.take_of_length_le ?_
    rwa [ranked.length_eq, List.length_map]
  refine ⟨?_, ?_, ?_, ?_⟩
  · exact fun entry member => counted entry (List.mem_of_mem_take member)
  · exact distinct.sublist ((List.take_sublist _ _).map Prod.fst)
  · intro enough label
    rw [whole enough]
    by_cases known : label ∈ labels
    · refine lookup_eq distinct (ranked.mem_iff.mpr (List.mem_map.mpr ⟨label, ?_, rfl⟩))
      exact List.mem_eraseDups.mpr known
    · rw [List.count_eq_zero_of_not_mem known]
      refine lookup_eq_zero fun member => known ?_
      obtain ⟨entry, inside, rfl⟩ := List.mem_map.mp member
      exact (counted entry inside).1
  · intro enough
    rw [whole enough, (ranked.map Prod.snd).sum_eq, List.map_map]
    exact sum_counts labels

end StateAudit.FrequencyTable
