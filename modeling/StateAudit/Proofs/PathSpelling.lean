import StateAudit.Files.Tree
import Mathlib.Data.String.Basic
import Mathlib.Tactic.MkIffOfInductiveProp

/-! Paths that are put together from names. Such a path has these names, and the path of the directory
around it is the one that the last name was joined to. -/

namespace StateAudit.Files

namespace Path

/-- A name that can stand between slashes for an entry of its own. -/
@[mk_iff]
structure Plain (name : String) : Prop where
  filled : name ≠ ""
  whole : '/' ∉ name.toList
  writable : '\x00' ∉ name.toList
  notHere : name ≠ "."
  notUp : name ≠ ".."
  short : name.utf8ByteSize ≤ nameLimit

instance (name : String) : Decidable (Plain name) := decidable_of_iff _ (plain_iff name).symm

theorem Plain.letters {name : String} (plain : Plain name) : name.toList ≠ [] :=
  String.toList_eq_nil_iff.not.mpr plain.filled

/-- A path and the names that it was put together from, none of which says where it begins. -/
inductive Spelled : String → List String → Prop
  | relative : Spelled "" []
  | absolute : Spelled "/" []
  | joined {path name : String} {names : List String} : Spelled path names → Plain name →
      Spelled (join path name) (names ++ [name])

/-- What stands before a name that is joined to a path. -/
def stem (path : String) : List Char :=
  if path.isEmpty || endsInSlash path then path.toList else path.toList ++ ['/']

theorem toList_join (path name : String) : (join path name).toList = stem path ++ name.toList := by
  rw [join, stem]
  split
  · rw [String.toList_append]
  · rw [String.toList_append, String.toList_append, List.append_assoc, List.append_assoc]
    rfl

theorem stem_cases (path : String) : path = "" ∧ stem path = [] ∨ ∃ front, stem path = front ++ ['/'] ∧
    (path.toList = front ++ ['/'] ∨ path.toList = front) := by
  rw [stem]
  split
  next closed =>
    rcases Bool.or_eq_true_iff.mp closed with empty | slash
    · obtain rfl := String.isEmpty_iff.mp empty
      exact .inl ⟨rfl, rfl⟩
    · obtain ⟨front, whole⟩ := List.getLast?_eq_some_iff.mp (beq_iff_eq.mp slash)
      exact .inr ⟨front, whole, .inl whole⟩
  next => exact .inr ⟨path.toList, rfl, .inr rfl⟩

theorem split_ne_nil (text : List Char) : split text ≠ [] := by
  cases text with
  | nil => exact List.cons_ne_nil _ _
  | cons char rest =>
    rw [split]
    split
    · exact List.cons_ne_nil _ _
    · split <;> exact List.cons_ne_nil _ _

theorem split_append (text others : List Char) : split (text ++ '/' :: others) = split text ++ split others := by
  induction text with
  | nil => rfl
  | cons char rest ih =>
    rw [List.cons_append, split, split, ih]
    split
    · rfl
    · obtain ⟨first, later, cut⟩ := List.exists_cons_of_ne_nil (split_ne_nil rest)
      rw [cut]
      rfl

theorem split_whole {text : List Char} (whole : '/' ∉ text) : split text = [text] := by
  induction text with
  | nil => rfl
  | cons char rest ih =>
    obtain ⟨first, later⟩ := not_or.mp (List.mem_cons.not.mp whole)
    rw [split, if_neg (Ne.symm first), ih later]

theorem names_join {name : String} (plain : Plain name) (path : String) :
    names (join path name) = names path ++ [name] := by
  have own : ((split name.toList).filter (!·.isEmpty)).map String.ofList = [name] := by
    have filled : name.toList.isEmpty = false := List.isEmpty_eq_false_iff.mpr plain.letters
    rw [split_whole plain.whole, List.filter_singleton, filled]
    simp
  rw [names, toList_join]
  obtain ⟨rfl, bare⟩ | ⟨front, bare, closed | whole⟩ := stem_cases path
  · rw [bare, List.nil_append, own]
    rfl
  · rw [bare, names, closed, List.append_assoc, List.singleton_append, split_append, split_append]
    simp [own, split]
  · rw [bare, names, whole, List.append_assoc, List.singleton_append, split_append]
    simp [own]

theorem trimReversed_eq_self {path : List Char} (bare : ∀ rest, path ≠ '/' :: rest)
    (dotless : ∀ rest, path ≠ '.' :: '/' :: rest) : trimReversed path = path := by
  rw [trimReversed.eq_def]
  split
  next => exact absurd rfl (bare _)
  next => exact absurd rfl (dotless _)
  next => rfl

theorem trimReversed_plain {name : String} (plain : Plain name) (before : List Char) :
    trimReversed (name.toList.reverse ++ before) = name.toList.reverse ++ before := by
  have whole : '/' ∉ name.toList.reverse := fun member => plain.whole (List.mem_reverse.mp member)
  have filled : name.toList.reverse ≠ [] := List.reverse_ne_nil_iff.mpr plain.letters
  -- A dot is dropped at the end of a path where it is a name of its own.
  have notHere : name.toList.reverse ≠ ['.'] := by
    intro dot
    refine plain.notHere (String.toList_inj.mp ?_)
    rw [← List.reverse_reverse name.toList, dot]
    rfl
  generalize name.toList.reverse = reversed at whole filled notHere ⊢
  obtain ⟨last, rest, rfl⟩ := List.exists_cons_of_ne_nil filled
  refine trimReversed_eq_self ?_ ?_
  · rintro others same
    obtain ⟨rfl, -⟩ := List.cons.inj same
    exact whole List.mem_cons_self
  · rintro others same
    obtain ⟨rfl, -⟩ := List.cons.inj same
    cases rest with
    | nil => exact notHere rfl
    | cons second rest =>
      obtain ⟨-, same⟩ := List.cons.inj same
      obtain ⟨rfl, -⟩ := List.cons.inj same
      exact whole (List.mem_cons_of_mem _ List.mem_cons_self)

theorem Spelled.trimReversed {path : String} {names : List String} (spelled : Spelled path names) :
    Path.trimReversed path.toList.reverse = path.toList.reverse := by
  cases spelled with
  | relative => rfl
  | absolute => rfl
  | joined _ plain => rw [toList_join, List.reverse_append, trimReversed_plain plain]

theorem isAbsolute_join {name : String} (plain : Plain name) (path : String) :
    isAbsolute (join path name) = isAbsolute path := by
  rw [isAbsolute, isAbsolute, toList_join, stem]
  split
  next closed =>
    cases letters : path.toList with
    | nil =>
      have first : name.toList.head? ≠ some '/' := fun head => plain.whole (List.mem_of_head? head)
      simpa using first
    | cons char rest => rfl
  next bare =>
    have filled : path.toList ≠ [] := by
      intro empty
      simp [String.toList_eq_nil_iff.mp empty] at bare
    rw [List.append_assoc, List.head?_append_of_ne_nil _ filled]

theorem Spelled.writable {path : String} {names : List String} (spelled : Spelled path names) :
    '\x00' ∉ path.toList := by
  induction spelled with
  | relative => decide
  | absolute => decide
  | joined _ plain ih =>
    rw [toList_join, stem, List.mem_append, not_or]
    refine ⟨?_, plain.writable⟩
    split
    · exact ih
    · simpa using ih

theorem Spelled.plain {path : String} {names : List String} (spelled : Spelled path names) :
    ∀ name ∈ names, Plain name := by
  induction spelled with
  | relative => exact List.forall_mem_nil _
  | absolute => exact List.forall_mem_nil _
  | joined _ plain ih => exact List.forall_mem_append.mpr ⟨ih, List.forall_mem_singleton.mpr plain⟩

theorem size_join (path name : String) : path.utf8ByteSize + name.utf8ByteSize ≤ (join path name).utf8ByteSize := by
  rw [join]
  split
  · rw [String.utf8ByteSize_append]
  · rw [String.utf8ByteSize_append, String.utf8ByteSize_append]
    omega

theorem size_le_join {path name : String} : path.utf8ByteSize ≤ (join path name).utf8ByteSize :=
  Nat.le_trans (Nat.le_add_right _ _) (size_join path name)

end Path

end StateAudit.Files
