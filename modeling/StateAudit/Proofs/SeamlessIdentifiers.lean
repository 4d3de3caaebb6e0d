import StateAudit.Proofs.LatestEntries
import StateAudit.Proofs.MatrixMembership

/-! When an identifier tells the pair that it was made of. The delimiter ends with the character that it
begins with, so it is not enough that a primitive has no delimiter: one that ends in all of it but the last
character shares its identifiers with a shorter primitive. With neither of the two every identifier has
exactly one reading, and a vocabulary of pairs is as good as the set of them. -/

namespace StateAudit

/-- A primitive that has no delimiter, neither in it nor up to the one that follows it. -/
structure Seamless (primitive : String) : Prop where
  inside : ¬ "_CTX_".toList <:+: primitive.toList
  atEnd : ¬ "_CTX".toList <:+ primitive.toList

/-- A delimiter that begins in a label ends in it as well, or with the first character of the one behind it. -/
theorem delimiter_overlap {label : List Char} : "_CTX_".toList <:+: label ++ "_CTX".toList ↔
    "_CTX_".toList <:+: label ∨ "_CTX".toList <:+ label := by
  -- Of the characters added behind the label only the first one can be the last one of a delimiter.
  have ends (before : List Char) (last : Char) :
      "_CTX_".toList <:+ before ++ [last] ↔ "_CTX".toList <:+ before ∧ '_' = last := by
    have long : ['_'].length = [last].length := rfl
    rw [show "_CTX_".toList = "_CTX".toList ++ ['_'] from rfl, List.suffix_append_inj_of_length_eq long,
      List.singleton_inj]
  have spelled : label ++ "_CTX".toList = label ++ ['_'] ++ ['C'] ++ ['T'] ++ ['X'] := by
    simp only [List.append_assoc]
    rfl
  rw [spelled]
  simp only [List.infix_concat_iff, ends, Char.reduceEq, and_false, and_true, false_or]
  exact or_comm

theorem undivided_iff {primitive : String} : Undivided primitive ↔ Seamless primitive := by
  rw [Undivided, String.toList_append, delimiter_overlap, not_or]
  exact ⟨fun whole => ⟨whole.1, whole.2⟩, fun seamless => ⟨seamless.inside, seamless.atEnd⟩⟩

instance (primitive : String) : Decidable (Undivided primitive) :=
  inferInstanceAs (Decidable (¬ "_CTX_".toList <:+: (primitive ++ "_CTX").toList))

instance : DecidablePred Seamless := fun _ => decidable_of_iff _ undivided_iff

theorem Seamless.of_not_mem {label : String} (absent : '_' ∉ label.toList) : Seamless label where
  inside found := absent (found.subset (by decide))
  atEnd found := absent (found.subset (by decide))

/-- What stands before an earlier delimiter can be read as the primitive, and all that follows as the context. -/
theorem exists_shorter {primitive : String} (divided : ¬ Undivided primitive) (context : String) :
    ∃ shorter rest : String, shorter.length < primitive.length ∧
      deriveStateId shorter rest = deriveStateId primitive context := by
  rw [Undivided, Decidable.not_not, String.toList_append] at divided
  obtain ⟨shorter, between, cut⟩ := divided
  refine ⟨.ofList shorter, .ofList (between ++ '_' :: context.toList), ?_, ?_⟩
  · have lengths := congrArg List.length cut
    rw [List.length_append, List.length_append, List.length_append, show "_CTX_".toList.length = 5 from rfl,
      show "_CTX".toList.length = 4 from rfl, String.length_toList] at lengths
    rw [String.length_ofList]
    omega
  · have same : shorter ++ ("_CTX_".toList ++ (between ++ '_' :: context.toList)) =
        primitive.toList ++ ("_CTX_".toList ++ context.toList) := calc
      _ = shorter ++ "_CTX_".toList ++ between ++ '_' :: context.toList := by simp only [List.append_assoc]
      _ = primitive.toList ++ "_CTX".toList ++ '_' :: context.toList := by rw [cut]
      _ = primitive.toList ++ ("_CTX_".toList ++ context.toList) := by
        rw [List.append_assoc]
        rfl
    rw [← String.toList_inj, toList_deriveStateId, toList_deriveStateId, @String.toList_ofList shorter,
      @String.toList_ofList (between ++ '_' :: context.toList), same]

theorem exists_seamless (primitive context : String) :
    ∃ first second, Seamless first ∧ deriveStateId first second = deriveStateId primitive context := by
  -- Shorter and shorter primitives, until one is cut at the first delimiter of the identifier.
  induction size : primitive.length using Nat.strongRecOn generalizing primitive context with
  | ind _ ih =>
    by_cases whole : Undivided primitive
    · exact ⟨primitive, context, undivided_iff.mp whole, rfl⟩
    · obtain ⟨shorter, rest, less, same⟩ := exists_shorter whole context
      obtain ⟨first, second, seamless, read⟩ := ih shorter.length (size ▸ less) shorter rest rfl
      exact ⟨first, second, seamless, read.trans same⟩

theorem Seamless.eq {first second : String × String} (seamless : Seamless first.1) (also : Seamless second.1)
    (same : deriveStateId first.1 first.2 = deriveStateId second.1 second.2) : first = second :=
  Prod.ext_iff.mpr (deriveStateId_injective (undivided_iff.mpr seamless) (undivided_iff.mpr also) same)

theorem existsUnique_seamless (primitive context : String) : ∃! pair : String × String,
    Seamless pair.1 ∧ deriveStateId pair.1 pair.2 = deriveStateId primitive context := by
  obtain ⟨first, second, seamless, read⟩ := exists_seamless primitive context
  refine ⟨(first, second), ⟨seamless, read⟩, ?_⟩
  rintro other ⟨also, same⟩
  exact also.eq seamless (same.trans read.symm)

private theorem length_dedup_map [DecidableEq α] [DecidableEq β] {read : α → β} {items : List α}
    (distinct : ∀ first ∈ items, ∀ second ∈ items, read first = read second → first = second) :
    (items.map read).dedup.length = items.dedup.length := by
  have apart : (items.dedup.map read).Nodup := by
    refine (List.nodup_dedup items).map_on fun first member second also => ?_
    exact distinct first (List.mem_dedup.mp member) second (List.mem_dedup.mp also)
  have same : (items.map read).dedup.Perm (items.dedup.map read) := by
    refine (List.perm_ext_iff_of_nodup (List.nodup_dedup _) apart).mpr fun item => ?_
    simp only [List.mem_dedup, List.mem_map]
  rw [same.length_eq, List.length_map]

namespace Vocabulary

/-- The vocabulary of some pairs of a primitive and a context. -/
def ofPairs (pairs : List (String × String)) : Vocabulary := ofStates (pairs.map fun pair => .ofPair pair.1 pair.2)

/-- No pair is passed over, whatever its labels. -/
theorem named_pairs (pairs : List (String × String)) :
    named (pairs.map fun pair => State.ofPair pair.1 pair.2) = pairs.map fun pair => .ofPair pair.1 pair.2 := by
  refine List.filter_eq_self.mpr (List.forall_mem_map.mpr fun pair _ => ?_)
  rw [State.ofPair, isEmpty_deriveStateId, Bool.not_false]

theorem contains_ofPairs (pairs : List (String × String)) (stateId : String) :
    (ofPairs pairs).contains stateId = true ↔ ∃ pair ∈ pairs, deriveStateId pair.1 pair.2 = stateId := by
  rw [ofPairs, contains_ofStates]
  simp only [List.mem_map, exists_exists_and_eq_and]
  refine and_iff_right_of_imp ?_
  rintro ⟨pair, _, rfl⟩
  exact String.isEmpty_eq_false_iff.mp (isEmpty_deriveStateId pair.1 pair.2)

theorem size_ofPairs (pairs : List (String × String)) :
    (ofPairs pairs).size = (pairs.map fun pair => deriveStateId pair.1 pair.2).dedup.length := by
  rw [ofPairs, size_ofStates, named_pairs, List.map_map]
  rfl

section Seamless
variable {pairs : List (String × String)} (seamless : ∀ pair ∈ pairs, Seamless pair.1)
include seamless

theorem size_seamless : (ofPairs pairs).size = pairs.dedup.length := by
  rw [size_ofPairs]
  exact length_dedup_map fun first member second also => (seamless first member).eq (seamless second also)

theorem contains_seamless {primitive : String} (whole : Seamless primitive) (context : String) :
    (ofPairs pairs).contains (deriveStateId primitive context) = true ↔ (primitive, context) ∈ pairs := by
  rw [contains_ofPairs]
  constructor
  · rintro ⟨pair, member, same⟩
    obtain rfl : pair = (primitive, context) := (seamless pair member).eq whole same
    exact member
  · intro member
    exact ⟨(primitive, context), member, rfl⟩

end Seamless

/-- Identifiers of seamless primitives are unambiguous. A vocabulary of such pairs has as many states as there
are different pairs, and of their identifiers it has those of its pairs only. Labels of lower case letters are
seamless. No other primitive would do, for its identifiers have one seamless reading each. -/
theorem seamless_unambiguous :
    (∀ first second context other, Seamless first → Seamless second →
      deriveStateId first context = deriveStateId second other → first = second ∧ context = other) ∧
    (∀ pairs, (∀ pair ∈ pairs, Seamless pair.1) → (ofPairs pairs).size = pairs.dedup.length ∧
      ∀ primitive context, Seamless primitive →
        ((ofPairs pairs).contains (deriveStateId primitive context) = true ↔ (primitive, context) ∈ pairs)) ∧
    (∀ label : String, (∀ char ∈ label.toList, char.isLower = true) → Seamless label) ∧
    ∀ primitive context, ∃! pair : String × String,
      Seamless pair.1 ∧ deriveStateId pair.1 pair.2 = deriveStateId primitive context := by
  refine ⟨?_, ?_, ?_, existsUnique_seamless⟩
  · intro first second context other seamless also same
    exact deriveStateId_injective (undivided_iff.mpr seamless) (undivided_iff.mpr also) same
  · intro pairs seamless
    exact ⟨size_seamless seamless, fun primitive context whole => contains_seamless seamless whole context⟩
  · intro label lower
    exact .of_not_mem fun member => absurd (lower '_' member) (by decide)

/-- Contexts with delimiters, a primitive that ends in most of one, an empty one, and a repeated pair. -/
def closePairs : List (String × String) :=
  [("a", "b_CTX_c"), ("a_CT", "X_c"), ("", "_CTX_c"), ("a", "b_CTX_c"), ("CTX_", "CTX_c")]

theorem seamless_closePairs : (∀ pair ∈ closePairs, Seamless pair.1) ∧ (ofPairs closePairs).size = 4 ∧
    (ofPairs closePairs).contains (deriveStateId "a" "b_CTX_c") = true ∧
    (ofPairs closePairs).contains (deriveStateId "a" "c") = false ∧
    ¬ Seamless "a_CTX_b" ∧ ("a_CTX_b", "c") ∉ closePairs ∧
    (ofPairs closePairs).contains (deriveStateId "a_CTX_b" "c") = true := by
  obtain ⟨_, unambiguous, _, _⟩ := seamless_unambiguous
  have seamless : ∀ pair ∈ closePairs, Seamless pair.1 := by decide +kernel
  obtain ⟨size, contains⟩ := unambiguous closePairs seamless
  have known := (contains "a" "b_CTX_c" (by decide +kernel)).mpr (by decide +kernel)
  refine ⟨seamless, ?_, known, ?_, by decide +kernel, by decide +kernel, ?_⟩
  · rw [size]
    decide +kernel
  · rw [Bool.eq_false_iff, Ne, contains "a" "c" (by decide +kernel)]
    decide +kernel
  · rwa [show deriveStateId "a_CTX_b" "c" = deriveStateId "a" "b_CTX_c" by decide +kernel]

end Vocabulary

end StateAudit
