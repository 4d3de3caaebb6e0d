import StateAudit.Proofs.Utf8Reading
import Mathlib.Data.String.Basic

/-! The order of texts by their bytes. Comparing two texts character by character, or the bytes that
they are written as, comes to the same: the first byte of a character tells how many it has, and a
character with more of them is the larger one. -/

namespace StateAudit.Utf8

/-- Before in the order of the bytes. -/
def Before (first second : String) : Prop := encode first.toList < encode second.toList

private theorem ofNat_cons_lt {a b : Nat} {front back : Bytes} (small : b < 256)
    (before : a < b ∨ a = b ∧ front < back) : UInt8.ofNat a :: front < UInt8.ofNat b :: back := by
  rw [List.cons_lt_cons_iff]
  rcases before with less | ⟨rfl, rest⟩
  · left
    rw [UInt8.lt_iff_toNat_lt, UInt8.toNat_ofNat', UInt8.toNat_ofNat']
    omega
  · exact .inr ⟨rfl, rest⟩

/-- Numbers that agree in front of a group of bits are ordered by the group, and behind an equal one
by what follows. -/
private theorem group_lt {value other size width mark : Nat} {front back : Bytes} (less : value < other)
    (same : value / size / width = other / size / width) (some : 0 < width) (room : width + mark ≤ 256)
    (behind : value / size = other / size → front < back) :
    UInt8.ofNat (value / size % width + mark) :: front < UInt8.ofNat (other / size % width + mark) :: back := by
  have bits := Nat.mod_lt (other / size) some
  have ordered : value / size ≤ other / size := Nat.div_le_div_right (Nat.le_of_lt less)
  refine ofNat_cons_lt (by omega) ?_
  rcases Nat.lt_or_eq_of_le ordered with high | high
  · have first := Nat.div_add_mod (value / size) width
    have second := Nat.div_add_mod (other / size) width
    rw [same] at first
    exact .inl (by omega)
  · exact .inr ⟨by rw [high], behind high⟩

/-- The last two bytes of characters that agree in front of them. -/
private theorem pair_lt {value other : Nat} (less : value < other) (same : value / 4096 = other / 4096)
    (front back : Bytes) :
    UInt8.ofNat (value / 64 % 64 + 0x80) :: UInt8.ofNat (value % 64 + 0x80) :: front <
      UInt8.ofNat (other / 64 % 64 + 0x80) :: UInt8.ofNat (other % 64 + 0x80) :: back :=
  group_lt less (by omega) (by decide) (by decide) fun high => ofNat_cons_lt (by omega) (.inl (by omega))

/-- The first byte of a character of two bytes or more is above that of any shorter one. -/
theorem exists_lead {char : Char} (wide : 0x7F < char.toNat) : ∃ lead rest,
    encodeChar char = UInt8.ofNat lead :: rest ∧ lead < 256 ∧ 0xC0 ≤ lead ∧
      (0x7FF < char.toNat → 0xE0 ≤ lead) ∧ (0xFFFF < char.toNat → 0xF0 ≤ lead) := by
  rw [encodeChar_eq, if_neg (Nat.not_le.mpr wide)]
  split
  next two => exact ⟨_, _, rfl, by omega, by omega, by omega, by omega⟩
  next =>
    split
    next three => exact ⟨_, _, rfl, by omega, by omega, by omega, by omega⟩
    next four => exact ⟨_, _, rfl, by omega, by omega, by omega, by omega⟩

theorem encodeChar_lt {char other : Char} (before : char < other) (front back : Bytes) :
    encodeChar char ++ front < encodeChar other ++ back := by
  have less : char.toNat < other.toNat := before
  have highest := toNat_le other
  by_cases one : char.toNat ≤ 0x7F
  · rw [encodeChar_eq char, if_pos one]
    by_cases also : other.toNat ≤ 0x7F
    · rw [encodeChar_eq other, if_pos also]
      exact ofNat_cons_lt (by omega) (.inl less)
    · obtain ⟨lead, rest, form, small, above, _⟩ := exists_lead (Nat.not_le.mp also)
      rw [form]
      exact ofNat_cons_lt small (.inl (by omega))
  by_cases two : char.toNat ≤ 0x7FF
  · rw [encodeChar_eq char, if_neg one, if_pos two]
    by_cases also : other.toNat ≤ 0x7FF
    · rw [encodeChar_eq other, if_neg (by omega), if_pos also]
      exact group_lt less (by omega) (by decide) (by decide) fun high => ofNat_cons_lt (by omega) (.inl (by omega))
    · obtain ⟨lead, rest, form, small, _, above, _⟩ := exists_lead (show 0x7F < other.toNat by omega)
      rw [form]
      exact ofNat_cons_lt small (.inl (by omega))
  by_cases three : char.toNat ≤ 0xFFFF
  · rw [encodeChar_eq char, if_neg one, if_neg two, if_pos three]
    by_cases also : other.toNat ≤ 0xFFFF
    · rw [encodeChar_eq other, if_neg (by omega), if_neg (by omega), if_pos also]
      exact group_lt less (by omega) (by decide) (by decide) fun high => pair_lt less high front back
    · obtain ⟨lead, rest, form, small, _, _, above⟩ := exists_lead (show 0x7F < other.toNat by omega)
      rw [form]
      exact ofNat_cons_lt small (.inl (by omega))
  · rw [encodeChar_eq char, if_neg one, if_neg two, if_neg three, encodeChar_eq other, if_neg (by omega),
      if_neg (by omega), if_neg (by omega)]
    refine group_lt less (by omega) (by decide) (by decide) fun high => ?_
    exact group_lt less (by omega) (by decide) (by decide) fun middle => pair_lt less middle front back

theorem encode_lt {text other : List Char} (before : text < other) : encode text < encode other := by
  induction before with
  | @nil char rest =>
    have filled : encode (char :: rest) ≠ [] := by
      rw [encode, List.flatMap_cons]
      exact List.append_ne_nil_of_left_ne_nil String.utf8EncodeChar_ne_nil _
    obtain ⟨byte, bytes, form⟩ := List.exists_cons_of_ne_nil filled
    rw [form]
    exact .nil
  | @cons char _ _ later ih =>
    rw [encode, encode, List.flatMap_cons, List.flatMap_cons]
    exact List.Lex.append_left _ ih _
  | rel first => exact encodeChar_lt first _ _

/-- Bytes order texts as characters do. -/
theorem before_iff {first second : String} : Before first second ↔ first < second := by
  rw [Before, String.lt_iff_toList_lt]
  refine ⟨fun bytes => ?_, encode_lt⟩
  rcases lt_trichotomy first.toList second.toList with less | same | greater
  · exact less
  · rw [same] at bytes
    exact absurd bytes (List.lt_irrefl _)
  · exact absurd (encode_lt greater) (List.lt_asymm bytes)

end StateAudit.Utf8
