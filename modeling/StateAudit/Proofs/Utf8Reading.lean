import StateAudit.Text.Utf8

/-! Bytes are read as a text exactly when they are what the text is written as. So no bytes are
read as two texts, and a text has one written form. -/

namespace StateAudit.Utf8

theorem encodeChar_eq (char : Char) : encodeChar char =
    if char.toNat ≤ 0x7F then [.ofNat char.toNat]
    else if char.toNat ≤ 0x7FF then [.ofNat (char.toNat / 64 % 32 + 0xC0), .ofNat (char.toNat % 64 + 0x80)]
    else if char.toNat ≤ 0xFFFF then
      [.ofNat (char.toNat / 4096 % 16 + 0xE0), .ofNat (char.toNat / 64 % 64 + 0x80), .ofNat (char.toNat % 64 + 0x80)]
    else
      [.ofNat (char.toNat / 262144 % 8 + 0xF0), .ofNat (char.toNat / 4096 % 64 + 0x80),
        .ofNat (char.toNat / 64 % 64 + 0x80), .ofNat (char.toNat % 64 + 0x80)] := rfl

theorem toNat_le (char : Char) : char.toNat ≤ 0x10FFFF := by
  rcases char.valid with low | ⟨_, high⟩
  · have below : char.toNat < 0xD800 := low
    omega
  · exact Nat.le_of_lt_succ high

theorem scalar?_eq_some {least value : Nat} {char : Char} :
    scalar? least value = some char ↔ least ≤ value ∧ char.toNat = value := by
  rw [scalar?]
  constructor
  · intro read
    split at read
    next allowed =>
      obtain rfl := Option.some.inj read
      refine ⟨allowed.1, ?_⟩
      rw [Char.ofNat, dif_pos allowed.2]
      exact UInt32.toNat_ofNatLT
    next => cases read
  · rintro ⟨enough, rfl⟩
    rw [if_pos ⟨enough, char.valid⟩, Char.ofNat_toNat]

private theorem ofNat_eq {byte : UInt8} {value : Nat} : UInt8.ofNat value = byte ↔ value % 256 = byte.toNat := by
  rw [← UInt8.toNat_inj, UInt8.toNat_ofNat']

/-- A byte with some bits of a number under a mark that leaves their room free. -/
private theorem marked_eq {byte : UInt8} {value width mark : Nat} (free : width ∣ mark) (some : 0 < width)
    (room : mark + width ≤ 256) : UInt8.ofNat (value % width + mark) = byte ↔
      (mark ≤ byte.toNat ∧ byte.toNat < mark + width) ∧ value % width = byte.toNat % width := by
  obtain ⟨multiple, rfl⟩ := free
  have bits := Nat.mod_lt value some
  rw [ofNat_eq, Nat.mod_eq_of_lt (by omega)]
  constructor
  · intro same
    rw [← same, Nat.add_mul_mod_self_left, Nat.mod_mod]
    omega
  · rintro ⟨⟨above, below⟩, same⟩
    obtain ⟨rest, split⟩ := Nat.exists_eq_add_of_le above
    rw [same, split, Nat.mul_add_mod, Nat.mod_eq_of_lt (by omega), Nat.add_comm]

private theorem continued_eq {byte : UInt8} {value : Nat} : UInt8.ofNat (value % 64 + 0x80) = byte ↔
    (0x80 ≤ byte.toNat ∧ byte.toNat < 0xC0) ∧ value % 64 = byte.toNat % 64 :=
  marked_eq (by decide) (by decide) (by decide)

theorem isContinuation_iff {byte : UInt8} : isContinuation byte = true ↔ 0x80 ≤ byte.toNat ∧ byte.toNat < 0xC0 := by
  simp [isContinuation, UInt8.le_iff_toNat_le, UInt8.lt_iff_toNat_lt]

theorem two?_eq_some {a b : UInt8} {char : Char} : two? a b = some char ↔ encodeChar char = [a, b] := by
  have lead : UInt8.ofNat (char.toNat / 64 % 32 + 0xC0) = a ↔ _ := marked_eq (by decide) (by decide) (by decide)
  simp only [two?, Option.ite_none_right_eq_some, scalar?_eq_some, isContinuation_iff, UInt8.le_iff_toNat_le,
    UInt8.lt_iff_toNat_lt, encodeChar_eq, UInt8.reduceToNat]
  split
  · simp only [List.cons.injEq, reduceCtorEq, and_false, iff_false]
    omega
  · split
    · simp only [List.cons.injEq, lead, continued_eq, and_true]
      omega
    · split
      · simp only [List.cons.injEq, reduceCtorEq, and_false, iff_false]
        omega
      · simp only [List.cons.injEq, reduceCtorEq, and_false, iff_false]
        omega

theorem three?_eq_some {a b c : UInt8} {char : Char} : three? a b c = some char ↔ encodeChar char = [a, b, c] := by
  have lead : UInt8.ofNat (char.toNat / 4096 % 16 + 0xE0) = a ↔ _ := marked_eq (by decide) (by decide) (by decide)
  simp only [three?, Option.ite_none_right_eq_some, scalar?_eq_some, isContinuation_iff, UInt8.le_iff_toNat_le,
    UInt8.lt_iff_toNat_lt, encodeChar_eq, UInt8.reduceToNat]
  split
  · simp only [List.cons.injEq, reduceCtorEq, and_false, iff_false]
    omega
  · split
    · simp only [List.cons.injEq, reduceCtorEq, and_false, iff_false]
      omega
    · split
      · simp only [List.cons.injEq, lead, continued_eq, and_true]
        omega
      · simp only [List.cons.injEq, reduceCtorEq, and_false, iff_false]
        omega

theorem four?_eq_some {a b c d : UInt8} {char : Char} :
    four? a b c d = some char ↔ encodeChar char = [a, b, c, d] := by
  have highest := toNat_le char
  have lead : UInt8.ofNat (char.toNat / 262144 % 8 + 0xF0) = a ↔ _ := marked_eq (by decide) (by decide) (by decide)
  simp only [four?, Option.ite_none_right_eq_some, scalar?_eq_some, isContinuation_iff, UInt8.le_iff_toNat_le,
    UInt8.lt_iff_toNat_lt, encodeChar_eq, UInt8.reduceToNat]
  split
  · simp only [List.cons.injEq, reduceCtorEq, and_false, iff_false]
    omega
  · split
    · simp only [List.cons.injEq, reduceCtorEq, and_false, iff_false]
      omega
    · split
      · simp only [List.cons.injEq, reduceCtorEq, and_false, iff_false]
        omega
      · simp only [List.cons.injEq, lead, continued_eq, and_true]
        omega

theorem two?_eq_none {a b : UInt8} (leading : 0xE0 ≤ a.toNat) : two? a b = none := by
  rw [two?, if_neg]
  simp only [UInt8.le_iff_toNat_le, UInt8.lt_iff_toNat_lt, UInt8.reduceToNat]
  omega

theorem three?_eq_none {a b c : UInt8} (leading : 0xF0 ≤ a.toNat) : three? a b c = none := by
  rw [three?, if_neg]
  simp only [UInt8.le_iff_toNat_le, UInt8.lt_iff_toNat_lt, UInt8.reduceToNat]
  omega

theorem encodeChar_ascii {a : UInt8} (ascii : a < 0x80) : encodeChar (Char.ofNat a.toNat) = [a] := by
  have small : a.toNat < 0x80 := UInt8.lt_iff_toNat_lt.mp ascii
  have read : scalar? 0 a.toNat = some (Char.ofNat a.toNat) := by
    rw [scalar?, if_pos ⟨Nat.zero_le _, .inl (by omega)⟩]
  have number := (scalar?_eq_some.mp read).2
  rw [encodeChar_eq, number, if_pos (by omega), UInt8.ofNat_toNat]

/-- The first byte of a character tells how many follow. -/
theorem encodeChar_cases (char : Char) :
    (∃ a, encodeChar char = [a] ∧ a.toNat < 0x80 ∧ Char.ofNat a.toNat = char) ∨
    (∃ a b, encodeChar char = [a, b] ∧ 0x80 ≤ a.toNat) ∨
    (∃ a b c, encodeChar char = [a, b, c] ∧ 0xE0 ≤ a.toNat) ∨
    ∃ a b c d, encodeChar char = [a, b, c, d] ∧ 0xF0 ≤ a.toNat := by
  rw [encodeChar_eq]
  split
  next small =>
    have number : (UInt8.ofNat char.toNat).toNat = char.toNat := by
      rw [UInt8.toNat_ofNat', Nat.mod_eq_of_lt (by omega)]
    refine .inl ⟨_, rfl, ?_, ?_⟩
    · omega
    · rw [number, Char.ofNat_toNat]
  · split
    · refine .inr (.inl ⟨_, _, rfl, ?_⟩)
      rw [UInt8.toNat_ofNat']
      omega
    · split
      · refine .inr (.inr (.inl ⟨_, _, _, rfl, ?_⟩))
        rw [UInt8.toNat_ofNat']
        omega
      · refine .inr (.inr (.inr ⟨_, _, _, _, rfl, ?_⟩))
        rw [UInt8.toNat_ofNat']
        omega

/-- An ASCII byte is a character of its own. -/
theorem encodeChar_of_mem {char : Char} {byte : UInt8} (member : byte ∈ encodeChar char) (ascii : byte < 0x80) :
    encodeChar char = [byte] := by
  have small : byte.toNat < 0x80 := UInt8.lt_iff_toNat_lt.mp ascii
  rw [encodeChar_eq] at member ⊢
  split at member
  next single => rw [if_pos single, List.mem_singleton.mp member]
  next wide =>
    -- Every byte of a longer form is at least 0x80.
    have high : 0x80 ≤ byte.toNat := by
      split at member
      · simp only [List.mem_cons, List.not_mem_nil, or_false] at member
        rcases member with rfl | rfl <;> rw [UInt8.toNat_ofNat'] <;> omega
      · split at member
        · simp only [List.mem_cons, List.not_mem_nil, or_false] at member
          rcases member with rfl | rfl | rfl <;> rw [UInt8.toNat_ofNat'] <;> omega
        · simp only [List.mem_cons, List.not_mem_nil, or_false] at member
          rcases member with rfl | rfl | rfl | rfl <;> rw [UInt8.toNat_ofNat'] <;> omega
    exact absurd small (Nat.not_lt.mpr high)

theorem decodeFrom_encodeChar (index : Nat) (read : List Char) (char : Char) (rest : Bytes) :
    decodeFrom index read (encodeChar char ++ rest) =
      decodeFrom (index + (encodeChar char).length) (char :: read) rest := by
  have long : ∀ {a : UInt8}, 0x80 ≤ a.toNat → ¬ a < 0x80 := by
    intro a large ascii
    exact Nat.not_lt.mpr large (UInt8.lt_iff_toNat_lt.mp ascii)
  rcases encodeChar_cases char with ⟨a, form, ascii, same⟩ | ⟨a, b, form, leading⟩ | ⟨a, b, c, form, leading⟩ |
    ⟨a, b, c, d, form, leading⟩
  · have short : a < 0x80 := UInt8.lt_iff_toNat_lt.mpr ascii
    rw [form, List.singleton_append, decodeFrom.eq_def]
    simp only [if_pos short, same, List.length_cons, List.length_nil]
  · rw [form, List.cons_append, List.singleton_append, decodeFrom.eq_def]
    simp only [if_neg (long leading), two?_eq_some.mpr form, List.length_cons, List.length_nil]
  · rw [form, List.cons_append, List.cons_append, List.singleton_append, decodeFrom.eq_def]
    simp only [if_neg (long (Nat.le_trans (by decide) leading)), two?_eq_none leading, three?_eq_some.mpr form,
      List.length_cons, List.length_nil]
  · rw [form, List.cons_append, List.cons_append, List.cons_append, List.singleton_append, decodeFrom.eq_def]
    simp only [if_neg (long (Nat.le_trans (by decide) leading)), two?_eq_none (Nat.le_trans (by decide) leading),
      three?_eq_none leading, four?_eq_some.mpr form, List.length_cons, List.length_nil]

theorem decodeFrom_encode (index : Nat) (read text : List Char) (rest : Bytes) :
    decodeFrom index read (encode text ++ rest) =
      decodeFrom (index + (encode text).length) (text.reverse ++ read) rest := by
  induction text generalizing index read with
  | nil => rfl
  | cons char text ih =>
    have split : encode (char :: text) = encodeChar char ++ encode text := rfl
    rw [split, List.append_assoc, decodeFrom_encodeChar, ih, List.length_append, List.reverse_cons,
      List.append_assoc, List.singleton_append, Nat.add_assoc]

theorem encode_of_decodeFrom {index : Nat} {read text : List Char} {bytes : Bytes}
    (decoded : decodeFrom index read bytes = .ok text) : ∃ after, text = read.reverse ++ after ∧ encode after = bytes := by
  have step : ∀ (read : List Char) {char : Char} {front rest : Bytes}, encodeChar char = front →
      (∃ after, text = (char :: read).reverse ++ after ∧ encode after = rest) →
        ∃ after, text = read.reverse ++ after ∧ encode after = front ++ rest := by
    rintro read char front rest rfl ⟨after, rfl, rfl⟩
    exact ⟨char :: after, by simp, rfl⟩
  fun_induction decodeFrom index read bytes with
  | case1 index read =>
    cases decoded
    exact ⟨[], by simp, rfl⟩
  | case2 index read a rest ascii ih => exact step read (encodeChar_ascii ascii) (ih decoded)
  | case4 index read a _ b rest char found ih => exact step read (two?_eq_some.mp found) (ih decoded)
  | case6 index read a _ b _ c rest char found ih => exact step read (three?_eq_some.mp found) (ih decoded)
  | case8 index read a _ b _ c _ d rest char found ih => exact step read (four?_eq_some.mp found) (ih decoded)
  | case3 => cases decoded
  | case5 => cases decoded
  | case7 => cases decoded
  | case9 => cases decoded

theorem decode_encode (text : List Char) : decode (encode text) = .ok text := by
  have whole := decodeFrom_encode 0 [] text []
  rwa [List.append_nil, List.append_nil, decodeFrom, List.reverse_reverse] at whole

theorem decode?_eq_some {bytes : Bytes} {text : List Char} : decode? bytes = some text ↔ encode text = bytes := by
  constructor
  · intro decoded
    rw [decode?, decode] at decoded
    cases found : decodeFrom 0 [] bytes with
    | error index =>
      rw [found] at decoded
      cases decoded
    | ok read =>
      rw [found] at decoded
      obtain rfl : read = text := Option.some.inj decoded
      obtain ⟨after, rfl, written⟩ := encode_of_decodeFrom found
      exact written
  · rintro rfl
    rw [decode?, decode_encode]
    rfl

theorem encode_append (first second : List Char) : encode (first ++ second) = encode first ++ encode second :=
  List.flatMap_append

theorem encodeChar_injective {char other : Char} (same : encodeChar char = encodeChar other) : char = other := by
  have text : encode [char] = encode [other] := by rw [encode, encode, List.flatMap_singleton, List.flatMap_singleton, same]
  exact List.singleton_inj.mp (Option.some.inj ((decode?_eq_some.mpr rfl).symm.trans (decode?_eq_some.mpr text.symm)))
/-- The character that an ASCII byte of a text stands for is in the text. -/
theorem mem_of_mem_encode {text : List Char} {byte : UInt8} (member : byte ∈ encode text) (ascii : byte < 0x80) :
    Char.ofNat byte.toNat ∈ text := by
  obtain ⟨char, inside, found⟩ := List.mem_flatMap.mp member
  have same : Char.ofNat byte.toNat = char :=
    encodeChar_injective ((encodeChar_ascii ascii).trans (encodeChar_of_mem found ascii).symm)
  exact same ▸ inside

end StateAudit.Utf8
