/-
Module: FunctionBundler.Proofs.Base64.RoundTrip
Purpose: The base64 form of a byte string reads back, with blanks around it or without.
Trusted boundary: none
Main exports:
  Base64.decodeGroups_encodeBytes, Base64.decode_encode, Base64.trimBlank_padded
-/
import FunctionBundler.Base64
import FunctionBundler.Proofs.Text.Lines

namespace FunctionBundler

/-!
Symbols are read one by one and bytes are put together from their bits, so the
induction is on groups of three bytes.  The symbols are ASCII letters, digits and
signs: as text they take one byte each, and none of them is blank.
-/

namespace Base64

/-! ### Symbols -/

private theorem bits?_symbol {bits : Nat} (small : bits < 64) :
    bits? (symbol bits) = some bits := by
  have all : ∀ n ∈ List.range 64, bits? (symbol n) = some n := by decide
  exact all bits (List.mem_range.mpr small)

private theorem symbol_ne_pad {bits : Nat} (small : bits < 64) : symbol bits ≠ pad := by
  have all : ∀ n ∈ List.range 64, symbol n ≠ pad := by decide
  exact all bits (List.mem_range.mpr small)

private theorem bitsAt_symbol {bits : Nat} (small : bits < 64) (offset : Nat) :
    bitsAt (symbol bits) offset = .ok bits := by
  rw [bitsAt, bits?_symbol small]

/-- The symbols lie between `+` and `z`, and so does the padding. -/
def Letter (byte : UInt8) : Prop :=
  43 ≤ byte.toNat ∧ byte.toNat ≤ 122

private theorem letter_symbol (bits : Nat) : Letter (symbol bits) := by
  by_cases small : bits < 64
  · have all : ∀ n ∈ List.range 64, 43 ≤ (symbol n).toNat ∧ (symbol n).toNat ≤ 122 := by decide
    exact all bits (List.mem_range.mpr small)
  · have last : symbol bits = 47 := by
      rw [symbol, if_neg (by omega), if_neg (by omega), if_neg (by omega), if_neg (by omega)]
    rw [last]
    exact ⟨by decide, by decide⟩

private theorem letter_pad : Letter pad :=
  ⟨by decide, by decide⟩

private theorem letters_encodeBytes : (bytes : Bytes) → ∀ byte ∈ encodeBytes bytes, Letter byte
  | [] => by simp [encodeBytes]
  | [a] => by simp [encodeBytes, letter_symbol, letter_pad]
  | [a, b] => by simp [encodeBytes, letter_symbol, letter_pad]
  | a :: b :: c :: rest => by
      have others := letters_encodeBytes rest
      simpa [encodeBytes, letter_symbol] using others

/-- Symbols come in groups of four. -/
theorem length_encodeBytes_mod : (bytes : Bytes) → (encodeBytes bytes).length % 4 = 0
  | [] => rfl
  | [a] => by simp [encodeBytes]
  | [a, b] => by simp [encodeBytes]
  | a :: b :: c :: rest => by
      have others := length_encodeBytes_mod rest
      simp only [encodeBytes, List.length_cons]
      omega

/-! ### Groups -/

/-- Four times six bits of three bytes. -/
theorem sextets_lt (a b c : UInt8) :
    a.toNat / 4 < 64 ∧ a.toNat % 4 * 16 + b.toNat / 16 < 64 ∧
      b.toNat % 16 * 4 + c.toNat / 64 < 64 ∧ c.toNat % 64 < 64 := by
  have ofA := a.toNat_lt
  have ofB := b.toNat_lt
  have ofC := c.toNat_lt
  omega

private theorem triple_bits (a b c : UInt8) :
    triple (a.toNat / 4) (a.toNat % 4 * 16 + b.toNat / 16) (b.toNat % 16 * 4 + c.toNat / 64)
      (c.toNat % 64) = [a, b, c] := by
  have ofA := a.toNat_lt
  have ofB := b.toNat_lt
  have ofC := c.toNat_lt
  have first : a.toNat / 4 * 4 + (a.toNat % 4 * 16 + b.toNat / 16) / 16 = a.toNat := by omega
  have second : (a.toNat % 4 * 16 + b.toNat / 16) % 16 * 16 +
      (b.toNat % 16 * 4 + c.toNat / 64) / 4 = b.toNat := by omega
  have third : (b.toNat % 16 * 4 + c.toNat / 64) % 4 * 64 + c.toNat % 64 = c.toNat := by omega
  rw [triple, first, second, third, UInt8.ofNat_toNat, UInt8.ofNat_toNat, UInt8.ofNat_toNat]

private theorem readTail_symbol {bits : Nat} (small : bits < 64) (start index : Nat)
    (symbols : List (UInt8 × Nat × Nat)) (rest : Bytes) :
    readTail start index ⟨symbols, none, 0⟩ (symbol bits :: rest) =
      readTail start (index + 1) ⟨symbols ++ [(symbol bits, start + index, bits)], none, 0⟩
        rest := by
  rw [readTail, if_neg (symbol_ne_pad small), bitsAt_symbol small]
  rfl

private theorem decodeTail_one (start : Nat) (a : UInt8) :
    decodeTail start (encodeBytes [a]) = .ok [a] := by
  obtain ⟨first, -, -, -⟩ := sextets_lt a 0 0
  have second : a.toNat % 4 * 16 < 64 := by omega
  have filled : a.toNat % 4 * 16 % 16 = 0 := by omega
  have read : readTail start 0 ⟨[], none, 0⟩ (encodeBytes [a]) =
      .ok ⟨[(symbol (a.toNat / 4), start + 0, a.toNat / 4),
        (symbol (a.toNat % 4 * 16), start + 1, a.toNat % 4 * 16)], some 2, 2⟩ := by
    rw [encodeBytes, readTail_symbol first, readTail_symbol second]
    rfl
  have whole := triple_bits a 0 0
  simp only [UInt8.toNat_zero, Nat.zero_div, Nat.zero_mod, Nat.zero_mul, Nat.add_zero] at whole
  rw [decodeTail, read]
  simp [bind, Except.bind, filled, whole]

private theorem decodeTail_two (start : Nat) (a b : UInt8) :
    decodeTail start (encodeBytes [a, b]) = .ok [a, b] := by
  obtain ⟨first, second, -, -⟩ := sextets_lt a b 0
  have third : b.toNat % 16 * 4 < 64 := by omega
  have filled : b.toNat % 16 * 4 % 4 = 0 := by omega
  have read : readTail start 0 ⟨[], none, 0⟩ (encodeBytes [a, b]) =
      .ok ⟨[(symbol (a.toNat / 4), start + 0, a.toNat / 4),
        (symbol (a.toNat % 4 * 16 + b.toNat / 16), start + 1, a.toNat % 4 * 16 + b.toNat / 16),
        (symbol (b.toNat % 16 * 4), start + 2, b.toNat % 16 * 4)], some 3, 1⟩ := by
    rw [encodeBytes, readTail_symbol first, readTail_symbol second, readTail_symbol third]
    rfl
  have whole := triple_bits a b 0
  simp only [UInt8.toNat_zero, Nat.zero_div, Nat.zero_mod, Nat.add_zero] at whole
  rw [decodeTail, read]
  simp [bind, Except.bind, filled, whole]

private theorem decodeTail_three (start : Nat) (a b c : UInt8) :
    decodeTail start (encodeBytes [a, b, c]) = .ok [a, b, c] := by
  obtain ⟨first, second, third, fourth⟩ := sextets_lt a b c
  rw [encodeBytes, encodeBytes, decodeTail, readTail_symbol first, readTail_symbol second,
    readTail_symbol third, readTail_symbol fourth]
  exact congrArg Except.ok (triple_bits a b c)

private theorem encodeBytes_ne_nil (byte : UInt8) : (rest : Bytes) → encodeBytes (byte :: rest) ≠ []
  | [] => List.cons_ne_nil _ _
  | [_] => List.cons_ne_nil _ _
  | _ :: _ :: _ => List.cons_ne_nil _ _

/-- Groups of symbols are read back, wherever they begin. -/
theorem decodeGroups_encodeBytes : (start : Nat) → (bytes : Bytes) →
    decodeGroups start (encodeBytes bytes) = .ok bytes
  | start, [] => rfl
  | start, [a] => by
      rw [← decodeTail_one start a]
      rfl
  | start, [a, b] => by
      rw [← decodeTail_two start a b, encodeBytes]
      rfl
  | start, [a, b, c] => by
      rw [← decodeTail_three start a b c, encodeBytes, encodeBytes]
      rfl
  -- Only here is a group not the last one: the bytes after it have symbols as well.
  | start, a :: b :: c :: d :: rest => by
      have others := decodeGroups_encodeBytes (start + 4) (d :: rest)
      obtain ⟨next, more, same⟩ := List.exists_cons_of_ne_nil (encodeBytes_ne_nil d rest)
      obtain ⟨first, second, third, fourth⟩ := sextets_lt a b c
      rw [encodeBytes, same, decodeGroups, bitsAt_symbol first, bitsAt_symbol second,
        bitsAt_symbol third, bitsAt_symbol fourth, ← same, others]
      have group := triple_bits a b c
      simp [bind, Except.bind, pure, Except.pure, group]

/-- The symbols of a byte string read back. -/
theorem decodeBytes_encodeBytes (bytes : Bytes) : decodeBytes (encodeBytes bytes) = .ok bytes := by
  have whole : strayByte? (encodeBytes bytes) = none := by
    rw [strayByte?, if_neg (by rw [length_encodeBytes_mod]; decide)]
  rw [decodeBytes, whole]
  exact decodeGroups_encodeBytes 0 bytes

/-! ### Text -/

private theorem toNat_ofNat_letter {byte : UInt8} (letter : Letter byte) :
    (Char.ofNat byte.toNat).toNat = byte.toNat := by
  have valid : byte.toNat.isValidChar := Or.inl (Nat.lt_of_le_of_lt letter.2 (by decide))
  rw [Char.ofNat, dif_pos valid]
  rfl

private theorem not_isBlank_letter {byte : UInt8} (letter : Letter byte) :
    Text.isBlank (Char.ofNat byte.toNat) = false := by
  obtain ⟨low, high⟩ := letter
  rw [Text.isBlank, toNat_ofNat_letter ⟨low, high⟩]
  simp
  omega

private theorem utf8EncodeChar_letter {byte : UInt8} (letter : Letter byte) :
    String.utf8EncodeChar (Char.ofNat byte.toNat) = [byte] := by
  have same := toNat_ofNat_letter letter
  have small : (Char.ofNat byte.toNat).utf8Size = 1 := by
    rw [Char.utf8Size_eq_one_iff, UInt32.le_iff_toNat_le, ← Char.toNat, same]
    exact Nat.le_trans letter.2 (by decide)
  rw [String.utf8EncodeChar_eq_singleton small]
  congr 1
  apply UInt8.toNat_inj.mp
  rw [UInt32.toNat_toUInt8, ← Char.toNat, same]
  exact Nat.mod_eq_of_lt byte.toNat_lt

private theorem ofText_letters {bytes : Bytes} (letters : ∀ byte ∈ bytes, Letter byte) :
    Bytes.ofText (String.ofList (bytes.map fun byte => Char.ofNat byte.toNat)) = bytes := by
  rw [Bytes.ofText, String.toByteArray_ofList]
  induction bytes with
  | nil => rfl
  | cons byte rest ih =>
      rw [List.map_cons, List.utf8Encode_cons, List.utf8Encode_singleton,
        utf8EncodeChar_letter (letters byte List.mem_cons_self)]
      have others := ih fun other member => letters other (List.mem_cons_of_mem _ member)
      simp [others]

theorem ofText_encode (bytes : Bytes) : Bytes.ofText (encode bytes) = encodeBytes bytes :=
  ofText_letters (letters_encodeBytes bytes)

/-- Bytes are read back from their base64 form. -/
@[simp] theorem decode_encode (bytes : Bytes) : decode (encode bytes) = .ok bytes := by
  rw [decode, ofText_encode, decodeBytes_encodeBytes]

end Base64

/-- A base64 text has no blanks to trim but those around it. -/
theorem Base64.trimBlank_padded (bytes : Bytes) {before after : List Char}
    (blankBefore : ∀ c ∈ before, Text.isBlank c = true)
    (blankAfter : ∀ c ∈ after, Text.isBlank c = true) :
    Text.trimBlank (before ++ ((encode bytes).toList ++ after)) = (encode bytes).toList := by
  apply Text.trimBlank_padded blankBefore _ blankAfter
  intro c member
  rw [encode, String.toList_ofList] at member
  obtain ⟨byte, byteMember, rfl⟩ := List.mem_map.mp member
  exact not_isBlank_letter (letters_encodeBytes bytes byte byteMember)

/-- There is nothing to trim from a base64 form. -/
theorem Base64.trimBlank_encode (bytes : Bytes) :
    Text.trimBlank (encode bytes).toList = (encode bytes).toList := by
  have trimmed := trimBlank_padded bytes (List.forall_mem_nil _) (List.forall_mem_nil _)
  rwa [List.nil_append, List.append_nil] at trimmed

end FunctionBundler
