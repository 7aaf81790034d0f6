/-
Module: FunctionBundler.Proofs.Base64.Canonical
Purpose: Every byte string has one base64 form, and nothing else is read as it.
Trusted boundary: none
Main exports:
  Base64.alphabet, Base64.Spells, Base64.spells_iff, Base64.decode_eq_ok_iff, Base64.spelled_once
-/
import FunctionBundler.Bits
import FunctionBundler.Deploy.Plan
import FunctionBundler.Manifest
import FunctionBundler.Proofs.Base64.RoundTrip
import FunctionBundler.Proofs.Fallible
import Mathlib.Algebra.Group.Nat.Defs

namespace FunctionBundler

/-!
`Base64.Spells` says what the base64 form of bytes is without saying how it is computed:
their bits, six at a time, in the standard alphabet.  Zero bits complete the last six, and
`=` the last four symbols, no more of either than needed.  Bits cut into words can be put
together again, so there is one such form.  A reader that accepted another one would take
a changed archive for the deployed one, or two spellings of a blob for two blobs.
-/

namespace Bits

/-! ### Words of bits -/

private theorem ofNat_add (low high number : Nat) :
    ofNat (low + high) number = ofNat low number ++ ofNat high (number / 2 ^ low) := by
  induction low generalizing number with
  | zero => simp [ofNat]
  | succ low ih =>
      rw [Nat.succ_add, ofNat, ofNat, ih, List.cons_append, Nat.div_div_eq_div_mul, Nat.pow_succ']

private theorem ofNat_mod (width number : Nat) :
    ofNat width (number % 2 ^ width) = ofNat width number := by
  induction width generalizing number with
  | zero => rfl
  | succ width ih =>
      have parity : number % 2 ^ (width + 1) % 2 = number % 2 :=
        Nat.mod_mod_of_dvd number (Nat.pow_succ' ▸ Nat.dvd_mul_right 2 (2 ^ width))
      have half : number % 2 ^ (width + 1) / 2 = number / 2 % 2 ^ width := by
        rw [Nat.pow_succ', Nat.mod_mul_right_div_self]
      rw [ofNat, ofNat, parity, half, ih]

private theorem length_word (width number : Nat) : (word width number).length = width := by
  rw [word, List.length_reverse, length_ofNat]

private theorem word_zero (width : Nat) : word width 0 = List.replicate width false := by
  rw [word, ← List.reverse_replicate]
  congr 1
  induction width with
  | zero => rfl
  | succ width ih => rw [ofNat, Nat.zero_div, ih]; rfl

/-- A word behind another one is a word of the number that both write. -/
theorem word_append {low lower : Nat} (small : lower < 2 ^ low) (high upper : Nat) :
    word high upper ++ word low lower = word (high + low) (upper * 2 ^ low + lower) := by
  have quotient : (upper * 2 ^ low + lower) / 2 ^ low = upper := by
    rw [Nat.mul_comm, Nat.mul_add_div (Nat.two_pow_pos low), Nat.div_eq_of_lt small, Nat.add_zero]
  have remainder : (upper * 2 ^ low + lower) % 2 ^ low = lower := by
    rw [Nat.mul_comm, Nat.mul_add_mod, Nat.mod_eq_of_lt small]
  rw [word, word, word, Nat.add_comm high, ofNat_add, quotient, List.reverse_append,
    ← ofNat_mod low (upper * 2 ^ low + lower), remainder]

private theorem word_inj {width first second : Nat} (firstFits : first < 2 ^ width)
    (secondFits : second < 2 ^ width) (same : word width first = word width second) :
    first = second := by
  have numbers := congrArg toNat (List.reverse_inj.mp same)
  rwa [toNat_ofNat, toNat_ofNat, Nat.pow_eq, Nat.mod_eq_of_lt firstFits,
    Nat.mod_eq_of_lt secondFits] at numbers

/-- Words of a known width can be told apart in a row. -/
theorem flatMap_word_inj {width : Nat} {first second : List Nat}
    (lengths : first.length = second.length) (firstFits : ∀ number ∈ first, number < 2 ^ width)
    (secondFits : ∀ number ∈ second, number < 2 ^ width)
    (same : first.flatMap (word width) = second.flatMap (word width)) : first = second := by
  induction first generalizing second with
  | nil => exact (List.length_eq_zero_iff.mp lengths.symm).symm
  | cons number first ih =>
      obtain ⟨other, second, rfl⟩ := List.exists_cons_of_length_eq_add_one lengths.symm
      obtain ⟨numberFits, firstFits⟩ := List.forall_mem_cons.mp firstFits
      obtain ⟨otherFits, secondFits⟩ := List.forall_mem_cons.mp secondFits
      rw [List.flatMap_cons, List.flatMap_cons] at same
      obtain ⟨words, others⟩ := List.append_inj same (by rw [length_word, length_word])
      rw [word_inj numberFits otherFits words,
        ih (Nat.succ.inj lengths) firstFits secondFits others]

private theorem length_flatMap_word (width : Nat) (numbers : List Nat) :
    (numbers.flatMap (word width)).length = width * numbers.length := by
  induction numbers with
  | nil => rfl
  | cons number numbers ih =>
      rw [List.flatMap_cons, List.length_append, length_word, ih, List.length_cons, Nat.mul_succ,
        Nat.add_comm]

end Bits

namespace Base64

/-! ### The written form -/

/-- The symbols of the standard alphabet, in the order of the numbers that they stand for. -/
def alphabet : List Char :=
  "ABCDEFGHIJKLMNOPQRSTUVWXYZabcdefghijklmnopqrstuvwxyz0123456789+/".toList

/-- The bits of a byte string, each byte from its highest bit down. -/
def bitsOf (bytes : Bytes) : Bits :=
  bytes.flatMap fun byte => Bits.word 8 byte.toNat

/-- A text is the base64 form of bytes: symbols of the alphabet for their bits, six at a time, with
fewer than six zero bits to complete the last symbol, and then no more `=` than it takes to make the
number of symbols divisible by four. -/
inductive Spells (text : String) (bytes : Bytes) : Prop where
  | groups {numbers : List Nat} {symbols : List Char} {spare pads : Nat}
      (bits : numbers.flatMap (Bits.word 6) = bitsOf bytes ++ List.replicate spare false)
      (fewBits : spare < 6) (standard : numbers.map (alphabet[·]?) = symbols.map some)
      (written : text.toList = symbols ++ List.replicate pads '=') (fewPads : pads < 4)
      (whole : 4 ∣ text.toList.length)

private theorem lt_of_standard {numbers : List Nat} {symbols : List Char}
    (standard : numbers.map (alphabet[·]?) = symbols.map some) :
    ∀ number ∈ numbers, number < 2 ^ 6 := by
  intro number member
  have found : alphabet[number]? ∈ symbols.map some := standard ▸ List.mem_map_of_mem member
  obtain ⟨symbol, -, same⟩ := List.mem_map.mp found
  exact (List.getElem?_eq_some_iff.mp same.symm).1

/-- A byte string has one base64 form. -/
theorem Spells.unique {first second : String} {bytes : Bytes} (spells : Spells first bytes)
    (others : Spells second bytes) : first = second := by
  obtain ⟨bits, fewBits, standard, written, fewPads, whole⟩ := spells
  obtain ⟨otherBits, otherFewBits, otherStandard, otherWritten, otherFewPads, otherWhole⟩ := others
  rename_i numbers symbols spare pads otherNumbers otherSymbols otherSpare otherPads
  have length := congrArg List.length bits
  have otherLength := congrArg List.length otherBits
  rw [Bits.length_flatMap_word, List.length_append, List.length_replicate] at length otherLength
  -- The number of spare bits is what is missing to a multiple of six.
  have sameSpare : spare = otherSpare := by omega
  have sameNumbers : numbers = otherNumbers := by
    refine Bits.flatMap_word_inj (by omega) (lt_of_standard standard)
      (lt_of_standard otherStandard) ?_
    rw [bits, otherBits, sameSpare]
  subst sameNumbers
  have sameSymbols : symbols = otherSymbols :=
    List.map_inj_right (fun _ _ => Option.some.inj) |>.mp (standard.symm.trans otherStandard)
  subst sameSymbols
  rw [written, List.length_append, List.length_replicate] at whole
  rw [otherWritten, List.length_append, List.length_replicate] at otherWhole
  have samePads : pads = otherPads := by omega
  rw [← String.toList_inj, written, otherWritten, samePads]

private theorem words_one (a : UInt8) :
    Bits.word 6 (a.toNat / 4) ++ Bits.word 6 (a.toNat % 4 * 16) =
      Bits.word 8 a.toNat ++ List.replicate 4 false := by
  have second : a.toNat % 4 * 16 < 2 ^ 6 := by omega
  have spare : 0 < 2 ^ 4 := by decide
  rw [← Bits.word_zero, Bits.word_append second, Bits.word_append spare]
  congr 1
  omega

private theorem words_two (a b : UInt8) :
    Bits.word 6 (a.toNat / 4) ++ Bits.word 6 (a.toNat % 4 * 16 + b.toNat / 16) ++
      Bits.word 6 (b.toNat % 16 * 4) =
    Bits.word 8 a.toNat ++ Bits.word 8 b.toNat ++ List.replicate 2 false := by
  have second : a.toNat % 4 * 16 + b.toNat / 16 < 2 ^ 6 := (sextets_lt a b 0).2.1
  have third : b.toNat % 16 * 4 < 2 ^ 6 := by omega
  have spare : 0 < 2 ^ 2 := by decide
  rw [← Bits.word_zero, Bits.word_append second, Bits.word_append third,
    Bits.word_append b.toNat_lt, Bits.word_append spare]
  congr 1
  omega

private theorem words_three (a b c : UInt8) :
    Bits.word 6 (a.toNat / 4) ++ Bits.word 6 (a.toNat % 4 * 16 + b.toNat / 16) ++
      Bits.word 6 (b.toNat % 16 * 4 + c.toNat / 64) ++ Bits.word 6 (c.toNat % 64) =
    Bits.word 8 a.toNat ++ Bits.word 8 b.toNat ++ Bits.word 8 c.toNat := by
  obtain ⟨-, second, third, fourth⟩ := sextets_lt a b c
  change _ < 2 ^ 6 at second third fourth
  rw [Bits.word_append second, Bits.word_append third, Bits.word_append fourth,
    Bits.word_append b.toNat_lt, Bits.word_append c.toNat_lt]
  congr 1
  omega

/-- The symbols of a byte string are those of its bits, with what is missing at the end. -/
theorem exists_groups : (bytes : Bytes) → ∃ (numbers : List Nat) (spare pads : Nat),
    numbers.flatMap (Bits.word 6) = bitsOf bytes ++ List.replicate spare false ∧ spare < 6 ∧
      (∀ number ∈ numbers, number < 64) ∧
      encodeBytes bytes = numbers.map symbol ++ List.replicate pads pad ∧ pads < 4
  | [] => ⟨[], 0, 0, rfl, by decide, by simp, rfl, by decide⟩
  | [a] => by
      have bits := words_one a
      obtain ⟨first, -⟩ := sextets_lt a 0 0
      refine ⟨[_, _], 4, 2, by simpa [bitsOf] using bits, by decide, ?_, rfl, by decide⟩
      simp only [List.forall_mem_cons]
      exact ⟨first, by omega, List.forall_mem_nil _⟩
  | [a, b] => by
      have bits := words_two a b
      obtain ⟨first, second, -⟩ := sextets_lt a b 0
      refine ⟨[_, _, _], 2, 1, by simpa [bitsOf] using bits, by decide, ?_, rfl, by decide⟩
      simp only [List.forall_mem_cons]
      exact ⟨first, second, by omega, List.forall_mem_nil _⟩
  | a :: b :: c :: rest => by
      have bits := words_three a b c
      obtain ⟨first, second, third, fourth⟩ := sextets_lt a b c
      obtain ⟨numbers, spare, pads, others, few, small, symbols, padded⟩ := exists_groups rest
      refine ⟨a.toNat / 4 :: (a.toNat % 4 * 16 + b.toNat / 16) ::
        (b.toNat % 16 * 4 + c.toNat / 64) :: c.toNat % 64 :: numbers, spare, pads, ?_, few, ?_, ?_,
        padded⟩
      · have row := congrArg (· ++ numbers.flatMap (Bits.word 6)) bits
        simpa [bitsOf, others] using row
      · simp only [List.forall_mem_cons]
        exact ⟨first, second, third, fourth, small⟩
      · rw [encodeBytes, symbols]
        rfl

private theorem alphabet_getElem? {number : Nat} (small : number < 64) :
    alphabet[number]? = some (Char.ofNat (symbol number).toNat) := by
  have all : ∀ n ∈ List.range 64, alphabet[n]? = some (Char.ofNat (symbol n).toNat) := by decide
  exact all number (List.mem_range.mpr small)

/-- The symbols of a byte string are written for it. -/
theorem spells_encode (bytes : Bytes) : Spells (encode bytes) bytes := by
  obtain ⟨numbers, spare, pads, bits, fewBits, small, symbols, fewPads⟩ := exists_groups bytes
  have whole : (encode bytes).toList.length % 4 = 0 := by
    rw [encode, String.toList_ofList, List.length_map, length_encodeBytes_mod]
  refine @Spells.groups _ _ numbers (numbers.map fun number => Char.ofNat (symbol number).toNat)
    spare pads bits fewBits ?_ ?_ fewPads (Nat.dvd_of_mod_eq_zero whole)
  · rw [List.map_map]
    exact List.map_congr_left fun number member => alphabet_getElem? (small number member)
  · rw [encode, String.toList_ofList, symbols, List.map_append, List.map_map, List.map_replicate]
    rfl

/-- Bytes are spelled by their base64 form only. -/
theorem spells_iff {text : String} {bytes : Bytes} : Spells text bytes ↔ text = encode bytes :=
  ⟨fun spells => spells.unique (spells_encode bytes), fun same => same ▸ spells_encode bytes⟩

/-! ### What is read -/

/-- Only a symbol stands for a number. -/
theorem symbol_of_bits? {byte : UInt8} {bits : Nat} (read : bits? byte = some bits) :
    bits < 64 ∧ symbol bits = byte := by
  have all : ∀ n < 256, (bits? (UInt8.ofNat n)).all
      fun bits => bits < 64 ∧ symbol bits = UInt8.ofNat n := by decide +kernel
  have found := all byte.toNat byte.toNat_lt_size
  rw [UInt8.ofNat_toNat, read, Option.all_some, decide_eq_true_iff] at found
  exact found

private theorem of_bitsAt {byte : UInt8} {offset bits : Nat}
    (read : bitsAt byte offset = .ok bits) :
    bits < 64 ∧ symbol bits = byte := by
  rw [bitsAt] at read
  split at read
  case h_1 found =>
      cases read
      exact symbol_of_bits? found
  case h_2 => cases read

/-- The first byte of four symbols. -/
theorem toNat_first {w x : Nat} (ofW : w < 64) (ofX : x < 64) :
    (UInt8.ofNat (w * 4 + x / 16)).toNat = w * 4 + x / 16 :=
  UInt8.toNat_ofNat_of_lt' (by change _ < 256; omega)

/-- The second byte of four symbols. -/
theorem toNat_second {x y : Nat} (ofY : y < 64) :
    (UInt8.ofNat (x % 16 * 16 + y / 4)).toNat = x % 16 * 16 + y / 4 :=
  UInt8.toNat_ofNat_of_lt' (by change _ < 256; omega)

/-- Four symbols are those of the bytes that are read from them. -/
theorem encodeBytes_triple_append {w x y z : Nat} (ofW : w < 64) (ofX : x < 64) (ofY : y < 64)
    (ofZ : z < 64) (rest : Bytes) :
    encodeBytes (triple w x y z ++ rest) =
      symbol w :: symbol x :: symbol y :: symbol z :: encodeBytes rest := by
  have third : (UInt8.ofNat (y % 4 * 64 + z)).toNat = y % 4 * 64 + z :=
    UInt8.toNat_ofNat_of_lt' (by change _ < 256; omega)
  have ofFirst : (w * 4 + x / 16) / 4 = w := by omega
  have ofSecond : (w * 4 + x / 16) % 4 * 16 + (x % 16 * 16 + y / 4) / 16 = x := by omega
  have ofThird : (x % 16 * 16 + y / 4) % 16 * 4 + (y % 4 * 64 + z) / 64 = y := by omega
  have ofFourth : (y % 4 * 64 + z) % 64 = z := by omega
  rw [triple, List.cons_append, List.cons_append, List.cons_append, List.nil_append, encodeBytes,
    toNat_first ofW ofX, toNat_second ofY, third, ofFirst, ofSecond, ofThird, ofFourth]

private theorem encodeBytes_two {w x y : Nat} (ofW : w < 64) (ofX : x < 64) (ofY : y < 64)
    (clear : y % 4 = 0) :
    encodeBytes ((triple w x y 0).take 2) = [symbol w, symbol x, symbol y, pad] := by
  have ofFirst : (w * 4 + x / 16) / 4 = w := by omega
  have ofSecond : (w * 4 + x / 16) % 4 * 16 + (x % 16 * 16 + y / 4) / 16 = x := by omega
  have ofThird : (x % 16 * 16 + y / 4) % 16 * 4 = y := by omega
  rw [triple, List.take_succ_cons, List.take_succ_cons, List.take_zero, encodeBytes,
    toNat_first ofW ofX, toNat_second ofY, ofFirst, ofSecond, ofThird]

private theorem encodeBytes_one {w x : Nat} (ofW : w < 64) (ofX : x < 64) (clear : x % 16 = 0) :
    encodeBytes ((triple w x 0 0).take 1) = [symbol w, symbol x, pad, pad] := by
  have ofFirst : (w * 4 + x / 16) / 4 = w := by omega
  have ofSecond : (w * 4 + x / 16) % 4 * 16 = x := by omega
  rw [triple, List.take_succ_cons, List.take_zero, encodeBytes, toNat_first ofW ofX, ofFirst,
    ofSecond]

/-! ### The last group -/

private theorem readTail_padded {start index : Nat} {bytes : Bytes} {tail result : Tail}
    {first : Nat}
    (padded : tail.firstPad = some first) (read : readTail start index tail bytes = .ok result) :
    result.symbols = tail.symbols ∧
      ∃ more, bytes = List.replicate more pad ∧ result.pads = tail.pads + more := by
  induction bytes generalizing index tail with
  | nil =>
      cases read
      exact ⟨rfl, 0, rfl, rfl⟩
  | cons byte rest ih =>
      rw [readTail] at read
      split at read
      case isTrue isPad =>
          split at read
          case isTrue => cases read
          case isFalse =>
              obtain ⟨same, more, rfl, counted⟩ := ih (congrArg some (by rw [padded]; rfl)) read
              refine ⟨same, more + 1, by rw [isPad]; rfl, ?_⟩
              rw [counted, Nat.add_assoc, Nat.add_comm 1]
      case isFalse =>
          rw [padded] at read
          cases read

/-- What is read of a last group: symbols, each with its number, and then paddings. -/
theorem readTail_eq_ok {start index : Nat} {bytes : Bytes} {known : List (UInt8 × Nat × Nat)}
    {result : Tail} (read : readTail start index ⟨known, none, 0⟩ bytes = .ok result) :
    ∃ found, result.symbols = known ++ found ∧
      (∀ item ∈ found, item.2.2 < 64 ∧ symbol item.2.2 = item.1) ∧
      bytes = found.map (·.1) ++ List.replicate result.pads pad := by
  induction bytes generalizing index known with
  | nil =>
      cases read
      exact ⟨[], (List.append_nil known).symm, List.forall_mem_nil _, rfl⟩
  | cons byte rest ih =>
      rw [readTail] at read
      split at read
      case isTrue isPad =>
          split at read
          case isTrue => cases read
          case isFalse =>
              obtain ⟨same, more, rfl, counted⟩ := readTail_padded rfl read
              refine ⟨[], by rw [same, List.append_nil], List.forall_mem_nil _, ?_⟩
              rw [counted, isPad, Nat.add_comm]
              rfl
      case isFalse =>
          obtain ⟨bits, stands, read⟩ := bind_eq_ok_iff.mp read
          obtain ⟨found, same, stand, rfl⟩ := ih read
          refine ⟨(byte, start + index, bits) :: found, ?_,
            List.forall_mem_cons.mpr ⟨of_bitsAt stands, stand⟩, rfl⟩
          rw [same, List.append_assoc]
          rfl

/-- The bytes of a last group are written as the group. -/
theorem encodeBytes_of_decodeTail {start : Nat} {text bytes : Bytes} (short : text.length ≤ 4)
    (read : decodeTail start text = .ok bytes) : encodeBytes bytes = text := by
  rw [decodeTail] at read
  obtain ⟨⟨symbols, firstPad, pads⟩, tailRead, read⟩ := bind_eq_ok_iff.mp read
  obtain ⟨found, same, stand, rfl⟩ := readTail_eq_ok tailRead
  cases same
  dsimp only at read stand short ⊢
  rcases symbols with _ | ⟨⟨_, _, a⟩, _ | ⟨⟨_, _, b⟩, _ | ⟨⟨_, _, c⟩, _ | ⟨⟨_, _, d⟩, more⟩⟩⟩⟩
  · dsimp only at read
    split at read
    case isTrue empty =>
        cases read
        exact (List.isEmpty_iff.mp empty).symm
    case isFalse => cases read
  · cases read
  · dsimp only at read
    split at read
    case isTrue => cases read
    case isFalse two =>
        split at read
        case isTrue => cases read
        case isFalse clear =>
            cases read
            simp only [List.forall_mem_cons] at stand
            obtain ⟨⟨ofA, rfl⟩, ⟨ofB, rfl⟩, -⟩ := stand
            rw [encodeBytes_one ofA ofB (Decidable.not_not.mp clear), Decidable.not_not.mp two]
            rfl
  · dsimp only at read
    split at read
    case isTrue => cases read
    case isFalse one =>
        split at read
        case isTrue => cases read
        case isFalse clear =>
            cases read
            simp only [List.forall_mem_cons] at stand
            obtain ⟨⟨ofA, rfl⟩, ⟨ofB, rfl⟩, ⟨ofC, rfl⟩, -⟩ := stand
            rw [encodeBytes_two ofA ofB ofC (Decidable.not_not.mp clear), Decidable.not_not.mp one]
            rfl
  · cases read
    simp only [List.forall_mem_cons] at stand
    obtain ⟨⟨ofA, rfl⟩, ⟨ofB, rfl⟩, ⟨ofC, rfl⟩, ⟨ofD, rfl⟩, -⟩ := stand
    simp only [List.map_cons, List.cons_append, List.length_cons, List.length_append,
      List.length_map, List.length_replicate] at short
    have none : more = [] := List.length_eq_zero_iff.mp (by omega)
    have unpadded : pads = 0 := by omega
    subst none unpadded
    exact encodeBytes_triple_append ofA ofB ofC ofD []

/-- Whole groups are read up to the last one, and written one after the other again. -/
theorem encodeBytes_of_decodeGroups {start : Nat} {text bytes : Bytes}
    (read : decodeGroups start text = .ok bytes) : encodeBytes bytes = text := by
  induction start, text using decodeGroups.induct generalizing bytes with
  | case1 start a b c d e rest ih =>
      rw [decodeGroups] at read
      obtain ⟨w, first, read⟩ := bind_eq_ok_iff.mp read
      obtain ⟨x, second, read⟩ := bind_eq_ok_iff.mp read
      obtain ⟨y, third, read⟩ := bind_eq_ok_iff.mp read
      obtain ⟨z, fourth, read⟩ := bind_eq_ok_iff.mp read
      obtain ⟨others, otherRead, same⟩ := bind_eq_ok_iff.mp read
      cases same
      obtain ⟨ofW, rfl⟩ := of_bitsAt first
      obtain ⟨ofX, rfl⟩ := of_bitsAt second
      obtain ⟨ofY, rfl⟩ := of_bitsAt third
      obtain ⟨ofZ, rfl⟩ := of_bitsAt fourth
      rw [encodeBytes_triple_append ofW ofX ofY ofZ, ih otherRead]
  | case2 start text last =>
      have short : text.length ≤ 4 := by
        rcases text with _ | ⟨a, _ | ⟨b, _ | ⟨c, _ | ⟨d, _ | ⟨e, rest⟩⟩⟩⟩⟩
        case cons.cons.cons.cons.cons => exact absurd rfl (last a b c d e rest)
        all_goals simp
      rw [decodeGroups] at read
      · exact encodeBytes_of_decodeTail short read
      · exact last

private theorem decodeBytes_eq_ok_iff {text bytes : Bytes} :
    decodeBytes text = .ok bytes ↔ text = encodeBytes bytes := by
  constructor
  · intro read
    rw [decodeBytes] at read
    split at read
    case h_1 => cases read
    case h_2 => exact (encodeBytes_of_decodeGroups read).symm
  · rintro rfl
    exact decodeBytes_encodeBytes bytes

private theorem ofText_inj {first second : String}
    (same : Bytes.ofText first = Bytes.ofText second) :
    first = second := by
  have read := congrArg Bytes.text? same
  rw [Bytes.text?_ofText, Bytes.text?_ofText] at read
  exact Option.some.inj read

/-- Only the base64 form of bytes is read as these bytes. -/
theorem decode_eq_ok_iff {text : String} {bytes : Bytes} :
    decode text = .ok bytes ↔ text = encode bytes := by
  rw [decode, decodeBytes_eq_ok_iff, ← ofText_encode]
  exact ⟨ofText_inj, congrArg Bytes.ofText⟩

end Base64

/-! ### Reported digests and metadata blobs -/

/-- A text without the blanks around it. -/
def Text.trimmed (text : String) : String :=
  String.ofList (Text.trimBlank text.toList)

private theorem Digest.matches_iff {digest : Digest} {reported : String} :
    digest.matches reported = true ↔ Text.trimmed reported = digest.base64 := by
  rw [base64, ← Base64.decode_eq_ok_iff, Digest.matches, Text.trimmed]
  cases Base64.decode (String.ofList (Text.trimBlank reported.toList)) with
  | error fault => simp
  | ok bytes => simp

/-- Digests of one base64 form are one. -/
theorem Digest.base64_inj {first second : Digest} (same : first.base64 = second.base64) :
    first = second := by
  have read := congrArg Base64.decode same
  rw [base64, base64, Base64.decode_encode, Base64.decode_encode] at read
  cases first
  cases second
  cases read
  rfl

private theorem EntryPoint.blob_eq_ok_iff {entry : EntryPoint} {blob : Bytes} :
    entry.blob = .ok blob ↔ Text.trimmed entry.metadata = Base64.encode blob :=
  Base64.decode_eq_ok_iff

namespace Base64

/-- Digests and metadata blobs are spelled in one way only.  A reported text matches a digest, and
the metadata of an entry point give a blob, exactly if what is left of it between blanks is their
base64 form, which is the only text that is read as them.  So a blob is spelled by one text without
blanks around it, and no text matches two digests. -/
theorem spelled_once :
    (∀ text bytes, (decode text = .ok bytes ↔ Spells text bytes) ∧
      (text = encode bytes ↔ Spells text bytes)) ∧
    (∀ (digest : Digest) (reported : String),
      digest.matches reported = true ↔ Text.trimmed reported = digest.base64) ∧
    (∀ (entry : EntryPoint) (blob : Bytes),
      entry.blob = .ok blob ↔ Text.trimmed entry.metadata = encode blob) ∧
    (∀ (entry other : EntryPoint) (blob : Bytes), entry.blob = .ok blob → other.blob = .ok blob →
      Text.trimmed entry.metadata = Text.trimmed other.metadata) ∧
    ∀ (digest other : Digest) (reported : String), digest.matches reported = true →
      other.matches reported = true → digest = other := by
  refine ⟨fun text bytes => ⟨?_, spells_iff.symm⟩, fun _ _ => Digest.matches_iff,
    fun _ _ => EntryPoint.blob_eq_ok_iff, fun entry other blob first second => ?_,
    fun digest other reported first second => ?_⟩
  · rw [decode_eq_ok_iff, spells_iff]
  · rw [EntryPoint.blob_eq_ok_iff.mp first, EntryPoint.blob_eq_ok_iff.mp second]
  · have same := (Digest.matches_iff.mp first).symm.trans (Digest.matches_iff.mp second)
    exact Digest.base64_inj same

/-- Two spellings that differ in the blanks around them give one blob, and a digest with both signs
of the alphabet in its base64 form is recognized between blanks, as no other digest is. -/
theorem spelled_once_between_blanks :
    let entry : EntryPoint := ⟨"a", "\n QQ==", none⟩
    let other : EntryPoint := ⟨"b", "QQ==\t", none⟩
    let digest : Digest := ⟨List.replicate 30 251 ++ [255, 255], rfl⟩
    let reported : String := " " ++ digest.base64 ++ "\n"
    (entry.blob = .ok [65] ∧ other.blob = .ok [65] ∧
      Text.trimmed entry.metadata = Text.trimmed other.metadata) ∧
    digest.matches reported = true ∧
      ∀ another : Digest, another.matches reported = true → digest = another := by
  intro entry other digest reported
  obtain ⟨-, -, -, oneText, oneDigest⟩ := spelled_once
  have first : entry.blob = .ok [65] := EntryPoint.blob_eq_ok_iff.mpr (by decide +kernel)
  have second : other.blob = .ok [65] := EntryPoint.blob_eq_ok_iff.mpr (by decide +kernel)
  have matching : digest.matches reported = true := by decide +kernel
  exact ⟨⟨first, second, oneText entry other [65] first second⟩, matching,
    fun another => oneDigest digest another reported matching⟩

end Base64

end FunctionBundler
