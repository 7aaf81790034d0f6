/-
Module: FunctionBundler.Proofs.JsonText.Spelling
Purpose: How white space and texts are spelled, and that readers take exactly the spellings.
Trusted boundary: none
Main exports:
  JsonText.Spaces, JsonText.skipSpaces_eq_cons_iff, JsonText.SpellsChar, JsonText.SpellsChars,
  JsonText.readString_eq_ok_iff, JsonText.ArePieces, JsonText.skipString_eq_ok_iff,
  JsonText.spellsChars_flatMap_escape
-/
import Mathlib.Data.List.TakeWhile
import FunctionBundler.JsonText
import FunctionBundler.Proofs.Fallible

namespace FunctionBundler.JsonText

/-!
A reader is given the rest of a document, so each law says which beginning of its input it
takes and what that stands for.  A character has many spellings: itself, a short escape, or one
or two code units in hexadecimal digits of either case.  Writing chooses one of them.
-/

/-! ### White space -/

/-- Nothing but white space. -/
def Spaces (spaces : List Char) : Prop :=
  ∀ c ∈ spaces, isSpace c = true

variable {input rest spaces : List Char} {c : Char}

theorem spaces_nil : Spaces [] :=
  List.forall_mem_nil _

/-- White space behind white space is white space. -/
theorem Spaces.append {more : List Char} (first : Spaces spaces) (second : Spaces more) :
    Spaces (spaces ++ more) :=
  List.forall_mem_append.mpr ⟨first, second⟩

/-- White space in front is skipped. -/
theorem skipSpaces_append (isSpaces : Spaces spaces) (rest : List Char) :
    skipSpaces (spaces ++ rest) = skipSpaces rest :=
  List.dropWhile_append_of_pos isSpaces

/-- Nothing is skipped where there is no white space. -/
theorem skipSpaces_cons_of_not (solid : isSpace c = false) (rest : List Char) :
    skipSpaces (c :: rest) = c :: rest := by
  rw [skipSpaces, List.dropWhile_cons, solid]
  rfl

/-- What is skipped is white space. -/
theorem exists_spaces (input : List Char) :
    ∃ spaces, Spaces spaces ∧ input = spaces ++ skipSpaces input := by
  refine ⟨input.takeWhile isSpace, fun c member => ?_, List.takeWhile_append_dropWhile.symm⟩
  exact List.all_eq_true.mp List.all_takeWhile c member

/-- Only white space is skipped to the end. -/
theorem skipSpaces_eq_nil_iff : skipSpaces input = [] ↔ Spaces input :=
  List.dropWhile_eq_nil_iff

/-- What comes after white space begins with something else. -/
theorem skipSpaces_eq_cons_iff : skipSpaces input = c :: rest ↔
    isSpace c = false ∧ ∃ spaces, Spaces spaces ∧ input = spaces ++ c :: rest := by
  constructor
  · intro skipped
    refine ⟨?_, ?_⟩
    · have nonempty : skipSpaces input ≠ [] := by
        rw [skipped]
        exact List.cons_ne_nil c rest
      have solid : isSpace ((skipSpaces input).head nonempty) = false :=
        List.head_dropWhile_not isSpace nonempty
      simp only [skipped, List.head_cons] at solid
      exact solid
    · rw [← skipped]
      exact exists_spaces input
  · rintro ⟨solid, spaces, isSpaces, rfl⟩
    rw [skipSpaces_append isSpaces, skipSpaces_cons_of_not solid]

/-- A character that is no white space is reached behind white space only. -/
theorem skipSpaces_eq_cons_iff_of_not (solid : isSpace c = false) :
    skipSpaces input = c :: rest ↔ ∃ spaces, Spaces spaces ∧ input = spaces ++ c :: rest := by
  rw [skipSpaces_eq_cons_iff, and_iff_right solid]

/-- A text that begins with neither white space nor a closing mark. -/
def Begins (closing : Char) (text : List Char) : Prop :=
  ∃ c later, text = c :: later ∧ isSpace c = false ∧ c ≠ closing

/-- A text that begins neither with white space nor with a closing mark still does when it goes on.
-/
theorem Begins.append {closing : Char} {text : List Char} (begins : Begins closing text)
    (more : List Char) : Begins closing (text ++ more) := by
  obtain ⟨c, later, rfl, solid, notClosing⟩ := begins
  exact ⟨c, later ++ more, rfl, solid, notClosing⟩

/-- White space is skipped in front of a text, and nothing of the text itself. -/
theorem Begins.skipSpaces_append {closing : Char} {text : List Char} (begins : Begins closing text)
    (isSpaces : Spaces spaces) : skipSpaces (spaces ++ text) = text := by
  obtain ⟨c, later, rfl, solid, _⟩ := begins
  rw [JsonText.skipSpaces_append isSpaces, skipSpaces_cons_of_not solid]

/-! ### Characters of a text -/

/-- The code units that stand for characters only in pairs. -/
def Surrogate (unit : Nat) : Prop :=
  0xD800 ≤ unit ∧ unit ≤ 0xDFFF

/-- A spelling of a character inside a text. -/
inductive SpellsChar : List Char → Char → Prop where
  | plain {c : Char} (printable : 0x20 ≤ c.toNat) (quote : c ≠ '"') (backslash : c ≠ '\\') :
      SpellsChar [c] c
  | short {letter c : Char} (names : plainEscape? letter = some c) : SpellsChar ['\\', letter] c
  | unit {a b c d : Char} {unit : Nat} (digits : unit? a b c d = some unit)
      (single : ¬Surrogate unit) : SpellsChar ['\\', 'u', a, b, c, d] (Char.ofNat unit)
  | pair {a b c d e f g h : Char} {high low : Nat} (first : unit? a b c d = some high)
      (isHigh : 0xD800 ≤ high ∧ high ≤ 0xDBFF) (second : unit? e f g h = some low)
      (isLow : 0xDC00 ≤ low ∧ low ≤ 0xDFFF) :
      SpellsChar ['\\', 'u', a, b, c, d, '\\', 'u', e, f, g, h]
        (Char.ofNat (0x10000 + (high - 0xD800) * 0x400 + (low - 0xDC00)))

/-- A spelling of characters one after the other. -/
inductive SpellsChars : List Char → List Char → Prop where
  | nil : SpellsChars [] []
  | cons {spelling others : List Char} {c : Char} {text : List Char}
      (first : SpellsChar spelling c) (rest : SpellsChars others text) :
      SpellsChars (spelling ++ others) (c :: text)

private theorem prepend_eq_ok_iff {result : Except Fault (List Char × List Char)}
    {text : List Char} :
    prepend c result = .ok (text, rest) ↔
      ∃ later, result = .ok (later, rest) ∧ text = c :: later := by
  rw [prepend, map_eq_ok_iff]
  constructor
  · rintro ⟨⟨later, _⟩, rfl, same⟩
    cases same
    exact ⟨later, rfl, rfl⟩
  · rintro ⟨later, rfl, rfl⟩
    exact ⟨(later, rest), rfl, rfl⟩

private theorem readString_plain (printable : 0x20 ≤ c.toNat) (quote : c ≠ '"')
    (backslash : c ≠ '\\')
    (input : List Char) : readString (c :: input) = prepend c (readString input) := by
  rw [readString]
  · rw [if_neg (Nat.not_lt.mpr printable)]
  · exact quote
  · exact fun _ _ _ _ _ same => absurd same backslash
  · exact fun _ same => absurd same backslash
  · exact fun same => absurd same backslash
  · exact fun _ _ same => absurd same backslash

private theorem readString_short {letter : Char} (names : plainEscape? letter = some c)
    (input : List Char) : readString ('\\' :: letter :: input) = prepend c (readString input) := by
  have other : letter ≠ 'u' := by
    rintro rfl
    cases names
  rw [readString]
  · rw [names]
  · exact fun _ _ _ _ _ same => absurd same other
  · exact other

private theorem readString_of_spellsChar {spelling : List Char} (spells : SpellsChar spelling c)
    (input : List Char) : readString (spelling ++ input) = prepend c (readString input) := by
  cases spells with
  | plain printable quote backslash => exact readString_plain printable quote backslash input
  | short names => exact readString_short names input
  | unit digits single =>
      rw [Surrogate] at single
      simp only [List.cons_append, List.nil_append, readString, digits]
      rw [if_neg (by omega), if_neg (by omega)]
  | pair first isHigh second isLow =>
      simp only [List.cons_append, List.nil_append, readString, first, second]
      rw [if_neg (by omega), if_pos isHigh, if_pos isLow]

/-- A spelled text is read up to its closing quote. -/
theorem readString_of_spellsChars {spelling text : List Char} (spells : SpellsChars spelling text)
    (rest : List Char) : readString (spelling ++ '"' :: rest) = .ok (text, rest) := by
  induction spells with
  | nil => rw [List.nil_append, readString]
  | cons first _ ih =>
      rw [List.append_assoc, readString_of_spellsChar first, ih]
      rfl

/-- What was read behind a character that is spelled in front was spelled with it. -/
theorem exists_spelling_of_prepend {spelling later text : List Char}
    (spells : SpellsChar spelling c) (read : prepend c (readString later) = .ok (text, rest))
    (ih : ∀ text rest, readString later = .ok (text, rest) →
      ∃ body, SpellsChars body text ∧ later = body ++ '"' :: rest) :
    ∃ body, SpellsChars body text ∧ spelling ++ later = body ++ '"' :: rest := by
  obtain ⟨others, readLater, rfl⟩ := prepend_eq_ok_iff.mp read
  obtain ⟨body, spellsLater, rfl⟩ := ih others rest readLater
  exact ⟨spelling ++ body, .cons spells spellsLater, (List.append_assoc ..).symm⟩

/-- A text is read up to its closing quote exactly if what comes before the quote spells it. -/
theorem readString_eq_ok_iff {text : List Char} : readString input = .ok (text, rest) ↔
    ∃ body, SpellsChars body text ∧ input = body ++ '"' :: rest := by
  constructor
  · intro read
    fun_induction readString input generalizing text rest with
    | case2 =>
        cases read
        exact ⟨[], .nil, rfl⟩
    | case6 a b c d high first notLow isHigh e f g h later low second isLow ih =>
        exact exists_spelling_of_prepend (.pair first isHigh second isLow) read fun _ _ => ih
    | case9 a b c d later unit digits notLow notHigh ih =>
        have single : ¬Surrogate unit := by
          rw [Surrogate]
          omega
        exact exists_spelling_of_prepend (.unit digits single) read fun _ _ => ih
    | case12 letter later _ _ c names ih =>
        exact exists_spelling_of_prepend (.short names) read fun _ _ => ih
    | case15 c later quote _ _ notLast notFollowed printable ih =>
        have backslash : c ≠ '\\' := by
          intro same
          cases later with
          | nil => exact notLast same rfl
          | cons letter others => exact notFollowed letter others same rfl
        exact exists_spelling_of_prepend (.plain (Nat.not_lt.mp printable) quote backslash) read
          fun _ _ => ih
    | _ => cases read
  · rintro ⟨body, spells, rfl⟩
    exact readString_of_spellsChars spells rest

/-! ### Texts that are skipped -/

/-- A part of a text that is not kept: a character, a short escape, or any code unit. -/
inductive IsPiece : List Char → Prop where
  | plain {c : Char} (printable : 0x20 ≤ c.toNat) (quote : c ≠ '"') (backslash : c ≠ '\\') :
      IsPiece [c]
  | short {letter c : Char} (names : plainEscape? letter = some c) : IsPiece ['\\', letter]
  | unit {a b c d : Char} {unit : Nat} (digits : unit? a b c d = some unit) :
      IsPiece ['\\', 'u', a, b, c, d]

/-- What stands between the quotes of a text that is not kept. -/
inductive ArePieces : List Char → Prop where
  | nil : ArePieces []
  | cons {piece others : List Char} (first : IsPiece piece) (rest : ArePieces others) :
      ArePieces (piece ++ others)

private theorem skipString_of_isPiece {piece : List Char} (isPiece : IsPiece piece)
    (input : List Char) :
    skipString (piece ++ input) = skipString input := by
  cases isPiece with
  | plain printable quote backslash =>
      rw [List.singleton_append, skipString]
      · rw [if_neg (Nat.not_lt.mpr printable)]
      · exact quote
      · exact fun _ _ _ _ _ same => absurd same backslash
      · exact fun _ same => absurd same backslash
      · exact fun same => absurd same backslash
      · exact fun _ _ same => absurd same backslash
  | @short letter c names =>
      have other : letter ≠ 'u' := by
        rintro rfl
        cases names
      simp only [List.cons_append, List.nil_append]
      rw [skipString]
      · rw [names]
      · exact fun _ _ _ _ _ same => absurd same other
      · exact other
  | unit digits => simp only [List.cons_append, List.nil_append, skipString, digits]

/-- What is skipped as a text are its pieces up to the closing quote. -/
theorem skipString_eq_ok_iff : skipString input = .ok ((), rest) ↔
    ∃ body, ArePieces body ∧ input = body ++ '"' :: rest := by
  constructor
  · intro skipped
    have longer {piece later : List Char} (isPiece : IsPiece piece)
        (found : ∃ body, ArePieces body ∧ later = body ++ '"' :: rest) :
        ∃ body, ArePieces body ∧ piece ++ later = body ++ '"' :: rest := by
      obtain ⟨body, arePieces, rfl⟩ := found
      exact ⟨piece ++ body, .cons isPiece arePieces, (List.append_assoc ..).symm⟩
    fun_induction skipString input with
    | case2 =>
        cases skipped
        exact ⟨[], .nil, rfl⟩
    | case4 a b c d later unit digits ih => exact longer (.unit digits) (ih skipped)
    | case7 letter later _ _ c names ih => exact longer (.short names) (ih skipped)
    | case10 c later quote _ _ notLast notFollowed printable ih =>
        have backslash : c ≠ '\\' := by
          intro same
          cases later with
          | nil => exact notLast same rfl
          | cons letter others => exact notFollowed letter others same rfl
        exact longer (.plain (Nat.not_lt.mp printable) quote backslash) (ih skipped)
    | _ => cases skipped
  · rintro ⟨body, arePieces, rfl⟩
    induction arePieces with
    | nil => rw [List.nil_append, skipString]
    | cons first _ ih => rw [List.append_assoc, skipString_of_isPiece first, ih]

/-! ### The written form -/

private theorem unit?_control (control : c.toNat < 0x20) :
    unit? '0' '0' (Bytes.hexDigit (c.toNat / 16)) (Bytes.hexDigit (c.toNat % 16)) =
      some c.toNat := by
  have zero : Bytes.hexValue? '0' = some 0 := by decide
  have high := Bytes.hexValue?_hexDigit (show c.toNat / 16 < 16 by omega)
  have low := Bytes.hexValue?_hexDigit (show c.toNat % 16 < 16 by omega)
  simp only [unit?, zero, high, low, Option.bind_eq_bind, Option.bind_some, Option.pure_def,
    Option.some.injEq]
  omega

private theorem spellsChar_escape (c : Char) : SpellsChar (escape c) c := by
  unfold escape
  split
  case h_8 quote backslash _ _ _ _ _ =>
      split
      case isTrue control =>
          have byte : (UInt8.ofNat c.toNat).toNat = c.toNat := by
            rw [UInt8.toNat_ofNat']
            omega
          have single : ¬Surrogate c.toNat := by
            rw [Surrogate]
            omega
          have spells := SpellsChar.unit (unit?_control control) single
          rw [Char.ofNat_toNat] at spells
          rw [Bytes.hexPair, byte]
          exact spells
      case isFalse printable => exact .plain (Nat.not_lt.mp printable) quote backslash
  all_goals exact .short rfl

/-- A written text is a spelling of the text. -/
theorem spellsChars_flatMap_escape (text : List Char) :
    SpellsChars (text.flatMap escape) text := by
  induction text with
  | nil => exact .nil
  | cons c later ih => exact .cons (spellsChar_escape c) ih

end FunctionBundler.JsonText
