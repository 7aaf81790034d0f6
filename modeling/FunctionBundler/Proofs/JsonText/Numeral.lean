/-
Module: FunctionBundler.Proofs.JsonText.Numeral
Purpose: How numbers are spelled, and that reading takes exactly a whole spelling.
Trusted boundary: none
Main exports:
  JsonText.Ends, JsonText.Digits, JsonText.IsNumeral, JsonText.exists_numeral,
  JsonText.exists_readNumber
-/
import FunctionBundler.Proofs.JsonText.Spelling

namespace FunctionBundler.JsonText

/-!
A number has no closing mark: it ends where no more of it can follow.  What was read is
therefore always a spelling, but a spelling is read as a whole only if what comes after it
cannot continue it.  In a document a value is followed by white space, a comma, a closing
bracket or nothing, and each of these ends a number.
-/

/-- What comes after a value does not continue it. -/
def Ends (rest : List Char) : Prop :=
  ∀ c ∈ rest.head?, isSpace c = true ∨ c = ',' ∨ c = ']' ∨ c = '}'

/-- What comes next is no digit. -/
def NoDigit (rest : List Char) : Prop :=
  ∀ c ∈ rest.head?, c.isDigit = false

/-- One or more digits. -/
def Digits (digits : List Char) : Prop :=
  digits ≠ [] ∧ ∀ c ∈ digits, c.isDigit = true

/-- An integer part: a zero, or digits that do not begin with zero. -/
inductive IsWhole : List Char → Prop where
  | zero : IsWhole ['0']
  | digits {digits : List Char} (areDigits : Digits digits) (lead : digits.head? ≠ some '0') :
      IsWhole digits

/-- The digits after a decimal point, or nothing. -/
inductive IsFraction : List Char → Prop where
  | nothing : IsFraction []
  | digits {digits : List Char} (areDigits : Digits digits) : IsFraction ('.' :: digits)

/-- An exponent, or nothing. -/
inductive IsExponent : List Char → Prop where
  | nothing : IsExponent []
  | digits {letter : Char} {sign digits : List Char} (isLetter : letter = 'e' ∨ letter = 'E')
      (isSign : sign = [] ∨ sign = ['+'] ∨ sign = ['-']) (areDigits : Digits digits) :
      IsExponent (letter :: (sign ++ digits))

/-- A number without its sign. -/
inductive IsNumeral : List Char → Prop where
  | parts {whole fraction exponent : List Char} (isWhole : IsWhole whole)
      (isFraction : IsFraction fraction) (isExponent : IsExponent exponent) :
      IsNumeral (whole ++ (fraction ++ exponent))

variable {input rest digits : List Char} {atEnd : Fault}

/-! ### What ends a value -/

theorem ends_nil : Ends [] :=
  fun _ found => nomatch found

/-- A token ends before white space, a comma and a closing bracket. -/
theorem ends_cons {c : Char} (ends : isSpace c = true ∨ c = ',' ∨ c = ']' ∨ c = '}')
    (rest : List Char) : Ends (c :: rest) := by
  rintro first found
  cases Option.mem_some_iff.mp found
  exact ends

private theorem Ends.not_continued {c : Char} (ends : Ends rest) (first : c ∈ rest.head?) :
    c.isDigit = false ∧ c ≠ '.' ∧ c ≠ 'e' ∧ c ≠ 'E' := by
  have isEnd := ends c first
  simp only [isSpace, Bool.or_eq_true, decide_eq_true_eq] at isEnd
  obtain (((rfl | rfl) | rfl) | rfl) | rfl | rfl | rfl := isEnd <;> decide

/-- Where a token ends, no digit follows. -/
theorem Ends.noDigit (ends : Ends rest) : NoDigit rest :=
  fun _ first => (ends.not_continued first).1

/-! ### Digits -/

private theorem spanDigits_append (areDigits : ∀ c ∈ digits, c.isDigit = true)
    (noDigit : NoDigit rest) :
    spanDigits (digits ++ rest) = (digits, rest) := by
  rw [spanDigits, List.takeWhile_append_of_pos areDigits, List.dropWhile_append_of_pos areDigits]
  cases rest with
  | nil => simp
  | cons c later =>
      have solid : c.isDigit = false := noDigit c rfl
      simp [solid]

private theorem noDigit_dropWhile (input : List Char) : NoDigit (input.dropWhile Char.isDigit) := by
  intro c first
  have nonempty : input.dropWhile Char.isDigit ≠ [] := by
    intro empty
    rw [empty] at first
    cases first
  rw [List.head?_eq_some_head nonempty] at first
  cases Option.mem_some_iff.mp first
  exact List.head_dropWhile_not Char.isDigit nonempty

private theorem readDigits_eq_ok_iff : readDigits atEnd input = .ok (digits, rest) ↔
    Digits digits ∧ NoDigit rest ∧ input = digits ++ rest := by
  constructor
  · intro read
    have areDigits : ∀ c ∈ input.takeWhile Char.isDigit, c.isDigit = true :=
      List.all_eq_true.mp List.all_takeWhile
    have parts : input = input.takeWhile Char.isDigit ++ input.dropWhile Char.isDigit :=
      List.takeWhile_append_dropWhile.symm
    have noDigit := noDigit_dropWhile input
    rw [readDigits, spanDigits] at read
    split at read
    case h_3 found nonempty =>
        cases read
        exact ⟨⟨fun empty => nonempty _ (by rw [empty]), areDigits⟩, noDigit, parts⟩
    all_goals cases read
  · rintro ⟨⟨nonempty, areDigits⟩, noDigit, rfl⟩
    rw [readDigits, spanDigits_append areDigits noDigit]
    cases digits with
    | nil => exact absurd rfl nonempty
    | cons c later => rfl

/-- Digits begin with a digit. -/
theorem Digits.exists_cons (areDigits : Digits digits) :
    ∃ c later, c.isDigit = true ∧ digits = c :: later := by
  obtain ⟨nonempty, areDigits⟩ := areDigits
  cases digits with
  | nil => exact absurd rfl nonempty
  | cons c later => exact ⟨c, later, areDigits c List.mem_cons_self, rfl⟩

/-! ### The parts of a number -/

private theorem readWhole_of_not_zero (lead : input.head? ≠ some '0') :
    readWhole atEnd input = readDigits atEnd input := by
  unfold readWhole
  split
  · exact absurd rfl lead
  · rfl

private theorem readWhole_eq_ok_iff {whole : List Char} :
    readWhole atEnd input = .ok (whole, rest) ↔
      IsWhole whole ∧ NoDigit rest ∧ input = whole ++ rest := by
  constructor
  · intro read
    by_cases lead : input.head? = some '0'
    · obtain ⟨later, rfl⟩ := List.head?_eq_some_iff.mp lead
      cases later with
      | nil =>
          cases read
          exact ⟨.zero, ends_nil.noDigit, rfl⟩
      | cons c others =>
          simp only [readWhole] at read
          split at read
          · cases read
          case isFalse noDigit =>
              cases read
              refine ⟨.zero, ?_, rfl⟩
              rintro first found
              cases Option.mem_some_iff.mp found
              exact Bool.eq_false_iff.mpr noDigit
    · rw [readWhole_of_not_zero lead] at read
      obtain ⟨areDigits, noDigit, rfl⟩ := readDigits_eq_ok_iff.mp read
      obtain ⟨c, later, _, rfl⟩ := areDigits.exists_cons
      exact ⟨.digits areDigits lead, noDigit, rfl⟩
  · rintro ⟨isWhole, noDigit, rfl⟩
    cases isWhole with
    | zero =>
        cases rest with
        | nil => rfl
        | cons c later =>
            have solid : c.isDigit = false := noDigit c rfl
            simp [readWhole, solid]
    | digits areDigits lead =>
        rw [readWhole_of_not_zero]
        · exact readDigits_eq_ok_iff.mpr ⟨areDigits, noDigit, rfl⟩
        · obtain ⟨c, later, _, rfl⟩ := areDigits.exists_cons
          exact lead

/-- A whole number begins with a digit. -/
theorem IsWhole.exists_cons {whole : List Char} (isWhole : IsWhole whole) :
    ∃ c later, c.isDigit = true ∧ whole = c :: later := by
  cases isWhole with
  | zero => exact ⟨'0', [], by decide, rfl⟩
  | digits areDigits _ => exact areDigits.exists_cons

private theorem exists_fraction (read : readFraction atEnd input = .ok (digits, rest)) :
    ∃ fraction, IsFraction fraction ∧ input = fraction ++ rest := by
  unfold readFraction at read
  split at read
  · obtain ⟨areDigits, _, rfl⟩ := readDigits_eq_ok_iff.mp read
    exact ⟨'.' :: digits, .digits areDigits, rfl⟩
  · cases read
    exact ⟨[], .nothing, rfl⟩

private theorem exists_readFraction {fraction : List Char} (isFraction : IsFraction fraction)
    (noDigit : NoDigit rest) (noPoint : rest.head? ≠ some '.') (atEnd : Fault) :
    ∃ digits, readFraction atEnd (fraction ++ rest) = .ok (digits, rest) := by
  cases isFraction with
  | nothing =>
      refine ⟨[], ?_⟩
      rw [List.nil_append]
      unfold readFraction
      split
      · exact absurd rfl noPoint
      · rfl
  | @digits digits areDigits =>
      exact ⟨digits, readDigits_eq_ok_iff.mpr ⟨areDigits, noDigit, rfl⟩⟩

/-- No digit stands where a fraction may begin, if none follows it. -/
theorem IsFraction.noDigit {fraction : List Char} (isFraction : IsFraction fraction)
    (noDigit : NoDigit rest) : NoDigit (fraction ++ rest) := by
  cases isFraction with
  | nothing => exact noDigit
  | digits _ =>
      rintro c first
      cases Option.mem_some_iff.mp first
      decide

private theorem IsExponent.not_continued {spelled : List Char} {c : Char}
    (isExponent : IsExponent spelled) (ends : Ends rest) (first : c ∈ (spelled ++ rest).head?) :
    c.isDigit = false ∧ c ≠ '.' := by
  cases isExponent with
  | nothing => exact ⟨(ends.not_continued first).1, (ends.not_continued first).2.1⟩
  | digits isLetter _ _ =>
      cases Option.mem_some_iff.mp first
      obtain rfl | rfl := isLetter <;> decide

/-- No digit stands where an exponent may begin. -/
theorem IsExponent.noDigit {spelled : List Char} (isExponent : IsExponent spelled)
    (ends : Ends rest) : NoDigit (spelled ++ rest) :=
  fun _ first => (isExponent.not_continued ends first).1

private theorem IsExponent.noPoint {spelled : List Char} (isExponent : IsExponent spelled)
    (ends : Ends rest) : (spelled ++ rest).head? ≠ some '.' :=
  fun first => (isExponent.not_continued ends first).2 rfl

/-- Digits that were read after the letter of an exponent and its sign. -/
theorem exists_exponent_of_digits {letter : Char} {later : List Char} {exponent : Int}
    {f : List Char × List Char → Int × List Char} (sign : List Char)
    (isLetter : letter = 'e' ∨ letter = 'E') (isSign : sign = [] ∨ sign = ['+'] ∨ sign = ['-'])
    (read : (readDigits atEnd later).map f = .ok (exponent, rest))
    (keeps : ∀ found, (f found).2 = found.2) :
    ∃ spelled, IsExponent spelled ∧ letter :: (sign ++ later) = spelled ++ rest := by
  obtain ⟨⟨digits, others⟩, found, same⟩ := map_eq_ok_iff.mp read
  have kept := keeps (digits, others)
  rw [same] at kept
  cases kept
  obtain ⟨areDigits, _, rfl⟩ := readDigits_eq_ok_iff.mp found
  exact ⟨letter :: (sign ++ digits), .digits isLetter isSign areDigits,
    by simp only [List.cons_append, List.append_assoc]⟩

private theorem exists_exponent {exponent : Int}
    (read : readExponent atEnd input = .ok (exponent, rest)) :
    ∃ spelled, IsExponent spelled ∧ input = spelled ++ rest := by
  unfold readExponent at read
  split at read
  · split at read
    case isTrue letter later isLetter =>
        split at read
        · exact exists_exponent_of_digits ['+'] isLetter (.inr (.inl rfl)) read
            fun _ => rfl
        · exact exists_exponent_of_digits ['-'] isLetter (.inr (.inr rfl)) read
            fun _ => rfl
        · exact exists_exponent_of_digits [] isLetter (.inl rfl) read fun _ => rfl
    case isFalse =>
        cases read
        exact ⟨[], .nothing, rfl⟩
  · cases read
    exact ⟨[], .nothing, rfl⟩

private theorem exists_readExponent {spelled : List Char} (isExponent : IsExponent spelled)
    (ends : Ends rest) (atEnd : Fault) :
    ∃ exponent, readExponent atEnd (spelled ++ rest) = .ok (exponent, rest) := by
  cases isExponent with
  | nothing =>
      rw [List.nil_append]
      cases rest with
      | nil => exact ⟨0, rfl⟩
      | cons c later =>
          obtain ⟨_, _, notSmall, notCapital⟩ := ends.not_continued (c := c) rfl
          exact ⟨0, by simp [readExponent, notSmall, notCapital]⟩
  | @digits letter sign digits isLetter isSign areDigits =>
      have read : readDigits atEnd (digits ++ rest) = .ok (digits, rest) :=
        readDigits_eq_ok_iff.mpr ⟨areDigits, ends.noDigit, rfl⟩
      rw [List.cons_append, List.append_assoc]
      simp only [readExponent, isLetter, if_true]
      obtain rfl | rfl | rfl := isSign
      · obtain ⟨c, later, isDigit, rfl⟩ := areDigits.exists_cons
        rw [List.nil_append]
        split
        case h_1 same =>
            cases same
            cases isDigit
        case h_2 same =>
            cases same
            cases isDigit
        case h_3 => exact ⟨_, by rw [read]; rfl⟩
      · exact ⟨_, by simp only [List.cons_append, List.nil_append, read]; rfl⟩
      · exact ⟨_, by simp only [List.cons_append, List.nil_append, read]; rfl⟩

/-! ### Numbers -/

/-- A numeral begins with a digit. -/
theorem IsNumeral.exists_cons {numeral : List Char} (isNumeral : IsNumeral numeral) :
    ∃ c later, c.isDigit = true ∧ numeral = c :: later := by
  obtain ⟨isWhole, _, _⟩ := isNumeral
  obtain ⟨c, later, isDigit, rfl⟩ := isWhole.exists_cons
  exact ⟨c, _, isDigit, rfl⟩

/-- What was read as a number is spelled as one. -/
theorem exists_numeral {number : Number} (read : readNumber atEnd input = .ok (number, rest)) :
    ∃ numeral, IsNumeral numeral ∧ input = numeral ++ rest := by
  rw [readNumber, bind_eq_ok_iff] at read
  obtain ⟨⟨whole, _⟩, readsWhole, read⟩ := read
  obtain ⟨⟨digits, _⟩, readsFraction, read⟩ := bind_eq_ok_iff.mp read
  obtain ⟨⟨value, _⟩, readsExponent, read⟩ := bind_eq_ok_iff.mp read
  cases read
  obtain ⟨isWhole, _, rfl⟩ := readWhole_eq_ok_iff.mp readsWhole
  obtain ⟨fraction, isFraction, rfl⟩ := exists_fraction readsFraction
  obtain ⟨exponent, isExponent, rfl⟩ := exists_exponent readsExponent
  exact ⟨_, .parts isWhole isFraction isExponent, by simp only [List.append_assoc]⟩

/-- Where nothing continues it, the whole of a spelling is read. -/
theorem exists_readNumber {numeral : List Char} (isNumeral : IsNumeral numeral)
    (ends : Ends rest) (atEnd : Fault) :
    ∃ number, readNumber atEnd (numeral ++ rest) = .ok (number, rest) := by
  obtain @⟨whole, fraction, spelled, isWhole, isFraction, isExponent⟩ := isNumeral
  obtain ⟨exponent, readsExponent⟩ := exists_readExponent isExponent ends atEnd
  obtain ⟨digits, readsFraction⟩ := exists_readFraction isFraction
    (isExponent.noDigit ends) (isExponent.noPoint ends) atEnd
  have readsWhole : readWhole atEnd (whole ++ (fraction ++ (spelled ++ rest))) =
      .ok (whole, fraction ++ (spelled ++ rest)) :=
    readWhole_eq_ok_iff.mpr ⟨isWhole, isFraction.noDigit (isExponent.noDigit ends), rfl⟩
  refine ⟨.ofDigits whole digits exponent, ?_⟩
  rw [readNumber, List.append_assoc, List.append_assoc]
  exact bind_eq_ok_iff.mpr ⟨_, readsWhole, bind_eq_ok_iff.mpr ⟨_, readsFraction,
    bind_eq_ok_iff.mpr ⟨_, readsExponent, rfl⟩⟩⟩

end FunctionBundler.JsonText
