/-
Module: FunctionBundler.Proofs.JsonText.Skipping
Purpose: How values of any kind are spelled, and that skipping passes exactly one of them.
Trusted boundary: none
Main exports:
  JsonText.IsAtom, JsonText.Bracket.IsLead, JsonText.Part, JsonText.IsValue,
  JsonText.exists_value, JsonText.skipValue_append
-/
import FunctionBundler.Proofs.JsonText.Numeral

namespace FunctionBundler.JsonText

/-!
Skipping keeps a stack of the brackets that are open, and goes on until the value that was
begun first has ended.  The grammar has the same two kinds of piece: a value, and what is
left of a bracket after a value inside it has ended.  What the stack still demands of the
input is one such piece for each bracket in it, the innermost first.
-/

variable {input rest spaces lead more : List Char} {bracket : Bracket}

/-! ### Words, marks and names -/

/-- A word is skipped where it stands. -/
theorem skipWord_eq_ok_iff {word : List Char} :
    skipWord word input = .ok ((), rest) ↔ input = word ++ rest := by
  induction word generalizing input with
  | nil => simp [skipWord]
  | cons letter word ih =>
      cases input with
      | nil => simp [skipWord]
      | cons c later =>
          by_cases same : c = letter
          · simp [skipWord, same, ih]
          · simp [skipWord, same]

/-- A colon is read, and white space may stand before it. -/
theorem colon_eq_ok_iff : colon input = .ok ((), rest) ↔
    ∃ spaces, Spaces spaces ∧ input = spaces ++ ':' :: rest := by
  rw [← skipSpaces_eq_cons_iff_of_not (by decide)]
  unfold colon
  split <;> simp_all

private theorem openName_eq_ok_iff {found : Bool} :
    openName input = .ok (found, rest) ↔ found = true ∧ input = '"' :: rest := by
  unfold openName
  split <;> grind

private theorem skipName_eq_ok_iff : skipName input = .ok ((), rest) ↔
    ∃ before name between, Spaces before ∧ ArePieces name ∧ Spaces between ∧
      input = before ++ '"' :: (name ++ '"' :: (between ++ ':' :: rest)) := by
  constructor
  · intro skipped
    obtain ⟨⟨_, _⟩, opens, afterOpening⟩ := bind_eq_ok_iff.mp skipped
    obtain ⟨rfl, found⟩ := openName_eq_ok_iff.mp opens
    obtain ⟨⟨_, _⟩, skipsName, afterName⟩ := bind_eq_ok_iff.mp afterOpening
    obtain ⟨_, before, isBefore, rfl⟩ := skipSpaces_eq_cons_iff.mp found
    obtain ⟨name, isName, rfl⟩ := skipString_eq_ok_iff.mp skipsName
    obtain ⟨between, isBetween, rfl⟩ := colon_eq_ok_iff.mp afterName
    exact ⟨before, name, between, isBefore, isName, isBetween, rfl⟩
  · rintro ⟨before, name, between, isBefore, isName, isBetween, rfl⟩
    rw [skipName, skipSpaces_append isBefore, skipSpaces_cons_of_not (by decide)]
    exact bind_eq_ok_iff.mpr ⟨_, openName_eq_ok_iff.mpr ⟨rfl, rfl⟩,
      bind_eq_ok_iff.mpr ⟨_, skipString_eq_ok_iff.mpr ⟨name, isName, rfl⟩,
        colon_eq_ok_iff.mpr ⟨between, isBetween, rfl⟩⟩⟩

/-! ### Atoms -/

/-- A value that is neither an array nor an object. -/
inductive IsAtom : List Char → Prop where
  | word {word : List Char}
      (known : word = "null".toList ∨ word = "true".toList ∨ word = "false".toList) : IsAtom word
  | text {body : List Char} (arePieces : ArePieces body) : IsAtom ('"' :: (body ++ ['"']))
  | number {sign numeral : List Char} (isSign : sign = [] ∨ sign = ['-'])
      (isNumeral : IsNumeral numeral) : IsAtom (sign ++ numeral)

private theorem ne_of_isDigit {c other : Char} (isDigit : c.isDigit = true)
    (noDigit : other.isDigit = false) : c ≠ other := by
  rintro rfl
  rw [isDigit] at noDigit
  cases noDigit

private theorem isSpace_of_isDigit {c : Char} (isDigit : c.isDigit = true) : isSpace c = false := by
  have other {d : Char} (noDigit : d.isDigit = false) := ne_of_isDigit isDigit noDigit
  simp [isSpace, other (d := ' ') rfl, other (d := '\n') rfl, other (d := '\t') rfl,
    other (d := '\r') rfl]

private theorem skipAtom_of_isDigit {c : Char} (isDigit : c.isDigit = true) (later : List Char) :
    skipAtom (c :: later) = (readNumber .text (c :: later)).map fun (_, rest) => ((), rest) := by
  have other {d : Char} (noDigit : d.isDigit = false) := ne_of_isDigit isDigit noDigit
  rw [skipAtom, if_pos isDigit]
  all_goals exact other rfl

/-- An atom begins with something that is no bracket and no white space. -/
theorem IsAtom.exists_cons {atom : List Char} (isAtom : IsAtom atom) :
    ∃ c later, atom = c :: later ∧ isSpace c = false ∧ c ≠ '[' ∧ c ≠ '{' ∧ c ≠ ']' := by
  cases isAtom with
  | word known =>
      obtain rfl | rfl | rfl := known
      · exact ⟨'n', "ull".toList, rfl, by decide⟩
      · exact ⟨'t', "rue".toList, rfl, by decide⟩
      · exact ⟨'f', "alse".toList, rfl, by decide⟩
  | text _ => exact ⟨'"', _, rfl, by decide⟩
  | number isSign isNumeral =>
      obtain rfl | rfl := isSign
      · obtain ⟨c, later, isDigit, rfl⟩ := isNumeral.exists_cons
        have other {d : Char} (noDigit : d.isDigit = false) := ne_of_isDigit isDigit noDigit
        exact ⟨c, later, rfl, isSpace_of_isDigit isDigit, other rfl, other rfl, other rfl⟩
      · exact ⟨'-', _, rfl, by decide⟩

private theorem exists_atom (skipped : skipAtom input = .ok ((), rest)) :
    ∃ atom, IsAtom atom ∧ input = atom ++ rest := by
  unfold skipAtom at skipped
  split at skipped
  case h_1 => cases skipped
  case h_2 =>
      rw [skipWord_eq_ok_iff.mp skipped]
      exact ⟨"null".toList, .word (.inl rfl), rfl⟩
  case h_3 =>
      rw [skipWord_eq_ok_iff.mp skipped]
      exact ⟨"true".toList, .word (.inr (.inl rfl)), rfl⟩
  case h_4 =>
      rw [skipWord_eq_ok_iff.mp skipped]
      exact ⟨"false".toList, .word (.inr (.inr rfl)), rfl⟩
  case h_5 =>
      obtain ⟨body, arePieces, rfl⟩ := skipString_eq_ok_iff.mp skipped
      exact ⟨'"' :: (body ++ ['"']), .text arePieces, by simp⟩
  case h_6 =>
      obtain ⟨⟨number, _⟩, found, same⟩ := map_eq_ok_iff.mp skipped
      cases same
      obtain ⟨numeral, isNumeral, rfl⟩ := exists_numeral found
      exact ⟨['-'] ++ numeral, .number (.inr rfl) isNumeral, rfl⟩
  case h_7 =>
      split at skipped
      · obtain ⟨⟨number, _⟩, found, same⟩ := map_eq_ok_iff.mp skipped
        cases same
        obtain ⟨numeral, isNumeral, same⟩ := exists_numeral found
        exact ⟨[] ++ numeral, .number (.inl rfl) isNumeral, same⟩
      · cases skipped

private theorem skipAtom_append {atom : List Char} (isAtom : IsAtom atom) (ends : Ends rest) :
    skipAtom (atom ++ rest) = .ok ((), rest) := by
  cases isAtom with
  | word known => obtain rfl | rfl | rfl := known <;> exact skipWord_eq_ok_iff.mpr rfl
  | @text body arePieces =>
      exact skipString_eq_ok_iff.mpr ⟨body, arePieces, by simp⟩
  | number isSign isNumeral =>
      obtain ⟨number, found⟩ := exists_readNumber isNumeral ends .text
      obtain rfl | rfl := isSign
      · obtain ⟨c, later, isDigit, rfl⟩ := isNumeral.exists_cons
        rw [List.nil_append, List.cons_append, skipAtom_of_isDigit isDigit]
        exact map_eq_ok_iff.mpr ⟨_, found, rfl⟩
      · exact map_eq_ok_iff.mpr ⟨_, found, rfl⟩

/-! ### The grammar of values -/

/-- The character that opens a bracket. -/
def Bracket.opener : Bracket → Char
  | .array => '['
  | .object => '{'

/-- What comes before a value inside a bracket: white space, after a name and a colon in an
object. -/
inductive Bracket.IsLead : Bracket → List Char → Prop where
  | array {spaces : List Char} (isSpaces : Spaces spaces) : IsLead .array spaces
  | object {before name between after : List Char} (isBefore : Spaces before)
      (isName : ArePieces name) (isBetween : Spaces between) (isAfter : Spaces after) :
      IsLead .object (before ++ '"' :: (name ++ '"' :: (between ++ ':' :: after)))

/-- A value (`none`), or what is left of a bracket (`some`) after a value inside it, up to its
closing. -/
inductive Part : Option Bracket → List Char → Prop where
  | atom {atom : List Char} (isAtom : IsAtom atom) : Part none atom
  | empty {bracket : Bracket} {spaces : List Char} (isSpaces : Spaces spaces) :
      Part none (bracket.opener :: (spaces ++ [bracket.closing]))
  | full {bracket : Bracket} {lead value tail : List Char} (isLead : bracket.IsLead lead)
      (isValue : Part none value) (isTail : Part (some bracket) tail) :
      Part none (bracket.opener :: (lead ++ (value ++ tail)))
  | close {bracket : Bracket} {spaces : List Char} (isSpaces : Spaces spaces) :
      Part (some bracket) (spaces ++ [bracket.closing])
  | next {bracket : Bracket} {spaces lead value tail : List Char} (isSpaces : Spaces spaces)
      (isLead : bracket.IsLead lead) (isValue : Part none value)
      (isTail : Part (some bracket) tail) :
      Part (some bracket) (spaces ++ ',' :: (lead ++ (value ++ tail)))

/-- A value of any kind. -/
def IsValue (value : List Char) : Prop :=
  Part none value

/-- Parts one after the other, each with white space before it. -/
inductive Closes : List (Option Bracket) → List Char → Prop where
  | nil : Closes [] []
  | cons {first : Option Bracket} {due : List (Option Bracket)} {spaces part others : List Char}
      (isSpaces : Spaces spaces) (isPart : Part first part) (closes : Closes due others) :
      Closes (first :: due) (spaces ++ (part ++ others))

/-- The parts that are still to come: a value unless one has just ended, then the rest of each
open bracket. -/
def due (complete : Bool) (opened : List Bracket) : List (Option Bracket) :=
  if complete then opened.map some else none :: opened.map some

private theorem Part.spaces_append {tail : List Char} (isSpaces : Spaces spaces)
    (isTail : Part (some bracket) tail) : Part (some bracket) (spaces ++ tail) := by
  cases isTail with
  | close isOther =>
      rw [← List.append_assoc]
      exact .close (isSpaces.append isOther)
  | next isOther isLead isValue isTail =>
      rw [← List.append_assoc]
      exact .next (isSpaces.append isOther) isLead isValue isTail

/-! ### What is skipped is a value -/

private theorem opening?_eq_some_iff : opening? input = some (bracket, rest) ↔
    input = bracket.opener :: rest := by
  unfold opening?
  cases bracket <;> split <;> simp_all [Bracket.opener]

/-- What is skipped before a value, with white space after it, leads to the value. -/
theorem Bracket.exists_lead (skipped : bracket.skipLead input = .ok ((), spaces ++ more))
    (isSpaces : Spaces spaces) : ∃ lead, bracket.IsLead lead ∧ input = lead ++ more := by
  cases bracket with
  | array =>
      cases skipped
      exact ⟨spaces, .array isSpaces, rfl⟩
  | object =>
      obtain ⟨before, name, between, isBefore, isName, isBetween, rfl⟩ :=
        skipName_eq_ok_iff.mp skipped
      exact ⟨_, .object isBefore isName isBetween isSpaces, by simp⟩

private theorem Bracket.IsLead.spaces_append (isSpaces : Spaces spaces)
    (isLead : bracket.IsLead lead) :
    bracket.IsLead (spaces ++ lead) := by
  cases isLead with
  | array isOther => exact .array (isSpaces.append isOther)
  | object isBefore isName isBetween isAfter =>
      rw [← List.append_assoc]
      exact .object (isSpaces.append isBefore) isName isBetween isAfter

/-- A step inside a bracket closes it or leads to another value in it. -/
theorem skipOpen_tail {budget : Nat} {opened : List Bracket}
    (skipped : skipOpen (budget + 1) true (bracket :: opened) input = .ok ((), rest)) :
    ∃ spaces later, Spaces spaces ∧
      (input = spaces ++ bracket.closing :: later ∧
          skipOpen budget true opened later = .ok ((), rest) ∨
        ∃ after, input = spaces ++ ',' :: later ∧ bracket.skipLead later = .ok ((), after) ∧
          skipOpen budget false (bracket :: opened) after = .ok ((), rest)) := by
  rw [skipOpen] at skipped
  split at skipped
  · cases skipped
  case h_2 c later found =>
      obtain ⟨_, spaces, isSpaces, rfl⟩ := skipSpaces_eq_cons_iff.mp found
      refine ⟨spaces, later, isSpaces, ?_⟩
      split at skipped
      case isTrue closing =>
          subst closing
          exact .inl ⟨rfl, skipped⟩
      case isFalse =>
          split at skipped
          case isTrue comma =>
              subst comma
              obtain ⟨⟨_, after⟩, leads, goesOn⟩ := bind_eq_ok_iff.mp skipped
              exact .inr ⟨after, rfl, leads, goesOn⟩
          case isFalse => cases skipped

/-- A step at the start of a value passes an atom, an empty bracket, or the opening of a bracket
and what leads to the first value in it. -/
theorem skipOpen_start {budget : Nat} {opened : List Bracket}
    (skipped : skipOpen (budget + 1) false opened input = .ok ((), rest)) :
    ∃ spaces later, Spaces spaces ∧
      ((∃ atom, IsAtom atom ∧ input = spaces ++ (atom ++ later) ∧
          skipOpen budget true opened later = .ok ((), rest)) ∨
        ∃ bracket inner, Spaces inner ∧
          (input = spaces ++ bracket.opener :: (inner ++ bracket.closing :: later) ∧
              skipOpen budget true opened later = .ok ((), rest) ∨
            ∃ after, input = spaces ++ bracket.opener :: (inner ++ later) ∧
              bracket.skipLead later = .ok ((), after) ∧
              skipOpen budget false (bracket :: opened) after = .ok ((), rest))) := by
  obtain ⟨spaces, isSpaces, parts⟩ := exists_spaces input
  simp only [skipOpen] at skipped
  split at skipped
  case h_1 =>
      obtain ⟨⟨_, later⟩, skips, goesOn⟩ := bind_eq_ok_iff.mp skipped
      obtain ⟨atom, isAtom, isFirst⟩ := exists_atom skips
      rw [isFirst] at parts
      exact ⟨spaces, later, isSpaces, .inl ⟨atom, isAtom, parts, goesOn⟩⟩
  case h_2 bracket behind opens =>
      rw [opening?_eq_some_iff.mp opens] at parts
      split at skipped
      · cases skipped
      case h_2 c others found =>
          obtain ⟨_, inner, isInner, rfl⟩ := skipSpaces_eq_cons_iff.mp found
          split at skipped
          case isTrue closing =>
              subst closing
              exact ⟨spaces, others, isSpaces,
                .inr ⟨bracket, inner, isInner, .inl ⟨parts, skipped⟩⟩⟩
          case isFalse =>
              obtain ⟨⟨_, after⟩, leads, goesOn⟩ := bind_eq_ok_iff.mp skipped
              exact ⟨spaces, c :: others, isSpaces,
                .inr ⟨bracket, inner, isInner, .inr ⟨after, parts, leads, goesOn⟩⟩⟩

/-- What a run passes after the lead of a value inside a bracket. -/
theorem exists_inside {frames : List (Option Bracket)} {text : List Char}
    (skipped : bracket.skipLead input = .ok ((), text ++ rest))
    (closes : Closes (none :: some bracket :: frames) text) :
    ∃ lead value tail others, bracket.IsLead lead ∧ Part none value ∧ Part (some bracket) tail ∧
      Closes frames others ∧ input = lead ++ (value ++ (tail ++ (others ++ rest))) := by
  cases closes with
  | @cons _ _ spaces value _ isSpaces isValue closesTail =>
      cases closesTail with
      | @cons _ _ between tail others isBetween isTail closesOthers =>
          simp only [List.append_assoc] at skipped
          obtain ⟨lead, isLead, rfl⟩ := Bracket.exists_lead skipped isSpaces
          exact ⟨lead, value, between ++ tail, others, isLead, isValue,
            isTail.spaces_append isBetween, closesOthers, by simp only [List.append_assoc]⟩

/-- A successful run has passed what its stack demanded.  The stack changes from step to step, so
the induction is over all of them at once. -/
theorem exists_closes {budget : Nat} {complete : Bool} {opened : List Bracket}
    (skipped : skipOpen budget complete opened input = .ok ((), rest)) :
    ∃ text, Closes (due complete opened) text ∧ input = text ++ rest := by
  induction budget generalizing complete opened input with
  | zero => cases skipped
  | succ budget ih =>
      cases complete with
      | true =>
          cases opened with
          | nil =>
              cases skipped
              exact ⟨[], .nil, rfl⟩
          | cons bracket opened =>
              obtain ⟨spaces, _, isSpaces, ⟨rfl, goesOn⟩ | ⟨_, rfl, leads, goesOn⟩⟩ :=
                skipOpen_tail skipped
              · obtain ⟨text, closes, rfl⟩ := ih goesOn
                exact ⟨_, .cons spaces_nil (.close isSpaces) closes, by simp⟩
              · obtain ⟨text, closes, rfl⟩ := ih goesOn
                obtain ⟨_, _, _, _, isLead, isValue, isTail, closes, rfl⟩ :=
                  exists_inside leads closes
                exact ⟨_, .cons spaces_nil (.next isSpaces isLead isValue isTail) closes, by simp⟩
      | false =>
          obtain ⟨spaces, _, isSpaces,
            ⟨atom, isAtom, rfl, goesOn⟩ | ⟨bracket, inner, isInner, inside⟩⟩ :=
              skipOpen_start skipped
          · obtain ⟨text, closes, rfl⟩ := ih goesOn
            exact ⟨_, .cons isSpaces (.atom isAtom) closes, by simp⟩
          · obtain ⟨rfl, goesOn⟩ | ⟨_, rfl, leads, goesOn⟩ := inside
            · obtain ⟨text, closes, rfl⟩ := ih goesOn
              exact ⟨_, .cons isSpaces (@Part.empty bracket _ isInner) closes, by simp⟩
            · obtain ⟨text, closes, rfl⟩ := ih goesOn
              obtain ⟨_, _, _, _, isLead, isValue, isTail, closes, rfl⟩ :=
                exists_inside leads closes
              exact ⟨_, .cons isSpaces (.full (isLead.spaces_append isInner) isValue isTail) closes,
                by simp⟩

/-- What is skipped is a value, after white space. -/
theorem exists_value (skipped : skipValue input = .ok ((), rest)) :
    ∃ spaces value, Spaces spaces ∧ IsValue value ∧ input = spaces ++ (value ++ rest) := by
  obtain ⟨text, closes, rfl⟩ := exists_closes skipped
  cases closes with
  | @cons _ _ spaces value _ isSpaces isValue closes =>
      cases closes
      exact ⟨spaces, value, isSpaces, isValue, by simp⟩

/-! ### A value is skipped -/

/-- A value begins with something that is no white space and closes no array. -/
theorem IsValue.begins {value : List Char} (isValue : IsValue value) : Begins ']' value := by
  cases isValue with
  | atom isAtom =>
      obtain ⟨c, later, rfl, solid, _, _, notClosing⟩ := isAtom.exists_cons
      exact ⟨c, later, rfl, solid, notClosing⟩
  | @empty bracket _ _ => exact ⟨bracket.opener, _, rfl, by cases bracket <;> decide⟩
  | @full bracket _ _ _ _ _ _ => exact ⟨bracket.opener, _, rfl, by cases bracket <;> decide⟩

/-- A token ends before white space, if it ends before what is behind it. -/
theorem ends_spaces_append (isSpaces : Spaces spaces) (ends : Ends rest) :
    Ends (spaces ++ rest) := by
  cases spaces with
  | nil => exact ends
  | cons c later => exact ends_cons (.inl (isSpaces c List.mem_cons_self)) _

/-- A token ends before a closing bracket. -/
theorem Bracket.ends_closing (bracket : Bracket) (rest : List Char) :
    Ends (bracket.closing :: rest) := by
  cases bracket with
  | array => exact ends_cons (.inr (.inr (.inl rfl))) rest
  | object => exact ends_cons (.inr (.inr (.inr rfl))) rest

/-- A token ends before the rest of an array or object. -/
theorem Part.ends {tail : List Char} (isTail : Part (some bracket) tail) (rest : List Char) :
    Ends (tail ++ rest) := by
  cases isTail with
  | close isSpaces =>
      rw [List.append_assoc]
      exact ends_spaces_append isSpaces (bracket.ends_closing _)
  | next isSpaces _ _ _ =>
      rw [List.append_assoc]
      exact ends_spaces_append isSpaces (ends_cons (.inr (.inl rfl)) _)

/-- After its lead a value is next, with white space before it. -/
theorem Bracket.IsLead.exists_skipLead (isLead : bracket.IsLead lead) (more : List Char) :
    ∃ spaces, Spaces spaces ∧ bracket.skipLead (lead ++ more) = .ok ((), spaces ++ more) := by
  cases isLead with
  | array isSpaces => exact ⟨_, isSpaces, rfl⟩
  | object isBefore isName isBetween isAfter =>
      exact ⟨_, isAfter, skipName_eq_ok_iff.mpr
        ⟨_, _, _, isBefore, isName, isBetween, by simp⟩⟩

/-- A lead does not look like the end of its bracket. -/
theorem Bracket.IsLead.exists_first {value : List Char} (isLead : bracket.IsLead lead)
    (isValue : IsValue value) (more : List Char) :
    ∃ c later shorter, bracket.IsLead shorter ∧ c ≠ bracket.closing ∧
      shorter ++ (value ++ more) = c :: later ∧
      skipSpaces (lead ++ (value ++ more)) = c :: later := by
  cases isLead with
  | array isSpaces =>
      obtain ⟨c, later, rfl, solid, notClosing⟩ := isValue.begins
      exact ⟨c, later ++ more, [], .array spaces_nil, notClosing, rfl,
        skipSpaces_eq_cons_iff.mpr ⟨solid, _, isSpaces, rfl⟩⟩
  | object isBefore isName isBetween isAfter =>
      exact ⟨'"', _, _, .object spaces_nil isName isBetween isAfter, by decide, rfl,
        skipSpaces_eq_cons_iff.mpr ⟨by decide, _, isBefore, by simp⟩⟩

variable (k : Nat) (opened : List Bracket)

private theorem skipOpen_atom {atom : List Char} (isSpaces : Spaces spaces) (isAtom : IsAtom atom)
    (ends : Ends rest) : skipOpen (k + 1) false opened (spaces ++ (atom ++ rest)) =
      skipOpen k true opened rest := by
  have skips := skipAtom_append isAtom ends
  obtain ⟨c, later, rfl, solid, notArray, notObject, _⟩ := isAtom.exists_cons
  have start : skipSpaces (spaces ++ (c :: later ++ rest)) = c :: later ++ rest := by
    rw [skipSpaces_append isSpaces]
    exact skipSpaces_cons_of_not solid _
  have closed : opening? (c :: later ++ rest) = none := by
    unfold opening?
    split <;> simp_all
  simp only [skipOpen, start, closed, skips]
  rfl

private theorem opening?_opener (bracket : Bracket) (rest : List Char) :
    opening? (bracket.opener :: rest) = some (bracket, rest) :=
  opening?_eq_some_iff.mpr rfl

private theorem Bracket.skipSpaces_opener (bracket : Bracket) (isSpaces : Spaces spaces)
    (rest : List Char) :
    skipSpaces (spaces ++ bracket.opener :: rest) = bracket.opener :: rest := by
  rw [skipSpaces_append isSpaces]
  exact skipSpaces_cons_of_not (by cases bracket <;> rfl) rest

private theorem Bracket.skipSpaces_closing (bracket : Bracket) (isSpaces : Spaces spaces)
    (rest : List Char) :
    skipSpaces (spaces ++ bracket.closing :: rest) = bracket.closing :: rest := by
  rw [skipSpaces_append isSpaces]
  exact skipSpaces_cons_of_not (by cases bracket <;> rfl) rest

private theorem skipOpen_empty {inner : List Char} (isSpaces : Spaces spaces)
    (isInner : Spaces inner) :
    skipOpen (k + 1) false opened
        (spaces ++ bracket.opener :: (inner ++ bracket.closing :: rest)) =
      skipOpen k true opened rest := by
  simp only [skipOpen, bracket.skipSpaces_opener isSpaces, opening?_opener,
    bracket.skipSpaces_closing isInner, if_true]

private theorem skipOpen_full {value : List Char} (isSpaces : Spaces spaces)
    (isLead : bracket.IsLead lead) (isValue : IsValue value) (rest : List Char) :
    ∃ between, Spaces between ∧ skipOpen (k + 1) false opened
        (spaces ++ bracket.opener :: (lead ++ (value ++ rest))) =
      skipOpen k false (bracket :: opened) (between ++ (value ++ rest)) := by
  obtain ⟨c, later, shorter, isShorter, notClosing, same, found⟩ :=
    isLead.exists_first isValue rest
  obtain ⟨between, isBetween, skips⟩ := isShorter.exists_skipLead (value ++ rest)
  rw [same] at skips
  refine ⟨between, isBetween, ?_⟩
  simp only [skipOpen, bracket.skipSpaces_opener isSpaces, opening?_opener, found,
    if_neg notClosing, skips]
  rfl

private theorem skipOpen_close (isSpaces : Spaces spaces) :
    skipOpen (k + 1) true (bracket :: opened) (spaces ++ bracket.closing :: rest) =
      skipOpen k true opened rest := by
  simp only [skipOpen, bracket.skipSpaces_closing isSpaces, if_true]

private theorem skipOpen_next (isSpaces : Spaces spaces) (isLead : bracket.IsLead lead)
    (rest : List Char) :
    ∃ between, Spaces between ∧
      skipOpen (k + 1) true (bracket :: opened) (spaces ++ ',' :: (lead ++ rest)) =
      skipOpen k false (bracket :: opened) (between ++ rest) := by
  obtain ⟨between, isBetween, skips⟩ := isLead.exists_skipLead rest
  refine ⟨between, isBetween, ?_⟩
  have found : skipSpaces (spaces ++ ',' :: (lead ++ rest)) = ',' :: (lead ++ rest) := by
    rw [skipSpaces_append isSpaces]
    exact skipSpaces_cons_of_not rfl _
  have notClosing : ',' ≠ bracket.closing := by cases bracket <;> decide
  simp only [skipOpen, found, if_neg notClosing, if_true, skips]
  rfl

/-- Where a part is due, a run passes it in so many steps, with white space before it. -/
def PassedIn (cost : Nat) (which : Option Bracket) (part : List Char) : Prop :=
  ∀ {spaces rest : List Char} {opened : List Bracket} {k : Nat}, Spaces spaces → Ends rest →
    skipOpen (k + cost) which.isSome (which.toList ++ opened) (spaces ++ (part ++ rest)) =
      skipOpen k true opened rest

/-- A value inside a bracket is passed, and so is what closes the bracket. -/
theorem PassedIn.inside {m n : Nat} {value tail : List Char} (passesValue : PassedIn m none value)
    (passesTail : PassedIn n (some bracket) tail) (isTail : Part (some bracket) tail)
    (isSpaces : Spaces spaces) (ends : Ends rest) :
    skipOpen (k + n + m) false (bracket :: opened) (spaces ++ (value ++ (tail ++ rest))) =
      skipOpen k true opened rest :=
  calc skipOpen (k + n + m) false (bracket :: opened) (spaces ++ (value ++ (tail ++ rest)))
    _ = skipOpen (k + n) true (bracket :: opened) (tail ++ rest) :=
      passesValue isSpaces (isTail.ends rest)
    _ = skipOpen k true opened rest := passesTail spaces_nil ends

/-- A part takes at most as many steps as it has characters. -/
theorem Part.exists_cost {which : Option Bracket} {part : List Char} (isPart : Part which part) :
    ∃ cost ≤ part.length, PassedIn cost which part := by
  induction isPart with
  | @atom atom isAtom =>
      obtain ⟨c, later, rfl, _⟩ := isAtom.exists_cons
      exact ⟨1, by simp, fun isSpaces ends => skipOpen_atom _ _ isSpaces isAtom ends⟩
  | @empty bracket inner isInner =>
      refine ⟨1, by simp, fun isSpaces _ => ?_⟩
      simp only [List.cons_append, List.append_assoc, List.nil_append]
      exact skipOpen_empty _ _ isSpaces isInner
  | @full bracket lead value tail isLead isValue isTail valueCost tailCost =>
      obtain ⟨m, small, passesValue⟩ := valueCost
      obtain ⟨n, short, passesTail⟩ := tailCost
      -- one more step for the opening and the lead
      refine ⟨n + m + 1, by simp; omega, fun {spaces rest opened k} isSpaces ends => ?_⟩
      obtain ⟨between, isBetween, opens⟩ := skipOpen_full (k + n + m) opened isSpaces isLead
        isValue (tail ++ rest)
      simp only [List.cons_append, List.append_assoc, ← Nat.add_assoc]
      exact opens.trans (passesValue.inside k opened passesTail isTail isBetween ends)
  | @close bracket spaces isSpaces =>
      refine ⟨1, by simp, fun {before rest opened k} isBefore _ => ?_⟩
      rw [List.append_assoc, ← List.append_assoc before]
      exact skipOpen_close _ _ (isBefore.append isSpaces)
  | @next bracket spaces lead value tail isSpaces isLead isValue isTail valueCost tailCost =>
      obtain ⟨m, small, passesValue⟩ := valueCost
      obtain ⟨n, short, passesTail⟩ := tailCost
      -- one more step for the comma and the lead
      refine ⟨n + m + 1, by simp; omega, fun {before rest opened k} isBefore ends => ?_⟩
      obtain ⟨between, isBetween, leads⟩ := skipOpen_next (k + n + m) opened
        (isBefore.append isSpaces) isLead (value ++ (tail ++ rest))
      simp only [List.cons_append, List.append_assoc, ← Nat.add_assoc] at leads ⊢
      exact leads.trans (passesValue.inside k opened passesTail isTail isBetween ends)

/-- A value is skipped as a whole, with white space before it. -/
theorem skipValue_append {value : List Char} (isSpaces : Spaces spaces) (isValue : IsValue value)
    (ends : Ends rest) : skipValue (spaces ++ (value ++ rest)) = .ok ((), rest) := by
  obtain ⟨cost, small, passes⟩ := isValue.exists_cost
  obtain ⟨k, enough⟩ : ∃ k, (spaces ++ (value ++ rest)).length + 2 = k + 1 + cost := by
    refine ⟨spaces.length + (value.length - cost) + rest.length + 1, ?_⟩
    simp only [List.length_append]
    omega
  rw [skipValue, enough]
  exact passes isSpaces ends

end FunctionBundler.JsonText
