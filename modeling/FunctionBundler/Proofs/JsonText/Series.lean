/-
Module: FunctionBundler.Proofs.JsonText.Series
Purpose: How texts, the items of an array and the members of an object are spelled, and that they
  are read exactly from their spellings.
Trusted boundary: none
Main exports:
  JsonText.Reads, JsonText.IsText, JsonText.IsTextOrNull, JsonText.Series, JsonText.IsMember,
  JsonText.foldItems_eq_ok_iff, JsonText.foldMembers_eq_ok_iff
-/
import FunctionBundler.Proofs.JsonText.Skipping

namespace FunctionBundler.JsonText

/-!
Arrays and objects are read by the same loop: look for another piece, read it, go on.  The
loops differ in what they look for, so the loop is stated once over that, with the law it
has to satisfy.  A piece changes a state, and a series relates the state before its first
piece to the state after its last.
-/

variable {α σ : Type} {input rest spaces text : List Char} {first : Bool}

/-! ### Values -/

/-- A reader takes exactly the spellings of a form, with white space before them. -/
structure Reads (reader : Reader α) (Form : List Char → α → Prop) : Prop where
  begins : ∀ {text value}, Form text value → Begins ']' text
  complete : ∀ {spaces text rest value}, Spaces spaces → Form text value → Ends rest →
    reader (spaces ++ (text ++ rest)) = .ok (value, rest)
  sound : ∀ {input rest value}, reader input = .ok (value, rest) →
    ∃ spaces text, Spaces spaces ∧ Form text value ∧ input = spaces ++ (text ++ rest)

/-- A spelling of a text between quotes. -/
def IsText (spelling : List Char) (text : String) : Prop :=
  ∃ body, SpellsChars body text.toList ∧ spelling = '"' :: (body ++ ['"'])

/-- A spelling of a text, or of nothing by the word for it. -/
inductive IsTextOrNull : List Char → Option String → Prop where
  | null : IsTextOrNull "null".toList none
  | text {spelling : List Char} {text : String} (isText : IsText spelling text) :
      IsTextOrNull spelling (some text)

/-- Texts are read, and nothing else is read as a text. -/
theorem reads_readText : Reads readText IsText where
  begins := by
    rintro _ _ ⟨body, _, rfl⟩
    exact ⟨'"', _, rfl, by decide⟩
  complete := by
    rintro spaces _ rest text isSpaces ⟨body, spells, rfl⟩ _
    have front : skipSpaces (spaces ++ ('"' :: (body ++ ['"']) ++ rest)) =
        '"' :: (body ++ '"' :: rest) :=
      skipSpaces_eq_cons_iff.mpr ⟨by decide, spaces, isSpaces, by simp⟩
    rw [readText, front]
    refine map_eq_ok_iff.mpr ⟨_, readString_of_spellsChars spells rest, ?_⟩
    simp only [String.ofList_toList]
  sound := by
    intro input rest text read
    unfold readText at read
    split at read
    · cases read
    case h_2 later front =>
        obtain ⟨⟨characters, _⟩, found, same⟩ := map_eq_ok_iff.mp read
        cases same
        obtain ⟨body, spells, rfl⟩ := readString_eq_ok_iff.mp found
        obtain ⟨_, spaces, isSpaces, rfl⟩ := skipSpaces_eq_cons_iff.mp front
        refine ⟨spaces, '"' :: (body ++ ['"']), isSpaces, ⟨body, ?_, rfl⟩, by simp⟩
        rw [String.toList_ofList]
        exact spells
    · cases read

/-- Texts and null are read, and nothing else. -/
theorem reads_readTextOrNull : Reads readTextOrNull IsTextOrNull where
  begins := by
    rintro _ _ (_ | isText)
    · exact ⟨'n', "ull".toList, rfl, by decide⟩
    · exact reads_readText.begins isText
  complete := by
    rintro spaces _ rest _ isSpaces (_ | ⟨isText⟩) ends
    · have front : skipSpaces (spaces ++ ("null".toList ++ rest)) = 'n' :: ("ull".toList ++ rest) :=
        skipSpaces_eq_cons_iff.mpr ⟨by decide, spaces, isSpaces, rfl⟩
      rw [readTextOrNull, front]
      exact map_eq_ok_iff.mpr ⟨((), rest), skipWord_eq_ok_iff.mpr rfl, rfl⟩
    · have read := reads_readText.complete spaces_nil isText ends
      have begins := (reads_readText.begins isText).append rest
      obtain ⟨body, _, rfl⟩ := isText
      rw [readTextOrNull, begins.skipSpaces_append isSpaces]
      exact map_eq_ok_iff.mpr ⟨_, read, rfl⟩
  sound := by
    intro input rest text read
    unfold readTextOrNull at read
    split at read
    case h_1 later front =>
        obtain ⟨⟨_, _⟩, found, same⟩ := map_eq_ok_iff.mp read
        cases same
        obtain ⟨_, spaces, isSpaces, rfl⟩ := skipSpaces_eq_cons_iff.mp front
        rw [skipWord_eq_ok_iff.mp found]
        exact ⟨spaces, "null".toList, isSpaces, .null, rfl⟩
    case h_2 =>
        obtain ⟨⟨_, _⟩, found, same⟩ := map_eq_ok_iff.mp read
        cases same
        obtain ⟨inner, spelling, isInner, isText, front⟩ := reads_readText.sound found
        obtain ⟨spaces, isSpaces, parts⟩ := exists_spaces input
        rw [front, ← List.append_assoc] at parts
        exact ⟨spaces ++ inner, spelling, isSpaces.append isInner, .text isText, parts⟩

/-- Values of every kind are skipped. -/
theorem reads_skipValue : Reads skipValue fun text _ => IsValue text where
  begins := IsValue.begins
  complete := fun isSpaces isValue ends => skipValue_append isSpaces isValue ends
  sound := exists_value

/-! ### Looking for another piece -/

/-- What comes before a piece inside a bracket: white space, around a comma unless the piece is
the first one. -/
inductive IsSeparator : (first : Bool) → List Char → Prop where
  | first {spaces : List Char} (isSpaces : Spaces spaces) : IsSeparator true spaces
  | comma {before after : List Char} (isBefore : Spaces before) (isAfter : Spaces after) :
      IsSeparator false (before ++ ',' :: after)

/-- White space may follow a separator. -/
theorem IsSeparator.append_spaces {separator : List Char}
    (isSeparator : IsSeparator first separator) (isSpaces : Spaces spaces) :
    IsSeparator first (separator ++ spaces) := by
  cases isSeparator with
  | first isBefore => exact .first (isBefore.append isSpaces)
  | comma isBefore isAfter =>
      rw [List.append_assoc, List.cons_append]
      exact .comma isBefore (isAfter.append isSpaces)

/-- A token ends before a separator. -/
theorem IsSeparator.ends {separator : List Char} (isSeparator : IsSeparator false separator)
    (rest : List Char) : Ends (separator ++ rest) := by
  cases isSeparator with
  | comma isBefore _ =>
      rw [List.append_assoc]
      exact ends_spaces_append isBefore (ends_cons (.inr (.inl rfl)) _)

/-- A way to look for another piece, which begins with a mark: it passes what separates the
pieces and the mark, or stops at the end of the bracket. -/
structure Separates (next : Bool → Reader Bool) (mark : List Char) (bracket : Bracket) : Prop where
  start : ∀ {input rest}, next true input = .ok (true, rest) ↔
    Begins bracket.closing (mark ++ rest) ∧ skipSpaces input = mark ++ rest
  later : ∀ {input rest}, next false input = .ok (true, rest) ↔
    Begins bracket.closing (mark ++ rest) ∧
      ∃ later, skipSpaces input = ',' :: later ∧ skipSpaces later = mark ++ rest
  ended : ∀ {first input rest}, next first input = .ok (false, rest) ↔
    skipSpaces input = rest ∧ ∃ later, rest = bracket.closing :: later

private theorem begins_cons_iff {closing c : Char} {later : List Char} :
    Begins closing (c :: later) ↔ isSpace c = false ∧ c ≠ closing := by
  simp [Begins]

private theorem isSpace_of_skipSpaces {c : Char} (front : skipSpaces input = c :: rest) :
    isSpace c = false :=
  (skipSpaces_eq_cons_iff.mp front).1

/-- Items of an array are separated by commas. -/
theorem separates_nextItem : Separates nextItem [] .array where
  start := by
    intro input rest
    unfold nextItem
    cases front : skipSpaces input with
    | nil => grind [Begins]
    | cons c later => grind [begins_cons_iff, Bracket.closing, isSpace_of_skipSpaces front]
  later := by
    intro input rest
    unfold nextItem
    cases front : skipSpaces input with
    | nil => grind [Begins]
    | cons c later =>
        cases back : skipSpaces later with
        | nil => grind [Begins]
        | cons d others => grind [begins_cons_iff, Bracket.closing, isSpace_of_skipSpaces back]
  ended := by
    unfold nextItem
    grind [Bracket.closing]

private theorem separates_nextMember : Separates nextMember ['"'] .object where
  start := by
    unfold nextMember openName
    grind [begins_cons_iff, isSpace, Bracket.closing]
  later := by
    unfold nextMember openName
    grind [begins_cons_iff, isSpace, Bracket.closing]
  ended := by
    unfold nextMember openName
    grind [Bracket.closing]

section Loop

variable {next : Bool → Reader Bool} {mark : List Char} {bracket : Bracket}

private theorem Begins.skipSpaces_eq_iff {closing : Char} (begins : Begins closing rest) :
    skipSpaces input = rest ↔ ∃ spaces, Spaces spaces ∧ input = spaces ++ rest := by
  obtain ⟨c, later, rfl, solid, _⟩ := begins
  exact skipSpaces_eq_cons_iff_of_not solid

/-- Another piece is due exactly behind a separator. -/
theorem Separates.eq_true_iff (separates : Separates next mark bracket) :
    next first input = .ok (true, rest) ↔ Begins bracket.closing (mark ++ rest) ∧
      ∃ separator, IsSeparator first separator ∧ input = separator ++ (mark ++ rest) := by
  cases first with
  | true =>
      rw [separates.start]
      refine and_congr_right fun begins => ?_
      rw [begins.skipSpaces_eq_iff]
      constructor
      · rintro ⟨spaces, isSpaces, rfl⟩
        exact ⟨spaces, .first isSpaces, rfl⟩
      · rintro ⟨_, ⟨isSpaces⟩, rfl⟩
        exact ⟨_, isSpaces, rfl⟩
  | false =>
      rw [separates.later]
      refine and_congr_right fun begins => ?_
      constructor
      · rintro ⟨later, front, back⟩
        obtain ⟨_, before, isBefore, rfl⟩ := skipSpaces_eq_cons_iff.mp front
        obtain ⟨after, isAfter, rfl⟩ := begins.skipSpaces_eq_iff.mp back
        exact ⟨before ++ ',' :: after, .comma isBefore isAfter, by simp⟩
      · rintro ⟨_, isSeparator, rfl⟩
        cases isSeparator with
        | @comma before after isBefore isAfter =>
            exact ⟨after ++ (mark ++ rest),
              skipSpaces_eq_cons_iff.mpr ⟨by decide, before, isBefore, by simp⟩,
              begins.skipSpaces_append isAfter⟩

/-- No other piece is due exactly before the closing bracket. -/
theorem Separates.eq_false_iff (separates : Separates next mark bracket) :
    next first input = .ok (false, rest) ↔ (∃ later, rest = bracket.closing :: later) ∧
      ∃ spaces, Spaces spaces ∧ input = spaces ++ rest := by
  rw [separates.ended, and_comm]
  refine and_congr_right ?_
  rintro ⟨later, rfl⟩
  exact skipSpaces_eq_cons_iff_of_not (by cases bracket <;> rfl)

/-! ### Series of pieces -/

/-- Pieces up to the end of their bracket, each with what separates it from those before it. -/
inductive Series (Piece : σ → List Char → σ → Prop) :
    (first : Bool) → σ → List Char → σ → Prop where
  | done {first : Bool} {state : σ} {spaces : List Char} (isSpaces : Spaces spaces) :
      Series Piece first state spaces state
  | piece {first : Bool} {state middle last : σ} {separator piece others : List Char}
      (isSeparator : IsSeparator first separator) (isPiece : Piece state piece middle)
      (more : Series Piece false middle others last) :
      Series Piece first state (separator ++ (piece ++ others)) last

/-- Read the pieces inside a bracket up to its end, which stays. -/
def foldPieces (next : Bool → Reader Bool) (step : σ → Reader σ) :
    (budget : Nat) → (first : Bool) → σ → Reader σ
  | 0, _, _, _ => .error .text
  | budget + 1, first, state, input => do
    let (more, rest) ← next first input
    if more then
      let (state, rest) ← step state rest
      foldPieces next step budget false state rest
    else
      return (state, rest)

/-- A step reads exactly one piece, without its mark. -/
structure ReadsPiece (step : σ → Reader σ) (mark : List Char) (bracket : Bracket)
    (Piece : σ → List Char → σ → Prop) : Prop where
  begins : ∀ {state piece result}, Piece state piece result → Begins bracket.closing piece
  complete : ∀ {state piece result rest}, Piece state piece result → Ends rest →
    ∃ later, piece = mark ++ later ∧ step state (later ++ rest) = .ok (result, rest)
  sound : ∀ {state result input rest}, Begins bracket.closing (mark ++ input) →
    step state input = .ok (result, rest) →
    ∃ later, Piece state (mark ++ later) result ∧ input = later ++ rest

variable {step : σ → Reader σ} {Piece : σ → List Char → σ → Prop} {state last : σ}

/-- A token ends before the pieces that follow. -/
theorem Series.ends (series : Series Piece false state text last) (ends : Ends rest) :
    Ends (text ++ rest) := by
  cases series with
  | done isSpaces => exact ends_spaces_append isSpaces ends
  | piece isSeparator _ _ =>
      rw [List.append_assoc]
      exact isSeparator.ends _

private theorem exists_series {budget : Nat} (separates : Separates next mark bracket)
    (reads : ReadsPiece step mark bracket Piece)
    (read : foldPieces next step budget first state input = .ok (last, rest)) :
    ∃ text later, Series Piece first state text last ∧ rest = bracket.closing :: later ∧
      input = text ++ rest := by
  induction budget generalizing first state input with
  | zero => cases read
  | succ budget ih =>
      obtain ⟨⟨more, behind⟩, looks, goesOn⟩ := bind_eq_ok_iff.mp read
      cases more with
      | true =>
          obtain ⟨⟨middle, others⟩, steps, readsOthers⟩ := bind_eq_ok_iff.mp goesOn
          obtain ⟨begins, separator, isSeparator, rfl⟩ := separates.eq_true_iff.mp looks
          obtain ⟨piece, isPiece, rfl⟩ := reads.sound begins steps
          obtain ⟨text, later, series, rfl, rfl⟩ := ih readsOthers
          exact ⟨_, later, .piece isSeparator isPiece series, rfl, by simp⟩
      | false =>
          cases goesOn
          obtain ⟨⟨later, rfl⟩, spaces, isSpaces, rfl⟩ := separates.eq_false_iff.mp looks
          exact ⟨spaces, later, .done isSpaces, rfl, rfl⟩

private theorem foldPieces_append {budget : Nat} (separates : Separates next mark bracket)
    (reads : ReadsPiece step mark bracket Piece) (series : Series Piece first state text last)
    (enough : text.length < budget) (rest : List Char) :
    foldPieces next step budget first state (text ++ bracket.closing :: rest) =
      .ok (last, bracket.closing :: rest) := by
  induction series generalizing budget with
  | @done first state spaces isSpaces =>
      obtain ⟨budget, rfl⟩ : ∃ fewer, budget = fewer + 1 := ⟨budget - 1, by omega⟩
      exact bind_eq_ok_iff.mpr ⟨(false, bracket.closing :: rest),
        separates.eq_false_iff.mpr ⟨⟨rest, rfl⟩, spaces, isSpaces, rfl⟩, rfl⟩
  | @piece first state middle last separator piece others isSeparator isPiece more ih =>
      obtain ⟨budget, rfl⟩ : ∃ fewer, budget = fewer + 1 := ⟨budget - 1, by omega⟩
      have begins := reads.begins isPiece
      obtain ⟨later, rfl, steps⟩ := reads.complete isPiece (more.ends (bracket.ends_closing rest))
      have looks : next first (separator ++ (mark ++ later ++ others) ++ bracket.closing :: rest) =
          .ok (true, later ++ (others ++ bracket.closing :: rest)) := by
        refine separates.eq_true_iff.mpr ⟨?_, separator, isSeparator, by simp⟩
        rw [← List.append_assoc]
        exact begins.append _
      have shorter : others.length < budget := by
        obtain ⟨c, tail, nonempty, _⟩ := begins
        have := congrArg List.length nonempty
        simp only [List.length_append, List.length_cons] at this enough
        omega
      exact bind_eq_ok_iff.mpr ⟨_, looks, bind_eq_ok_iff.mpr ⟨_, steps, ih shorter⟩⟩

private theorem foldPieces_eq_ok_iff (separates : Separates next mark bracket)
    (reads : ReadsPiece step mark bracket Piece) :
    foldPieces next step (input.length + 1) first state input = .ok (last, rest) ↔
      ∃ text later, Series Piece first state text last ∧ rest = bracket.closing :: later ∧
        input = text ++ rest := by
  constructor
  · exact exists_series separates reads
  · rintro ⟨text, later, series, rfl, rfl⟩
    refine foldPieces_append separates reads series ?_ later
    simp only [List.length_append]
    omega

end Loop

/-! ### Arrays -/

/-- An array is closed by its bracket, and white space may stand before it. -/
theorem closeArray_eq_ok_iff : closeArray input = .ok ((), rest) ↔
    ∃ spaces, Spaces spaces ∧ input = spaces ++ ']' :: rest := by
  rw [← skipSpaces_eq_cons_iff_of_not (by decide)]
  unfold closeArray
  split <;> simp_all

/-- A piece that is a value, added to what came before it. -/
inductive IsItem (Form : List Char → α → Prop) (add : σ → α → σ) : σ → List Char → σ → Prop where
  | value {state : σ} {text : List Char} {value : α} (isValue : Form text value) :
      IsItem Form add state text (add state value)

private theorem foldItems_eq_foldPieces (step : σ → Reader σ) (budget : Nat) (first : Bool)
    (state : σ) (input : List Char) :
    foldItems step budget first state input =
      foldPieces nextItem step budget first state input := by
  induction budget generalizing first state input with
  | zero => rfl
  | succ budget ih => simp only [foldItems, foldPieces, ih]

private theorem Begins.eq_nil_of_spaces {closing : Char} (begins : Begins closing (spaces ++ text))
    (isSpaces : Spaces spaces) : spaces = [] := by
  obtain ⟨c, later, front, solid, _⟩ := begins
  cases spaces with
  | nil => rfl
  | cons d others =>
      cases front
      rw [isSpaces c List.mem_cons_self] at solid
      cases solid

private theorem Reads.readsPiece {reader : Reader α} {Form : List Char → α → Prop}
    (reads : Reads reader Form) (add : σ → α → σ) :
    ReadsPiece (fun state input => do
      let (value, rest) ← reader input
      return (add state value, rest)) [] .array (IsItem Form add) where
  begins := by
    rintro _ _ _ ⟨isValue⟩
    exact reads.begins isValue
  complete := by
    rintro _ text _ rest ⟨isValue⟩ ends
    exact ⟨text, rfl, bind_eq_ok_iff.mpr ⟨_, reads.complete spaces_nil isValue ends, rfl⟩⟩
  sound := by
    rintro state _ input rest begins read
    obtain ⟨⟨value, _⟩, found, same⟩ := bind_eq_ok_iff.mp read
    cases same
    obtain ⟨spaces, text, isSpaces, isValue, rfl⟩ := reads.sound found
    -- the piece begins with no white space, so none was read before it
    have nothing : spaces = [] := Begins.eq_nil_of_spaces begins isSpaces
    subst nothing
    exact ⟨text, .value isValue, rfl⟩

/-- The items of an array are read exactly if they are a series of values. -/
theorem foldItems_eq_ok_iff {reader : Reader α} {Form : List Char → α → Prop} {state last : σ}
    (reads : Reads reader Form) (add : σ → α → σ) :
    foldItems (fun state input => do
        let (value, rest) ← reader input
        return (add state value, rest)) (input.length + 1) first state input = .ok (last, rest) ↔
      ∃ text later, Series (IsItem Form add) first state text last ∧ rest = ']' :: later ∧
        input = text ++ rest := by
  rw [foldItems_eq_foldPieces]
  exact foldPieces_eq_ok_iff separates_nextItem (reads.readsPiece add)

/-! ### Objects -/

/-- An object is closed by its brace, and white space may stand before it. -/
theorem closeObject_eq_ok_iff : closeObject input = .ok ((), rest) ↔
    ∃ spaces, Spaces spaces ∧ input = spaces ++ '}' :: rest := by
  rw [← skipSpaces_eq_cons_iff_of_not (by decide)]
  unfold closeObject
  split <;> simp_all

/-- A piece that is a member: its name, and what the member makes of what comes after that. -/
inductive IsMember (Member : σ → List Char → List Char → σ → Prop) :
    σ → List Char → σ → Prop where
  | named {state result : σ} {spelling name after : List Char} (spells : SpellsChars spelling name)
      (member : Member state name after result) :
      IsMember Member state ('"' :: (spelling ++ '"' :: after)) result

/-- A step reads exactly what comes after the name of a member. -/
structure ReadsMember (step : σ → List Char → Reader σ)
    (Member : σ → List Char → List Char → σ → Prop) : Prop where
  complete : ∀ {state name after result rest}, Member state name after result → Ends rest →
    step state name (after ++ rest) = .ok (result, rest)
  sound : ∀ {state name result input rest}, step state name input = .ok (result, rest) →
    ∃ after, Member state name after result ∧ input = after ++ rest

private theorem foldMembers_eq_foldPieces {κ : Type} (name : Reader κ) (step : σ → κ → Reader σ)
    (budget : Nat) (first : Bool) (state : σ) (input : List Char) :
    foldMembers name step budget first state input =
      foldPieces nextMember (fun state input => do
        let (key, rest) ← name input
        step state key rest) budget first state input := by
  induction budget generalizing first state input with
  | zero => rfl
  | succ budget ih => simp only [foldMembers, foldPieces, ih, bind_assoc]

private theorem ReadsMember.readsPiece {step : σ → List Char → Reader σ}
    {Member : σ → List Char → List Char → σ → Prop} (reads : ReadsMember step Member) :
    ReadsPiece (fun state input => do
      let (name, rest) ← readString input
      step state name rest) ['"'] .object (IsMember Member) where
  begins := by
    rintro _ _ _ ⟨_, _⟩
    exact ⟨'"', _, rfl, by decide⟩
  complete := by
    rintro _ _ _ rest ⟨spells, member⟩ ends
    refine ⟨_, rfl, bind_eq_ok_iff.mpr ⟨_, readString_eq_ok_iff.mpr ⟨_, spells, ?_⟩,
      reads.complete member ends⟩⟩
    simp
  sound := by
    rintro state result input rest _ read
    obtain ⟨⟨name, behind⟩, found, steps⟩ := bind_eq_ok_iff.mp read
    obtain ⟨spelling, spells, rfl⟩ := readString_eq_ok_iff.mp found
    obtain ⟨after, member, rfl⟩ := reads.sound steps
    exact ⟨spelling ++ '"' :: after, .named spells member, by simp⟩

/-- The members of an object are read exactly if they are a series of members. -/
theorem foldMembers_eq_ok_iff {step : σ → List Char → Reader σ}
    {Member : σ → List Char → List Char → σ → Prop} {state last : σ}
    (reads : ReadsMember step Member) :
    foldMembers readString step (input.length + 1) first state input = .ok (last, rest) ↔
      ∃ text later, Series (IsMember Member) first state text last ∧ rest = '}' :: later ∧
        input = text ++ rest := by
  rw [foldMembers_eq_foldPieces]
  exact foldPieces_eq_ok_iff separates_nextMember reads.readsPiece

end FunctionBundler.JsonText
