/-
Module: FunctionBundler.Proofs.Manifest.Spelling
Purpose: Which texts are read as which manifest.
Trusted boundary: none
Main exports:
  Manifest.After, Manifest.IsEntryMember, Manifest.SpellsEntry, Manifest.SpellsManifest,
  Manifest.Spells, Manifest.read_eq_ok_iff_spells
-/
import FunctionBundler.Manifest
import FunctionBundler.Proofs.JsonText.Series

namespace FunctionBundler.Manifest

/-!
The spellings of a manifest follow its two shapes.  An object has its members in any order,
each known one at most once, among members of other names with values of any kind; an array
has the known ones in their order.  The source name of an entry point may be missing or null.
-/

open JsonText

variable {α : Type} {input rest text : List Char}

/-! ### The value of a member -/

/-- What comes after the name of a member: a colon and a value. -/
def After (Form : List Char → α → Prop) (text : List Char) (value : α) : Prop :=
  ∃ before between spelling, Spaces before ∧ Spaces between ∧ Form spelling value ∧
    text = before ++ ':' :: (between ++ spelling)

private theorem exists_after {reader : Reader α} {Form : List Char → α → Prop} {known : Bool}
    {value : α}
    (reads : Reads reader Form) (read : memberValue reader known input = .ok (value, rest)) :
    known = false ∧ ∃ text, After Form text value ∧ input = text ++ rest := by
  cases known with
  | true => cases read
  | false =>
      obtain ⟨⟨_, _⟩, isColon, readsValue⟩ := bind_eq_ok_iff.mp read
      obtain ⟨before, isBefore, rfl⟩ := colon_eq_ok_iff.mp isColon
      obtain ⟨between, spelling, isBetween, isValue, rfl⟩ := reads.sound readsValue
      exact ⟨rfl, _, ⟨before, between, spelling, isBefore, isBetween, isValue, rfl⟩, by simp⟩

/-- A member is read by reading its value and adding that to what is known. -/
theorem exists_member {β : Type} {reader : Reader α} {Form : List Char → α → Prop} {known : Bool}
    {result : β} (add : α → β) (reads : Reads reader Form)
    (read : (do
      let (value, rest) ← memberValue reader known input
      return (add value, rest)) = Except.ok (result, rest)) :
    known = false ∧ ∃ text value, After Form text value ∧ result = add value ∧
      input = text ++ rest := by
  obtain ⟨⟨value, _⟩, readsValue, same⟩ := bind_eq_ok_iff.mp read
  cases same
  obtain ⟨absent, text, after, rfl⟩ := exists_after reads readsValue
  exact ⟨absent, text, value, after, rfl, rfl⟩

private theorem memberValue_append {reader : Reader α} {Form : List Char → α → Prop} {value : α}
    (reads : Reads reader Form) (after : After Form text value) (ends : Ends rest) :
    memberValue reader false (text ++ rest) = .ok (value, rest) := by
  obtain ⟨before, between, spelling, isBefore, isBetween, isValue, rfl⟩ := after
  exact bind_eq_ok_iff.mpr ⟨((), between ++ (spelling ++ rest)),
    colon_eq_ok_iff.mpr ⟨before, isBefore, by simp⟩, reads.complete isBetween isValue ends⟩

/-! ### The members of an entry point -/

/-- The names of the members that an entry point has. -/
def entryNames : List (List Char) :=
  ["filename".toList, "user_meta".toList, "original_function_name".toList]

/-- A member of an entry point, with what it adds to the draft. -/
inductive IsEntryMember : Draft → List Char → List Char → Draft → Prop where
  | fileName {draft : Draft} {text : List Char} {name : String} (absent : draft.fileName = none)
      (after : After IsText text name) :
      IsEntryMember draft "filename".toList text { draft with fileName := some name }
  | metadata {draft : Draft} {text : List Char} {blob : String} (absent : draft.metadata = none)
      (after : After IsText text blob) :
      IsEntryMember draft "user_meta".toList text { draft with metadata := some blob }
  | sourceName {draft : Draft} {text : List Char} {name : Option String}
      (absent : draft.sourceName = none) (after : After IsTextOrNull text name) :
      IsEntryMember draft "original_function_name".toList text
        { draft with sourceName := some name }
  | unknown {draft : Draft} {name text : List Char} (other : name ∉ entryNames)
      (after : After (fun spelling () => IsValue spelling) text ()) :
      IsEntryMember draft name text draft

private theorem not_mem_entryNames_iff {name : List Char} : name ∉ entryNames ↔
    name ≠ "filename".toList ∧ name ≠ "user_meta".toList ∧
      name ≠ "original_function_name".toList := by
  simp only [entryNames, List.mem_cons, List.not_mem_nil, or_false, not_or, ne_eq]

private theorem eq_none_of_isSome {option : Option α} (absent : option.isSome = false) :
    option = none :=
  Option.isNone_iff_eq_none.mp (Option.isSome_eq_false_iff.mp absent)

private theorem readsMember_readMember : ReadsMember readMember IsEntryMember where
  complete := by
    rintro draft name text _ rest member ends
    cases member with
    | fileName absent after =>
        rw [readMember, if_pos rfl, absent]
        exact bind_eq_ok_iff.mpr ⟨_, memberValue_append reads_readText after ends, rfl⟩
    | metadata absent after =>
        rw [readMember, if_neg (by decide), if_pos rfl, absent]
        exact bind_eq_ok_iff.mpr ⟨_, memberValue_append reads_readText after ends, rfl⟩
    | sourceName absent after =>
        rw [readMember, if_neg (by decide), if_neg (by decide), if_pos rfl, absent]
        exact bind_eq_ok_iff.mpr ⟨_, memberValue_append reads_readTextOrNull after ends, rfl⟩
    | unknown other after =>
        obtain ⟨notFileName, notMetadata, notSourceName⟩ := not_mem_entryNames_iff.mp other
        rw [readMember, if_neg notFileName, if_neg notMetadata, if_neg notSourceName]
        exact bind_eq_ok_iff.mpr ⟨_, memberValue_append reads_skipValue after ends, rfl⟩
  sound := by
    rintro draft name result input rest read
    unfold readMember at read
    split at read
    case isTrue known =>
        obtain ⟨absent, text, value, after, rfl, rfl⟩ :=
          exists_member (fun value => { draft with fileName := some value }) reads_readText read
        exact ⟨text, known ▸ .fileName (eq_none_of_isSome absent) after, rfl⟩
    case isFalse notFileName =>
        split at read
        case isTrue known =>
            obtain ⟨absent, text, value, after, rfl, rfl⟩ :=
              exists_member (fun value => { draft with metadata := some value }) reads_readText read
            exact ⟨text, known ▸ .metadata (eq_none_of_isSome absent) after, rfl⟩
        case isFalse notMetadata =>
            split at read
            case isTrue known =>
                obtain ⟨absent, text, value, after, rfl, rfl⟩ :=
                  exists_member (fun value => { draft with sourceName := some value })
                    reads_readTextOrNull read
                exact ⟨text, known ▸ .sourceName (eq_none_of_isSome absent) after, rfl⟩
            case isFalse notSourceName =>
                obtain ⟨_, text, _, after, rfl, rfl⟩ :=
                  exists_member (fun _ => draft) reads_skipValue read
                exact ⟨text, .unknown (not_mem_entryNames_iff.mpr
                  ⟨notFileName, notMetadata, notSourceName⟩) after, rfl⟩

/-! ### Items that stand for an object -/

/-- An item of an array with what separates it from the items before it. -/
def Placed (first : Bool) (Form : List Char → α → Prop) (text : List Char) (value : α) : Prop :=
  ∃ separator spelling, IsSeparator first separator ∧ Form spelling value ∧
    text = separator ++ spelling

private theorem exists_item {reader : Reader α} {Form : List Char → α → Prop} {first : Bool}
    {found : Option α} (reads : Reads reader Form)
    (read : readItem first reader input = .ok (found, rest)) :
    (∃ value text, found = some value ∧ Placed first Form text value ∧ input = text ++ rest) ∨
      found = none ∧ ∃ spaces, Spaces spaces ∧ input = spaces ++ rest := by
  obtain ⟨⟨more, behind⟩, looks, goesOn⟩ := bind_eq_ok_iff.mp read
  cases more with
  | true =>
      obtain ⟨⟨value, _⟩, readsValue, same⟩ := bind_eq_ok_iff.mp goesOn
      cases same
      obtain ⟨_, separator, isSeparator, rfl⟩ := separates_nextItem.eq_true_iff.mp looks
      obtain ⟨spaces, spelling, isSpaces, isValue, rfl⟩ := reads.sound readsValue
      exact .inl ⟨value, _, rfl,
        ⟨separator ++ spaces, spelling, isSeparator.append_spaces isSpaces, isValue, rfl⟩, by simp⟩
  | false =>
      cases goesOn
      obtain ⟨_, spaces, isSpaces, rfl⟩ := separates_nextItem.eq_false_iff.mp looks
      exact .inr ⟨rfl, spaces, isSpaces, rfl⟩

private theorem readItem_append {reader : Reader α} {Form : List Char → α → Prop} {first : Bool}
    {value : α}
    (reads : Reads reader Form) (placed : Placed first Form text value) (ends : Ends rest) :
    readItem first reader (text ++ rest) = .ok (some value, rest) := by
  obtain ⟨separator, spelling, isSeparator, isValue, rfl⟩ := placed
  have looks : nextItem first (separator ++ spelling ++ rest) = .ok (true, spelling ++ rest) :=
    separates_nextItem.eq_true_iff.mpr
      ⟨(reads.begins isValue).append rest, separator, isSeparator, by simp⟩
  exact bind_eq_ok_iff.mpr ⟨_, looks,
    bind_eq_ok_iff.mpr ⟨_, reads.complete spaces_nil isValue ends, rfl⟩⟩

private theorem readItem_closing {reader : Reader α} {first : Bool} {spaces : List Char}
    (isSpaces : Spaces spaces) (rest : List Char) :
    readItem first reader (spaces ++ ']' :: rest) = .ok (none, ']' :: rest) :=
  bind_eq_ok_iff.mpr ⟨(false, ']' :: rest),
    separates_nextItem.eq_false_iff.mpr ⟨⟨rest, rfl⟩, spaces, isSpaces, rfl⟩, rfl⟩

/-- A token ends before a member that is not the first. -/
theorem Placed.ends {Form : List Char → α → Prop} {value : α}
    (placed : Placed false Form text value) (rest : List Char) : Ends (text ++ rest) := by
  obtain ⟨separator, spelling, isSeparator, _, rfl⟩ := placed
  rw [List.append_assoc]
  exact isSeparator.ends _

/-- What is required has to be there. -/
theorem require_eq_ok_iff {found : Option α} {value : α} :
    require found = .ok value ↔ found = some value := by
  cases found <;> simp [require]

private theorem exists_required {reader : Reader α} {Form : List Char → α → Prop} {first : Bool}
    {found : Option α} {value : α} (reads : Reads reader Form)
    (read : readItem first reader input = .ok (found, rest)) (has : require found = .ok value) :
    ∃ text, Placed first Form text value ∧ input = text ++ rest := by
  cases require_eq_ok_iff.mp has
  obtain ⟨_, text, same, placed, rfl⟩ | ⟨missing, _⟩ := exists_item reads read
  · cases same
    exact ⟨text, placed, rfl⟩
  · cases missing

/-! ### Entry points -/

/-- The items of an array that stands for an entry point. -/
inductive IsEntryItems : List Char → EntryPoint → Prop where
  | two {first second : List Char} {fileName metadata : String}
      (isFile : Placed true IsText first fileName) (isBlob : Placed false IsText second metadata) :
      IsEntryItems (first ++ second) ⟨fileName, metadata, none⟩
  | three {first second third : List Char} {fileName metadata : String} {name : Option String}
      (isFile : Placed true IsText first fileName) (isBlob : Placed false IsText second metadata)
      (isName : Placed false IsTextOrNull third name) :
      IsEntryItems (first ++ (second ++ third)) ⟨fileName, metadata, name⟩

/-- A spelling of an entry point. -/
inductive SpellsEntry : List Char → EntryPoint → Prop where
  | object {members : List Char} {draft : Draft} {entry : EntryPoint}
      (series : Series (IsMember IsEntryMember) true ⟨none, none, none⟩ members draft)
      (finished : draft.finish = .ok entry) : SpellsEntry ('{' :: (members ++ ['}'])) entry
  | array {items spaces : List Char} {entry : EntryPoint} (isItems : IsEntryItems items entry)
      (isSpaces : Spaces spaces) : SpellsEntry ('[' :: (items ++ (spaces ++ [']']))) entry

private theorem exists_entryItems {entry : EntryPoint}
    (read : readEntryItems input = .ok (entry, rest)) :
    ∃ items spaces, IsEntryItems items entry ∧ Spaces spaces ∧
      input = items ++ (spaces ++ rest) := by
  obtain ⟨⟨_, _⟩, readsFile, read⟩ := bind_eq_ok_iff.mp read
  obtain ⟨fileName, hasFile, read⟩ := bind_eq_ok_iff.mp read
  obtain ⟨⟨_, _⟩, readsBlob, read⟩ := bind_eq_ok_iff.mp read
  obtain ⟨metadata, hasBlob, read⟩ := bind_eq_ok_iff.mp read
  obtain ⟨⟨name, _⟩, readsName, same⟩ := bind_eq_ok_iff.mp read
  cases same
  obtain ⟨first, isFile, rfl⟩ := exists_required reads_readText readsFile hasFile
  obtain ⟨second, isBlob, rfl⟩ := exists_required reads_readText readsBlob hasBlob
  obtain ⟨name, third, rfl, isName, rfl⟩ | ⟨rfl, spaces, isSpaces, rfl⟩ :=
    exists_item reads_readTextOrNull readsName
  · exact ⟨_, [], .three isFile isBlob isName, spaces_nil, by simp⟩
  · exact ⟨_, spaces, .two isFile isBlob, isSpaces, by simp⟩

/-- The items are read up to the closing bracket or the white space before it. -/
theorem exists_readEntryItems {items spaces : List Char} {entry : EntryPoint}
    (isItems : IsEntryItems items entry) (isSpaces : Spaces spaces) (rest : List Char) :
    ∃ between, Spaces between ∧
      readEntryItems (items ++ (spaces ++ ']' :: rest)) = .ok (entry, between ++ ']' :: rest) := by
  have ends : Ends (spaces ++ ']' :: rest) :=
    ends_spaces_append isSpaces (Bracket.ends_closing .array rest)
  cases isItems with
  | two isFile isBlob =>
      refine ⟨[], spaces_nil, ?_⟩
      rw [List.append_assoc]
      exact bind_eq_ok_iff.mpr ⟨_, readItem_append reads_readText isFile (isBlob.ends _),
        bind_eq_ok_iff.mpr ⟨_, rfl,
        bind_eq_ok_iff.mpr ⟨_, readItem_append reads_readText isBlob ends,
        bind_eq_ok_iff.mpr ⟨_, rfl,
        bind_eq_ok_iff.mpr ⟨_, readItem_closing isSpaces rest, rfl⟩⟩⟩⟩⟩
  | three isFile isBlob isName =>
      refine ⟨spaces, isSpaces, ?_⟩
      rw [List.append_assoc, List.append_assoc]
      exact bind_eq_ok_iff.mpr ⟨_, readItem_append reads_readText isFile (isBlob.ends _),
        bind_eq_ok_iff.mpr ⟨_, rfl,
        bind_eq_ok_iff.mpr ⟨_, readItem_append reads_readText isBlob (isName.ends _),
        bind_eq_ok_iff.mpr ⟨_, rfl,
        bind_eq_ok_iff.mpr ⟨_, readItem_append reads_readTextOrNull isName ends, rfl⟩⟩⟩⟩⟩

private theorem skipSpaces_front {c : Char} {spaces : List Char} (solid : isSpace c = false)
    (isSpaces : Spaces spaces) (text rest : List Char) :
    skipSpaces (spaces ++ (c :: text ++ rest)) = c :: (text ++ rest) :=
  skipSpaces_eq_cons_iff.mpr ⟨solid, spaces, isSpaces, rfl⟩

private theorem reads_readEntry : Reads readEntry SpellsEntry where
  begins := by
    rintro _ _ (_ | _)
    · exact ⟨'{', _, rfl, by decide⟩
    · exact ⟨'[', _, rfl, by decide⟩
  complete := by
    rintro spaces _ rest entry isSpaces spells _
    cases spells with
    | @object members draft _ series finished =>
        rw [readEntry, skipSpaces_front (by decide) isSpaces, List.append_assoc]
        exact bind_eq_ok_iff.mpr ⟨(draft, '}' :: rest),
          (foldMembers_eq_ok_iff readsMember_readMember).mpr ⟨members, rest, series, rfl, rfl⟩,
          bind_eq_ok_iff.mpr ⟨entry, finished, bind_eq_ok_iff.mpr ⟨((), rest),
            closeObject_eq_ok_iff.mpr ⟨[], spaces_nil, rfl⟩, rfl⟩⟩⟩
    | array isItems isInner =>
        rw [readEntry, skipSpaces_front (by decide) isSpaces]
        obtain ⟨between, isBetween, reads⟩ := exists_readEntryItems isItems isInner rest
        simp only [List.append_assoc]
        exact bind_eq_ok_iff.mpr ⟨_, reads, bind_eq_ok_iff.mpr ⟨((), rest),
          closeArray_eq_ok_iff.mpr ⟨between, isBetween, rfl⟩, rfl⟩⟩
  sound := by
    intro input rest entry read
    unfold readEntry at read
    split at read
    case h_2 behind front =>
        obtain ⟨⟨_, _⟩, readsItems, read⟩ := bind_eq_ok_iff.mp read
        obtain ⟨⟨_, _⟩, closes, same⟩ := bind_eq_ok_iff.mp read
        cases same
        obtain ⟨_, spaces, isSpaces, rfl⟩ := skipSpaces_eq_cons_iff.mp front
        obtain ⟨items, before, isItems, isBefore, rfl⟩ := exists_entryItems readsItems
        obtain ⟨between, isBetween, rfl⟩ := closeArray_eq_ok_iff.mp closes
        exact ⟨spaces, _, isSpaces, .array isItems (isBefore.append isBetween), by simp⟩
    case h_3 behind front =>
        obtain ⟨⟨draft, _⟩, readsMembers, read⟩ := bind_eq_ok_iff.mp read
        obtain ⟨_, finished, read⟩ := bind_eq_ok_iff.mp read
        obtain ⟨⟨_, _⟩, closes, same⟩ := bind_eq_ok_iff.mp read
        cases same
        obtain ⟨_, spaces, isSpaces, rfl⟩ := skipSpaces_eq_cons_iff.mp front
        obtain ⟨members, later, series, rfl, rfl⟩ :=
          (foldMembers_eq_ok_iff readsMember_readMember).mp readsMembers
        cases closes
        exact ⟨spaces, _, isSpaces, .object series finished, by simp⟩
    all_goals cases read

/-! ### Lists of entry points -/

/-- The list with one more entry point. -/
def addEntry (entries : List EntryPoint) (entry : EntryPoint) : List EntryPoint :=
  entries ++ [entry]

/-- A spelling of a list of entry points. -/
def SpellsEntries (text : List Char) (entries : List EntryPoint) : Prop :=
  ∃ items, Series (IsItem SpellsEntry addEntry) true [] items entries ∧
    text = '[' :: (items ++ [']'])

private theorem reads_readEntries : Reads readEntries SpellsEntries where
  begins := by
    rintro _ _ ⟨_, _, rfl⟩
    exact ⟨'[', _, rfl, by decide⟩
  complete := by
    rintro spaces _ rest entries isSpaces ⟨items, series, rfl⟩ _
    rw [readEntries, skipSpaces_front (by decide) isSpaces, List.append_assoc]
    exact bind_eq_ok_iff.mpr ⟨(entries, ']' :: rest),
      (foldItems_eq_ok_iff reads_readEntry addEntry).mpr ⟨items, rest, series, rfl, rfl⟩,
      bind_eq_ok_iff.mpr ⟨((), rest), closeArray_eq_ok_iff.mpr ⟨[], spaces_nil, rfl⟩, rfl⟩⟩
  sound := by
    intro input rest entries read
    unfold readEntries at read
    split at read
    case h_2 behind front =>
        obtain ⟨⟨_, _⟩, readsItems, read⟩ := bind_eq_ok_iff.mp read
        obtain ⟨⟨_, _⟩, closes, same⟩ := bind_eq_ok_iff.mp read
        cases same
        obtain ⟨_, spaces, isSpaces, rfl⟩ := skipSpaces_eq_cons_iff.mp front
        obtain ⟨items, later, series, rfl, rfl⟩ :=
          (foldItems_eq_ok_iff reads_readEntry addEntry).mp readsItems
        cases closes
        exact ⟨spaces, _, isSpaces, ⟨items, series, rfl⟩, by simp⟩
    all_goals cases read

/-! ### Manifests -/

/-- A member of a manifest, with the list of entry points that is known after it. -/
inductive IsManifestMember :
    Option (List EntryPoint) → List Char → List Char → Option (List EntryPoint) → Prop where
  | entries {text : List Char} {entries : List EntryPoint}
      (after : After SpellsEntries text entries) :
      IsManifestMember none "entry_points".toList text (some entries)
  | unknown {known : Option (List EntryPoint)} {name text : List Char}
      (other : name ≠ "entry_points".toList)
      (after : After (fun spelling () => IsValue spelling) text ()) :
      IsManifestMember known name text known

private theorem readsMember_readManifestMember :
    ReadsMember readManifestMember IsManifestMember where
  complete := by
    rintro known name text _ rest member ends
    cases member with
    | entries after =>
        rw [readManifestMember, if_pos rfl]
        exact bind_eq_ok_iff.mpr ⟨_, memberValue_append reads_readEntries after ends, rfl⟩
    | unknown other after =>
        rw [readManifestMember, if_neg other]
        exact bind_eq_ok_iff.mpr ⟨_, memberValue_append reads_skipValue after ends, rfl⟩
  sound := by
    rintro known name result input rest read
    unfold readManifestMember at read
    split at read
    case isTrue isEntries =>
        obtain ⟨absent, text, entries, after, rfl, rfl⟩ := exists_member some reads_readEntries read
        cases eq_none_of_isSome absent
        exact ⟨text, isEntries ▸ .entries after, rfl⟩
    case isFalse other =>
        obtain ⟨_, text, _, after, rfl, rfl⟩ := exists_member (fun _ => known) reads_skipValue read
        exact ⟨text, .unknown other after, rfl⟩

/-- A spelling of a manifest. -/
inductive SpellsManifest : List Char → Manifest → Prop where
  | object {members : List Char} {entries : List EntryPoint}
      (series : Series (IsMember IsManifestMember) true none members (some entries)) :
      SpellsManifest ('{' :: (members ++ ['}'])) ⟨entries⟩
  | array {item spaces : List Char} {entries : List EntryPoint}
      (isItem : Placed true SpellsEntries item entries) (isSpaces : Spaces spaces) :
      SpellsManifest ('[' :: (item ++ (spaces ++ [']']))) ⟨entries⟩

private theorem reads_readManifest : Reads readManifest SpellsManifest where
  begins := by
    rintro _ _ (_ | _)
    · exact ⟨'{', _, rfl, by decide⟩
    · exact ⟨'[', _, rfl, by decide⟩
  complete := by
    rintro spaces _ rest manifest isSpaces spells _
    cases spells with
    | @object members entries series =>
        rw [readManifest, skipSpaces_front (by decide) isSpaces, List.append_assoc]
        exact bind_eq_ok_iff.mpr ⟨(some entries, '}' :: rest),
          (foldMembers_eq_ok_iff readsMember_readManifestMember).mpr
            ⟨members, rest, series, rfl, rfl⟩,
          bind_eq_ok_iff.mpr ⟨entries, rfl, bind_eq_ok_iff.mpr ⟨((), rest),
            closeObject_eq_ok_iff.mpr ⟨[], spaces_nil, rfl⟩, rfl⟩⟩⟩
    | @array item inner entries isItem isInner =>
        have ends : Ends (inner ++ ']' :: rest) :=
          ends_spaces_append isInner (Bracket.ends_closing .array rest)
        rw [readManifest, skipSpaces_front (by decide) isSpaces]
        simp only [List.append_assoc]
        exact bind_eq_ok_iff.mpr ⟨_, readItem_append reads_readEntries isItem ends,
          bind_eq_ok_iff.mpr ⟨entries, rfl, bind_eq_ok_iff.mpr ⟨((), rest),
            closeArray_eq_ok_iff.mpr ⟨inner, isInner, rfl⟩, rfl⟩⟩⟩
  sound := by
    intro input rest manifest read
    unfold readManifest at read
    split at read
    case h_2 behind front =>
        obtain ⟨⟨_, _⟩, readsEntries, read⟩ := bind_eq_ok_iff.mp read
        obtain ⟨entries, hasEntries, read⟩ := bind_eq_ok_iff.mp read
        obtain ⟨⟨_, _⟩, closes, same⟩ := bind_eq_ok_iff.mp read
        cases same
        obtain ⟨_, spaces, isSpaces, rfl⟩ := skipSpaces_eq_cons_iff.mp front
        obtain ⟨item, isItem, rfl⟩ := exists_required reads_readEntries readsEntries hasEntries
        obtain ⟨inner, isInner, rfl⟩ := closeArray_eq_ok_iff.mp closes
        exact ⟨spaces, _, isSpaces, .array isItem isInner, by simp⟩
    case h_3 behind front =>
        obtain ⟨⟨_, _⟩, readsMembers, read⟩ := bind_eq_ok_iff.mp read
        obtain ⟨entries, hasEntries, read⟩ := bind_eq_ok_iff.mp read
        obtain ⟨⟨_, _⟩, closes, same⟩ := bind_eq_ok_iff.mp read
        cases same
        cases require_eq_ok_iff.mp hasEntries
        obtain ⟨_, spaces, isSpaces, rfl⟩ := skipSpaces_eq_cons_iff.mp front
        obtain ⟨members, later, series, rfl, rfl⟩ :=
          (foldMembers_eq_ok_iff readsMember_readManifestMember).mp readsMembers
        cases closes
        exact ⟨spaces, _, isSpaces, .object series, by simp⟩
    all_goals cases read

/-- A text that is a manifest: one spelling of it, with white space around. -/
def Spells (text : List Char) (manifest : Manifest) : Prop :=
  ∃ before spelling after, Spaces before ∧ SpellsManifest spelling manifest ∧ Spaces after ∧
    text = before ++ (spelling ++ after)

/-- A text is read as a manifest exactly if it spells it. -/
theorem read_eq_ok_iff_spells {text : String} {manifest : Manifest} :
    read text = .ok manifest ↔ Spells text.toList manifest := by
  constructor
  · intro isRead
    obtain ⟨⟨_, rest⟩, reads, ended⟩ := bind_eq_ok_iff.mp isRead
    obtain ⟨before, spelling, isBefore, spells, parts⟩ := reads_readManifest.sound reads
    by_cases empty : (skipSpaces rest).isEmpty = true
    · simp only [empty, if_true] at ended
      cases ended
      exact ⟨before, spelling, rest, isBefore, spells,
        skipSpaces_eq_nil_iff.mp (List.isEmpty_iff.mp empty), parts⟩
    · simp only [empty] at ended
      cases ended
  · rintro ⟨before, spelling, after, isBefore, spells, isAfter, parts⟩
    have ends : Ends after := by
      have ends := ends_spaces_append isAfter ends_nil
      rwa [List.append_nil] at ends
    have reads := reads_readManifest.complete isBefore spells ends
    rw [← parts] at reads
    have ended : (skipSpaces after).isEmpty = true :=
      List.isEmpty_iff.mpr (skipSpaces_eq_nil_iff.mpr isAfter)
    exact bind_eq_ok_iff.mpr ⟨_, reads, if_pos ended⟩

end FunctionBundler.Manifest
