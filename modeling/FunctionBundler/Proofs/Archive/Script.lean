/-
Module: FunctionBundler.Proofs.Archive.Script
Purpose: How the shell cuts the last line of a bootstrap script.
Trusted boundary: none
Main exports:
  Bootstrap.Unbroken, Bootstrap.IsWord, Bootstrap.words_intercalate,
  Bootstrap.isWord_of_mem_words, Bootstrap.words_command_iff
-/
import FunctionBundler.Archive.Bootstrap

namespace FunctionBundler.Bootstrap

/-!
File names stand in the script as they are.  A name without blanks and line breaks
stays one word, and then the words of the last line are those of the command.  No other
name does, since what the shell cuts out of a line is never broken.
-/

/-- A text without blanks and line breaks. -/
def Unbroken (text : List Char) : Prop :=
  ∀ c ∈ text, c ≠ ' ' ∧ c ≠ '\t' ∧ c ≠ '\n'

instance (text : List Char) : Decidable (Unbroken text) :=
  List.decidableBAll (fun c => c ≠ ' ' ∧ c ≠ '\t' ∧ c ≠ '\n') text

/-- A text that the shell takes as one word, as far as blanks and line breaks go. -/
def IsWord (text : List Char) : Prop :=
  text ≠ [] ∧ Unbroken text

instance (text : List Char) : Decidable (IsWord text) :=
  inferInstanceAs (Decidable (text ≠ [] ∧ Unbroken text))

/-- A word with an unbroken text behind it is a word. -/
theorem IsWord.toList_append {first second : String} (one : IsWord first.toList)
    (two : Unbroken second.toList) : IsWord (first ++ second).toList := by
  rw [String.toList_append]
  exact ⟨List.append_ne_nil_of_left_ne_nil one.1 _, List.forall_mem_append.mpr ⟨one.2, two⟩⟩

private theorem go_append {begun word : List Char} (rest : List Char) (unbroken : Unbroken word) :
    words.go begun (word ++ rest) = words.go (begun ++ word) rest := by
  induction word generalizing begun with
  | nil => simp
  | cons c word ih =>
      obtain ⟨⟨blank, tab, newline⟩, others⟩ := List.forall_mem_cons.mp unbroken
      rw [List.cons_append, words.go, if_neg newline, if_neg (not_or.mpr ⟨blank, tab⟩), ih others,
        List.append_assoc, List.singleton_append]

/-- Words with blanks between them are cut into these words. -/
theorem words_intercalate {parts : List (List Char)} (isWord : ∀ part ∈ parts, IsWord part) :
    words (List.intercalate [' '] parts) = parts := by
  rw [words]
  induction parts with
  | nil => simp [words.go, words.close]
  | cons part parts ih =>
      obtain ⟨⟨nonempty, unbroken⟩, others⟩ := List.forall_mem_cons.mp isWord
      cases parts with
      | nil =>
          have cut := @go_append [] _ [] unbroken
          rw [List.append_nil, List.nil_append] at cut
          rw [List.intercalate_singleton, cut, words.go, words.close, if_neg nonempty]
      | cons next parts =>
          rw [List.intercalate_cons_cons, List.append_assoc, go_append _ unbroken, List.nil_append,
            List.singleton_append, words.go, if_neg (by decide), if_pos (Or.inl rfl),
            ih others, words.close, if_neg nonempty]

private theorem isWord_of_mem_go {begun text : List Char} (unbroken : Unbroken begun) :
    ∀ word ∈ words.go begun text, IsWord word := by
  have close {word : List Char} {others : List (List Char)} (unbroken : Unbroken word)
      (isWord : ∀ other ∈ others, IsWord other) : ∀ other ∈ words.close word others,
        IsWord other := by
    rw [words.close]
    split
    case isTrue => exact isWord
    case isFalse nonempty => exact List.forall_mem_cons.mpr ⟨⟨nonempty, unbroken⟩, isWord⟩
  induction text generalizing begun with
  | nil => exact close unbroken nofun
  | cons c rest ih =>
      rw [words.go]
      split
      case isTrue => exact close unbroken nofun
      case isFalse newline =>
          split
          case isTrue => exact close unbroken (ih nofun)
          case isFalse blank =>
              rw [not_or] at blank
              refine ih (List.forall_mem_append.mpr ⟨unbroken, ?_⟩)
              exact List.forall_mem_singleton.mpr ⟨blank.1, blank.2, newline⟩

/-- Whatever the shell cuts out of a text has no blanks and line breaks. -/
theorem isWord_of_mem_words {text : List Char} : ∀ word ∈ words text, IsWord word :=
  isWord_of_mem_go nofun

/-- The words of a command are words to the shell exactly if the names in it are unbroken. -/
theorem isWord_command_iff {loader : Option String} {binary : String} :
    (∀ word ∈ (command loader binary).map String.toList, IsWord word) ↔
      Unbroken binary.toList ∧ ∀ name ∈ loader, Unbroken name.toList := by
  have spliced {before : String} (isWord : IsWord before.toList) (name : String) :
      IsWord (before ++ name).toList ↔ Unbroken name.toList := by
    refine ⟨fun whole => ?_, isWord.toList_append⟩
    have unbroken := whole.2
    rw [String.toList_append] at unbroken
    exact (List.forall_mem_append.mp unbroken).2
  have lib (name : String) : IsWord (loaderPath name).toList ↔ Unbroken name.toList :=
    spliced (by decide +kernel) name
  have bin (name : String) : IsWord (binaryPath name).toList ↔ Unbroken name.toList :=
    spliced (by decide +kernel) name
  have exec : IsWord "exec".toList := by decide +kernel
  have option : IsWord "--library-path".toList := by decide +kernel
  have directory : IsWord "$LAMBDA_TASK_ROOT/lib".toList := by decide +kernel
  have handlerWord : IsWord handler.toList := by decide +kernel
  cases loader with
  | none =>
      simp only [command, List.map_cons, List.map_nil, List.forall_mem_cons, bin]
      exact ⟨fun words => ⟨words.2.1, nofun⟩, fun names => ⟨exec, names.1, handlerWord, nofun⟩⟩
  | some loader =>
      simp only [command, List.map_cons, List.map_nil, List.forall_mem_cons, lib, bin]
      refine ⟨fun words => ⟨words.2.2.2.2.1, ?_⟩, fun names => ?_⟩
      · rintro _ ⟨⟩
        exact words.2.1
      · exact ⟨exec, names.2 loader rfl, option, directory, names.1, handlerWord, nofun⟩

/-- The words of the last line are those of the command, the loader and the binary each by its path
in the archive, exactly if their names have no blanks and line breaks. -/
theorem words_command_iff {loader : Option String} {binary : String} :
    words (" ".intercalate (command loader binary)).toList =
        (command loader binary).map String.toList ↔
      Unbroken binary.toList ∧ ∀ name ∈ loader, Unbroken name.toList := by
  rw [← isWord_command_iff]
  constructor
  · intro same
    rw [← same]
    exact isWord_of_mem_words
  · intro isWord
    rw [String.toList_intercalate]
    exact words_intercalate isWord

/-- The words of the command are its arguments, if the names in it have no blanks. -/
theorem words_command {loader binary : String} (loaderUnbroken : Unbroken loader.toList)
    (binaryUnbroken : Unbroken binary.toList) :
    words (" ".intercalate (command (some loader) binary)).toList =
      (command (some loader) binary).map String.toList :=
  words_command_iff.mpr ⟨binaryUnbroken, by rintro _ ⟨⟩; exact loaderUnbroken⟩

end FunctionBundler.Bootstrap
