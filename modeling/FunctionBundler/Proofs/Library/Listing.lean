/-
Module: FunctionBundler.Proofs.Library.Listing
Purpose: What is read from a dependency listing: the libraries on its lines, and no others.
Trusted boundary: none
Main exports:
  Listing.mem_libraries_iff, Listing.SameLines, Listing.Line.WellFormed,
  Listing.libraryOfLine?_render, Listing.Printed, Listing.filled_render,
  Listing.libraries_exact
-/
import FunctionBundler.Library.Listing
import FunctionBundler.Proofs.Library.Members
import FunctionBundler.Proofs.Text.Lines

namespace FunctionBundler.Listing

/-!
Lines are read one by one and trimmed first, so a listing is as good as its filled lines,
and of these only which ones there are counts.  A printed line is cut into the words that it
was put together from; of the shapes that are printed, only a dependency with its path has a
path where a path is looked for.
-/

variable {line : List Char} {library : LibraryPath}

/-! ### Lines and libraries -/

private theorem libraryOfLine?_trimBlank (line : List Char) :
    libraryOfLine? (Text.trimBlank line) = libraryOfLine? line := by
  rw [libraryOfLine?, Text.trimBlank_trimBlank, libraryOfLine?]

private theorem libraryOfLine?_of_blank (blank : Text.trimBlank line = []) :
    libraryOfLine? line = none := by
  rw [libraryOfLine?, blank]
  rfl

/-- A listing names what its filled lines name. -/
theorem mem_libraries_iff {text : String} :
    library ∈ libraries text ↔
      ∃ line ∈ Text.filled (Text.lines text.toList), libraryOfLine? line = some library := by
  rw [libraries, LibrarySet.mem_ofList, List.mem_filterMap]
  constructor
  · rintro ⟨line, member, read⟩
    have something : Text.trimBlank line ≠ [] := by
      intro blank
      rw [libraryOfLine?_of_blank blank] at read
      cases read
    refine ⟨_, Text.mem_filled.mpr ⟨something, line, member, rfl⟩, ?_⟩
    rw [libraryOfLine?_trimBlank, read]
  · rintro ⟨trimmed, member, read⟩
    obtain ⟨-, line, inText, rfl⟩ := Text.mem_filled.mp member
    rw [libraryOfLine?_trimBlank] at read
    exact ⟨line, inText, read⟩

/-- Two texts have the same filled lines, in whatever order and however often. -/
def SameLines (first second : String) : Prop :=
  ∀ line, line ∈ Text.filled (Text.lines first.toList) ↔
    line ∈ Text.filled (Text.lines second.toList)

private theorem libraries_of_sameLines {first second : String} (same : SameLines first second) :
    libraries first = libraries second := by
  apply LibrarySet.ext
  intro library
  rw [mem_libraries_iff, mem_libraries_iff]
  exact exists_congr fun line => and_congr_left' (same line)

/-- Two listings with a line feed between them name what one or the other does. -/
theorem mem_libraries_append {first second : String} :
    library ∈ libraries (first ++ "\n" ++ second) ↔
      library ∈ libraries first ∨ library ∈ libraries second := by
  have whole : (first ++ "\n" ++ second).toList = first.toList ++ '\n' :: second.toList := by
    rw [String.toList_append, String.toList_append, List.append_assoc]
    rfl
  rw [mem_libraries_iff, whole, Text.filled_lines_append, mem_libraries_iff, mem_libraries_iff]
  simp only [List.mem_append, or_and_right, exists_or]

/-- What a line names has its path on the line, and the path starts with a separator. -/
theorem exists_path_of_libraryOfLine? (read : libraryOfLine? line = some library) :
    ∃ path : Path, path.isAbsolute = true ∧ library = .ofPath path := by
  have named {path : List Char} (starts : path.head? = some '/') :
      (⟨String.ofList path⟩ : Path).isAbsolute = true := by
    rw [Path.isAbsolute, Path.chars, String.toList_ofList, starts]
    rfl
  rw [libraryOfLine?] at read
  split at read
  case h_1 path _ _ =>
      split at read
      case isTrue starts => exact ⟨_, named starts, (Option.some.inj read).symm⟩
      case isFalse => cases read
  case h_2 path _ _ =>
      split at read
      case isTrue starts => exact ⟨_, named starts.2, (Option.some.inj read).symm⟩
      case isFalse => cases read
  case h_3 => cases read

/-- Libraries of a listing have absolute paths. -/
theorem isAbsolute_of_mem_libraries {text : String} (member : library ∈ libraries text) :
    library.path.isAbsolute = true := by
  obtain ⟨line, -, read⟩ := mem_libraries_iff.mp member
  obtain ⟨path, absolute, rfl⟩ := exists_path_of_libraryOfLine? read
  obtain ⟨rest, plain, -⟩ := Path.chars_normalize_of_isAbsolute absolute
  rw [Path.isAbsolute, LibraryPath.ofPath, plain]
  rfl

/-! ### Printed lines -/

/-- A word of a line: something, without blanks. -/
def IsWord (word : List Char) : Prop :=
  word ≠ [] ∧ ∀ c ∈ word, Text.isBlank c = false

instance (word : List Char) : Decidable (IsWord word) :=
  decidable_of_iff (word ≠ [] ∧ word.all (fun c => !Text.isBlank c) = true) (by simp [IsWord])

section

variable {words : List (List Char)}

private theorem intercalate_ne_nil (isWord : ∀ word ∈ words, IsWord word) (some : words ≠ []) :
    List.intercalate [' '] words ≠ [] := by
  cases words with
  | nil => exact absurd rfl some
  | cons first others =>
      rw [Text.intercalate_cons]
      exact List.append_ne_nil_of_left_ne_nil (isWord first List.mem_cons_self).1 _

private theorem isBlank_head_intercalate (isWord : ∀ word ∈ words, IsWord word) (c : Char)
    (first : (List.intercalate [' '] words).head? = some c) : Text.isBlank c = false := by
  cases words with
  | nil => cases first
  | cons word others =>
      obtain ⟨something, solid⟩ := isWord word List.mem_cons_self
      rw [Text.intercalate_cons, List.head?_append_of_ne_nil _ something] at first
      exact solid c (List.mem_of_head? first)

private theorem isBlank_last_intercalate (isWord : ∀ word ∈ words, IsWord word) (c : Char)
    (last : (List.intercalate [' '] words).getLast? = some c) : Text.isBlank c = false := by
  induction words with
  | nil => cases last
  | cons word others ih =>
      obtain ⟨⟨-, solid⟩, areWords⟩ := List.forall_mem_cons.mp isWord
      cases others with
      | nil =>
          rw [List.intercalate_singleton] at last
          exact solid c (List.mem_of_getLast? last)
      | cons next others =>
          have something := intercalate_ne_nil areWords (List.cons_ne_nil next others)
          rw [List.intercalate_cons_cons, List.getLast?_append_of_ne_nil _ something] at last
          exact ih areWords last

private theorem trimBlank_intercalate (isWord : ∀ word ∈ words, IsWord word) :
    Text.trimBlank (List.intercalate [' '] words) = List.intercalate [' '] words :=
  Text.trimBlank_eq_self (isBlank_head_intercalate isWord) (isBlank_last_intercalate isWord)

/-- Words with blanks between them stay on one line. -/
theorem newline_not_mem_intercalate (isWord : ∀ word ∈ words, IsWord word) :
    '\n' ∉ List.intercalate [' '] words :=
  Text.not_mem_intercalate (by decide) fun word member inWord =>
    absurd ((isWord word member).2 '\n' inWord) (by decide)

end

namespace Line

/-- The words of a line. -/
def words : Line → List (List Char)
  | .bare path address => [path.toList, address.toList]
  | .arrow name path address => [name.toList, ['=', '>'], path.toList, address.toList]
  | .virtual name address => [name.toList, address.toList]
  | .notFound name => [name.toList, ['=', '>'], "not".toList, "found".toList]
  | .header word => [word.toList]

/-- Lines as they are printed: dependencies have absolute paths, and the name of the kernel's
object is not a path from the root. -/
def WellFormed : Line → Prop
  | .bare path address =>
    IsWord path.toList ∧ (⟨path⟩ : Path).isAbsolute = true ∧ IsWord address.toList
  | .arrow name path address =>
    IsWord name.toList ∧ IsWord path.toList ∧ (⟨path⟩ : Path).isAbsolute = true ∧
      IsWord address.toList
  | .virtual name address =>
    IsWord name.toList ∧ (⟨name⟩ : Path).isAbsolute = false ∧ IsWord address.toList
  | .notFound name => IsWord name.toList
  | .header word => IsWord word.toList

instance : DecidablePred WellFormed
  | .bare _ _ => inferInstanceAs (Decidable (_ ∧ _ ∧ _))
  | .arrow _ _ _ => inferInstanceAs (Decidable (_ ∧ _ ∧ _ ∧ _))
  | .virtual _ _ => inferInstanceAs (Decidable (_ ∧ _ ∧ _))
  | .notFound _ => inferInstanceAs (Decidable (IsWord _))
  | .header _ => inferInstanceAs (Decidable (IsWord _))

variable {line : Line}

private theorem toList_render (line : Line) :
    line.render.toList = List.intercalate [' '] line.words := by
  cases line <;> simp [render, words, toString, List.intercalate, List.intersperse]

private theorem words_ne_nil (line : Line) : line.words ≠ [] := by
  cases line <;> exact List.cons_ne_nil _ _

/-- The words of a line that is well formed have no blanks. -/
theorem WellFormed.isWord (wellFormed : line.WellFormed) : ∀ word ∈ line.words, IsWord word := by
  have fixed : IsWord ['=', '>'] ∧ IsWord "not".toList ∧ IsWord "found".toList := by decide +kernel
  cases line with
  | bare path address => simp_all [words, WellFormed]
  | arrow name path address => simp_all [words, WellFormed]
  | virtual name address => simp_all [words, WellFormed]
  | notFound name => simp_all [words, WellFormed]
  | header word => simp_all [words, WellFormed]

private theorem WellFormed.trimBlank_render (wellFormed : line.WellFormed) :
    Text.trimBlank line.render.toList = line.render.toList := by
  rw [toList_render]
  exact trimBlank_intercalate wellFormed.isWord

private theorem WellFormed.pieces_render (wellFormed : line.WellFormed) :
    Text.pieces ' ' line.render.toList = line.words := by
  rw [toList_render]
  refine Text.pieces_intercalate line.words_ne_nil fun word member inWord => ?_
  exact absurd ((wellFormed.isWord word member).2 ' ' inWord) (by decide)

end Line

/-- A printed line names its path, if it has one. -/
theorem libraryOfLine?_render {line : Line} (wellFormed : line.WellFormed) :
    libraryOfLine? line.render.toList = line.path?.map fun path => .ofPath ⟨path⟩ := by
  have starts {path : String} (absolute : (⟨path⟩ : Path).isAbsolute = true) :
      path.toList.head? = some '/' :=
    of_decide_eq_true absolute
  rw [libraryOfLine?, wellFormed.trimBlank_render, wellFormed.pieces_render]
  cases line with
  | bare path address =>
      obtain ⟨-, absolute, -⟩ := wellFormed
      simp only [Line.words, starts absolute, if_true, String.ofList_toList]
      rfl
  | arrow name path address =>
      obtain ⟨-, -, absolute, -⟩ := wellFormed
      simp only [Line.words, starts absolute, and_true, if_true, String.ofList_toList]
      rfl
  | virtual name address =>
      obtain ⟨-, relative, -⟩ := wellFormed
      exact if_neg (of_decide_eq_false relative)
  | notFound name => exact if_neg fun both => absurd both.2 (by decide)
  | header word => rfl

/-- A line as it is printed: indented, and ended by a line feed after a carriage return or not. -/
structure Printed where
  line : Line
  indentation : String
  returns : Bool
  wellFormed : line.WellFormed
  indents : ∀ c ∈ indentation.toList, Text.isBlank c = true ∧ c ≠ '\n'

private theorem indents_of_all {indentation : String}
    (all : indentation.toList.all (fun c => Text.isBlank c && c != '\n') = true) :
    ∀ c ∈ indentation.toList, Text.isBlank c = true ∧ c ≠ '\n' := by
  simpa using all

/-- The text of a printed line, without the line feed. -/
def Printed.chars (printed : Printed) : List Char :=
  printed.indentation.toList ++
    (printed.line.render.toList ++ if printed.returns then ['\r'] else [])

/-- The text of printed lines. -/
def render (printed : List Printed) : String :=
  String.ofList (printed.flatMap fun one => one.chars ++ ['\n'])

private theorem filled_chars (printed : Printed) :
    Text.filled (Text.lines printed.chars) = [printed.line.render.toList] := by
  have isWord := printed.wellFormed.isWord
  have something : printed.line.render.toList ≠ [] := by
    rw [Line.toList_render]
    exact intercalate_ne_nil isWord printed.line.words_ne_nil
  apply Text.filled_lines_padded (fun c member => (printed.indents c member).1)
    printed.wellFormed.trimBlank_render something
  · split
    · exact List.forall_mem_singleton.mpr rfl
    · exact List.forall_mem_nil _
  · simp only [List.mem_append, not_or]
    refine ⟨fun member => (printed.indents _ member).2 rfl, ?_, ?_⟩
    · rw [Line.toList_render]
      exact newline_not_mem_intercalate isWord
    · split <;> decide +kernel

/-- The filled lines of a printed listing are the lines that were printed. -/
theorem filled_render (printed : List Printed) :
    Text.filled (Text.lines (render printed).toList) =
      printed.map fun one => one.line.render.toList := by
  rw [render, String.toList_ofList]
  induction printed with
  | nil => rfl
  | cons first others ih =>
      rw [List.flatMap_cons, List.append_assoc, List.singleton_append, Text.filled_lines_append,
        filled_chars, ih]
      rfl

/-- The paths of the dependencies on printed lines, in any order. -/
def Shows (printed : List Printed) (paths : List String) : Prop :=
  ∀ path, path ∈ paths ↔ ∃ one ∈ printed, one.line.path? = some path

private theorem libraries_render {printed : List Printed} {paths : List String}
    (shows : Shows printed paths) :
    libraries (render printed) = .ofList (paths.map fun path => .ofPath ⟨path⟩) := by
  apply LibrarySet.ext
  intro library
  rw [mem_libraries_iff, filled_render, LibrarySet.mem_ofList, List.mem_map]
  constructor
  · rintro ⟨_, inText, read⟩
    obtain ⟨one, member, rfl⟩ := List.mem_map.mp inText
    rw [libraryOfLine?_render one.wellFormed, Option.map_eq_some_iff] at read
    obtain ⟨path, shown, named⟩ := read
    exact ⟨path, (shows path).mpr ⟨one, member, shown⟩, named⟩
  · rintro ⟨path, inPaths, named⟩
    obtain ⟨one, member, shown⟩ := (shows path).mp inPaths
    refine ⟨_, List.mem_map_of_mem member, ?_⟩
    rw [libraryOfLine?_render one.wellFormed, shown, Option.map_some, named]

/-- A listing names every dependency that was found, and nothing else.  Put together, two texts
name what they name apart, so only the filled lines of a text count, neither their order nor how
often they stand there; what is named is absolute; and of printed lines exactly the dependencies
are read, however the lines are indented and ended. -/
theorem libraries_exact :
    (∀ first second library, library ∈ libraries (first ++ "\n" ++ second) ↔
      library ∈ libraries first ∨ library ∈ libraries second) ∧
    (∀ first second, SameLines first second → libraries first = libraries second) ∧
    (∀ text, ∀ library, library ∈ libraries text → library.path.isAbsolute = true) ∧
    ∀ printed paths, Shows printed paths →
      libraries (render printed) = .ofList (paths.map fun path => .ofPath ⟨path⟩) :=
  ⟨fun _ _ _ => mem_libraries_append, fun _ _ => libraries_of_sameLines,
    fun _ _ => isAbsolute_of_mem_libraries, fun _ _ => libraries_render⟩

/-- A listing of every shape of line, with a path that is not in plain spelling. -/
def everyShape : List Printed :=
  [⟨.header "/app:", "", false, by decide +kernel,
      indents_of_all (by decide +kernel)⟩,
    ⟨.virtual "linux-vdso.so.1" "(0x7)", "\t", false, by decide +kernel,
      indents_of_all (by decide +kernel)⟩,
    ⟨.arrow "libc.so.6" "/lib//./libc.so.6" "(0x8)", "\t ", true, by decide +kernel,
      indents_of_all (by decide +kernel)⟩,
    ⟨.notFound "libz.so.1", " ", true, by decide +kernel,
      indents_of_all (by decide +kernel)⟩,
    ⟨.bare "/lib/ld-musl.so.1" "(0x9)", "", true, by decide +kernel,
      indents_of_all (by decide +kernel)⟩]

private theorem libraries_exact_everyShape :
    (Shows everyShape ["/lib/ld-musl.so.1", "/lib//./libc.so.6"] ∧
      libraries (render everyShape) =
        .ofList (["/lib/ld-musl.so.1", "/lib//./libc.so.6"].map fun path => .ofPath ⟨path⟩)) ∧
    (SameLines "/a x\n/b y" "\t/b y\r\n\n/a x\n /b y" ∧
      libraries "/a x\n/b y" = libraries "\t/b y\r\n\n/a x\n /b y") ∧
    .ofPath ⟨"/a"⟩ ∈ libraries "/a x\n/b y" ∧
      (LibraryPath.ofPath ⟨"/a"⟩).path.isAbsolute = true := by
  have shows : Shows everyShape ["/lib/ld-musl.so.1", "/lib//./libc.so.6"] := by
    intro path
    simp [everyShape, Line.path?, or_comm, eq_comm]
  have once : Text.filled (Text.lines "/a x\n/b y".toList) = ["/a x".toList, "/b y".toList] := by
    decide +kernel
  have twice : Text.filled (Text.lines "\t/b y\r\n\n/a x\n /b y".toList) =
      ["/b y".toList, "/a x".toList, "/b y".toList] := by
    decide +kernel
  have same : SameLines "/a x\n/b y" "\t/b y\r\n\n/a x\n /b y" := by
    intro line
    rw [once, twice]
    grind
  have named : .ofPath ⟨"/a"⟩ ∈ libraries "/a x\n/b y" := by
    rw [mem_libraries_iff, once]
    exact ⟨_, List.mem_cons_self, rfl⟩
  exact ⟨⟨shows, libraries_exact.2.2.2 _ _ shows⟩, ⟨same, libraries_exact.2.1 _ _ same⟩, named,
    libraries_exact.2.2.1 _ _ named⟩

end FunctionBundler.Listing
