/-
Module: FunctionBundler.Proofs.Archive.Reproduction
Purpose: Archives depend on what is bundled only, and on all of it.
Trusted boundary: none
Main exports:
  Archive.Site, Archive.Site.Offers, Archive.Suffices, Archive.SameInputs,
  Archive.Site.exists_build_of_offers, Archive.sameInputs_of_entries_eq, Archive.build_reproducible
-/
import FunctionBundler.Proofs.Archive.Layout

namespace FunctionBundler

/-!
Two machines that hold the same executable and the same libraries build the same
archive, wherever the files lie on either.  The other way round, an archive's entries
tell what went into it: names and bytes stand in them, and the script tells
whether the C library is among the bundled ones.
-/

namespace Bootstrap

/-- The script tells whether a loader is bundled: its fourth line starts the binary or exports the
search path. -/
theorem withLoader_ne_withSearchPath (loader binary other : String) :
    withLoader loader binary ≠ withSearchPath other := by
  have starts : ∃ rest, withLoader loader binary = preamble ++ ("exec " ++ rest) := by
    refine ⟨" ".intercalate ((command (some loader) binary).drop 1) ++ "\n", ?_⟩
    apply String.toList_inj.mp
    simp [withLoader, command]
  have exports : withSearchPath other =
      preamble ++ (searchPath ++ (" ".intercalate (command none other) ++ "\n")) := by
    simp [withSearchPath, String.append_assoc]
  obtain ⟨rest, starts⟩ := starts
  rw [starts, exports, Ne, String.append_right_inj]
  exact Archive.append_ne_append 3 (by decide +kernel) (by decide +kernel) (by decide +kernel) _ _

end Bootstrap

namespace Archive

/-- A place where an archive is built: a file system, where the executable lies in it, and the
directory that the environment's file system is copied under. -/
structure Site where
  files : Files
  executable : Path
  root : Option Path

namespace Site

/-- The archive that is built at a site. -/
def build (site : Site) (writer : Zip.Writer) (libraries : LibrarySet) (withLibc : Bool) :
    Except Failure Archive :=
  Archive.build writer site.files site.executable libraries site.root withLibc

/-- What a build at a site can hand to its writer. -/
def Content (site : Site) (libraries : LibrarySet) (withLibc : Bool) : Bytes → Prop :=
  Archive.Content site.files site.executable libraries site.root withLibc

/-- What is found at a site where the bytes of a library are read from. -/
def find (site : Site) (library : LibraryPath) : Except FileError Bytes :=
  site.files.read (source site.root library)

/-- A site has an executable of the given name and bytes, and copies of the libraries that are
kept with the given content. -/
structure Offers (site : Site) (libraries : LibrarySet) (name : String) (program : Bytes)
    (content : LibraryPath → Bytes) : Prop where
  named : site.executable.fileName? = some name
  program : site.files.read site.executable = .ok program
  libraries : ∀ library, IsFirst libraries library → site.find library = .ok (content library)

end Site

/-- What an archive needs apart from readable files. -/
def Suffices (libraries : LibrarySet) (withLibc : Bool) (program : Bytes) : Prop :=
  program ≠ [] ∧ (withLibc = true → ∃! loader, loader ∈ libraries ∧ loader.isLoader = true)

/-- Two sites bundle the same: an executable of one name and content, and libraries of the same file
names and content in the same order, both with the C library or both without. -/
structure SameInputs (one other : Site) (libraries others : LibrarySet)
    (withLibc otherLibc : Bool) : Prop where
  withLibc : withLibc = otherLibc
  program : ∃ name program, Usable one.files one.executable name program ∧
    Usable other.files other.executable name program
  libraries : ∃ kept otherKept, Keeps libraries kept ∧ Keeps others otherKept ∧
    List.Forall₂ (fun first second => first.fileName = second.fileName ∧
      ∃ data, one.find first = .ok data ∧ other.find second = .ok data) kept otherKept

/-! ### From inputs to archives -/

section Offering

variable {writer : Zip.Writer} {site one other : Site} {libraries : LibrarySet}
  {withLibc : Bool} {name : String} {program : Bytes} {content : LibraryPath → Bytes}

/-- A site that offers an executable which is not empty has a usable one. -/
theorem Site.Offers.usable (offers : site.Offers libraries name program content)
    (nonempty : program ≠ []) : Usable site.files site.executable name program :=
  ⟨offers.program, nonempty, offers.named⟩

/-- Sites at which the same libraries are found bundle them alike. -/
theorem Site.readLibraries_eq {taken : List ArchiveEntry} {wanted : List LibraryPath}
    (found : ∀ library ∈ wanted, ∃ data, one.find library = .ok data ∧
      other.find library = .ok data) :
    Id.run (readLibraries (m := Id) writer one.files.read one.root taken wanted) =
      Id.run (readLibraries (m := Id) writer other.files.read other.root taken wanted) := by
  induction wanted generalizing taken with
  | nil => rfl
  | cons library later ih =>
      obtain ⟨⟨data, first, second⟩, rest⟩ := List.forall_mem_cons.mp found
      rw [Site.find] at first second
      rw [run_readLibraries_cons, run_readLibraries_cons, first, second]
      simp only [ih rest]

/-- What is built of an offer that is not empty can be told without looking at the site. -/
theorem Site.build_eq_of_offers (offers : one.Offers libraries name program content)
    (otherOffers : other.Offers libraries name program content) (nonempty : program ≠ []) :
    one.build writer libraries withLibc = other.build writer libraries withLibc := by
  rw [Site.build, Site.build, build_of_usable (offers.usable nonempty),
    build_of_usable (otherOffers.usable nonempty), @readLibraries_eq writer one other]
  intro library kept
  have isFirst := mem_distinctNames_iff.mp kept
  exact ⟨content library, offers.libraries library isFirst, otherOffers.libraries library isFirst⟩

/-- A writer that takes what is offered finishes the archive. -/
theorem Site.exists_build_of_offers (offers : site.Offers libraries name program content)
    (complete : Suffices libraries withLibc program)
    (takes : writer.Takes (site.Content libraries withLibc)) :
    ∃ archive, site.build writer libraries withLibc = .ok archive := by
  refine (exists_build_iff takes).mpr ⟨⟨name, program, offers.usable complete.1⟩, complete.2, ?_⟩
  exact fun library isFirst => ⟨content library, offers.libraries library isFirst⟩

private theorem Site.suffices_of_build (offers : site.Offers libraries name program content)
    {archive : Archive} (built : site.build writer libraries withLibc = .ok archive) :
    Suffices libraries withLibc program := by
  have buildable := buildable_of_build built
  obtain ⟨found, bytes, usable⟩ := buildable.usable
  have same : program = bytes := Except.ok.inj (offers.program.symm.trans usable.read)
  exact ⟨same ▸ usable.nonempty, buildable.loader⟩

end Offering

/-! ### From archives to inputs -/

section Telling

variable {writer : Zip.Writer} {one other : Site} {libraries others : LibrarySet}
  {withLibc otherLibc : Bool} {name otherName text otherText : String}

private theorem withLibc_eq_of_script (scripted : script libraries withLibc name = .ok text)
    (otherScripted : script others otherLibc otherName = .ok text) : withLibc = otherLibc := by
  have withLoader {libraries : LibrarySet} {name : String}
      (scripted : script libraries true name = .ok text) :
      ∃ loader, Bootstrap.withLoader loader name = text := by
    rw [script, if_pos rfl] at scripted
    cases sole : soleLoader libraries with
    | error failure =>
        rw [sole] at scripted
        cases scripted
    | ok loader =>
        rw [sole] at scripted
        exact ⟨loader.fileName, Except.ok.inj scripted⟩
  cases withLibc with
  | true =>
      cases otherLibc with
      | true => rfl
      | false =>
          obtain ⟨loader, written⟩ := withLoader scripted
          cases otherScripted
          exact absurd written (Bootstrap.withLoader_ne_withSearchPath loader name otherName)
  | false =>
      cases otherLibc with
      | false => rfl
      | true =>
          obtain ⟨loader, written⟩ := withLoader otherScripted
          cases scripted
          exact absurd written (Bootstrap.withLoader_ne_withSearchPath loader otherName name)

/-- Entries tell the file names of the libraries and what their sources hold. -/
theorem forall₂_of_carries {wanted otherWanted : List LibraryPath} {entries : List ArchiveEntry}
    (carries : List.Forall₂ (Carries one.files one.root) wanted entries)
    (otherCarries : List.Forall₂ (Carries other.files other.root) otherWanted entries) :
    List.Forall₂ (fun first second => first.fileName = second.fileName ∧
      ∃ data, one.find first = .ok data ∧ other.find second = .ok data) wanted otherWanted := by
  induction carries generalizing otherWanted with
  | nil =>
      cases otherCarries
      exact .nil
  | @cons library entry _ _ carried _ ih =>
      cases otherCarries with
      | cons otherCarried later =>
          have names := carried.name.symm.trans otherCarried.name
          refine .cons ⟨?_, entry.data, carried.data, otherCarried.data⟩ (ih later)
          exact (String.append_right_inj "lib/").mp names

/-- Archives with the same entries were built of the same inputs. -/
theorem sameInputs_of_entries_eq {archive otherArchive : Archive}
    (built : one.build writer libraries withLibc = .ok archive)
    (otherBuilt : other.build writer others otherLibc = .ok otherArchive)
    (same : archive.entries = otherArchive.entries) :
    SameInputs one other libraries others withLibc otherLibc := by
  obtain ⟨name, program, usable⟩ := (buildable_of_build built).usable
  obtain ⟨otherName, otherProgram, otherUsable⟩ := (buildable_of_build otherBuilt).usable
  obtain ⟨text, bundled, scripted, carries, -, closes⟩ :=
    (build_eq_ok_iff_of_usable usable).mp built
  obtain ⟨otherText, otherBundled, otherScripted, otherCarries, -, otherCloses⟩ :=
    (build_eq_ok_iff_of_usable otherUsable).mp otherBuilt
  rw [closes.entries, otherCloses.entries] at same
  -- The executable and the script are the last two entries on either side.
  obtain ⟨rfl, tails⟩ : bundled = otherBundled ∧
      [executableEntry name program, bootstrapEntry text] =
        [executableEntry otherName otherProgram, bootstrapEntry otherText] :=
    List.append_inj' same rfl
  simp only [executableEntry, bootstrapEntry, List.cons.injEq, ArchiveEntry.mk.injEq] at tails
  obtain ⟨⟨names, -, -, rfl⟩, ⟨-, -, -, texts⟩, -⟩ := tails
  cases (String.append_right_inj "bin/").mp names
  have written : text = otherText := by
    apply Option.some.inj
    rw [← Bytes.text?_ofText text, texts, Bytes.text?_ofText]
  subst written
  exact ⟨withLibc_eq_of_script scripted otherScripted, ⟨name, program, usable, otherUsable⟩,
    _, _, keeps_distinctNames libraries, keeps_distinctNames others,
    forall₂_of_carries carries otherCarries⟩

end Telling

/-- Where two sites offer the same executable and the same libraries, both build the same archive or
neither builds one.  They build one only if the executable is not empty and one loader is there
where one is needed, and then they do if the writer takes what it is given.  Conversely, archives
with the same entries were built of the same inputs, even if these are not known to be the same
sets. -/
theorem build_reproducible (writer : Zip.Writer) (one other : Site)
    (libraries others : LibrarySet) (withLibc otherLibc : Bool) :
    (∀ name program content, (∀ library, library ∈ libraries ↔ library ∈ others) →
      one.Offers libraries name program content → other.Offers others name program content →
      (Suffices libraries withLibc program →
        one.build writer libraries withLibc = other.build writer others withLibc ∧
        (writer.Takes (one.Content libraries withLibc) →
          ∃ archive, one.build writer libraries withLibc = .ok archive)) ∧
      (¬Suffices libraries withLibc program → ∃ failure otherFailure,
        one.build writer libraries withLibc = .error failure ∧
          other.build writer others withLibc = .error otherFailure)) ∧
    ∀ archive otherArchive, one.build writer libraries withLibc = .ok archive →
      other.build writer others otherLibc = .ok otherArchive →
      archive.entries = otherArchive.entries →
      SameInputs one other libraries others withLibc otherLibc := by
  refine ⟨fun name program content members offers otherOffers => ?_,
    fun _ _ => sameInputs_of_entries_eq⟩
  obtain rfl : libraries = others := LibrarySet.ext members
  refine ⟨fun complete => ⟨Site.build_eq_of_offers offers otherOffers complete.1,
    Site.exists_build_of_offers offers complete⟩, fun lacks => ?_⟩
  have fails {site : Site} (offers : site.Offers libraries name program content) :
      ∃ failure, site.build writer libraries withLibc = .error failure := by
    cases built : site.build writer libraries withLibc with
    | error failure => exact ⟨failure, rfl⟩
    | ok archive => exact absurd (site.suffices_of_build offers built) lacks
  obtain ⟨failure, built⟩ := fails offers
  obtain ⟨otherFailure, otherBuilt⟩ := fails otherOffers
  exact ⟨failure, otherFailure, built, otherBuilt⟩

/-- The same archive is built in another directory, from a copy of the environment, and next to a
file that has nothing to do with it. -/
theorem build_reproducible_elsewhere :
    let loader : LibraryPath := .ofPath ⟨"/lib/ld-x.so"⟩
    let library : LibraryPath := .ofPath ⟨"/lib/libc.so"⟩
    let libraries : LibrarySet := .ofList [library, loader]
    let content : LibraryPath → Bytes := fun library => if library.isLoader then [7] else [5]
    let here : Site := ⟨⟨[], [(["a"], .file [1]), (["lib"], .directory),
      (["lib", "ld-x.so"], .file [7]), (["lib", "libc.so"], .file [5])]⟩, ⟨"/a"⟩, none⟩
    let there : Site := ⟨⟨["b"], [(["b"], .directory), (["b", "a"], .file [1]),
      (["b", "c"], .file [9]), (["lib"], .directory), (["lib", "ld-x.so"], .file [7]),
      (["lib", "libc.so"], .file [5])]⟩, ⟨"a"⟩, some ⟨"/"⟩⟩
    here.Offers libraries "a" [1] content ∧ there.Offers libraries "a" [1] content ∧
      Suffices libraries true [1] ∧
      Zip.Writer.standard.Takes (here.Content libraries true) ∧
      ∃ archive, here.build .standard libraries true = .ok archive ∧
        there.build .standard libraries true = .ok archive ∧
        SameInputs here there libraries libraries true true := by
  intro loader library libraries content here there
  have offers {site : Site} (named : site.executable.fileName? = some "a")
      (program : site.files.read site.executable = .ok [1])
      (ofLoader : site.find loader = .ok (content loader))
      (ofLibrary : site.find library = .ok (content library)) :
      site.Offers libraries "a" [1] content := by
    refine ⟨named, program, fun kept isFirst => ?_⟩
    have listed : kept = library ∨ kept = loader := by
      simpa only [libraries, LibrarySet.mem_ofList, List.mem_pair] using isFirst.1
    rcases listed with rfl | rfl
    · exact ofLibrary
    · exact ofLoader
  have offersHere : here.Offers libraries "a" [1] content :=
    offers (by decide +kernel) (by decide +kernel) (by decide +kernel) (by decide +kernel)
  have offersThere : there.Offers libraries "a" [1] content :=
    offers (by decide +kernel) (by decide +kernel) (by decide +kernel) (by decide +kernel)
  have complete : Suffices libraries true [1] :=
    ⟨by decide, fun _ => existsUnique_loader_iff.mpr ⟨loader, by decide +kernel⟩⟩
  have takes : Zip.Writer.standard.Takes (here.Content libraries true) := by
    refine standard_takes_of_le (by simp [here, Zip.Writer.largest]) ?_
    intro name text named scripted
    obtain rfl : name = "a" := Option.some.inj (named.symm.trans offersHere.named)
    have short : (script libraries true "a").toOption.all (fun text =>
        decide ((Bytes.ofText text).length ≤ Zip.Writer.largest)) = true := by
      decide +kernel
    rw [scripted] at short
    exact of_decide_eq_true short
  obtain ⟨reproduces, tells⟩ :=
    build_reproducible .standard here there libraries libraries true true
  obtain ⟨same, succeeds⟩ :=
    (reproduces "a" [1] content (fun _ => Iff.rfl) offersHere offersThere).1 complete
  obtain ⟨archive, built⟩ := succeeds takes
  have rebuilt := same.symm.trans built
  exact ⟨offersHere, offersThere, complete, takes, archive, built, rebuilt,
    tells archive archive built rebuilt rfl⟩

/-- Sites that offer the same need not build anything: not of an empty executable, and not with the
C library where no loader is there. -/
theorem offers_without_archive :
    let blank : Site := ⟨⟨[], [(["a"], .file [])]⟩, ⟨"/a"⟩, none⟩
    let bare : Site := ⟨⟨[], [(["a"], .file [1])]⟩, ⟨"/a"⟩, none⟩
    (blank.Offers .empty "a" [] (fun _ => []) ∧
      ¬∃ archive, blank.build .standard .empty false = .ok archive) ∧
    (bare.Offers .empty "a" [1] (fun _ => []) ∧
      ¬∃ archive, bare.build .standard .empty true = .ok archive) := by
  intro blank bare
  have offers {site : Site} {program : Bytes} (named : site.executable.fileName? = some "a")
      (read : site.files.read site.executable = .ok program) :
      site.Offers .empty "a" program (fun _ => []) :=
    ⟨named, read, fun _ isFirst => absurd isFirst.1 LibrarySet.not_mem_empty⟩
  have offersBlank : blank.Offers .empty "a" [] (fun _ => []) :=
    offers (by decide +kernel) (by decide +kernel)
  have offersBare : bare.Offers .empty "a" [1] (fun _ => []) :=
    offers (by decide +kernel) (by decide +kernel)
  refine ⟨⟨offersBlank, ?_⟩, offersBare, ?_⟩
  · rintro ⟨archive, built⟩
    exact (blank.suffices_of_build offersBlank built).1 rfl
  · rintro ⟨archive, built⟩
    obtain ⟨loader, ⟨member, -⟩, -⟩ := (bare.suffices_of_build offersBare built).2 rfl
    exact LibrarySet.not_mem_empty member

end Archive

end FunctionBundler
