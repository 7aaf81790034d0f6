/-
Module: FunctionBundler.Proofs.Run.Archives
Purpose: When the archives of a run have paths of their own, and what follows for the files.
Trusted boundary: none
Main exports:
  DistinctPaths, distinctPaths_of_bare, Scene.KeepsOthers, Scene.Course.keepsOthers,
  Scene.HoldsArchives, Scene.trace_archives, Scene.exists_not_holdsArchives
-/
import FunctionBundler.Proofs.Archive.Naming
import FunctionBundler.Proofs.Run.Isolation
import Mathlib.Data.List.Nodup

namespace FunctionBundler

/-!
All executables of a run lie in one directory, so where file names are single
components, paths of executables and archives are apart as soon as their last
components are.  Names without an extension give each entry point an archive of its
own, called like its executable with `.zip` after it.  Names with an extension need
not: `a.b` and `a.c` have one archive between them, and that of `a.zip` takes the
place of its own executable.
-/

/-- The archives of entry points have paths of their own: no archive has the path of another one or
of an executable.  Paths are compared component by component. -/
def DistinctPaths (build : Build) (entries : List EntryPoint) : Prop :=
  (entries.map fun entry => (build.archivePath entry).components).Nodup ∧
    ∀ entry ∈ entries, ∀ other ∈ entries,
      (build.archivePath entry).components ≠ (build.executable other).components

section

variable {build : Build} {entries : List EntryPoint} {entry other : EntryPoint}

private theorem archivePath_eq (build : Build) (single : (Component.name entry.fileName).IsStep) :
    build.archivePath entry =
      build.settings.buildDirectory.join ⟨(Archive.componentFor entry.fileName).text⟩ :=
  Archive.pathFor_join _ single

private theorem components_archivePath (build : Build)
    (single : (Component.name entry.fileName).IsStep) :
    (build.archivePath entry).components =
      build.settings.buildDirectory.components ++ [Archive.componentFor entry.fileName] := by
  rw [archivePath_eq build single, Path.components_join _ (Archive.isStep_componentFor single)]

private theorem executable_eq (build : Build) (entry : EntryPoint) :
    build.executable entry =
      build.settings.buildDirectory.join ⟨(Component.name entry.fileName).text⟩ :=
  rfl

private theorem components_executable (build : Build)
    (single : (Component.name entry.fileName).IsStep) :
    (build.executable entry).components =
      build.settings.buildDirectory.components ++ [.name entry.fileName] := by
  rw [executable_eq, Path.components_join _ single]

/-- Entry points without extensions have archives of their own if they have names of their own. -/
theorem distinctPaths_of_bare (single : ∀ entry ∈ entries, (Component.name entry.fileName).IsStep)
    (distinct : (entries.map EntryPoint.fileName).Nodup)
    (bare : ∀ entry ∈ entries, (build.executable entry).extension? = none) :
    DistinctPaths build entries := by
  have called (entry : EntryPoint) (member : entry ∈ entries) :
      Archive.componentFor entry.fileName = .name (entry.fileName ++ ".zip") := by
    have none := bare entry member
    rw [Build.executable, Path.extension?_join _ (single entry member),
      Option.map_eq_none_iff] at none
    exact Archive.componentFor_of_bare none
  constructor
  · refine List.Nodup.map_on ?_ (distinct.of_map _)
    intro entry member other also same
    rw [components_archivePath build (single entry member),
      components_archivePath build (single other also), called entry member,
      called other also] at same
    have names := Component.name.inj (List.singleton_inj.mp (List.append_cancel_left same))
    exact List.inj_on_of_nodup_map distinct member also (String.append_left_inj _ |>.mp names)
  · intro entry member other also same
    rw [components_archivePath build (single entry member),
      components_executable build (single other also), called entry member] at same
    have names := Component.name.inj (List.singleton_inj.mp (List.append_cancel_left same))
    -- What ends in `.zip` after something has an extension.
    have none := bare other also
    have bareZip : '.' ∉ "zip".toList := by decide
    have split := Path.splitName_of_dot bareZip (single entry member).text_ne_nil
    rw [Build.executable, Path.extension?_join _ (single other also), ← names,
      String.toList_append] at none
    cases none.symm.trans (congrArg (fun split => split.2.map String.ofList) split)

/-- Archives with paths of their own are called differently. -/
theorem DistinctPaths.archive (distinct : DistinctPaths build entries)
    (single : ∀ entry ∈ entries, (Component.name entry.fileName).IsStep) {index other : Nat}
    {entry' : EntryPoint} (there : entries[index]? = some entry)
    (there' : entries[other]? = some entry') (differs : index ≠ other) :
    Archive.componentFor entry.fileName ≠ Archive.componentFor entry'.fileName := by
  intro same
  obtain ⟨inside, -⟩ := List.getElem?_eq_some_iff.mp there
  apply differs
  apply (List.getElem?_inj _ distinct.1).mp
  · rw [List.getElem?_map, List.getElem?_map, there, there', Option.map_some, Option.map_some,
      components_archivePath build (single entry (List.mem_of_getElem? there)),
      components_archivePath build (single entry' (List.mem_of_getElem? there')), same]
  · rwa [List.length_map]

/-- Archives with paths of their own are called like no executable. -/
theorem DistinctPaths.executable (distinct : DistinctPaths build entries)
    (single : ∀ entry ∈ entries, (Component.name entry.fileName).IsStep) {index other : Nat}
    {entry' : EntryPoint} (there : entries[index]? = some entry)
    (there' : entries[other]? = some entry') :
    Archive.componentFor entry.fileName ≠ .name entry'.fileName := by
  have member := List.mem_of_getElem? there
  have member' := List.mem_of_getElem? there'
  intro same
  apply distinct.2 entry member entry' member'
  rw [components_archivePath build (single entry member),
    components_executable build (single entry' member'), same]

/-- Archives with distinct paths share no place with each other or with an executable. -/
theorem DistinctPaths.unshared (distinct : DistinctPaths build entries)
    (single : ∀ entry ∈ entries, (Component.name entry.fileName).IsStep) (files : Files)
    {index : Nat} (there : entries[index]? = some entry) :
    Unshared build entries files index entry := by
  intro other entry' differs there'
  have isSingle := single entry (List.mem_of_getElem? there)
  have isSingle' := single entry' (List.mem_of_getElem? there')
  have isStep := Archive.isStep_componentFor isSingle
  rw [archivePath_eq build isSingle, archivePath_eq build isSingle', executable_eq]
  exact ⟨Files.not_samePlace_join isStep (Archive.isStep_componentFor isSingle')
      (distinct.archive single there there' differs.symm),
    fun _ => Files.not_samePlace_join isStep isSingle' (distinct.executable single there there')⟩

/-- Packaging writes nothing but its archive. -/
theorem Build.Asks.path_eq {listed : LibraryPath → Prop} {request : Request}
    (asks : Build.Asks build entry listed request) {path : Path} {content : Bytes}
    (writes : request = .access (.write path content)) : path = build.archivePath entry := by
  cases asks with
  | write => exact (Access.write.inj (Request.access.inj writes)).1.symm
  | strip | dependencies | base => cases writes
  | inspect | executable | library => cases Request.access.inj writes

private theorem EntryTask.path_of_wants {said : List Exchanged} {path : Path} {content : Bytes}
    (wants : Wants build entry said (.access (.write path content))) :
    path = build.archivePath entry := by
  generalize wanted : Request.access (.write path content) = request at wants
  cases wants with
  | tells => cases wanted
  | packages reaches => exact (Build.asks_of_reaches reaches).1.path_eq wanted.symm
  | reconciles _ _ _ asks =>
      rcases Reconciliation.asks_remotely asks with ⟨_, rfl⟩ | rfl | ⟨_, rfl⟩ <;> cases wanted

end

namespace Scene

variable {build : Build} {permits : Nat} {entries : List EntryPoint} {files : Files}
  {keeps : Scene → Label → Scene → Prop} {labels : List Label} {last : Scene}

/-- What one entry point writes changes no executable, and the archive of no other entry point. -/
def KeepsOthers (build : Build) (entries : List EntryPoint) (scene : Scene) (label : Label)
    (next : Scene) : Prop :=
  ∀ index path content,
    label = .exchange (.entry index) (.access (.write path content)) (.answered (.ok ())) →
    ∀ (other : Nat) entry, entries[other]? = some entry →
      next.files.read (build.executable entry) = scene.files.read (build.executable entry) ∧
        (other ≠ index →
          next.files.read (build.archivePath entry) = scene.files.read (build.archivePath entry))

/-- With paths of their own, archives are written beside each other. -/
theorem Course.keepsOthers (course : Course keeps (start build permits entries files) labels last)
    (single : ∀ entry ∈ entries, (Component.name entry.fileName).IsStep)
    (distinct : DistinctPaths build entries) :
    Course (KeepsOthers build entries) (start build permits entries files) labels last := by
  induction course with
  | nil => exact .nil
  | @concat labels middle last label course step _ ih =>
      refine ih.concat step ?_
      rintro index path content rfl other entry' there'
      obtain ⟨takes, -⟩ := takes_of_step step
      obtain ⟨entry, there, wants, -⟩ := course.wants_of_takes takes
      obtain ⟨place, stores, changed⟩ := stores_of_step step
      have isStep := Archive.isStep_componentFor (single entry (List.mem_of_getElem? there))
      have single' := single entry' (List.mem_of_getElem? there')
      have isStep' := Archive.isStep_componentFor single'
      have found := stores.target
      rw [EntryTask.path_of_wants wants,
        archivePath_eq build (single entry (List.mem_of_getElem? there))] at found
      have kept {path : Path} (apart : middle.files.leads path ≠ some place) :
          last.files.read path = middle.files.read path := by
        rw [changed, Files.read_eq_look, Files.read_eq_look,
          (Files.unmoved_put stores.free apart content).look]
      constructor
      · rw [executable_eq]
        exact kept (Files.leads_join_ne isStep single'
          (distinct.executable single there there') found)
      · intro differs
        rw [archivePath_eq build single']
        exact kept (Files.leads_join_ne isStep isStep'
          (distinct.archive single there there' differs.symm) found)

/-- In the end, every entry point whose archive was told of finds it, whole and its own, at the path
that was told. -/
def HoldsArchives (build : Build) (labels : List Label) (last : Scene) : Prop :=
  ∀ results (index : Nat) entry path size, last.run.results? = some results →
    results[index]? = some (entry, .packaged path size) →
    path = build.archivePath entry ∧
      ∃ said packaged, build.Journey entry .begun said (.ok packaged) ∧
        heard index labels = told (.packaging entry.fileName) :: said ++
          [told ((Outcome.packaged path size).event entry.fileName)] ∧
        size = packaged.archive.size ∧ last.files.read path = .ok packaged.archive.bytes

private theorem Course.holdsArchives
    (course : Course (Under StripsInPlace) (start build permits entries files) labels last)
    (unshared : ∀ (index : Nat) entry, entries[index]? = some entry →
      Unshared build entries files index entry) :
    HoldsArchives build labels last := by
  intro results index entry path size ended result
  obtain ⟨there, ends⟩ := (course.of_results? ended).2 index entry _ result
  generalize kept : Outcome.packaged path size = outcome at ends
  cases course.fared there ends with
  | failed | panicked | lost => cases kept
  | @delivered said later packaged _ unharmed journey delivers whole =>
      cases delivers with
      | deployed | notDeployed => cases kept
      | kept =>
          obtain ⟨rfl, rfl⟩ := Outcome.packaged.inj kept
          obtain ⟨-, -, -, executable⟩ := journey.of_ok nofun
          rw [List.append_nil] at whole
          have written :
              build.archiveWritten entry packaged.archive (.ok ()) ∈ heard index labels := by
            rw [whole]
            exact List.mem_append_left _ (List.mem_cons_of_mem _ (journey.archiveWritten_mem nofun))
          rw [executable] at whole ⊢
          exact ⟨rfl, said, packaged, journey, whole, rfl,
            course.read_archive (unshared index entry there) (mem_heard_iff.mp written)⟩

/-- Where file names are single components and distinct, an archive has the path of its executable
with `.zip` after it exactly if the name has no extension, and without extensions all archives have
paths of their own.  Wherever they have, no entry point writes over an executable or over the
archive of another one, and in the end every archive that was told of is found where it was
written. -/
theorem trace_archives (single : ∀ entry ∈ entries, (Component.name entry.fileName).IsStep)
    (distinct : (entries.map EntryPoint.fileName).Nodup)
    (trace : Scene.Trace (start build permits entries files) labels last) :
    (∀ entry ∈ entries, build.archivePath entry = ⟨(build.executable entry).text ++ ".zip"⟩ ↔
        (build.executable entry).extension? = none) ∧
      ((∀ entry ∈ entries, (build.executable entry).extension? = none) →
        DistinctPaths build entries) ∧
      (DistinctPaths build entries →
        Course (KeepsOthers build entries) (start build permits entries files) labels last ∧
          ((build.settings.strip = true →
              Course (Under StripsInPlace) (start build permits entries files) labels last) →
            HoldsArchives build labels last)) := by
  have course := course_of_trace trace
  refine ⟨fun entry member => ?_, distinctPaths_of_bare single distinct, fun apart =>
    ⟨course.keepsOthers single apart, fun inPlace => ?_⟩⟩
  · rw [Build.archivePath, Build.executable]
    exact Archive.pathFor_eq_append_iff _ (single entry member)
  · have stripped :
        Course (Under StripsInPlace) (start build permits entries files) labels last := by
      cases wanted : build.settings.strip with
      | true => exact inPlace wanted
      | false => exact course.inPlace wanted
    exact stripped.holdsArchives fun index entry there => apart.unshared single files there

/-! ### Names with and without extensions -/

/-- An entry point of this name. -/
def sample (name : String) : EntryPoint :=
  let parameters : Parameters := ⟨"f", 128, 3, 512⟩
  ⟨name, Base64.encode (Codec.encode parameters.toValue), none⟩

/-- A build that neither strips nor deploys. -/
def sampleBuild : Build :=
  ⟨⟨⟨"/p/app"⟩, ⟨"/p/app.json"⟩, "app", none, ⟨"/p"⟩, none, none, false, .x86_64, false, none⟩,
    none, none, .standard⟩

/-- Executables with and without extensions, and two loaders. -/
def sampleFiles : Files :=
  ⟨[], [(["p"], .directory), (["p", "a"], .file [1]), (["p", "b"], .file [2]),
    (["p", "a.b"], .file [1]), (["p", "a.c"], .file [2]), (["p", "ld-1"], .file [3]),
    (["p", "ld-22"], .file [4])]⟩

/-- An environment that lists another loader for one executable than for the others. -/
def sampleAnswers : FixedAnswers :=
  .listing fun executable =>
    let loader := if executable = ⟨"/p/a.b"⟩ then "/p/ld-1" else "/p/ld-22"
    .answered (.ok (.ofList [.ofPath ⟨loader⟩]))

/-- What tells archives of different loaders apart: the length of the name of the first entry. -/
def mark (content : Bytes) : Option UInt8 :=
  content[26]?

/-- The mark of the archive that an entry point comes to by itself. -/
def markAlone (files : Files) (name : String) :
    Except String (Except Failure (Option UInt8)) :=
  (sampleBuild.packagedAlone sampleAnswers files (sample name)).map
    (Except.map fun packaged => mark packaged.archive.bytes)

/-- The files after an entry point was packaged, with its archive at a place. -/
def filesAfter (name : String) (place : List String) : Files :=
  sampleBuild.filesAfter sampleAnswers sampleFiles (sample name) place

/-- Two entry points are packaged one after the other. -/
theorem exists_course_of_marks {first second : String} {place : List String}
    {one two : Option UInt8} (alone : markAlone sampleFiles first = .ok (.ok one))
    (lies : sampleFiles.target (sampleBuild.archivePath (sample first)) = .ok place)
    (alone' : markAlone (filesAfter first place) second = .ok (.ok two)) :
    ∃ labels last packaged packaged',
      Course (Under (Settled sampleAnswers))
        (start sampleBuild 1 [sample first, sample second] sampleFiles) labels last ∧
      last.run.results? = some [(sample first, .ofPackaging (.ok packaged)),
        (sample second, .ofPackaging (.ok packaged'))] ∧
      sampleBuild.archiveWritten (sample first) packaged.archive (.ok ()) ∈ heard 0 labels ∧
      mark packaged.archive.bytes = one ∧
      last.files.read (sampleBuild.archivePath (sample second)) = .ok packaged'.archive.bytes ∧
      mark packaged'.archive.bytes = two := by
  have smooth : (Settled sampleAnswers).Smooth (.ok ()) :=
    ⟨fun _ _ => trivial, fun _ => ⟨rfl, rfl⟩, fun _ => ⟨rfl, rfl⟩⟩
  have stays (packaged : Packaged) : sampleBuild.deployment? packaged = none := rfl
  obtain ⟨packaged, packages, marked⟩ := Build.exists_packaged_of_map alone
  obtain ⟨packaged', packages', marked'⟩ := Build.exists_packaged_of_map alone'
  obtain ⟨said, middle, trace, replies, stored, stores, changed⟩ :=
    exists_answers_of_packagedAlone packages
  rw [changed, put_eq_filesAfter packages stores lies] at replies
  obtain ⟨said', after, trace', replies', stored', stores', changed'⟩ :=
    exists_answers_of_packagedAlone packages'
  obtain ⟨opening, opens⟩ := exists_course_of_opening smooth sampleBuild 1
    [sample first, sample second] sampleFiles
  obtain ⟨labels, works, hears⟩ := @course_of_packaging _ _ sampleBuild (sample first)
    [sample first, sample second] [] [.active (.start sampleBuild (sample second))] _ _ smooth stays
    said _ trace replies 0
  obtain ⟨later, worksLater, -⟩ := @course_of_packaging _ _ sampleBuild (sample second)
    [sample first, sample second]
    [.active ⟨sampleBuild, sample first, .ended (.ofPackaging (.ok packaged))⟩] [] _ _ smooth stays
    said' _ trace' replies' 0
  have course := (opens.append works).append worksLater
  have written := (Build.trace_package_iff.mp trace).archiveWritten_mem nofun
  have ended := @Run.results?_of_ended sampleBuild [(sample first, .ofPackaging (.ok packaged)),
    (sample second, .ofPackaging (.ok packaged'))] .working 1
  refine ⟨_, _, packaged, packaged', course, ended, ?_, marked, ?_, marked'⟩
  · rw [heard_append, heard_append]
    change heard 0 labels = _ at hears
    rw [hears]
    simp [written]
  · change after.read _ = _
    rw [changed', stores'.read_put]

/-- An archive that was written is the one that its entry point finds in the end, if it finds its
own. -/
theorem HoldsArchives.read_eq {build : Build} {labels : List Label} {last : Scene}
    {results : List (EntryPoint × Outcome)} {index : Nat} {entry : EntryPoint} {path : Path}
    {size : Nat} {archive : Archive} (holds : HoldsArchives build labels last)
    (ended : last.run.results? = some results)
    (result : results[index]? = some (entry, .packaged path size))
    (written : build.archiveWritten entry archive (.ok ()) ∈ heard index labels) :
    last.files.read (build.archivePath entry) = .ok archive.bytes := by
  obtain ⟨same, said, packaged, journey, whole, -, found⟩ := holds _ _ _ _ _ ended result
  obtain ⟨before, cut, unwritten, -⟩ := journey.of_ok nofun
  rw [whole, cut] at written
  rw [← same, found]
  have member : build.archiveWritten entry archive (.ok ()) ∈
      before ++ [build.archiveWritten entry packaged.archive (.ok ())] := by
    rcases List.mem_append.mp written with inWork | atEnd
    · rcases List.mem_cons.mp inWork with same | inPackaging
      · cases same
      · exact inPackaging
    · cases List.mem_singleton.mp atEnd
  rcases List.mem_append.mp member with earlier | now
  · exact absurd ⟨_, _, rfl⟩ (unwritten _ earlier)
  · have same := (Sigma.mk.inj (List.mem_singleton.mp now)).1
    rw [(Access.write.inj (Request.access.inj same)).2]

/-- Entry points with distinct names can have one archive between them, and then one of them does
not find its own; and an archive can take the place of its own executable. -/
theorem exists_not_holdsArchives :
    (∀ entry ∈ [sample "a.b", sample "a.c"], (Component.name entry.fileName).IsStep) ∧
      ([sample "a.b", sample "a.c"].map EntryPoint.fileName).Nodup ∧
      sampleBuild.archivePath (sample "a.b") = sampleBuild.archivePath (sample "a.c") ∧
      sampleBuild.archivePath (sample "a.zip") = sampleBuild.executable (sample "a.zip") ∧
      ∃ labels last,
        Course (Under (Settled sampleAnswers))
          (start sampleBuild 1 [sample "a.b", sample "a.c"] sampleFiles) labels last ∧
        ¬HoldsArchives sampleBuild labels last := by
  have known (name : String) : (sample name).parameters = .ok ⟨"f", 128, 3, 512⟩ :=
    EntryPoint.parameters_toValue _ _ ⟨by decide, by decide, by decide⟩ (by decide)
  have one : markAlone sampleFiles "a.b" = .ok (.ok (some 8)) := by
    rw [markAlone, Build.packagedAlone, Build.package, known]
    decide +kernel
  have two : markAlone (filesAfter "a.b" ["p", "a.zip"]) "a.c" = .ok (.ok (some 9)) := by
    rw [markAlone, Build.packagedAlone, Build.package, known]
    decide +kernel
  have shared :
      sampleBuild.archivePath (sample "a.b") = sampleBuild.archivePath (sample "a.c") := by
    decide +kernel
  obtain ⟨labels, last, packaged, packaged', course, ended, written, marked, found, marked'⟩ :=
    exists_course_of_marks one (by decide +kernel) two
  refine ⟨?_, by decide +kernel, shared, by decide +kernel, labels, last, course, fun holds => ?_⟩
  · intro entry member
    rcases List.mem_pair.mp member with rfl | rfl <;> exact ⟨by decide +kernel, by decide +kernel⟩
  · have own := holds.read_eq ended rfl written
    rw [shared, found] at own
    rw [← Except.ok.inj own, marked'] at marked
    cases marked

/-- Entry points without extensions. -/
theorem trace_archives_bare :
    ∃ labels last size size',
      Scene.Trace (start sampleBuild 1 [sample "a", sample "b"] sampleFiles) labels last ∧
      last.run.results? = some [(sample "a", .packaged ⟨"/p/a.zip"⟩ size),
        (sample "b", .packaged ⟨"/p/b.zip"⟩ size')] ∧
      HoldsArchives sampleBuild labels last := by
  have known (name : String) : (sample name).parameters = .ok ⟨"f", 128, 3, 512⟩ :=
    EntryPoint.parameters_toValue _ _ ⟨by decide, by decide, by decide⟩ (by decide)
  have one : markAlone sampleFiles "a" = .ok (.ok (some 9)) := by
    rw [markAlone, Build.packagedAlone, Build.package, known]
    decide +kernel
  have two : markAlone (filesAfter "a" ["p", "a.zip"]) "b" = .ok (.ok (some 9)) := by
    rw [markAlone, Build.packagedAlone, Build.package, known]
    decide +kernel
  obtain ⟨labels, last, packaged, packaged', course, ended, -⟩ :=
    exists_course_of_marks one (by decide +kernel) two
  obtain ⟨-, bare, apart⟩ := @trace_archives sampleBuild 1 [sample "a", sample "b"] sampleFiles
    labels last
    (by
      intro entry member
      rcases List.mem_pair.mp member with rfl | rfl <;>
        exact ⟨by decide +kernel, by decide +kernel⟩)
    (by decide +kernel) course.trace
  have holds : HoldsArchives sampleBuild labels last := by
    refine (apart (bare ?_)).2 fun wanted => absurd wanted Bool.false_ne_true
    intro entry member
    rcases List.mem_pair.mp member with rfl | rfl <;> decide +kernel
  have paths : sampleBuild.archivePath (sample "a") = ⟨"/p/a.zip"⟩ ∧
      sampleBuild.archivePath (sample "b") = ⟨"/p/b.zip"⟩ := by decide +kernel
  rw [← paths.1, ← paths.2]
  refine ⟨labels, last, packaged.archive.size, packaged'.archive.size, course.trace, ?_, holds⟩
  rw [ended, Outcome.ofPackaging, Outcome.ofPackaging, (holds _ 0 _ _ _ ended rfl).1,
    (holds _ 1 _ _ _ ended rfl).1]

end Scene

end FunctionBundler
