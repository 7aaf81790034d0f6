/-
Module: FunctionBundler.Proofs.Run.Changes
Purpose: What the turns of a run change in its files.
Trusted boundary: none
Main exports:
  StripsInPlace, Settled, Stored, Scene.Course.stored, Scene.Course.sameDirectories, Unshared,
  Scene.Course.read_archive, Scene.Course.spares
-/
import FunctionBundler.Proofs.Entry.Result
import FunctionBundler.Proofs.Files.Places
import FunctionBundler.Proofs.Run.Course

namespace FunctionBundler

/-!
A run changes files in two ways: an archive is written beside its executable, and an
executable is stripped.  Where stripping rewrites the executable in place, each turn
stores at most one file, so directories stay, and every path keeps the place where
its file is stored.  An archive that was written stays as it is, unless an archive of
another entry point, or an executable that is stripped, is stored at the same place.
-/

/-- Stripping changes nothing, or stores the executable anew. -/
def StripsInPlace : Habit
  | files, .environment (.strip executable), _, after =>
    after = files ∨
      ∃ place content, files.Stores executable place ∧ after = files.put place (.file content)
  | _, _, _, _ => True

/-- The environment always replies alike, and changes no file. -/
def Settled (answers : FixedAnswers) : Habit
  | files, .environment operation, reply, after => reply = answers operation ∧ after = files
  | _, _, _, _ => True

private theorem Settled.stripsInPlace {answers : FixedAnswers} {files after : Files}
    {request : Request}
    {reply : Reply request.Answer} (settled : Settled answers files request reply after) :
    StripsInPlace files request reply after := by
  cases request with
  | environment operation =>
      cases operation with
      | strip => exact Or.inl settled.2
      | start | stop | dependencies | baseLibraries => trivial
  | access | announce | call | clock | sleep => trivial

/-- A file was written under a label. -/
def Label.Writes : Label → Prop
  | .exchange _ (.access (.write _ _)) (.answered (.ok ())) => True
  | _ => False

private theorem Label.Writes.exists_write {label : Label} (writes : label.Writes) :
    ∃ actor path content,
      label = .exchange actor (.access (.write path content)) (.answered (.ok ())) := by
  rw [Label.Writes.eq_def] at writes
  split at writes
  case h_1 actor path content => exact ⟨actor, path, content, rfl⟩
  case h_2 => cases writes

/-- A task that has heard of no write of its own has written nothing. -/
theorem unwritten_of_heard {index : Nat} {labels : List Label}
    (unwritten : ∀ path content,
      (⟨.access (.write path content), .ok ()⟩ : Exchanged) ∉ heard index labels) :
    ∀ label ∈ labels, label.Writes → label.actor ≠ .entry index := by
  intro label member writes own
  obtain ⟨actor, path, content, rfl⟩ := writes.exists_write
  cases own
  exact unwritten path content (mem_heard_iff.mpr member)

/-- What a turn of a run stores: nothing, or the archive of an entry point or its executable, as
long as its archive has not been written. -/
inductive Stored (build : Build) (entries : List EntryPoint) (labels : List Label) (files : Files) :
    Label → Files → Prop where
  | nothing {label : Label} (silent : ¬label.Writes) : Stored build entries labels files label files
  | archive {index : Nat} {entry : EntryPoint} {place : List String} {content : Bytes}
      (there : entries[index]? = some entry)
      (unwritten : ∀ earlier ∈ heard index labels, ¬Build.IsWrite earlier)
      (stores : files.Stores (build.archivePath entry) place) :
      Stored build entries labels files
        (.exchange (.entry index)
          (.access (.write (build.archivePath entry) content)) (.answered (.ok ())))
        (files.put place (.file content))
  | executable {index : Nat} {entry : EntryPoint} {place : List String} {content : Bytes}
      {reply : Reply (Operation.strip (build.executable entry)).Answer}
      (there : entries[index]? = some entry)
      (unwritten : ∀ earlier ∈ heard index labels, ¬Build.IsWrite earlier)
      (wanted : build.settings.strip = true)
      (stores : files.Stores (build.executable entry) place) :
      Stored build entries labels files
        (.exchange (.entry index) (.environment (.strip (build.executable entry))) reply)
        (files.put place (.file content))

/-- Storing an archive changes no directory. -/
theorem Stored.sameDirectories {build : Build} {entries : List EntryPoint} {labels : List Label}
    {files after : Files} {label : Label} (stored : Stored build entries labels files label after) :
    files.SameDirectories after := by
  cases stored with
  | nothing => exact .refl files
  | archive _ _ stores | executable _ _ _ stores => exact .put stores.free _

private theorem not_isWrite_told (event : Event) : ¬Build.IsWrite (told event) := by
  intro isWrite
  obtain ⟨path, content, same⟩ := isWrite
  cases same

/-- An entry point shares the file of its archive with no other: neither with its archive, nor with
its executable when that is stripped. -/
def Unshared (build : Build) (entries : List EntryPoint) (files : Files) (index : Nat)
    (entry : EntryPoint) : Prop :=
  ∀ other entry', other ≠ index → entries[other]? = some entry' →
    ¬files.SamePlace (build.archivePath entry) (build.archivePath entry') ∧
      (build.settings.strip = true →
        ¬files.SamePlace (build.archivePath entry) (build.executable entry'))

namespace Scene

/-- What is written is stored, and nothing else changes. -/
theorem stores_of_step {scene next : Scene} {actor : Actor} {path : Path} {content : Bytes}
    (step : scene.Step
      (.exchange actor (.access (.write path content)) (.answered (.ok ()))) next) :
    ∃ place, scene.files.Stores path place ∧
      next.files = scene.files.put place (.file content) := by
  generalize asked : Label.exchange actor (.access (.write path content)) (.answered (.ok ())) =
    label at step
  cases step with
  | moved => cases asked
  | @exchange _ request resume reply files turn reacts =>
      cases asked
      generalize given : Reply.answered (Except.ok ()) = reply at reacts
      cases reacts with
      | access => exact Files.exists_stores_of_answer (Reply.answered.inj given).symm

variable {build : Build} {permits : Nat} {entries : List EntryPoint} {files : Files}
  {keeps : Scene → Label → Scene → Prop} {labels : List Label} {last : Scene}

/-- What packaging asks is answered without a change of files, except for its two ways. -/
theorem stored_of_asks {index : Nat} {entry : EntryPoint} {listed : LibraryPath → Prop}
    {before after : Files} {request : Request} {reply : Reply request.Answer}
    (there : entries[index]? = some entry)
    (unwritten : ∀ earlier ∈ heard index labels, ¬Build.IsWrite earlier)
    (asks : Build.Asks build entry listed request) (reacts : Reacts before request reply after)
    (inPlace : StripsInPlace before request reply after) :
    Stored build entries labels before (.exchange (.entry index) request reply) after := by
  cases asks with
  | inspect | dependencies | base | executable | library =>
      cases reacts
      exact .nothing id
  | strip wanted =>
      rcases inPlace with rfl | ⟨place, content, stores, rfl⟩
      · exact .nothing id
      · exact .executable there unwritten wanted stores
  | write content =>
      cases reacts with
      | access =>
          rw [Files.answer]
          split
          case h_1 changed written =>
              obtain ⟨place, stores, rfl⟩ := Files.write_eq_ok_iff.mp written
              exact .archive there unwritten stores
          case h_2 => exact .nothing id

/-- Every turn of a run stores at most one file. -/
theorem Course.stored (course : Course keeps (start build permits entries files) labels last)
    {label : Label} {next : Scene} (step : last.Step label next)
    (inPlace : last.Under StripsInPlace label next) :
    Stored build entries labels last.files label next.files := by
  cases moves_of_step step with
  | conductor conducts => cases conducts <;> exact .nothing id
  | moved => exact .nothing id
  | exchange working takes reacts =>
      obtain ⟨entry, there, wants, -⟩ := course.wants_of_takes takes
      generalize whole : heard _ labels = said at wants
      cases wants with
      | tells =>
          cases reacts
          exact .nothing id
      | packages reaches =>
          obtain ⟨asks, unwritten⟩ := Build.asks_of_reaches reaches
          refine stored_of_asks there ?_ asks reacts inPlace
          rw [whole]
          exact List.forall_mem_cons.mpr ⟨not_isWrite_told _, unwritten⟩
      | reconciles _ _ _ asks =>
          rcases Reconciliation.asks_remotely asks with ⟨_, rfl⟩ | rfl | ⟨_, rfl⟩
          · cases reacts
            exact .nothing id
          · cases reacts
            exact .nothing id
          · cases reacts
            exact .nothing id

/-- No run in which stripping works in place changes a directory. -/
theorem Course.sameDirectories
    (course : Course (Under StripsInPlace) (start build permits entries files) labels last) :
    files.SameDirectories last.files := by
  induction course with
  | nil => exact .refl files
  | concat course step inPlace ih => exact ih.trans (course.stored step inPlace).sameDirectories

/-- What was written at a place that is shared with no other entry point stays there. -/
theorem Course.archive_stays {index : Nat} {entry : EntryPoint} {place : List String}
    {content : Bytes}
    (course : Course (Under StripsInPlace) (start build permits entries files) labels last)
    (found : files.target (build.archivePath entry) = .ok place)
    (unshared : Unshared build entries files index entry)
    (written : Label.exchange (.entry index) (.access (.write (build.archivePath entry) content))
      (.answered (.ok ())) ∈ labels) :
    last.files.node? place = some (.file content) := by
  induction course with
  | nil => cases written
  | @concat labels middle last label course step inPlace ih =>
      have same := course.sameDirectories
      rcases List.mem_append.mp written with earlier | now
      · have stays := ih earlier
        have elsewhere {other : Nat}
            (unwritten : ∀ earlier ∈ heard other labels, ¬Build.IsWrite earlier) :
            other ≠ index := by
          rintro rfl
          exact unwritten _ (mem_heard_iff.mpr earlier) ⟨_, _, rfl⟩
        have keeps {path : Path} {other : List String} {content' : Bytes}
            (apart : ¬files.SamePlace (build.archivePath entry) path)
            (stores : middle.files.Stores path other) :
            (middle.files.put other (.file content')).node? place = some (.file content) := by
          refine (Files.node?_put_of_ne fun taken => apart ⟨place, found, ?_⟩).trans stays
          rw [taken]
          exact same.symm.target stores.target
        have stored := course.stored step inPlace
        generalize last.files = after at stored ⊢
        cases stored with
        | nothing => exact stays
        | archive there unwritten stores =>
            exact keeps (unshared _ _ (elsewhere unwritten) there).1 stores
        | executable there unwritten wanted stores =>
            exact keeps ((unshared _ _ (elsewhere unwritten) there).2 wanted) stores
      · obtain rfl := List.mem_singleton.mp now
        obtain ⟨stored, stores, changed⟩ := stores_of_step step
        cases (same.target found).symm.trans stores.target
        rw [changed]
        exact Files.node?_put_self stores.free

/-- What was written as an archive that no other entry point shares is read at its path. -/
theorem Course.read_archive {index : Nat} {entry : EntryPoint} {content : Bytes}
    (course : Course (Under StripsInPlace) (start build permits entries files) labels last)
    (unshared : Unshared build entries files index entry)
    (written : Label.exchange (.entry index) (.access (.write (build.archivePath entry) content))
      (.answered (.ok ())) ∈ labels) :
    last.files.read (build.archivePath entry) = .ok content := by
  obtain ⟨before, after, cut⟩ := List.append_of_mem written
  have same := course
  rw [cut] at same
  obtain ⟨middle, next, early, step, -, -⟩ := same.split_at
  obtain ⟨place, stores, -⟩ := stores_of_step step
  have found := early.sameDirectories.symm.target stores.target
  exact Files.read_of_target (course.sameDirectories.target found)
    (course.archive_stays found unshared written)

/-- Under fixed answers, stripping works in place. -/
theorem under_inPlace {answers : FixedAnswers} {scene next : Scene} {label : Label}
    (settled : scene.Under (Settled answers) label next) :
    scene.Under StripsInPlace label next := by
  cases label with
  | moved => trivial
  | exchange => exact Settled.stripsInPlace settled

/-- Where the environment changes no file, stripping does no harm. -/
theorem Course.inPlace_of_settled {answers : FixedAnswers} {first : Scene}
    (course : Course (Under (Settled answers)) first labels last) :
    Course (Under StripsInPlace) first labels last :=
  course.mono fun _ _ _ => under_inPlace

/-- The task of an index leaves all files as they are. -/
def Spares (index : Nat) (scene : Scene) (label : Label) (next : Scene) : Prop :=
  label.actor = .entry index → next.files = scene.files

/-- Where nothing is stripped, stripping does no harm. -/
theorem Course.inPlace (course : Course keeps (start build permits entries files) labels last)
    (noStrip : build.settings.strip = false) :
    Course (Under StripsInPlace) (start build permits entries files) labels last := by
  induction course with
  | nil => exact .nil
  | @concat labels middle last label course step _ ih =>
      refine ih.concat step ?_
      cases moves_of_step step with
      | moved => trivial
      | conductor conducts => cases conducts <;> trivial
      | @exchange index request reply _ _ _ takes =>
          change StripsInPlace _ request reply _
          obtain ⟨entry, -, wants, -⟩ := course.wants_of_takes takes
          generalize heard index labels = said at wants
          cases wants with
          | tells => trivial
          | packages reaches =>
              cases (Build.asks_of_reaches reaches).1 with
              | strip wanted => cases noStrip.symm.trans wanted
              | inspect | dependencies | base | executable | library | write => trivial
          | reconciles _ _ _ asks =>
              rcases Reconciliation.asks_remotely asks with ⟨_, rfl⟩ | rfl | ⟨_, rfl⟩ <;> trivial

/-- Without stripping, a task changes files only by writing its archive. -/
theorem Course.spares {index : Nat}
    (course : Course keeps (start build permits entries files) labels last)
    (noStrip : build.settings.strip = false)
    (unwritten : ∀ label ∈ labels, label.Writes → label.actor ≠ .entry index) :
    Course (Spares index) (start build permits entries files) labels last := by
  have inPlace := course.inPlace noStrip
  clear course
  induction inPlace with
  | nil => exact .nil
  | @concat labels middle last label course step inPlace ih =>
      have earlier := ih fun label member => unwritten label (List.mem_append_left _ member)
      have now := unwritten label (List.mem_append_right _ List.mem_cons_self)
      refine earlier.concat step fun own => ?_
      have stored := course.stored step inPlace
      generalize last.files = after at stored ⊢
      cases stored with
      | nothing => rfl
      | archive => exact absurd own (now trivial)
      | executable _ _ wanted => cases noStrip.symm.trans wanted

end Scene

end FunctionBundler
