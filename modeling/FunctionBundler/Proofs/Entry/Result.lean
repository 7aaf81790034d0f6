/-
Module: FunctionBundler.Proofs.Entry.Result
Purpose: How packaging ends, and what it comes to where nothing changes around it.
Trusted boundary: none
Main exports:
  Build.Journey.of_ok, Build.Journey.isSealed, Build.Journey.parameters_eq,
  Build.Journey.unwritten_of_error, FixedAnswers,
  Build.packagedAlone, Build.packagedAlone_of_trace, Build.packagedAlone_of_reaches,
  Build.exists_journey_of_packagedAlone
-/
import FunctionBundler.Proofs.Entry.Stages

namespace FunctionBundler

/-!
Packaging that succeeds has written its archive as the last thing it did; packaging
that fails has written nothing.  So as long as the environment answers alike, and
files change only where packaging does not look, its end is a function of the files
at the beginning: `Build.packagedAlone` runs packaging on answers that never change.
-/

namespace Build

variable {build : Build} {entry : EntryPoint} {milestone next : Milestone}
  {said : List Exchanged} {packaged : Packaged}

/-- Where packaging has written its archive, the write was the last stage. -/
theorem Stage.of_written (stage : Stage build entry milestone said (.ok (.written packaged))) :
    said = [build.archiveWritten entry packaged.archive (.ok ())] ∧
      packaged.executable = build.executable entry := by
  generalize ended : (Except.ok (.written packaged) : Except Failure Milestone) = outcome at stage
  cases stage with
  | metadata | executable | strip | dependencies | base | loader | assembly =>
      obtain ⟨_, -, same⟩ := exists_of_map_eq_ok ended
      cases same
  | noStrip | noBase => cases ended
  | writing answer =>
      cases answer with
      | error fault => cases ended
      | ok =>
          cases ended
          exact ⟨rfl, rfl⟩

private theorem Journey.exists_archiveWritten
    (journey : Journey build entry milestone said (.ok packaged))
    (ahead : ∀ other, milestone ≠ .written other) :
    ∃ before, said = before ++ [build.archiveWritten entry packaged.archive (.ok ())] ∧
      packaged.executable = build.executable entry := by
  generalize ended : (Except.ok packaged : Except Failure Packaged) = result at journey
  induction journey with
  | arrived other => exact absurd rfl (ahead other)
  | stopped => cases ended
  | @onward milestone next said later result stage journey ih =>
      by_cases arrives : ∃ other, next = .written other
      · obtain ⟨other, rfl⟩ := arrives
        obtain ⟨rfl, same⟩ := journey.of_written
        cases ended.trans same
        obtain ⟨rfl, executable⟩ := stage.of_written
        exact ⟨[], rfl, executable⟩
      · obtain ⟨before, rfl, executable⟩ := ih (fun other same => arrives ⟨other, same⟩) ended
        exact ⟨said ++ before, (List.append_assoc _ _ _).symm, executable⟩

/-- Packaging that succeeds has written its archive, at the very end and nothing before. -/
theorem Journey.of_ok (journey : Journey build entry milestone said (.ok packaged))
    (ahead : ∀ other, milestone ≠ .written other) :
    ∃ before, said = before ++ [build.archiveWritten entry packaged.archive (.ok ())] ∧
      (∀ earlier ∈ before, ¬IsWrite earlier) ∧ packaged.executable = build.executable entry := by
  obtain ⟨before, rfl, executable⟩ := journey.exists_archiveWritten ahead
  refine ⟨before, rfl, ?_, executable⟩
  obtain ⟨same, parameters, archive, answer, cut, unwritten, -⟩ :=
    journey.of_isWrite (List.mem_append_right before List.mem_cons_self) ⟨_, _, rfl⟩
  rw [(List.append_inj' cut rfl).1]
  exact unwritten

/-- Packaging does not succeed without the archive being written. -/
theorem Journey.archiveWritten_mem
    (journey : Journey build entry milestone said (.ok packaged))
    (ahead : ∀ other, milestone ≠ .written other) :
    build.archiveWritten entry packaged.archive (.ok ()) ∈ said := by
  obtain ⟨before, rfl, -⟩ := journey.exists_archiveWritten ahead
  exact List.mem_append_right before List.mem_cons_self

/-- The archive that a milestone knows of has the digest of its bytes. -/
def Milestone.Sealed : Milestone → Prop
  | .assembled _ archive | .written ⟨_, archive, _⟩ => archive.digest = Sha256.digest archive.bytes
  | _ => True

/-- No stage breaks the seal of an archive. -/
theorem Stage.isSealed (stage : Stage build entry milestone said (.ok next))
    (before : milestone.Sealed) : next.Sealed := by
  generalize ended : (Except.ok next : Except Failure Milestone) = outcome at stage
  cases stage with
  | metadata | executable | strip | dependencies | base | loader =>
      obtain ⟨_, -, rfl⟩ := exists_of_map_eq_ok ended
      trivial
  | noStrip | noBase =>
      cases ended
      trivial
  | assembly assembles =>
      obtain ⟨archive, rfl, rfl⟩ := exists_of_map_eq_ok ended
      obtain ⟨_, _, _, _, _, -, -, -, -, -, closes⟩ := assembles.of_ok
      exact closes.digest
  | writing answer =>
      obtain ⟨_, -, rfl⟩ := exists_of_map_eq_ok ended
      exact before

/-- The digest of a packaged archive is that of its bytes. -/
theorem Journey.isSealed (journey : Journey build entry milestone said (.ok packaged))
    (before : milestone.Sealed) :
    packaged.archive.digest = Sha256.digest packaged.archive.bytes := by
  generalize ended : (Except.ok packaged : Except Failure Packaged) = result at journey
  induction journey with
  | arrived =>
      cases ended
      exact before
  | stopped => cases ended
  | onward stage _ ih => exact ih (stage.isSealed before) ended

/-- The parameters that a milestone knows of are those of the entry point. -/
def Milestone.Describes (entry : EntryPoint) : Milestone → Prop
  | .begun => True
  | .decoded parameters | .checked parameters | .stripped parameters | .listed parameters _
  | .gathered parameters _ | .closed parameters _ | .assembled parameters _
  | .written ⟨_, _, parameters⟩ => entry.parameters = .ok parameters

/-- What a stage knows of the parameters of its entry point is what they are. -/
theorem Stage.describes (stage : Stage build entry milestone said (.ok next))
    (before : milestone.Describes entry) : next.Describes entry := by
  generalize ended : (Except.ok next : Except Failure Milestone) = outcome at stage
  cases stage with
  | metadata =>
      obtain ⟨parameters, read, rfl⟩ := exists_of_map_eq_ok ended
      cases known : entry.parameters with
      | error fault =>
          rw [known] at read
          cases read
      | ok found =>
          rw [known] at read
          cases read
          exact known
  | executable | strip | dependencies | base | loader | assembly | writing =>
      obtain ⟨_, -, rfl⟩ := exists_of_map_eq_ok ended
      exact before
  | noStrip | noBase =>
      cases ended
      exact before

/-- Packaging that succeeds has read the parameters of its entry point. -/
theorem Journey.parameters_eq (journey : Journey build entry milestone said (.ok packaged))
    (before : milestone.Describes entry) : entry.parameters = .ok packaged.parameters := by
  generalize ended : (Except.ok packaged : Except Failure Packaged) = result at journey
  induction journey with
  | arrived =>
      cases ended
      exact before
  | stopped => cases ended
  | onward stage _ ih => exact ih (stage.describes before) ended

private theorem answer_eq_of_written_eq {path other : Path} {content data : Bytes}
    {answer : Except FileError Unit} (same : (⟨.access (.write path content), .ok ()⟩ : Exchanged) =
      ⟨.access (.write other data), answer⟩) : answer = .ok () := by
  cases same
  rfl

/-- Packaging that fails has not written its archive. -/
theorem Journey.unwritten_of_error {failure : Failure}
    (journey : Journey build entry milestone said (.error failure)) (path : Path)
    (content : Bytes) :
    (⟨.access (.write path content), .ok ()⟩ : Exchanged) ∉ said := by
  intro written
  obtain ⟨before, parameters, archive, answer, rfl, unwritten, result⟩ :=
    journey.of_isWrite written ⟨path, content, rfl⟩
  rcases List.mem_append.mp written with earlier | last
  · exact unwritten _ earlier ⟨path, content, rfl⟩
  · obtain rfl := answer_eq_of_written_eq (List.mem_singleton.mp last)
    cases result

/-- Packaging asks for nothing but what belongs to it. -/
theorem Journey.asks_of_mem {result : Except Failure Packaged} {exchange : Exchanged}
    (journey : Journey build entry .begun said result) (member : exchange ∈ said) :
    ∃ listed, Asks build entry listed exchange.1 := by
  obtain ⟨before, after, cut⟩ := List.append_of_mem member
  have known : ∀ library ∈ Milestone.begun.libraries, Listed build entry [] library :=
    List.forall_mem_nil _
  exact ⟨_, journey.asks known cut⟩

end Build

/-- How a build environment replies that always replies alike. -/
abbrev FixedAnswers := (operation : Operation) → Reply operation.Answer

/-- An environment that lists the dependencies of executables, and panics over the C library. -/
def FixedAnswers.listing (dependencies : Path → Reply (Except Failure LibrarySet)) :
    FixedAnswers
  | .start | .stop | .strip _ => .answered (.ok ())
  | .dependencies executable => dependencies executable
  | .baseLibraries => .panicked "no package tool"

/-- The answer in a reply, or the cause of the panic that it is. -/
def Reply.toExcept {α : Type} : Reply α → Except String α
  | .answered answer => .ok answer
  | .panicked cause => .error cause

private theorem Reply.toExcept_eq_ok_iff {α : Type} {reply : Reply α} {answer : α} :
    reply.toExcept = .ok answer ↔ reply = .answered answer := by
  cases reply with
  | answered given =>
      constructor
      · intro same
        cases same
        rfl
      · intro same
        cases same
        rfl
  | panicked => exact ⟨nofun, nofun⟩

/-- How surroundings reply to packaging in which no file ever changes; there is no platform. -/
def FixedAnswers.reply (answers : FixedAnswers) (files : Files) :
    (request : Request) → Reply request.Answer
  | .access access => .answered (files.answer access).1
  | .environment operation => answers operation
  | .announce _ | .sleep _ => .answered ()
  | .clock => .answered (0 : Nat)
  | .call _ => .panicked "no platform"

namespace Build

variable {build : Build} {answers : FixedAnswers} {files : Files} {entry : EntryPoint}
  {said : List Exchanged}

/-- What packaging an entry point comes to where nothing changes, or the cause of the panic that
ends it. -/
def packagedAlone (build : Build) (answers : FixedAnswers) (files : Files) (entry : EntryPoint) :
    Except String (Except Failure Packaged) :=
  (build.package entry).run.answerWith fun request => (answers.reply files request).toExcept

/-- What packaging comes to under fixed answers is what it comes to when it is told them. -/
theorem packagedAlone_of_trace {result : Except Failure Packaged}
    (trace : Program.Trace (build.package entry).run said result)
    (replied : ∀ exchange ∈ said, answers.reply files exchange.1 = .answered exchange.2) :
    build.packagedAlone answers files entry = .ok result :=
  Program.answerWith_eq_ok_iff.mpr ⟨said, trace, fun exchange member =>
    Reply.toExcept_eq_ok_iff.mpr (replied exchange member)⟩

/-- If the fixed answer to what packaging asks is a panic, packaging ends in it. -/
theorem packagedAlone_of_reaches {request : Request}
    {resume : request.Answer → Talk (Except Failure Packaged)} {cause : String}
    (reaches : Program.Reaches (build.package entry).run said (.ask request resume))
    (replied : ∀ exchange ∈ said, answers.reply files exchange.1 = .answered exchange.2)
    (panicked : answers.reply files request = .panicked cause) :
    build.packagedAlone answers files entry = .error cause := by
  have unanswered : (answers.reply files request).toExcept = .error cause := by
    rw [panicked, Reply.toExcept]
  have answered (exchange : Exchanged) (member : exchange ∈ said) :
      (answers.reply files exchange.1).toExcept = .ok exchange.2 :=
    Reply.toExcept_eq_ok_iff.mpr (replied exchange member)
  rw [packagedAlone]
  exact reaches.answerWith_eq_error answered unanswered

/-- Something that is known of what packaging comes to tells that it succeeds. -/
theorem exists_packaged_of_map {α : Type} {f : Packaged → α} {value : α}
    (known : (build.packagedAlone answers files entry).map (Except.map f) = .ok (.ok value)) :
    ∃ packaged, build.packagedAlone answers files entry = .ok (.ok packaged) ∧
      f packaged = value := by
  obtain ⟨result, alone, same⟩ := map_eq_ok_iff.mp known
  obtain ⟨packaged, rfl, found⟩ := exists_of_map_eq_ok same.symm
  exact ⟨packaged, alone, found.symm⟩

/-- What packaging comes to alone is the end of a journey under the same answers. -/
theorem exists_journey_of_packagedAlone {result : Except Failure Packaged}
    (alone : build.packagedAlone answers files entry = .ok result) :
    ∃ said, build.Journey entry .begun said result ∧
      ∀ exchange ∈ said, answers.reply files exchange.1 = .answered exchange.2 := by
  obtain ⟨said, trace, replied⟩ := Program.answerWith_eq_ok_iff.mp alone
  exact ⟨said, trace_package_iff.mp trace, fun exchange member =>
    Reply.toExcept_eq_ok_iff.mp (replied exchange member)⟩

end Build

end FunctionBundler
