/-
Module: FunctionBundler.Proofs.Settings.Acceptance
Purpose: Which settings are accepted, and that accepted settings are safe to use.
Trusted boundary: none
Main exports:
  Files.HasProfiles, Settings.Consistent, Settings.Safe, Settings.resolve_eq_ok_iff,
  Settings.exists_resolve_iff, Settings.safe_of_resolve
-/
import FunctionBundler.CommandLine
import FunctionBundler.Proofs.Fallible
import FunctionBundler.Proofs.Path.Parent
import FunctionBundler.Proofs.Program.Trace

namespace FunctionBundler

/-!
Settings are resolved in a fixed order, but what is accepted does not depend on it: each
part either can be resolved or cannot, whatever the others are.  `Consistent` lists what
the parts need, read off the overrides, the variables and the profiles alone.  Settings
that were accepted have only absolute directories, so the empty path, which stands for a
missing sysroot when an environment is selected, never gets into one.
-/

/-! ### The profile file -/

/-- The profiles of a user whose profile file has a path or not: without the file there are none,
and a file has to be readable and well formed. -/
inductive Files.HasProfiles (files : Files) : Option Path → Profiles → Prop where
  | unset : Files.HasProfiles files none []
  | missing {path : Path} (absent : files.exists path = false) :
      Files.HasProfiles files (some path) []
  | parsed {path : Path} {text : String} {profiles : Profiles}
      (present : files.exists path = true) (content : files.readText path = .ok text)
      (parses : Profiles.read? text = some profiles) :
      Files.HasProfiles files (some path) profiles

/-- What a file system answers when a run is prepared; it knows nothing of environments. -/
def Files.answerQuery (files : Files) : (query : CommandLine.Query) → Option query.Answer
  | .access wanted => some (files.answer wanted).1
  | .environment _ => none

private theorem Settings.readProfiles_some_iff {file : ProfileFile} {profiles : Profiles} :
    readProfiles (some file) = .ok profiles ↔
      ∃ text, file.content = .ok text ∧ Profiles.read? text = some profiles := by
  rw [readProfiles]
  cases file.content with
  | error fault => exact ⟨nofun, nofun⟩
  | ok text =>
      dsimp only
      constructor
      · intro read
        split at read
        case h_1 => cases read
        case h_2 parses =>
            cases read
            exact ⟨text, rfl, parses⟩
      · rintro ⟨_, ⟨⟩, parses⟩
        rw [parses]

/-- The profile file is looked for and read once, and gives the profiles if there are any. -/
theorem CommandLine.exists_profileFile (files : Files) (path : Option Path) :
    ∃ file, (profileFile path).answerWith files.answerQuery = some file ∧
      ∀ profiles, Settings.readProfiles file = .ok profiles ↔ files.HasProfiles path profiles := by
  cases path with
  | none =>
      refine ⟨none, rfl, fun profiles => ⟨fun read => ?_, fun given => ?_⟩⟩
      · cases read
        exact .unset
      · cases given
        rfl
  | some path =>
      have asks : (profileFile (some path)).answerWith files.answerQuery =
          (if files.exists path = true then
            (do return some ⟨path, (← askFiles (.read path)).bind Files.textOf⟩)
          else return none : Inquiry (Option ProfileFile)).answerWith files.answerQuery := rfl
      rw [asks]
      split
      case isTrue present =>
          refine ⟨some ⟨path, files.readText path⟩, rfl, fun profiles => ?_⟩
          rw [Settings.readProfiles_some_iff]
          constructor
          · rintro ⟨text, content, parses⟩
            exact .parsed present content parses
          · intro given
            cases given with
            | missing absent => cases present.symm.trans absent
            | parsed _ content parses => exact ⟨_, content, parses⟩
      case isFalse absent =>
          refine ⟨none, rfl, fun profiles => ⟨fun read => ?_, fun given => ?_⟩⟩
          · cases read
            exact .missing (Bool.eq_false_iff.mpr absent)
          · cases given with
            | missing => rfl
            | parsed present => exact absurd present absent

namespace Settings

variable {host : Arch} {overrides : Overrides} {vars : Variables} {working : Path}
  {settings : Settings}

/-! ### Parts of settings -/

/-- What is required has to be given. -/
theorem require_eq_ok_iff {α : Type} {fault : Fault} {given : Option α} {value : α} :
    require fault given = .ok value ↔ given = some value := by
  cases given with
  | none => exact ⟨nofun, nofun⟩
  | some other => rw [require, Except.ok.injEq, Option.some.injEq]

/-- The settings that are put together from their parts. -/
def ofParts (host : Arch) (overrides : Overrides) (binary : Path) (targetName : String)
    (projectDirectory sysroot : Option Path) (deploy : Option DeploySettings) : Settings :=
  { binary
    manifestPath := binary.withExtension "json"
    targetName
    sysroot
    projectDirectory := projectDirectory.getD (directoryOf binary)
    image := overrides.image
    crossHelper := overrides.crossHelper
    withLibc := !overrides.withoutLibc
    arch := overrides.arch.getD host
    strip := overrides.strip
    deploy }

/-- The settings of a deployment, if one was asked for. -/
def resolveAnyDeploy (overrides : Overrides) (vars : Variables) (profile : Profile) :
    Except Fault (Option DeploySettings) :=
  if overrides.deploy then (resolveDeploy overrides vars profile).map some else pure none

/-- Each part is resolved by itself, and then they are put together. -/
theorem resolve_eq (host : Arch) (overrides : Overrides) (vars : Variables) (working : Path)
    (file : Option ProfileFile) :
    resolve host overrides vars working file = do
      let profile ← selectProfile file (profileName overrides vars)
      let binary ← require .noBinary (overrides.binary.absolute? working)
      let targetName ← require (.noName binary) (overrides.name <|> binary.fileStem?)
      let projectDirectory ←
        resolveDirectory working .emptyProjectDirectory overrides.projectDirectory
      let sysroot ← resolveDirectory working .emptySysroot overrides.sysroot
      checkSysroot host overrides.image (overrides.arch.getD host) sysroot
      let deploy ← resolveAnyDeploy overrides vars profile
      return ofParts host overrides binary targetName projectDirectory sysroot deploy := by
  unfold resolve resolveAnyDeploy
  cases overrides.deploy <;> rfl

/-- Settings resolve exactly if all of their parts do, and they are made of these. -/
theorem resolve_eq_ok_iff {file : Option ProfileFile} :
    resolve host overrides vars working file = .ok settings ↔
      ∃ profile binary targetName projectDirectory sysroot deploy,
        selectProfile file (profileName overrides vars) = .ok profile ∧
        overrides.binary.absolute? working = some binary ∧
        (overrides.name <|> binary.fileStem?) = some targetName ∧
        resolveDirectory working .emptyProjectDirectory overrides.projectDirectory =
          .ok projectDirectory ∧
        resolveDirectory working .emptySysroot overrides.sysroot = .ok sysroot ∧
        checkSysroot host overrides.image (overrides.arch.getD host) sysroot = .ok () ∧
        resolveAnyDeploy overrides vars profile = .ok deploy ∧
        settings = ofParts host overrides binary targetName projectDirectory sysroot deploy := by
  rw [resolve_eq]
  simp only [bind_eq_ok_iff, require_eq_ok_iff]
  constructor
  · rintro ⟨profile, selected, binary, absolute, name, named, project, directory, sysroot, copy,
      ⟨⟩, checked, deploy, deploys, ⟨⟩⟩
    exact ⟨profile, binary, name, project, sysroot, deploy, selected, absolute, named, directory,
      copy, checked, deploys, rfl⟩
  · rintro ⟨profile, binary, name, project, sysroot, deploy, selected, absolute, named, directory,
      copy, checked, deploys, rfl⟩
    exact ⟨profile, selected, binary, absolute, name, named, project, directory, sysroot, copy,
      (), checked, deploy, deploys, rfl⟩

/-- The profile of a name, or the standard one, which need not be there. -/
def profileOf (profiles : Profiles) (named : Option String) : Profile :=
  (profiles.lookup (named.getD standardProfile)).getD .empty

/-- A profile is selected if the file can be read and has the one that is named. -/
theorem selectProfile_eq_ok_iff {file : Option ProfileFile} {named : Option String}
    {profile : Profile} :
    selectProfile file named = .ok profile ↔
      ∃ profiles, readProfiles file = .ok profiles ∧
        (∀ name, named = some name → (profiles.lookup name).isSome) ∧
        profile = profileOf profiles named := by
  rw [selectProfile, bind_eq_ok_iff]
  refine exists_congr fun profiles => and_congr_right fun _ => ?_
  have ends (value : Profile) (there : ∀ name, named = some name → (profiles.lookup name).isSome) :
      (.ok value : Except Fault Profile) = .ok profile ↔
        (∀ name, named = some name → (profiles.lookup name).isSome) ∧ profile = value := by
    rw [Except.ok.injEq]
    exact ⟨fun same => ⟨there, same.symm⟩, fun both => both.2.symm⟩
  rw [profileOf]
  cases found : profiles.lookup (named.getD standardProfile) with
  | some value =>
      apply ends
      rintro name rfl
      exact Option.isSome_iff_exists.mpr ⟨value, found⟩
  | none =>
      cases named with
      | none => exact ends _ nofun
      | some name =>
          rw [Option.getD_some] at found
          refine iff_of_false nofun fun both => ?_
          have there := both.1 name rfl
          rw [found] at there
          cases there

/-- A directory that is given is made absolute. -/
theorem resolveDirectory_some_iff {fault : Fault} {directory : Path} {result : Option Path} :
    resolveDirectory working fault (some directory) = .ok result ↔
      ∃ whole, directory.absolute? working = some whole ∧ result = some whole := by
  rw [resolveDirectory]
  cases directory.absolute? working with
  | none => exact ⟨nofun, nofun⟩
  | some whole =>
      constructor
      · intro same
        cases same
        exact ⟨whole, rfl, rfl⟩
      · rintro ⟨_, ⟨⟩, rfl⟩
        rfl

/-- A directory can be resolved unless it is given as the empty path. -/
theorem exists_resolveDirectory_iff {fault : Fault} {given : Option Path} :
    (∃ result, resolveDirectory working fault given = .ok result) ↔
      ∀ directory, given = some directory → directory.text ≠ "" := by
  cases given with
  | none => exact iff_of_true ⟨none, rfl⟩ nofun
  | some directory =>
      simp only [resolveDirectory_some_iff]
      constructor
      · rintro ⟨_, whole, absolute, -⟩ _ ⟨⟩ empty
        cases absolute.symm.trans (Path.absolute?_eq_none_iff.mpr empty)
      · intro nonempty
        have means : directory.absolute? working ≠ none :=
          fun none => nonempty directory rfl (Path.absolute?_eq_none_iff.mp none)
        obtain ⟨whole, absolute⟩ := Option.ne_none_iff_exists'.mp means
        exact ⟨some whole, whole, absolute, rfl⟩

private theorem isSome_of_resolveDirectory {fault : Fault} {given result : Option Path}
    (resolved : resolveDirectory working fault given = .ok result) :
    result.isSome = given.isSome := by
  cases given with
  | none =>
      cases resolved
      rfl
  | some directory =>
      obtain ⟨whole, -, rfl⟩ := resolveDirectory_some_iff.mp resolved
      rfl

private theorem checkSysroot_eq_ok_iff {host : Arch} {image : Option String} {arch : Arch}
    {sysroot : Option Path} :
    checkSysroot host image arch sysroot = .ok () ↔
      (image.isSome → sysroot.isSome) ∧ (image = none → arch ≠ host → sysroot.isSome) := by
  cases sysroot with
  | some directory => cases image <;> exact iff_of_true rfl ⟨fun _ => rfl, fun _ _ => rfl⟩
  | none =>
      cases image with
      | some image => exact iff_of_false nofun fun both => nomatch both.1 rfl
      | none =>
          rw [checkSysroot]
          split
          case isTrue same => exact iff_of_true rfl ⟨nofun, fun _ differs => absurd same differs⟩
          case isFalse differs => exact iff_of_false nofun fun both => nomatch both.2 rfl differs

/-- One of two is there exactly if either is. -/
theorem isSome_orElse_iff {α : Type} {first second : Option α} :
    (first <|> second).isSome ↔ first.isSome ∨ second.isSome := by
  cases first with
  | none => exact (or_iff_right Bool.false_ne_true).symm
  | some value => exact iff_of_true rfl (Or.inl rfl)

/-- A deployment can be resolved if some source has a region and some source has a role. -/
theorem exists_resolveDeploy_iff {profile : Profile} :
    (∃ deploy, resolveDeploy overrides vars profile = .ok deploy) ↔
      (overrides.region <|> vars "AWS_REGION" <|> vars "AWS_DEFAULT_REGION" <|>
        profile.region).isSome ∧
      (overrides.roleArn <|> vars "FNPACK_ROLE_ARN" <|> profile.roleArn).isSome := by
  rw [Option.isSome_iff_exists, Option.isSome_iff_exists]
  simp only [resolveDeploy, bind_eq_ok_iff, require_eq_ok_iff]
  constructor
  · rintro ⟨deploy, region, regional, role, allowed, -⟩
    exact ⟨⟨region, regional⟩, role, allowed⟩
  · rintro ⟨⟨region, regional⟩, role, allowed⟩
    exact ⟨_, region, regional, role, allowed, rfl⟩

private theorem exists_resolveAnyDeploy_iff {profile : Profile} :
    (∃ deploy, resolveAnyDeploy overrides vars profile = .ok deploy) ↔
      (overrides.deploy = true → ∃ deploy, resolveDeploy overrides vars profile = .ok deploy) := by
  rw [resolveAnyDeploy]
  split
  case isTrue asked =>
      rw [forall_prop_of_true asked]
      cases resolveDeploy overrides vars profile with
      | error fault => exact ⟨nofun, nofun⟩
      | ok deploy => exact iff_of_true ⟨some deploy, rfl⟩ ⟨deploy, rfl⟩
  case isFalse unasked => exact iff_of_true ⟨none, rfl⟩ fun asked => absurd asked unasked

/-! ### What is accepted -/

/-- What the overrides need of each other, of the variables and of the profiles. -/
structure Consistent (host : Arch) (overrides : Overrides) (vars : Variables) (working : Path)
    (profiles : Profiles) : Prop where
  profile : ∀ name, profileName overrides vars = some name → (profiles.lookup name).isSome
  binary : overrides.binary.text ≠ ""
  -- The stem is that of the absolute path: a binary `.` is called like the working directory.
  name : overrides.name.isSome ∨
    ((overrides.binary.absolute? working).bind Path.fileStem?).isSome
  projectDirectory : ∀ directory, overrides.projectDirectory = some directory →
    directory.text ≠ ""
  sysroot : ∀ directory, overrides.sysroot = some directory → directory.text ≠ ""
  image : overrides.image.isSome → overrides.sysroot.isSome
  arch : ∀ arch, overrides.arch = some arch → arch ≠ host → overrides.image = none →
    overrides.sysroot.isSome
  region : overrides.deploy = true → overrides.region.isSome ∨ (vars "AWS_REGION").isSome ∨
    (vars "AWS_DEFAULT_REGION").isSome ∨
      (profileOf profiles (profileName overrides vars)).region.isSome
  role : overrides.deploy = true → overrides.roleArn.isSome ∨ (vars "FNPACK_ROLE_ARN").isSome ∨
    (profileOf profiles (profileName overrides vars)).roleArn.isSome

/-- Only a given architecture can differ from that of the host. -/
theorem forall_arch_iff {host : Arch} {given : Option Arch} {p : Prop} :
    (given.getD host ≠ host → p) ↔ ∀ arch, given = some arch → arch ≠ host → p := by
  cases given with
  | none => exact iff_of_true (absurd rfl) nofun
  | some arch =>
      exact ⟨fun needs _ same => Option.some.inj same ▸ needs, fun needs => needs arch rfl⟩

private theorem checkSysroot_iff_of_resolveDirectory {fault : Fault} {sysroot : Option Path}
    (resolved : resolveDirectory working fault overrides.sysroot = .ok sysroot) :
    checkSysroot host overrides.image (overrides.arch.getD host) sysroot = .ok () ↔
      (overrides.image.isSome → overrides.sysroot.isSome) ∧
        ∀ arch, overrides.arch = some arch → arch ≠ host → overrides.image = none →
          overrides.sysroot.isSome := by
  rw [checkSysroot_eq_ok_iff, isSome_of_resolveDirectory resolved, ← forall_arch_iff]
  exact and_congr_right fun _ => ⟨fun needs differs none => needs none differs,
    fun needs none differs => needs differs none⟩

/-- Settings are resolved from what is consistent, and from nothing else. -/
theorem exists_resolve_iff {file : Option ProfileFile} :
    (∃ settings, resolve host overrides vars working file = .ok settings) ↔
      ∃ profiles, readProfiles file = .ok profiles ∧
        Consistent host overrides vars working profiles := by
  simp only [resolve_eq_ok_iff]
  constructor
  · rintro ⟨_, profile, binary, name, project, sysroot, deploy, selected, absolute, named,
      directory, copy, checked, deploys, -⟩
    obtain ⟨profiles, read, there, rfl⟩ := selectProfile_eq_ok_iff.mp selected
    obtain ⟨image, arch⟩ := (checkSysroot_iff_of_resolveDirectory copy).mp checked
    have deployable := exists_resolveAnyDeploy_iff.mp ⟨deploy, deploys⟩
    refine ⟨profiles, read, ?_⟩
    exact {
      profile := there
      binary := fun empty => by
        cases absolute.symm.trans (Path.absolute?_eq_none_iff.mpr empty)
      name := by
        rw [absolute]
        exact isSome_orElse_iff.mp (Option.isSome_iff_exists.mpr ⟨name, named⟩)
      projectDirectory := exists_resolveDirectory_iff.mp ⟨project, directory⟩
      sysroot := exists_resolveDirectory_iff.mp ⟨sysroot, copy⟩
      image
      arch
      region := fun asked => by
        have regional := (exists_resolveDeploy_iff.mp (deployable asked)).1
        simpa only [isSome_orElse_iff] using regional
      role := fun asked => by
        have allowed := (exists_resolveDeploy_iff.mp (deployable asked)).2
        simpa only [isSome_orElse_iff] using allowed }
  · rintro ⟨profiles, read, consistent⟩
    have means : overrides.binary.absolute? working ≠ none :=
      fun none => consistent.binary (Path.absolute?_eq_none_iff.mp none)
    obtain ⟨binary, absolute⟩ := Option.ne_none_iff_exists'.mp means
    have called := consistent.name
    rw [absolute] at called
    obtain ⟨name, named⟩ := Option.isSome_iff_exists.mp (isSome_orElse_iff.mpr called)
    obtain ⟨project, directory⟩ := exists_resolveDirectory_iff.mpr consistent.projectDirectory
    obtain ⟨sysroot, copy⟩ := exists_resolveDirectory_iff.mpr consistent.sysroot
    have checked :=
      (checkSysroot_iff_of_resolveDirectory copy).mpr ⟨consistent.image, consistent.arch⟩
    have selected :=
      selectProfile_eq_ok_iff.mpr ⟨profiles, read, consistent.profile, rfl⟩
    obtain ⟨deploy, deploys⟩ := exists_resolveAnyDeploy_iff.mpr fun asked => by
      apply exists_resolveDeploy_iff.mpr
      simpa only [isSome_orElse_iff] using
        And.intro (consistent.region asked) (consistent.role asked)
    exact ⟨_, _, binary, name, project, sysroot, deploy, selected, absolute, named, directory,
      copy, checked, deploys, rfl⟩

end Settings

/-! ### The environment that is selected -/

namespace Environment

/-- What is asked to select an environment for settings, and what comes of it. -/
inductive Selects (host : Arch) (settings : Settings) (socket : Path) :
    List (Program.Exchange Query Query.Answer) → Except Failure Environment → Prop where
  | container {image : String} (given : settings.image = some image) :
      Selects host settings socket [⟨.present socket, true⟩] (.ok (.container
        { image
          project := settings.projectDirectory
          sysroot := settings.sysroot.getD ⟨""⟩
          held := none }))
  | refused {image : String} (given : settings.image = some image) :
      Selects host settings socket [⟨.present socket, false⟩]
        (.error (.command "docker connect" s!"Socket not found: {socket.text}"))
  | cross (ungiven : settings.image = none) (differs : settings.arch ≠ host) :
      Selects host settings socket []
        (.ok (forArch settings.arch (settings.sysroot.getD ⟨""⟩) settings.crossHelper))
  | native {said : List (Program.Exchange Query Query.Answer)} (ungiven : settings.image = none)
      (same : settings.arch = host) (packages : Option PackageTool) :
      Selects host settings socket said (.ok (.native packages))

private theorem selects_of_trace {host : Arch} {settings : Settings} {socket : Path}
    {said : List (Program.Exchange Query Query.Answer)} {result : Except Failure Environment}
    (trace : Program.Trace (select host settings socket) said result) :
    Selects host settings socket said result := by
  rw [select] at trace
  split at trace
  case h_1 image given =>
      obtain ⟨present, later, rfl, rest⟩ := Program.trace_query_bind_iff.mp trace
      cases present with
      | true =>
          obtain ⟨rfl, rfl⟩ := Program.trace_done_iff.mp rest
          exact .container given
      | false =>
          obtain ⟨rfl, rfl⟩ := Program.trace_done_iff.mp rest
          exact .refused given
  case h_2 ungiven =>
      split at trace
      case isTrue same =>
          obtain ⟨before, packages, after, rfl, -, rest⟩ := Program.trace_bind_iff.mp trace
          obtain ⟨rfl, rfl⟩ := Program.trace_done_iff.mp rest
          exact .native ungiven same packages
      case isFalse differs =>
          obtain ⟨rfl, rfl⟩ := Program.trace_done_iff.mp trace
          exact .cross ungiven differs

end Environment

/-! ### What was accepted -/

namespace Settings

variable {host : Arch} {overrides : Overrides} {vars : Variables} {working : Path}
  {settings : Settings}

/-- An environment is of the kind that the overrides ask for, and where it reads libraries from a
copy of another file system, that is the sysroot. -/
structure Suits (host : Arch) (overrides : Overrides) (settings : Settings)
    (environment : Environment) : Prop where
  container : environment.kind = "container" ↔ overrides.image.isSome
  cross : environment.kind = "cross" ↔
    overrides.image = none ∧ overrides.arch.getD host ≠ host
  native : environment.kind = "native" ↔
    overrides.image = none ∧ overrides.arch.getD host = host
  libraryRoot : environment.kind ≠ "native" → ∃ sysroot, settings.sysroot = some sysroot ∧
    environment.libraryRoot = some sysroot ∧ sysroot.isAbsolute = true

/-- Settings with which a run can work. -/
structure Safe (host : Arch) (overrides : Overrides) (settings : Settings) : Prop where
  binary : settings.binary.isAbsolute = true
  projectDirectory : settings.projectDirectory.isAbsolute = true
  sysroot : ∀ directory, settings.sysroot = some directory → directory.isAbsolute = true
  buildDirectory : ∀ name, settings.binary.fileName? = some name →
    settings.binary.parent? = some settings.buildDirectory ∧
      (overrides.projectDirectory = none →
        settings.projectDirectory = settings.buildDirectory)
  environment : ∀ socket said environment,
    Program.Trace (Environment.select host settings socket) said (.ok environment) →
      Suits host overrides settings environment
  refusal : ∀ socket said failure,
    Program.Trace (Environment.select host settings socket) said (.error failure) →
      overrides.image.isSome ∧ said = [⟨.present socket, false⟩]

private theorem isAbsolute_of_resolveDirectory {fault : Fault} {given result : Option Path}
    (absolute : working.isAbsolute = true)
    (resolved : resolveDirectory working fault given = .ok result) :
    ∀ directory, result = some directory → directory.isAbsolute = true := by
  rintro directory rfl
  cases given with
  | none => cases resolved
  | some path =>
      obtain ⟨whole, found, ⟨⟩⟩ := resolveDirectory_some_iff.mp resolved
      exact Path.isAbsolute_absolute? absolute found

private theorem isAbsolute_directoryOf {binary : Path} (absolute : binary.isAbsolute = true) :
    (directoryOf binary).isAbsolute = true := by
  rw [directoryOf]
  cases found : binary.parent? with
  | none => rfl
  | some directory => exact Path.isAbsolute_parent? absolute found

/-- The manifest lies beside the binary. -/
theorem parent?_eq_buildDirectory {binary : Path} {name : String}
    (manifest : settings.manifestPath = binary.withExtension "json")
    (named : binary.fileName? = some name) :
    binary.parent? = some settings.buildDirectory := by
  obtain ⟨directory, found⟩ := Path.exists_parent?_of_fileName? named
  have beside := Path.parent?_withExtension named (by decide : '/' ∉ "json".toList) (by decide)
  rw [buildDirectory, manifest, beside, found, Option.getD_some]

/-- A sysroot is there whenever an environment is selected that needs one. -/
theorem suits_of_selects {socket : Path}
    {said : List (Program.Exchange Environment.Query Environment.Query.Answer)}
    {environment : Environment} (image : settings.image = overrides.image)
    (arch : settings.arch = overrides.arch.getD host)
    (checked : checkSysroot host settings.image settings.arch settings.sysroot = .ok ())
    (absolute : ∀ directory, settings.sysroot = some directory → directory.isAbsolute = true)
    (selects : Environment.Selects host settings socket said (.ok environment)) :
    Suits host overrides settings environment := by
  obtain ⟨withImage, withArch⟩ := checkSysroot_eq_ok_iff.mp checked
  rw [image] at withImage withArch
  rw [arch] at withArch
  obtain ⟨notCross, notNative, differ⟩ :
      "container" ≠ "cross" ∧ "container" ≠ "native" ∧ "cross" ≠ "native" := by decide
  cases selects with
  | container given =>
      rw [image] at given
      obtain ⟨sysroot, copy⟩ := Option.isSome_iff_exists.mp (withImage (given ▸ rfl))
      rw [copy]
      exact {
        container := iff_of_true rfl (given ▸ rfl)
        cross := iff_of_false notCross fun both => nomatch given.symm.trans both.1
        native := iff_of_false notNative fun both => nomatch given.symm.trans both.1
        libraryRoot := fun _ => ⟨sysroot, copy, rfl, absolute sysroot copy⟩ }
  | cross ungiven differs =>
      rw [image] at ungiven
      rw [arch] at differs
      obtain ⟨sysroot, copy⟩ := Option.isSome_iff_exists.mp (withArch ungiven differs)
      rw [copy]
      exact {
        container := iff_of_false notCross.symm (ungiven ▸ Bool.false_ne_true)
        cross := iff_of_true rfl ⟨ungiven, differs⟩
        native := iff_of_false differ fun both => differs both.2
        libraryRoot := fun _ => ⟨sysroot, copy, rfl, absolute sysroot copy⟩ }
  | native ungiven same packages =>
      rw [image] at ungiven
      rw [arch] at same
      exact {
        container := iff_of_false notNative.symm (ungiven ▸ Bool.false_ne_true)
        cross := iff_of_false differ.symm fun both => both.2 same
        native := iff_of_true rfl ⟨ungiven, same⟩
        libraryRoot := fun other => absurd rfl other }

/-- Settings that are resolved in an absolute working directory are safe. -/
theorem safe_of_resolve {file : Option ProfileFile} (absolute : working.isAbsolute = true)
    (resolved : resolve host overrides vars working file = .ok settings) :
    Safe host overrides settings := by
  obtain ⟨profile, binary, name, project, sysroot, deploy, -, found, -, directory, copy, checked,
    -, rfl⟩ := resolve_eq_ok_iff.mp resolved
  have whole := Path.isAbsolute_absolute? absolute found
  have copied := isAbsolute_of_resolveDirectory absolute copy
  have manifest : (ofParts host overrides binary name project sysroot deploy).manifestPath =
      binary.withExtension "json" := by rw [ofParts]
  refine ⟨whole, ?_, copied, fun name named => ?_, fun socket said environment trace => ?_,
    fun socket said failure trace => ?_⟩
  · change (project.getD (directoryOf binary)).isAbsolute = true
    cases project with
    | none => exact isAbsolute_directoryOf whole
    | some given => exact isAbsolute_of_resolveDirectory absolute directory given rfl
  · have beside := parent?_eq_buildDirectory manifest named
    refine ⟨beside, fun ungiven => ?_⟩
    rw [ungiven] at directory
    cases directory
    change directoryOf binary = _
    rw [directoryOf, beside, Option.getD_some]
  · exact suits_of_selects rfl rfl checked copied (Environment.selects_of_trace trace)
  · cases Environment.selects_of_trace trace with
    | refused given => exact ⟨Option.isSome_iff_exists.mpr ⟨_, given⟩, rfl⟩

/-- Whatever the overrides, the variables and the profile file are, settings are accepted exactly
when they are consistent, and are safe when they are accepted. -/
theorem resolve_consistent_and_safe (host : Arch) (overrides : Overrides) (vars : Variables)
    (files : Files) (path : Option Path) {working : Path} (absolute : working.isAbsolute = true) :
    ∃ file, (CommandLine.profileFile path).answerWith files.answerQuery = some file ∧
      ((∃ settings, resolve host overrides vars working file = .ok settings) ↔
        ∃ profiles, files.HasProfiles path profiles ∧
          Consistent host overrides vars working profiles) ∧
      ∀ settings, resolve host overrides vars working file = .ok settings →
        Safe host overrides settings := by
  obtain ⟨file, answered, holds⟩ := CommandLine.exists_profileFile files path
  refine ⟨file, answered, ?_, fun settings => safe_of_resolve absolute⟩
  rw [exists_resolve_iff]
  exact exists_congr fun profiles => and_congr_left fun _ => holds profiles

/-- A binary in the working directory is deployed from an image with the user's profile, on a
machine of another architecture. -/
theorem resolve_consistent_and_safe_image :
    let overrides : Overrides :=
      { Overrides.ofBinary ⟨"out/app.bin/"⟩ with
        sysroot := some ⟨"root"⟩, image := some "image", arch := some .x86_64, deploy := true
        profile := some "main" }
    let text := "[profiles.main]\nregion = 'here'\nrole_arn = 'role'\n"
    let files : Files := ⟨[], [(["config.toml"], .file (Bytes.ofText text))]⟩
    (⟨"/work"⟩ : Path).isAbsolute = true ∧
      ∃ file settings,
        (CommandLine.profileFile (some ⟨"/config.toml"⟩)).answerWith files.answerQuery = some file ∧
        resolve .arm64 overrides (fun _ => none) ⟨"/work"⟩ file = .ok settings ∧
        Safe .arm64 overrides settings := by
  intro overrides text files
  obtain ⟨file, answered, accepted, safe⟩ := resolve_consistent_and_safe .arm64 overrides
    (fun _ => none) files (some ⟨"/config.toml"⟩) (by decide : (⟨"/work"⟩ : Path).isAbsolute = true)
  let profile : Profile := { Profile.empty with region := some "here", roleArn := some "role" }
  have read : files.read ⟨"/config.toml"⟩ = .ok (Bytes.ofText text) := rfl
  have content : files.readText ⟨"/config.toml"⟩ = .ok text := by
    rw [Files.readText, read]
    change Files.textOf (Bytes.ofText text) = _
    rw [Files.textOf, Bytes.text?_ofText]
  have profiles : files.HasProfiles (some ⟨"/config.toml"⟩) [("main", profile)] :=
    .parsed (by decide +kernel) content (by decide +kernel)
  have consistent : Consistent .arm64 overrides (fun _ => none) ⟨"/work"⟩ [("main", profile)] :=
    { profile := fun _ named => Option.some.inj named ▸ rfl
      binary := by decide
      name := by decide +kernel
      projectDirectory := nofun
      sysroot := fun _ given => Option.some.inj given ▸ by decide
      image := fun _ => rfl
      arch := fun _ _ _ ungiven => nomatch ungiven
      region := fun _ => by decide
      role := fun _ => by decide }
  obtain ⟨settings, resolved⟩ := accepted.mpr ⟨_, profiles, consistent⟩
  exact ⟨by decide, file, settings, answered, resolved, safe settings resolved⟩

end Settings

end FunctionBundler
