/-
Module: FunctionBundler.Proofs.Settings.Precedence
Purpose: Which source each setting is taken from, and what settings do not depend on.
Trusted boundary: none
Main exports:
  Settings.Source, Settings.First, Settings.DifferBelow, Settings.Inputs, Settings.Setting,
  Settings.Ranked, Settings.SelectAlike, Settings.resolve_precedence
-/
import FunctionBundler.Proofs.Settings.Acceptance

namespace FunctionBundler.Settings

/-!
Each setting has the same four kinds of sources in the same order: the override, its
environment variables, the selected profile, the default.  `First` scans a ranking of
sources and stops at the first that gives something, so it never sees what is ranked lower;
from this alone it follows that lower sources cannot change a setting (`First.eq_of_differBelow`).
Credentials are kept in parts, and each part is scanned for by itself.
-/

/-! ### Sources in the order of their rank -/

/-- Where a setting can come from. -/
inductive Source where
  | override
  | variable (name : String)
  | profile
  | default
deriving DecidableEq

variable {α : Type}

/-- What the first source of a ranking gives that gives anything. -/
inductive First (given : Source → Option α) : List Source → Option α → Prop where
  | taken {source : Source} {lower : List Source} {value : α}
      (gives : given source = some value) : First given (source :: lower) (some value)
  | passed {source : Source} {lower : List Source} {result : Option α}
      (silent : given source = none) (later : First given lower result) :
      First given (source :: lower) result
  | missing : First given [] none

section First

variable {given : Source → Option α} {lower : List Source}

private theorem First.orElse {source : Source} {first rest : Option α}
    (gives : given source = first)
    (later : First given lower rest) : First given (source :: lower) (first <|> rest) := by
  cases first with
  | none => exact .passed gives later
  | some value => exact .taken gives

/-- A sole source gives what it has. -/
theorem First.single {source : Source} {result : Option α} (gives : given source = result) :
    First given [source] result := by
  cases result with
  | none => exact .passed gives .missing
  | some value => exact .taken gives

/-- A source without a default below it. -/
theorem First.last {source : Source} {result : Option α} (gives : given source = result)
    (silent : given .default = none) : First given [source, .default] result := by
  cases result with
  | none => exact .passed gives (.single silent)
  | some value => exact .taken gives

/-- Where a first source gives nothing, the standard is given. -/
theorem First.getD {source : Source} {first : Option α} {standard : α}
    (gives : given source = first) (later : First given lower (some standard)) :
    First given (source :: lower) (some (first.getD standard)) := by
  cases first with
  | none => exact .passed gives later
  | some value => exact .taken gives

/-- Two readings of a ranking differ at most below a source that gives something. -/
def DifferBelow (one other : Source → Option α) (ranking : List Source) : Prop :=
  ∃ above source below, ranking = above ++ source :: below ∧ (one source).isSome ∧
    ∀ higher ∈ above ++ [source], one higher = other higher

/-- What is ranked below a source that gives something is never looked at. -/
theorem First.eq_of_differBelow {one other : Source → Option α} {ranking : List Source}
    {result otherwise : Option α} (differ : DifferBelow one other ranking)
    (first : First one ranking result) (second : First other ranking otherwise) :
    result = otherwise := by
  obtain ⟨above, source, below, rfl, gives, same⟩ := differ
  induction above with
  | nil =>
      have agrees := same source (by simp)
      cases first with
      | passed silent => rw [silent] at gives; cases gives
      | taken found =>
          cases second with
          | passed silent => rw [agrees, silent] at gives; cases gives
          | taken again => rw [← found, agrees, again]
  | cons higher above ih =>
      have agrees := same higher (by simp)
      have rest : ∀ higher ∈ above ++ [source], one higher = other higher :=
        fun higher member => same higher (List.mem_cons_of_mem _ member)
      cases first with
      | taken found =>
          cases second with
          | taken again => rw [← found, agrees, again]
          | passed silent => cases found.symm.trans (agrees.trans silent)
      | passed silent later =>
          cases second with
          | taken again => cases again.symm.trans (agrees.symm.trans silent)
          | passed _ others => exact ih later others rest

end First

/-! ### What settings are resolved from -/

/-- What settings are resolved from, besides the machine and the working directory. -/
structure Inputs where
  overrides : Overrides
  vars : Variables
  file : Option ProfileFile

/-- The settings, or why there are none. -/
def Inputs.resolve (inputs : Inputs) (host : Arch) (working : Path) : Except Fault Settings :=
  Settings.resolve host inputs.overrides inputs.vars working inputs.file

/-- The profile that is selected among those of the file. -/
def Inputs.profile (inputs : Inputs) : Profile :=
  profileOf ((readProfiles inputs.file).toOption.getD [])
    (profileName inputs.overrides inputs.vars)

/-- The environment variables that settings are documented to depend on; one more says where the
profile file lies. -/
def documentedVariables : List String :=
  ["FNPACK_PROFILE", "AWS_REGION", "AWS_DEFAULT_REGION", "AWS_ACCESS_KEY_ID",
    "AWS_SECRET_ACCESS_KEY", "AWS_SESSION_TOKEN", "FNPACK_ROLE_ARN", "FNPACK_BUCKET",
    "FNPACK_ENDPOINT_URL"]

private theorem Inputs.profile_eq {inputs : Inputs} {profile : Profile}
    (selected : selectProfile inputs.file (profileName inputs.overrides inputs.vars) =
      .ok profile) : inputs.profile = profile := by
  obtain ⟨profiles, read, -, rfl⟩ := selectProfile_eq_ok_iff.mp selected
  rw [Inputs.profile, read]
  rfl

/-! ### Settings and their sources -/

/-- The settings that more than one source can give, by the type of their values. -/
inductive Setting : Type → Type where
  | region : Setting String
  | roleArn : Setting String
  | bucket : Setting String
  | endpointUrl : Setting String
  | runtime : Setting String
  | maxWait : Setting Nat
  | maxInflight : Setting Nat
  | targetName : Setting String
  | projectDirectory : Setting Path
  | arch : Setting Arch

namespace Setting

/-- The environment variables of a setting; one that comes first hides the others. -/
def variableNames : Setting α → List String
  | .region => ["AWS_REGION", "AWS_DEFAULT_REGION"]
  | .roleArn => ["FNPACK_ROLE_ARN"]
  | .bucket => ["FNPACK_BUCKET"]
  | .endpointUrl => ["FNPACK_ENDPOINT_URL"]
  | _ => []

/-- The sources of a setting, the highest first. -/
def ranking (setting : Setting α) : List Source :=
  .override :: (setting.variableNames.map .variable ++ [.profile, .default])

/-- What the command line gives. -/
def overridden (overrides : Overrides) (working : Path) : Setting α → Option α
  | .region => overrides.region
  | .roleArn => overrides.roleArn
  | .bucket => overrides.bucket
  | .endpointUrl => overrides.endpointUrl
  | .runtime => overrides.runtime
  | .maxWait => overrides.maxWait
  | .maxInflight => overrides.maxInflight.map (max · 1)
  | .targetName => overrides.name
  | .projectDirectory => overrides.projectDirectory.bind (·.absolute? working)
  | .arch => overrides.arch

/-- What a text of the environment gives, if the setting is a text that has variables. -/
def ofText (text : Option String) : Setting α → Option α
  | .region => text
  | .roleArn => text
  | .bucket => text
  | .endpointUrl => text
  | _ => none

/-- What a profile gives. -/
def inProfile (profile : Profile) : Setting α → Option α
  | .region => profile.region
  | .roleArn => profile.roleArn
  | .bucket => profile.bucket
  | .endpointUrl => profile.endpointUrl
  | _ => none

/-- What is taken if nothing else is given; some settings follow the binary or the machine. -/
def standard (host : Arch) (binary : Path) (working : Path) : Setting α → Option α
  | .runtime => some DeployOptions.standardRuntime
  | .maxWait => some DeployOptions.standardMaxWait
  | .maxInflight => some standardMaxInflight
  | .targetName => (binary.absolute? working).bind Path.fileStem?
  | .projectDirectory => (binary.absolute? working).map directoryOf
  | .arch => some host
  | _ => none

/-- What each source gives. -/
def given (setting : Setting α) (host : Arch) (working : Path) (inputs : Inputs) : Source → Option α
  | .override => setting.overridden inputs.overrides working
  | .variable name => setting.ofText (inputs.vars name)
  | .profile => setting.inProfile inputs.profile
  | .default => setting.standard host inputs.overrides.binary working

/-- The value that was settled on. -/
def value (settings : Settings) : Setting α → Option α
  | .region => settings.deploy.map (·.region)
  | .roleArn => settings.deploy.map (·.roleArn)
  | .bucket => settings.deploy.bind (·.bucket)
  | .endpointUrl => settings.deploy.bind (·.endpointUrl)
  | .runtime => settings.deploy.map (·.runtime)
  | .maxWait => settings.deploy.map (·.maxWait)
  | .maxInflight => settings.deploy.map (·.maxInflight)
  | .targetName => some settings.targetName
  | .projectDirectory => some settings.projectDirectory
  | .arch => some settings.arch

end Setting

/-- The parts of credentials. -/
inductive Part where
  | accessKeyId
  | secretAccessKey
  | sessionToken
deriving DecidableEq

namespace Part

/-- The environment variable of a part. -/
def variableName : Part → String
  | .accessKeyId => "AWS_ACCESS_KEY_ID"
  | .secretAccessKey => "AWS_SECRET_ACCESS_KEY"
  | .sessionToken => "AWS_SESSION_TOKEN"

/-- A part in a profile. -/
def inProfile (profile : Profile) : Part → Option String
  | .accessKeyId => profile.accessKeyId
  | .secretAccessKey => profile.secretAccessKey
  | .sessionToken => profile.sessionToken

/-- A part of credentials; only a session token can be missing. -/
def value (credentials : Credentials) : Part → Option String
  | .accessKeyId => some credentials.accessKeyId
  | .secretAccessKey => some credentials.secretAccessKey
  | .sessionToken => credentials.sessionToken

/-- The sources of a part, the higher first. -/
def ranking (part : Part) : List Source :=
  [.variable part.variableName, .profile]

/-- What each source gives. -/
def given (part : Part) (inputs : Inputs) : Source → Option String
  | .variable name => inputs.vars name
  | .profile => part.inProfile inputs.profile
  | _ => none

end Part

/-! ### Each setting is the first that is given -/

section Resolved

variable {host : Arch} {working : Path} {inputs : Inputs} {settings : Settings}

/-- The settings of a deployment are taken from the first source that gives them. -/
theorem resolveDeploy_eq_ok {overrides : Overrides} {vars : Variables} {profile : Profile}
    {deploy : DeploySettings} (resolved : resolveDeploy overrides vars profile = .ok deploy) :
    ∃ region roleArn,
      (overrides.region <|> vars "AWS_REGION" <|> vars "AWS_DEFAULT_REGION" <|>
        profile.region) = some region ∧
      (overrides.roleArn <|> vars "FNPACK_ROLE_ARN" <|> profile.roleArn) = some roleArn ∧
      deploy =
        { region, roleArn
          bucket := overrides.bucket <|> vars "FNPACK_BUCKET" <|> profile.bucket
          endpointUrl :=
            overrides.endpointUrl <|> vars "FNPACK_ENDPOINT_URL" <|> profile.endpointUrl
          credentials := credentials? vars profile
          runtime := overrides.runtime.getD DeployOptions.standardRuntime
          maxWait := overrides.maxWait.getD DeployOptions.standardMaxWait
          maxInflight := max (overrides.maxInflight.getD standardMaxInflight) 1
          dryRun := overrides.dryRun } := by
  simp only [resolveDeploy, bind_eq_ok_iff, require_eq_ok_iff] at resolved
  obtain ⟨region, regional, roleArn, allowed, ⟨⟩⟩ := resolved
  exact ⟨region, roleArn, regional, allowed, rfl⟩

/-- The deployment of resolved settings was resolved from the same inputs. -/
theorem resolveAnyDeploy_of_resolve (resolved : inputs.resolve host working = .ok settings) :
    resolveAnyDeploy inputs.overrides inputs.vars inputs.profile = .ok settings.deploy := by
  obtain ⟨profile, _, _, _, _, deploy, selected, -, -, -, -, -, deploys, rfl⟩ :=
    resolve_eq_ok_iff.mp resolved
  rw [Inputs.profile_eq selected, deploys, ofParts]

/-- The deployment settings of settings that were resolved for a deployment. -/
theorem exists_deploy_of_resolve (resolved : inputs.resolve host working = .ok settings)
    (asked : inputs.overrides.deploy = true) :
    ∃ deploy, settings.deploy = some deploy ∧
      resolveDeploy inputs.overrides inputs.vars inputs.profile = .ok deploy := by
  have deploys := resolveAnyDeploy_of_resolve resolved
  rw [resolveAnyDeploy, if_pos asked, map_eq_ok_iff] at deploys
  obtain ⟨deploy, found, kept⟩ := deploys
  exact ⟨deploy, kept.symm, found⟩

private theorem bind_absolute?_of_resolveDirectory {fault : Fault} {given result : Option Path}
    (resolved : resolveDirectory working fault given = .ok result) :
    given.bind (·.absolute? working) = result := by
  cases given with
  | none =>
      cases resolved
      rfl
  | some directory =>
      obtain ⟨whole, absolute, rfl⟩ := resolveDirectory_some_iff.mp resolved
      exact absolute

/-- Each part of the credentials is taken from the first source that gives it. -/
theorem credentials?_eq_some_iff {vars : Variables} {profile : Profile}
    {credentials : Credentials} :
    credentials? vars profile = some credentials ↔
      (vars "AWS_ACCESS_KEY_ID" <|> profile.accessKeyId) = some credentials.accessKeyId ∧
      (vars "AWS_SECRET_ACCESS_KEY" <|> profile.secretAccessKey) =
        some credentials.secretAccessKey ∧
      credentials.sessionToken = (vars "AWS_SESSION_TOKEN" <|> profile.sessionToken) := by
  simp only [credentials?, Option.bind_eq_bind, Option.bind_eq_some_iff]
  constructor
  · rintro ⟨_, identified, _, secret, ⟨⟩⟩
    exact ⟨identified, secret, rfl⟩
  · rintro ⟨identified, secret, token⟩
    exact ⟨_, identified, _, secret, by rw [← token]; rfl⟩

/-- Each part of credentials that were found is looked for by itself. -/
theorem value_of_credentials? {vars : Variables} {profile : Profile} {credentials : Credentials}
    (found : credentials? vars profile = some credentials) (part : Part) :
    part.value credentials = (vars part.variableName <|> part.inProfile profile) := by
  obtain ⟨identified, secret, token⟩ := credentials?_eq_some_iff.mp found
  cases part with
  | accessKeyId => exact identified.symm
  | secretAccessKey => exact secret.symm
  | sessionToken => exact token

/-- Settings for a deployment of which each is what the first of its sources gives, and so is each
part of the credentials if there are any. -/
structure Ranked (host : Arch) (working : Path) (inputs : Inputs) (settings : Settings) : Prop where
  deploy : settings.deploy.isSome
  setting : ∀ {α : Type} (setting : Setting α),
    First (setting.given host working inputs) setting.ranking (setting.value settings)
  part : ∀ credentials, settings.deploy.bind (·.credentials) = some credentials →
    ∀ part : Part, First (part.given inputs) part.ranking (part.value credentials)

private theorem first_of_resolve (resolved : inputs.resolve host working = .ok settings)
    (asked : inputs.overrides.deploy = true) (setting : Setting α) :
    First (setting.given host working inputs) setting.ranking (setting.value settings) := by
  obtain ⟨deploy, kept, deploys⟩ := exists_deploy_of_resolve resolved asked
  obtain ⟨_, binary, name, project, _, _, -, absolute, named, directory, -, -, -, rfl⟩ :=
    resolve_eq_ok_iff.mp resolved
  obtain ⟨region, roleArn, regional, allowed, rfl⟩ := resolveDeploy_eq_ok deploys
  cases kept
  cases setting with
  | region =>
      change First _ _ (some region)
      rw [← regional]
      exact .orElse rfl (.orElse rfl (.orElse rfl (.last rfl rfl)))
  | roleArn =>
      change First _ _ (some roleArn)
      rw [← allowed]
      exact .orElse rfl (.orElse rfl (.last rfl rfl))
  | bucket => exact .orElse rfl (.orElse rfl (.last rfl rfl))
  | endpointUrl => exact .orElse rfl (.orElse rfl (.last rfl rfl))
  | runtime => exact .getD rfl (.passed rfl (.taken rfl))
  | maxWait => exact .getD rfl (.passed rfl (.taken rfl))
  | maxInflight =>
      -- The bound by one is put on what is taken, and the default is above it.
      change First _ _ (some (max (inputs.overrides.maxInflight.getD standardMaxInflight) 1))
      cases allows : inputs.overrides.maxInflight with
      | some count => exact .taken (congrArg (Option.map (max · 1)) allows)
      | none => exact .passed (congrArg (Option.map (max · 1)) allows) (.passed rfl (.taken rfl))
  | targetName =>
      change First _ _ (some name)
      rw [← named]
      exact .orElse rfl (.passed rfl (.single (congrArg (·.bind Path.fileStem?) absolute)))
  | projectDirectory =>
      have placed := bind_absolute?_of_resolveDirectory directory
      exact .getD placed (.passed rfl (.taken (congrArg (·.map directoryOf) absolute)))
  | arch => exact .getD rfl (.passed rfl (.taken rfl))

private theorem ranked_of_resolve (resolved : inputs.resolve host working = .ok settings)
    (asked : inputs.overrides.deploy = true) : Ranked host working inputs settings := by
  obtain ⟨deploy, kept, deploys⟩ := exists_deploy_of_resolve resolved asked
  refine ⟨kept ▸ rfl, first_of_resolve resolved asked, fun credentials found part => ?_⟩
  obtain ⟨_, _, -, -, rfl⟩ := resolveDeploy_eq_ok deploys
  rw [kept] at found
  rw [value_of_credentials? found]
  exact .orElse rfl (.single rfl)

end Resolved

/-! ### What settings do not depend on -/

/-- The settings of a run that deploys nothing. -/
def resolveLocally (host : Arch) (overrides : Overrides) (working : Path) :
    Except Fault Settings := do
  let binary ← require .noBinary (overrides.binary.absolute? working)
  let targetName ← require (.noName binary) (overrides.name <|> binary.fileStem?)
  let projectDirectory ←
    resolveDirectory working .emptyProjectDirectory overrides.projectDirectory
  let sysroot ← resolveDirectory working .emptySysroot overrides.sysroot
  checkSysroot host overrides.image (overrides.arch.getD host) sysroot
  return ofParts host overrides binary targetName projectDirectory sysroot none

/-- Between the profile and the deployment, neither of them is looked at. -/
theorem resolve_eq_locally (host : Arch) (overrides : Overrides) (vars : Variables) (working : Path)
    (file : Option ProfileFile) :
    resolve host overrides vars working file = do
      let profile ← selectProfile file (profileName overrides vars)
      let settings ← resolveLocally host overrides working
      let deploy ← resolveAnyDeploy overrides vars profile
      return { settings with deploy } := by
  rw [resolve_eq]
  simp only [resolveLocally, bind_assoc, pure_bind, ofParts]

section Pairs

variable {host : Arch} {working : Path} {one other : Inputs}

/-- Nothing but the settings of a deployment is taken from the environment or a profile. -/
theorem eq_of_resolve_of_overrides {settings others : Settings}
    (overrides : one.overrides = other.overrides)
    (resolved : one.resolve host working = .ok settings)
    (otherwise : other.resolve host working = .ok others) :
    { settings with deploy := none } = { others with deploy := none } := by
  rw [Inputs.resolve, resolve_eq_locally, overrides] at resolved
  rw [Inputs.resolve, resolve_eq_locally] at otherwise
  simp only [bind_eq_ok_iff] at resolved otherwise
  obtain ⟨_, -, locally, found, _, -, ⟨⟩⟩ := resolved
  obtain ⟨_, -, again, same, _, -, ⟨⟩⟩ := otherwise
  cases found.symm.trans same
  rfl

private theorem profilePath?_congr {vars others : Variables}
    (same : vars "FNPACK_HOME" = others "FNPACK_HOME") (home : Option Path) :
    profilePath? vars home = profilePath? others home := by
  rw [profilePath?, home?, same]
  rfl

private theorem resolveDeploy_congr {vars others : Variables}
    (same : ∀ name ∈ documentedVariables, vars name = others name) (overrides : Overrides)
    (profile : Profile) :
    resolveDeploy overrides vars profile = resolveDeploy overrides others profile := by
  simp only [documentedVariables, List.forall_mem_cons] at same
  obtain ⟨-, region, standardRegion, identifier, secret, token, role, bucket, endpoint, -⟩ := same
  simp only [resolveDeploy, credentials?, region, standardRegion, identifier, secret, token, role,
    bucket, endpoint]

/-- Only the documented variables are looked at. -/
theorem resolve_congr (overrides : one.overrides = other.overrides) (file : one.file = other.file)
    (same : ∀ name ∈ documentedVariables, one.vars name = other.vars name) :
    one.resolve host working = other.resolve host working := by
  have named : profileName other.overrides one.vars = profileName other.overrides other.vars := by
    rw [profileName, same "FNPACK_PROFILE" (by simp [documentedVariables]), profileName]
  have deploys (profile : Profile) : resolveAnyDeploy other.overrides one.vars profile =
      resolveAnyDeploy other.overrides other.vars profile := by
    rw [resolveAnyDeploy, resolveDeploy_congr same, resolveAnyDeploy]
  simp only [Inputs.resolve, resolve_eq_locally, overrides, file, named, deploys]

/-- Two profile files that are alike to who selects by a name and does not look into the profile:
one and the same file, or two with profiles of which both have, or both lack, the named one. -/
inductive SelectAlike (named : Option String) : Option ProfileFile → Option ProfileFile → Prop where
  | refl (file : Option ProfileFile) : SelectAlike named file file
  | contents {one other : Option ProfileFile} {profiles others : Profiles}
      (reads : readProfiles one = .ok profiles) (readsOther : readProfiles other = .ok others)
      (there : ∀ name, named = some name →
        (profiles.lookup name).isSome = (others.lookup name).isSome) :
      SelectAlike named one other

private theorem map_selectProfile_of_there {file : Option ProfileFile} {profiles : Profiles}
    {named : Option String} (reads : readProfiles file = .ok profiles)
    (there : ∀ name, named = some name → (profiles.lookup name).isSome) :
    (selectProfile file named).map (fun _ => ()) = .ok () := by
  rw [selectProfile_eq_ok_iff.mpr ⟨profiles, reads, there, rfl⟩]
  rfl

private theorem selectProfile_of_lacks {file : Option ProfileFile} {profiles : Profiles}
    {name : String}
    (reads : readProfiles file = .ok profiles) (lacks : profiles.lookup name = none) :
    selectProfile file (some name) = .error (.unknownProfile name) := by
  simp only [selectProfile, reads, Option.getD_some, bind, Except.bind, lacks]

/-- Whether a profile can be selected depends on the names of the profiles only. -/
theorem SelectAlike.map_selectProfile {named : Option String} {one other : Option ProfileFile}
    (alike : SelectAlike named one other) :
    (selectProfile one named).map (fun _ => ()) =
      (selectProfile other named).map (fun _ => ()) := by
  cases alike with
  | refl => rfl
  | @contents _ profiles others reads readsOther there =>
      by_cases found : ∀ name, named = some name → (profiles.lookup name).isSome
      · have again : ∀ name, named = some name → (others.lookup name).isSome :=
          fun name given => there name given ▸ found name given
        rw [map_selectProfile_of_there reads found, map_selectProfile_of_there readsOther again]
      · obtain ⟨name, lacking⟩ := Classical.not_forall.mp found
        obtain ⟨rfl, lacks⟩ := Classical.not_imp.mp lacking
        have also : ¬ (others.lookup name).isSome := there name rfl ▸ lacks
        rw [selectProfile_of_lacks reads (Option.not_isSome_iff_eq_none.mp lacks),
          selectProfile_of_lacks readsOther (Option.not_isSome_iff_eq_none.mp also)]

/-- Without a deployment, a profile is selected and then not looked at. -/
theorem resolve_of_not_deploy {overrides : Overrides} (unasked : overrides.deploy = false)
    (vars : Variables) (file : Option ProfileFile) :
    resolve host overrides vars working file =
      (selectProfile file (profileName overrides vars)).map (fun _ => ()) >>= fun _ =>
        resolveLocally host overrides working := by
  have deploys (profile : Profile) : resolveAnyDeploy overrides vars profile = .ok none := by
    rw [resolveAnyDeploy, if_neg (by rw [unasked]; decide)]
    rfl
  rw [resolve_eq]
  simp only [deploys]
  cases selectProfile file (profileName overrides vars) with
  | error fault => rfl
  | ok profile => rfl

private theorem resolve_alike (overrides : one.overrides = other.overrides)
    (unasked : one.overrides.deploy = false)
    (variable_eq : one.vars "FNPACK_PROFILE" = other.vars "FNPACK_PROFILE")
    (alike : SelectAlike (profileName one.overrides one.vars) one.file other.file) :
    one.resolve host working = other.resolve host working := by
  have named : profileName other.overrides other.vars = profileName one.overrides one.vars := by
    rw [profileName, ← variable_eq, ← overrides, profileName]
  rw [Inputs.resolve, Inputs.resolve, resolve_of_not_deploy unasked,
    resolve_of_not_deploy (overrides ▸ unasked), named, alike.map_selectProfile, overrides]

end Pairs

/-! ### Precedence -/

/-- Nothing that is ranked below a source that gives a setting, or a part of the credentials, can
sway it. -/
structure Unswayed (host : Arch) (working : Path) (one other : Inputs)
    (settings others : Settings) : Prop where
  setting : ∀ {α : Type} (setting : Setting α),
    DifferBelow (setting.given host working one) (setting.given host working other)
        setting.ranking →
      setting.value settings = setting.value others
  part : ∀ credentials otherwise, settings.deploy.bind (·.credentials) = some credentials →
    others.deploy.bind (·.credentials) = some otherwise → ∀ part : Part,
      DifferBelow (part.given one) (part.given other) part.ranking →
        part.value credentials = part.value otherwise

private theorem Ranked.unswayed {host : Arch} {working : Path} {one other : Inputs}
    {settings others : Settings} (first : Ranked host working one settings)
    (second : Ranked host working other others) :
    Unswayed host working one other settings others where
  setting setting differ := First.eq_of_differBelow differ (first.setting setting)
    (second.setting setting)
  part _ _ found again part differ := First.eq_of_differBelow differ (first.part _ found part)
    (second.part _ again part)

/-- Settings for a deployment are each taken from the first source that gives one, and lower
sources cannot sway them; the other settings depend on the overrides alone.  No variable but the
documented ones is looked at, and without a deployment only the one that names the profile,
whatever that profile holds. -/
theorem resolve_precedence (host : Arch) (working : Path) (one other : Inputs) :
    (∀ settings, one.resolve host working = .ok settings → one.overrides.deploy = true →
      Ranked host working one settings) ∧
    (∀ settings others, one.resolve host working = .ok settings →
      other.resolve host working = .ok others →
      (one.overrides.deploy = true → other.overrides.deploy = true →
        Unswayed host working one other settings others) ∧
      (one.overrides = other.overrides →
        { settings with deploy := none } = { others with deploy := none })) ∧
    (one.overrides = other.overrides → one.file = other.file →
      (∀ name ∈ documentedVariables, one.vars name = other.vars name) →
      one.resolve host working = other.resolve host working) ∧
    (one.vars "FNPACK_HOME" = other.vars "FNPACK_HOME" →
      ∀ home, profilePath? one.vars home = profilePath? other.vars home) ∧
    (one.overrides = other.overrides → one.overrides.deploy = false →
      one.vars "FNPACK_PROFILE" = other.vars "FNPACK_PROFILE" →
      SelectAlike (profileName one.overrides one.vars) one.file other.file →
      one.resolve host working = other.resolve host working) := by
  refine ⟨fun settings => ranked_of_resolve, fun settings others resolved again => ⟨?_, ?_⟩,
    resolve_congr, profilePath?_congr, resolve_alike⟩
  · intro asked alsoAsked
    exact (ranked_of_resolve resolved asked).unswayed (ranked_of_resolve again alsoAsked)
  · intro overrides
    exact eq_of_resolve_of_overrides overrides resolved again

/-- A region of the command line hides those of the environment and of the profile. -/
theorem resolve_precedence_region :
    let overrides : Overrides :=
      { Overrides.ofBinary ⟨"/app"⟩ with deploy := true, region := some "here" }
    let vars : Variables := fun name =>
      if name = "AWS_REGION" then some "there" else
      if name = "FNPACK_ROLE_ARN" then some "role" else none
    let file : ProfileFile := ⟨⟨"/config.toml"⟩, .ok "[profiles.default]\nregion = 'elsewhere'\n"⟩
    let one : Inputs := ⟨overrides, vars, some file⟩
    let other : Inputs := ⟨overrides, fun name => if name = "AWS_REGION" then none else vars name,
      none⟩
    let noisy : Inputs := { one with vars := fun name => if name = "HOME" then none else vars name }
    let quiet : Inputs := { one with overrides := { overrides with deploy := false } }
    let silent : Inputs := { quiet with vars := fun _ => none, file := none }
    (∃ settings others, one.resolve .arm64 ⟨"/"⟩ = .ok settings ∧
      other.resolve .arm64 ⟨"/"⟩ = .ok others ∧
      Ranked .arm64 ⟨"/"⟩ one settings ∧
      Setting.region.value settings = Setting.region.value others ∧
      { settings with deploy := none } = { others with deploy := none }) ∧
    one.resolve .arm64 ⟨"/"⟩ = noisy.resolve .arm64 ⟨"/"⟩ ∧
    profilePath? one.vars none = profilePath? noisy.vars none ∧
    quiet.resolve .arm64 ⟨"/"⟩ = silent.resolve .arm64 ⟨"/"⟩ := by
  intro overrides vars file one other noisy quiet silent
  obtain ⟨ranked, pairs, -⟩ := resolve_precedence .arm64 ⟨"/"⟩ one other
  obtain ⟨-, -, documented, placed, -⟩ := resolve_precedence .arm64 ⟨"/"⟩ one noisy
  obtain ⟨-, -, -, -, undeployed⟩ := resolve_precedence .arm64 ⟨"/"⟩ quiet silent
  have succeeds : (one.resolve .arm64 ⟨"/"⟩).isOk = true := by decide +kernel
  have succeedsAgain : (other.resolve .arm64 ⟨"/"⟩).isOk = true := by decide +kernel
  obtain ⟨settings, resolved⟩ := exists_eq_ok_of_isOk succeeds
  obtain ⟨others, again⟩ := exists_eq_ok_of_isOk succeedsAgain
  obtain ⟨unswayed, same⟩ := pairs settings others resolved again
  have reads : readProfiles (some file) =
      .ok [("default", { Profile.empty with region := some "elsewhere" })] := by rfl
  refine ⟨⟨settings, others, resolved, again, ranked settings resolved rfl, ?_, same rfl⟩, ?_,
    placed rfl none, undeployed rfl rfl rfl (.contents reads rfl nofun)⟩
  · exact (unswayed rfl rfl).setting .region ⟨[], .override, _, rfl, rfl, fun higher member => by
      rw [List.mem_singleton.mp member]
      rfl⟩
  · exact documented rfl rfl (by decide)

end FunctionBundler.Settings
