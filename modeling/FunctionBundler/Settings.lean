/-
Module: FunctionBundler.Settings
Purpose: The settings of a run, from the command line, the environment and a profile.
Trusted boundary: none
Main exports:
  Overrides, ProfileFile, Credentials, Credentials.redacted, DeploySettings, Settings,
  Settings.resolve, Settings.Fault, Settings.buildDirectory, Settings.home?, Settings.profilePath?
-/
import FunctionBundler.Deploy.Options
import FunctionBundler.Files
import FunctionBundler.Path.Extension
import FunctionBundler.Settings.Profile
import FunctionBundler.Text.Quoted

namespace FunctionBundler

/-!
A setting is taken from the first source that has it: the command line, then its
environment variable, then the selected profile, then a default.  Settings are
resolved once, in a fixed order, and the first fault is reported.  Deployment
settings exist only when a deployment was asked for.
-/

/-- What the command line sets; an absent value is left to the other sources. -/
structure Overrides where
  binary : Path
  sysroot : Option Path
  projectDirectory : Option Path
  image : Option String
  crossHelper : Option String
  withoutLibc : Bool
  arch : Option Arch
  strip : Bool
  deploy : Bool
  dryRun : Bool
  roleArn : Option String
  bucket : Option String
  region : Option String
  endpointUrl : Option String
  profile : Option String
  name : Option String
  runtime : Option String
  maxWait : Option Nat
  maxInflight : Option Nat
deriving DecidableEq

/-- The overrides of a command line that names only the binary. -/
def Overrides.ofBinary (binary : Path) : Overrides :=
  { binary, sysroot := none, projectDirectory := none, image := none, crossHelper := none
    withoutLibc := false, arch := none, strip := false, deploy := false, dryRun := false
    roleArn := none, bucket := none, region := none, endpointUrl := none, profile := none
    name := none, runtime := none, maxWait := none, maxInflight := none }

/-- An existing profile file: where it is, and what reading it gave. -/
structure ProfileFile where
  path : Path
  content : Except FileError String

/-- Credentials given in full, rather than found by the platform's own client. -/
structure Credentials where
  accessKeyId : String
  secretAccessKey : String
  sessionToken : Option String
deriving DecidableEq

/-- A text for diagnostics that does not give the secrets away. -/
def Credentials.redacted (credentials : Credentials) : String :=
  let identifier := Text.quoted credentials.accessKeyId
  let token := if credentials.sessionToken.isSome then "Some(\"<redacted>\")" else "None"
  "StaticCredentials \x7b access_key_id: " ++ identifier ++
    ", secret_access_key: \"<redacted>\", session_token: " ++ token ++ " \x7d"

/-- The settings of a deployment; the time to wait is in seconds. -/
structure DeploySettings where
  region : String
  roleArn : String
  bucket : Option String
  endpointUrl : Option String
  credentials : Option Credentials
  runtime : String
  maxWait : Nat
  maxInflight : Nat
  dryRun : Bool
deriving DecidableEq

/-- The options of each function's deployment. -/
def DeploySettings.options (settings : DeploySettings) (arch : Arch) : DeployOptions :=
  { runtime := settings.runtime
    arch
    bucket := settings.bucket
    inlineLimit := DeployOptions.standardInlineLimit
    pollInterval := DeployOptions.standardPollInterval
    maxWait := settings.maxWait * 1000
    dryRun := settings.dryRun }

/-- The settings of a run. -/
structure Settings where
  binary : Path
  manifestPath : Path
  targetName : String
  sysroot : Option Path
  projectDirectory : Path
  image : Option String
  crossHelper : Option String
  withLibc : Bool
  arch : Arch
  strip : Bool
  deploy : Option DeploySettings
deriving DecidableEq

namespace Settings

/-- Why settings cannot be resolved. -/
inductive Fault where
  | unreadable (profileFile : Path)
  | malformed (profileFile : Path)
  | unknownProfile (name : String)
  | noBinary
  | noName (binary : Path)
  | emptyProjectDirectory
  | emptySysroot
  | imageWithoutSysroot
  | archWithoutSysroot (arch host : Arch)
  | noRegion
  | noRole
deriving DecidableEq

/-- The wording of a fault. -/
def Fault.message : Fault → String
  | .unreadable profileFile => s!"Failed to read {profileFile.text}"
  | .malformed profileFile => s!"Failed to parse {profileFile.text}"
  | .unknownProfile name => "profile '" ++ name ++ "' not found"
  | .noBinary => "cannot resolve "
  | .noName binary => s!"cannot derive a function name from {binary.text}"
  | .emptyProjectDirectory => "cannot resolve project directory "
  | .emptySysroot => "cannot resolve sysroot "
  | .imageWithoutSysroot =>
    "--image requires --sysroot: libraries are read from a local copy of the image"
  | .archWithoutSysroot arch host =>
    s!"building for {arch.name} on a {host.name} host requires --sysroot"
  | .noRegion => "deploying requires a region (--region, AWS_REGION, or profile)"
  | .noRole => "deploying requires a role ARN (--role, FNPACK_ROLE_ARN, or profile)"

/-- The value of an environment variable. -/
abbrev Variables := String → Option String

/-- The profile that is used when none is named. -/
def standardProfile : String := "default"

/-- How many calls may be under way at once when nothing else is set. -/
def standardMaxInflight : Nat := 8

/-- The name of a profile, if the user gave one. -/
def profileName (overrides : Overrides) (vars : Variables) : Option String :=
  overrides.profile <|> vars "FNPACK_PROFILE"

/-- The profiles of a file that may not exist. -/
def readProfiles : Option ProfileFile → Except Fault Profiles
  | none => .ok []
  | some file =>
    match file.content with
    | .error _ => .error (.unreadable file.path)
    | .ok text =>
      match Profiles.read? text with
      | none => .error (.malformed file.path)
      | some profiles => .ok profiles

/-- The selected profile; one that the user named has to exist. -/
def selectProfile (file : Option ProfileFile) (named : Option String) : Except Fault Profile := do
  let profiles ← readProfiles file
  match profiles.lookup (named.getD standardProfile), named with
  | some profile, _ => return profile
  | none, some name => .error (.unknownProfile name)
  | none, none => return .empty

/-- The credentials, if both of their main parts are set somewhere. -/
def credentials? (vars : Variables) (profile : Profile) : Option Credentials := do
  let accessKeyId ← vars "AWS_ACCESS_KEY_ID" <|> profile.accessKeyId
  let secretAccessKey ← vars "AWS_SECRET_ACCESS_KEY" <|> profile.secretAccessKey
  return {
    accessKeyId, secretAccessKey
    sessionToken := vars "AWS_SESSION_TOKEN" <|> profile.sessionToken }

/-- A value that has to be there. -/
def require {α : Type} (fault : Fault) : Option α → Except Fault α
  | some value => .ok value
  | none => .error fault

/-- The settings of a deployment. -/
def resolveDeploy (overrides : Overrides) (vars : Variables) (profile : Profile) :
    Except Fault DeploySettings := do
  let region ← require .noRegion
    (overrides.region <|> vars "AWS_REGION" <|> vars "AWS_DEFAULT_REGION" <|>
      profile.region)
  let roleArn ← require .noRole
    (overrides.roleArn <|> vars "FNPACK_ROLE_ARN" <|> profile.roleArn)
  return {
    region, roleArn
    bucket := overrides.bucket <|> vars "FNPACK_BUCKET" <|> profile.bucket
    endpointUrl := overrides.endpointUrl <|> vars "FNPACK_ENDPOINT_URL" <|> profile.endpointUrl
    credentials := credentials? vars profile
    runtime := overrides.runtime.getD DeployOptions.standardRuntime
    maxWait := overrides.maxWait.getD DeployOptions.standardMaxWait
    maxInflight := max (overrides.maxInflight.getD standardMaxInflight) 1
    dryRun := overrides.dryRun }

/-- The absolute path of an optional directory, which may not be the empty path. -/
def resolveDirectory (working : Path) (fault : Fault) : Option Path → Except Fault (Option Path)
  | none => .ok none
  | some directory => (require fault (directory.absolute? working)).map some

/-- Where a binary lies; the root lies in itself. -/
def directoryOf (binary : Path) : Path :=
  binary.parent?.getD ⟨"/"⟩

/-- Refuse combinations that lack a copy of the target's file system. -/
def checkSysroot (host : Arch) (image : Option String) (arch : Arch) (sysroot : Option Path) :
    Except Fault Unit :=
  match image, sysroot with
  | some _, none => .error .imageWithoutSysroot
  | none, none => if arch = host then .ok () else .error (.archWithoutSysroot arch host)
  | _, some _ => .ok ()

/-- Resolve the settings of a run on a machine of an architecture and in a working directory. -/
def resolve (host : Arch) (overrides : Overrides) (vars : Variables) (working : Path)
    (profileFile : Option ProfileFile) : Except Fault Settings := do
  let profile ← selectProfile profileFile (profileName overrides vars)
  let binary ← require .noBinary (overrides.binary.absolute? working)
  let targetName ← require (.noName binary) (overrides.name <|> binary.fileStem?)
  let projectDirectory ←
    resolveDirectory working .emptyProjectDirectory overrides.projectDirectory
  let sysroot ← resolveDirectory working .emptySysroot overrides.sysroot
  let arch := overrides.arch.getD host
  checkSysroot host overrides.image arch sysroot
  let deploy ←
    if overrides.deploy then (resolveDeploy overrides vars profile).map some
    else pure none
  return {
    binary
    manifestPath := binary.withExtension "json"
    targetName
    sysroot
    projectDirectory := projectDirectory.getD (directoryOf binary)
    image := overrides.image
    crossHelper := overrides.crossHelper
    withLibc := !overrides.withoutLibc
    arch
    strip := overrides.strip
    deploy }

/-- The directory of the manifest and of the entry points' binaries. -/
def buildDirectory (settings : Settings) : Path :=
  settings.manifestPath.parent?.getD ⟨"."⟩

/-- The directory of the user's profiles: as an environment variable says, or in the user's home
directory if there is one. -/
def home? (vars : Variables) (userHome : Option Path) : Option Path :=
  match vars "FNPACK_HOME" with
  | some directory => some ⟨directory⟩
  | none => userHome.map (·.join ⟨".fnpack"⟩)

/-- The profile file of the user. -/
def profilePath? (vars : Variables) (userHome : Option Path) : Option Path :=
  (home? vars userHome).map (·.join ⟨"config.toml"⟩)

end Settings

end FunctionBundler
