/-
Module: FunctionBundler.Proofs.Settings.Credentials
Purpose: Where the parts of static credentials come from, and when they all come from one place.
Trusted boundary: none
Main exports:
  Settings.Origin, Settings.ComesFrom, Settings.Unmixed, Settings.unmixed_iff,
  Settings.exists_not_unmixed, Settings.resolve_credentials
-/
import FunctionBundler.Proofs.Settings.Precedence

namespace FunctionBundler.Settings

/-!
Credentials are put together part by part: each part comes from the environment if its
variable is set, and from the selected profile if not.  So a key of the environment can meet
a secret of the profile (`exists_not_unmixed`).  Parts of both origins are kept apart exactly
when one origin is not used at all, because the environment sets no part or sets every part
that the profile has (`unmixed_iff`).
-/

/-- Where a part of credentials can come from. -/
inductive Origin where
  | environment
  | profile
deriving DecidableEq

/-- The value of a part comes from the environment if its variable is set, and else from the
selected profile. -/
inductive ComesFrom (inputs : Inputs) (part : Part) (value : String) : Origin → Prop where
  | environment (set : inputs.vars part.variableName = some value) :
      ComesFrom inputs part value .environment
  | profile (unset : inputs.vars part.variableName = none)
      (kept : part.inProfile inputs.profile = some value) : ComesFrom inputs part value .profile

/-- All parts that credentials have come from one origin. -/
def Unmixed (inputs : Inputs) (credentials : Credentials) : Prop :=
  ∃ origin, ∀ part value, Part.value credentials part = some value →
    ComesFrom inputs part value origin

variable {host : Arch} {working : Path} {inputs : Inputs} {settings : Settings}
  {credentials : Credentials}

private theorem exists_comesFrom
    (found : credentials? inputs.vars inputs.profile = some credentials)
    {part : Part} {value : String} (has : part.value credentials = some value) :
    ∃ origin, ComesFrom inputs part value origin := by
  rw [value_of_credentials? found] at has
  cases set : inputs.vars part.variableName with
  | some text =>
      rw [set] at has
      exact ⟨.environment, .environment (set.trans has)⟩
  | none =>
      rw [set] at has
      exact ⟨.profile, .profile set has⟩

/-- A part that the environment sets is there, and comes from the environment. -/
theorem value_eq_of_set (found : credentials? inputs.vars inputs.profile = some credentials)
    {part : Part} {value : String} (set : inputs.vars part.variableName = some value) :
    part.value credentials = some value := by
  rw [value_of_credentials? found, set]
  rfl

private theorem value_eq_of_unset
    (found : credentials? inputs.vars inputs.profile = some credentials)
    {part : Part} (unset : inputs.vars part.variableName = none) :
    part.value credentials = part.inProfile inputs.profile := by
  rw [value_of_credentials? found, unset]
  rfl

/-- Credentials come from one source exactly if the variables give none of their parts or all that
the profile gives. -/
theorem unmixed_iff (found : credentials? inputs.vars inputs.profile = some credentials) :
    Unmixed inputs credentials ↔
      (∀ part : Part, inputs.vars part.variableName = none) ∨
        ∀ part : Part, (part.inProfile inputs.profile).isSome →
          (inputs.vars part.variableName).isSome := by
  constructor
  · rintro ⟨origin, comes⟩
    cases origin with
    | environment =>
        refine Or.inr fun part has => ?_
        obtain ⟨value, kept⟩ := Option.isSome_iff_exists.mp has
        cases set : inputs.vars part.variableName with
        | some text => rfl
        | none =>
            cases comes part value ((value_eq_of_unset found set).trans kept) with
            | environment isSet => cases set.symm.trans isSet
    | profile =>
        refine Or.inl fun part => ?_
        cases set : inputs.vars part.variableName with
        | none => rfl
        | some value =>
            cases comes part value (value_eq_of_set found set) with
            | profile unset => cases set.symm.trans unset
  · rintro (unset | covered)
    · refine ⟨.profile, fun part value has => .profile (unset part) ?_⟩
      rw [← value_eq_of_unset found (unset part), has]
    · refine ⟨.environment, fun part value has => .environment ?_⟩
      cases set : inputs.vars part.variableName with
      | some text => rw [← value_eq_of_set found set, has]
      | none =>
          rw [value_eq_of_unset found set] at has
          have isSet := covered part (has ▸ rfl)
          rw [set] at isSet
          cases isSet

/-- Credentials are there exactly if each of the two keys is in one of the two places. -/
theorem exists_credentials?_iff {vars : Variables} {profile : Profile} :
    (∃ credentials, credentials? vars profile = some credentials) ↔
      ∀ part : Part, part ≠ .sessionToken →
        (vars part.variableName).isSome ∨ (part.inProfile profile).isSome := by
  simp only [credentials?_eq_some_iff, ← isSome_orElse_iff]
  constructor
  · rintro ⟨credentials, identified, secret, -⟩ part isKey
    cases part with
    | accessKeyId => exact Option.isSome_iff_exists.mpr ⟨_, identified⟩
    | secretAccessKey => exact Option.isSome_iff_exists.mpr ⟨_, secret⟩
    | sessionToken => exact absurd rfl isKey
  · intro keys
    obtain ⟨accessKeyId, identified⟩ :=
      Option.isSome_iff_exists.mp (keys .accessKeyId (by decide))
    obtain ⟨secretAccessKey, secret⟩ :=
      Option.isSome_iff_exists.mp (keys .secretAccessKey (by decide))
    exact ⟨⟨accessKeyId, secretAccessKey, _⟩, identified, secret, rfl⟩

private theorem credentials_of_resolve {deploy : DeploySettings}
    (resolved : inputs.resolve host working = .ok settings) (kept : settings.deploy = some deploy) :
    deploy.credentials = credentials? inputs.vars inputs.profile := by
  have deploys := resolveAnyDeploy_of_resolve resolved
  rw [resolveAnyDeploy, kept] at deploys
  split at deploys
  case isTrue =>
      obtain ⟨there, found, ⟨⟩⟩ := map_eq_ok_iff.mp deploys
      obtain ⟨_, _, -, -, rfl⟩ := resolveDeploy_eq_ok found
      rfl
  case isFalse => cases deploys

/-- Neither the environment nor the profile has a whole pair of keys, and yet one is put together
from both. -/
theorem exists_not_unmixed :
    let overrides : Overrides :=
      { Overrides.ofBinary ⟨"/app"⟩ with
        deploy := true, region := some "here", roleArn := some "role" }
    let vars : Variables := fun name =>
      if name = "AWS_ACCESS_KEY_ID" then some "environment" else none
    let file : ProfileFile :=
      ⟨⟨"/config.toml"⟩, .ok "[profiles.default]\nsecret_access_key = 'profile'\n"⟩
    let inputs : Inputs := ⟨overrides, vars, some file⟩
    ∃ settings credentials, inputs.resolve .x86_64 ⟨"/"⟩ = .ok settings ∧
      settings.deploy.bind (·.credentials) = some credentials ∧
      credentials = ⟨"environment", "profile", none⟩ ∧ ¬ Unmixed inputs credentials := by
  intro overrides vars file inputs
  have succeeds : (inputs.resolve .x86_64 ⟨"/"⟩).isOk = true := by decide +kernel
  obtain ⟨settings, resolved⟩ := exists_eq_ok_of_isOk succeeds
  have found : (inputs.resolve .x86_64 ⟨"/"⟩).toOption.bind (fun settings =>
      settings.deploy.bind (·.credentials)) = some ⟨"environment", "profile", none⟩ := by
    decide +kernel
  rw [resolved] at found
  refine ⟨settings, _, resolved, found, rfl, ?_⟩
  rintro ⟨origin, comes⟩
  cases origin with
  | environment =>
      cases comes .secretAccessKey "profile" rfl with
      | environment set => cases set
  | profile =>
      cases comes .accessKeyId "environment" rfl with
      | profile unset => cases unset

/-- Each part of the credentials comes from the environment if it is set there and else from the
selected profile; all come from one origin exactly if the environment sets none or sets every one
that the profile has. -/
theorem resolve_credentials {deploy : DeploySettings}
    (resolved : inputs.resolve host working = .ok settings) (kept : settings.deploy = some deploy) :
    (deploy.credentials.isSome ↔ ∀ part : Part, part ≠ .sessionToken →
      (inputs.vars part.variableName).isSome ∨ (part.inProfile inputs.profile).isSome) ∧
    ∀ credentials, deploy.credentials = some credentials →
      (∀ part value, Part.value credentials part = some value →
        ∃ origin, ComesFrom inputs part value origin) ∧
      (Unmixed inputs credentials ↔
        (∀ part : Part, inputs.vars part.variableName = none) ∨
          ∀ part : Part, (part.inProfile inputs.profile).isSome →
            (inputs.vars part.variableName).isSome) := by
  rw [credentials_of_resolve resolved kept, Option.isSome_iff_exists]
  exact ⟨exists_credentials?_iff, fun credentials found =>
    ⟨fun part value => exists_comesFrom found, unmixed_iff found⟩⟩

/-- Keys of the environment keep a stale pair of the profile out. -/
theorem resolve_credentials_environment :
    let overrides : Overrides :=
      { Overrides.ofBinary ⟨"/app"⟩ with
        deploy := true, region := some "here", roleArn := some "role" }
    let vars : Variables := fun name =>
      if name = "AWS_ACCESS_KEY_ID" then some "new" else
      if name = "AWS_SECRET_ACCESS_KEY" then some "fresh" else none
    let file : ProfileFile :=
      ⟨⟨"/config.toml"⟩,
        .ok "[profiles.default]\naccess_key_id = 'old'\nsecret_access_key = 'stale'\n"⟩
    let inputs : Inputs := ⟨overrides, vars, some file⟩
    ∃ settings deploy credentials, inputs.resolve .x86_64 ⟨"/"⟩ = .ok settings ∧
      settings.deploy = some deploy ∧ deploy.credentials = some credentials ∧
      Unmixed inputs credentials := by
  intro overrides vars file inputs
  have succeeds : (inputs.resolve .x86_64 ⟨"/"⟩).isOk = true := by decide +kernel
  obtain ⟨settings, resolved⟩ := exists_eq_ok_of_isOk succeeds
  obtain ⟨deploy, kept, -⟩ := exists_deploy_of_resolve resolved rfl
  have profile : inputs.profile = { Profile.empty with
      accessKeyId := some "old", secretAccessKey := some "stale" } := by decide +kernel
  obtain ⟨present, whole⟩ := resolve_credentials resolved kept
  obtain ⟨credentials, found⟩ := Option.isSome_iff_exists.mp (present.mpr fun part isKey => by
    cases part with
    | accessKeyId => exact .inl rfl
    | secretAccessKey => exact .inl rfl
    | sessionToken => exact absurd rfl isKey)
  refine ⟨settings, deploy, credentials, resolved, kept, found,
    (whole credentials found).2.mpr (.inr fun part has => ?_)⟩
  rw [profile] at has
  cases part with
  | accessKeyId => rfl
  | secretAccessKey => rfl
  | sessionToken => cases has

end FunctionBundler.Settings
