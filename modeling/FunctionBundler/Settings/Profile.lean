/-
Module: FunctionBundler.Settings.Profile
Purpose: Profiles: named defaults of deployment settings, kept in a file of the user.
Trusted boundary: none
Main exports:
  Profile, Profile.ofItem?, Profiles, Profiles.read?
-/
import FunctionBundler.Toml

namespace FunctionBundler

/-!
The profile file is a TOML document with a table `profiles`, one table for each
profile.  A profile holds texts under known keys, and any other key in it is
refused; a list of texts in the order of the keys is taken as well.  One profile
that is not well formed makes the whole file unreadable, whichever is selected.
-/

/-- Defaults of deployment settings. -/
structure Profile where
  region : Option String
  accessKeyId : Option String
  secretAccessKey : Option String
  sessionToken : Option String
  roleArn : Option String
  bucket : Option String
  endpointUrl : Option String
deriving Repr, DecidableEq

namespace Profile

/-- The profile that sets nothing. -/
def empty : Profile := ⟨none, none, none, none, none, none, none⟩

instance : Inhabited Profile := ⟨empty⟩

/-- The keys of a profile, in the order in which a list gives their values. -/
def keys : List String :=
  ["region", "access_key_id", "secret_access_key", "session_token", "role_arn", "bucket",
    "endpoint_url"]

/-- A profile with one more value set, if the key is known and the value is a text. -/
def set? (profile : Profile) (key : String) (item : Toml.Item) : Option Profile :=
  match item with
  | .text value =>
    match key with
    | "region" => some { profile with region := some value }
    | "access_key_id" => some { profile with accessKeyId := some value }
    | "secret_access_key" => some { profile with secretAccessKey := some value }
    | "session_token" => some { profile with sessionToken := some value }
    | "role_arn" => some { profile with roleArn := some value }
    | "bucket" => some { profile with bucket := some value }
    | "endpoint_url" => some { profile with endpointUrl := some value }
    | _ => none
  | _ => none

/-- The profile with the given entries. -/
def ofEntries? (entries : Toml.Entries) : Option Profile :=
  entries.foldlM (fun profile entry => profile.set? entry.1 entry.2) empty

/-- The profile that an item of a document describes. -/
def ofItem? : Toml.Item → Option Profile
  | .table _ entries => ofEntries? entries
  | .list items => ofEntries? (keys.zip items)
  | _ => none

end Profile

/-- The profiles of a file, by name. -/
abbrev Profiles := List (String × Profile)

/-- The profiles of a file's text. -/
def Profiles.read? (text : String) : Option Profiles := do
  let document ← Toml.read? text
  match document.lookup "profiles" with
  | none => some []
  | some (.table _ entries) =>
    entries.mapM fun (name, item) => return (name, ← Profile.ofItem? item)
  | some _ => none

end FunctionBundler
