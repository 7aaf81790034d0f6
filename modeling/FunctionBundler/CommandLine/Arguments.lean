/-
Module: FunctionBundler.CommandLine.Arguments
Purpose: Reading the arguments of the command line.
Trusted boundary: the library that reads command lines is assumed to take arguments as here
Main exports:
  Aside, Invocation, Draft, Draft.take, Invocation.ofArguments
-/
import FunctionBundler.Settings

namespace FunctionBundler

/-!
Arguments are taken one after the other, and the first that is wrong, or that asks
for help or the version, decides.  An option may be given once.  A value follows
its option as the next argument or after `=`; as the next argument it may not look
like an option itself.  After `--` everything is the input.
-/

/-- What a command line comes to that asks for no run. -/
inductive Aside where
  | help
  | version
  | misuse
deriving DecidableEq

/-- What a command line asks for. -/
inductive Invocation where
  | run (overrides : Overrides) (verbose : Bool)
  | aside (aside : Aside)

/-- What an option does to the overrides: a switch changes them by itself, another by its value, if
that is well formed. -/
inductive CommandOption where
  | switch (set : Overrides → Overrides)
  | valued (set : String → Overrides → Option Overrides)

namespace CommandOption

/-- An option whose value is any text. -/
def text (set : String → Overrides → Overrides) : CommandOption :=
  .valued fun value overrides => some (set value overrides)

/-- An option whose value is a path, which may not be empty. -/
def path (set : Path → Overrides → Overrides) : CommandOption :=
  .valued fun value overrides => if value = "" then none else some (set ⟨value⟩ overrides)

/-- The number that decimal digits write, with a plus sign or without, if it is below 2⁶⁴. -/
def number? (value : String) : Option Nat :=
  let digits := match value.toList with
    | '+' :: rest => rest
    | all => all
  if digits ≠ [] ∧ digits.all Char.isDigit then
    let number := digits.foldl (fun number digit => number * 10 + (digit.toNat - 48)) 0
    if number < Nat.pow 2 64 then some number else none
  else none

/-- An option whose value is a number. -/
def number (set : Nat → Overrides → Overrides) : CommandOption :=
  .valued fun value overrides => (number? value).map (set · overrides)

/-- An option whose value is an architecture. -/
def arch (set : Arch → Overrides → Overrides) : CommandOption :=
  .valued fun value overrides => (Arch.ofText? value).map (set · overrides)

/-- The long options, by name. -/
def all : List (String × CommandOption) :=
  [("sysroot", path fun value o => { o with sysroot := some value }),
   ("project", path fun value o => { o with projectDirectory := some value }),
   ("image", text fun value o => { o with image := some value }),
   ("cross-ldd", text fun value o => { o with crossHelper := some value }),
   ("no-libc", switch fun o => { o with withoutLibc := true }),
   ("arch", arch fun value o => { o with arch := some value }),
   ("strip", switch fun o => { o with strip := true }),
   ("deploy", switch fun o => { o with deploy := true }),
   ("dry-run", switch fun o => { o with dryRun := true }),
   ("role", text fun value o => { o with roleArn := some value }),
   ("bucket", text fun value o => { o with bucket := some value }),
   ("region", text fun value o => { o with region := some value }),
   ("endpoint-url", text fun value o => { o with endpointUrl := some value }),
   ("profile", text fun value o => { o with profile := some value }),
   ("name", text fun value o => { o with name := some value }),
   ("runtime", text fun value o => { o with runtime := some value }),
   ("max-wait", number fun value o => { o with maxWait := some value }),
   ("max-inflight", number fun value o => { o with maxInflight := some value }),
   ("verbose", switch id)]

end CommandOption

/-- What has been read of a command line: the options so far and their effect, the input, the option
whose value comes next, and whether `--` has been seen. -/
structure Draft where
  overrides : Overrides
  seen : List String
  hasInput : Bool
  awaiting : Option (String × (String → Overrides → Option Overrides))
  literal : Bool

namespace Draft

/-- Nothing has been read. -/
def empty : Draft :=
  ⟨.ofBinary ⟨""⟩, [], false, none, false⟩

/-- Apply an option that may be given once. -/
def apply (draft : Draft) (name : String) (set : Overrides → Option Overrides) :
    Except Aside Draft :=
  if name ∈ draft.seen then .error .misuse
  else
    match set draft.overrides with
    | some overrides =>
      .ok { draft with overrides, seen := name :: draft.seen, awaiting := none }
    | none => .error .misuse

/-- Take the input, which may be given once and may not be empty. -/
def takeInput (draft : Draft) (argument : String) : Except Aside Draft :=
  if draft.hasInput ∨ argument = "" then .error .misuse
  else
    .ok { draft with
      overrides := { draft.overrides with binary := ⟨argument⟩ }
      hasInput := true }

/-- Take a long option, with the value after `=` if there is one. -/
def takeLong (draft : Draft) (name : String) (attached : Option String) :
    Except Aside Draft :=
  match name, attached with
  | "help", none => .error .help
  | "version", none => .error .version
  | _, _ =>
    match CommandOption.all.lookup name, attached with
    | some (.switch set), none => draft.apply name fun overrides => some (set overrides)
    | some (.valued set), none => .ok { draft with awaiting := some (name, set) }
    | some (.valued set), some value => draft.apply name (set value)
    | _, _ => .error .misuse

/-- Take a cluster of short options. -/
def takeShort (draft : Draft) (options : List Char) : Except Aside Draft :=
  options.foldlM (fun draft option =>
    match option with
    | 'v' => draft.takeLong "verbose" none
    | 'h' => draft.takeLong "help" none
    | 'V' => draft.takeLong "version" none
    | _ => .error .misuse) draft

/-- Take an argument where an option or the input may stand. -/
def takeAny (draft : Draft) (argument : String) : Except Aside Draft :=
  match argument.toList with
  | ['-', '-'] => .ok { draft with literal := true }
  | '-' :: '-' :: long =>
    let name := long.takeWhile (· ≠ '=')
    let attached := match long.dropWhile (· ≠ '=') with
      | [] => none
      | _ :: value => some (String.ofList value)
    draft.takeLong (String.ofList name) attached
  | '-' :: option :: options => draft.takeShort (option :: options)
  | _ => draft.takeInput argument

/-- Whether an argument looks like an option, so that it is no value. -/
def looksLikeOption (argument : String) : Bool :=
  match argument.toList with
  | '-' :: _ :: _ => true
  | _ => false

/-- Take one argument. -/
def take (draft : Draft) (argument : String) : Except Aside Draft :=
  match draft.awaiting with
  | some (name, set) =>
    if looksLikeOption argument then .error .misuse else draft.apply name (set argument)
  | none => if draft.literal then draft.takeInput argument else draft.takeAny argument

/-- What a command line asks for that has been read to its end. -/
def finish (draft : Draft) : Invocation :=
  if draft.awaiting.isSome ∨ draft.hasInput = false ∨
      (draft.overrides.dryRun ∧ draft.overrides.deploy = false) then .aside .misuse
  else .run draft.overrides ("verbose" ∈ draft.seen)

end Draft

/-- What a command line asks for. -/
def Invocation.ofArguments (arguments : List String) : Invocation :=
  match arguments.foldlM Draft.take Draft.empty with
  | .ok draft => draft.finish
  | .error asked => .aside asked

end FunctionBundler
