/-
Module: FunctionBundler.Archive.Bootstrap
Purpose: The script by which a packaged function starts.
Trusted boundary: none
Main exports:
  Bootstrap.withLoader, Bootstrap.withSearchPath, Bootstrap.command, Bootstrap.words
-/

namespace FunctionBundler.Bootstrap

/-!
The platform runs the script as the function's handler.  Its last line hands the
binary to the bundled loader, or starts the binary after the system's loader has
been pointed at the bundled libraries.  File names are spliced in as they are;
`words` says how the shell cuts the line.
-/

/-- The lines before the last one that every script has. -/
def preamble : String :=
  "#!/bin/bash\nset -euo pipefail\nexport AWS_EXECUTION_ENV=lambda-cpp\n"

/-- The line that points the system's loader at the bundled libraries. -/
def searchPath : String :=
  "export LD_LIBRARY_PATH=$LAMBDA_TASK_ROOT/lib$\x7bLD_LIBRARY_PATH:+:$LD_LIBRARY_PATH\x7d\n"

/-- The path of the bundled binary, as the script writes it. -/
def binaryPath (binary : String) : String :=
  "$LAMBDA_TASK_ROOT/bin/" ++ binary

/-- The path of the bundled loader, as the script writes it. -/
def loaderPath (loader : String) : String :=
  "$LAMBDA_TASK_ROOT/lib/" ++ loader

/-- The variable that holds the handler's name. -/
def handler : String := "$\x7b_HANDLER\x7d"

/-- The last line's words, with a loader or without. -/
def command (loader : Option String) (binary : String) : List String :=
  match loader with
  | some loader =>
    ["exec", loaderPath loader, "--library-path", "$LAMBDA_TASK_ROOT/lib", binaryPath binary,
      handler]
  | none => ["exec", binaryPath binary, handler]

/-- The script of an archive that bundles the C library and its loader. -/
def withLoader (loader binary : String) : String :=
  preamble ++ " ".intercalate (command (some loader) binary) ++ "\n"

/-- The script of an archive that relies on the platform's own C library. -/
def withSearchPath (binary : String) : String :=
  preamble ++ searchPath ++ " ".intercalate (command none binary) ++ "\n"

/-- The words of unquoted text, as the shell cuts it: at blanks, and up to a line break. -/
def words (text : List Char) : List (List Char) :=
  go [] text
where
  /-- The words of a text that begins inside a word. -/
  go (word : List Char) : List Char → List (List Char)
    | [] => close word []
    | c :: rest =>
      if c = '\n' then close word []
      else if c = ' ' ∨ c = '\t' then close word (go [] rest)
      else go (word ++ [c]) rest
  /-- Put a finished word in front of others, unless it is empty. -/
  close (word : List Char) (others : List (List Char)) : List (List Char) :=
    if word = [] then others else word :: others

end FunctionBundler.Bootstrap
