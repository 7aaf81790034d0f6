/-
Module: FunctionBundler.Toml
Purpose: Reading TOML documents.
Trusted boundary: the library that reads profile files is assumed to take the documents that are
  read here
Main exports:
  Toml.Item, Toml.TableForm, Toml.read?
-/
import FunctionBundler.Toml.Scalar

namespace FunctionBundler.Toml

/-!
A document is a tree of tables.  How a table came about decides what may be added
to it later: a table that a header opened, or an inline table, is defined once;
one that a longer header implied may still be opened; one that dotted keys made
takes further dotted keys.  Reading refuses a document that is malformed anywhere
or defines something twice.
-/

/-- How a table came about. -/
inductive TableForm where
  | inline
  | header
  | implied
  | dotted
deriving Repr, DecidableEq

/-- A value or a table of a document.  Scalars other than texts are not told apart. -/
inductive Item where
  | text (content : String)
  | scalar
  | list (items : List Item)
  | table (form : TableForm) (entries : List (String × Item))
  | tables (elements : List (List (String × Item)))
deriving Inhabited

/-- The entries of a table, in the order in which they were first mentioned. -/
abbrev Entries := List (String × Item)

/-- Replace or add an entry. -/
def setEntry (key : String) (item : Item) : Entries → Entries
  | [] => [(key, item)]
  | entry :: rest => if entry.1 = key then (key, item) :: rest else entry :: setEntry key item rest

/-- Change the table that a path of keys leads to, making the tables on the way that do not exist.
With `dottedKeys` the path is that of a dotted key, which may not enter a table that was defined in
another way; the change is told whether the table it gets was made by dotted keys. -/
def changeAt (dottedKeys : Bool) (change : (dotted : Bool) → Entries → Option Entries) :
    (path : List String) → (dotted : Bool) → Entries → Option Entries
  | [], dotted, entries => change dotted entries
  | key :: path, _, entries =>
    match entries.lookup key with
    | none => do
      let form := if dottedKeys then .dotted else .implied
      let inner ← changeAt dottedKeys change path dottedKeys []
      return setEntry key (.table form inner) entries
    | some (.table form inner) => do
      if form = .inline ∨ (dottedKeys ∧ form = .header) then none
      let inner ← changeAt dottedKeys change path (form = .dotted) inner
      return setEntry key (.table form inner) entries
    | some (.tables elements) => do
      let last ← elements.getLast?
      let last ← changeAt dottedKeys change path false last
      return setEntry key (.tables (elements.dropLast ++ [last])) entries
    | some _ => none

/-- Add an entry that must be new; after dotted keys, only to a table made by dotted keys. -/
def addEntry (afterDots : Bool) (key : String) (item : Item) (dotted : Bool) (entries : Entries) :
    Option Entries :=
  if dotted = afterDots ∧ (entries.lookup key).isNone then some (entries ++ [(key, item)]) else none

/-- Add a value under a dotted key. -/
def insertValue (key : List String) (item : Item) (entries : Entries) : Option Entries := do
  let last ← key.getLast?
  let path := key.dropLast
  changeAt true (addEntry (!path.isEmpty) last item) path false entries

/-- Add a value under a dotted key of an inline table, whose inner tables cannot be arrays. -/
def insertInline (entries : Entries) (entry : List String × Item) : Option Entries :=
  insertValue entry.1 entry.2 entries

/-- Open the table of a header. -/
def openTable (key : String) (_ : Bool) (entries : Entries) : Option Entries :=
  match entries.lookup key with
  | none => some (entries ++ [(key, .table .header [])])
  | some (.table .implied inner) => some (setEntry key (.table .header inner) entries)
  | some _ => none

/-- Open the next table of an array of tables. -/
def openElement (key : String) (_ : Bool) (entries : Entries) : Option Entries :=
  match entries.lookup key with
  | none => some (entries ++ [(key, .tables [[]])])
  | some (.tables elements) => some (setEntry key (.tables (elements ++ [[]])) entries)
  | some _ => none

/-- How deep arrays and inline tables may nest, and how many parts a dotted key may have. -/
def maxNesting : Nat := 79

/-- Whether a character may stand in an unquoted key. -/
def isBareKey (c : Char) : Bool :=
  c.isAlphanum || c = '_' || c = '-'

/-- One part of a dotted key. -/
def readKeyPart (input : List Char) : Option (String × List Char) :=
  match input with
  | '"' :: rest =>
    (readBasic (rest.length + 1) rest).map fun (key, rest) => (String.ofList key, rest)
  | '\'' :: rest => (readLiteral rest).map fun (key, rest) => (String.ofList key, rest)
  | _ =>
    let bare := input.takeWhile isBareKey
    if bare = [] then none else some (String.ofList bare, input.dropWhile isBareKey)

/-- A dotted key, with the white space after it. -/
def readKeyParts : (budget : Nat) → Reader (List String)
  | 0, _ => none
  | budget + 1, input => do
    let (part, rest) ← readKeyPart (skipSpaces input)
    match skipSpaces rest with
    | '.' :: rest =>
      let (parts, rest) ← readKeyParts budget rest
      return (part :: parts, rest)
    | rest => return ([part], rest)

/-- A dotted key of admissible length. -/
def readKey (input : List Char) : Option (List String × List Char) := do
  let (key, rest) ← readKeyParts (input.length + 1) input
  if key.length ≤ maxNesting then some (key, rest) else none

/-- The input after a comment. -/
def skipComment (input : List Char) : List Char :=
  match input with
  | '#' :: rest => rest.dropWhile isPrintable
  | _ => input

/-- The input after white space, comments and line breaks. -/
def skipFiller : (budget : Nat) → List Char → List Char
  | 0, input => input
  | budget + 1, input =>
    match newline? (skipComment (skipSpaces input)) with
    | some rest => skipFiller budget rest
    | none => skipSpaces input

/-- The items of an array up to its closing bracket; the budget is more than the length of the
input. -/
def readItems (value : Reader Item) : (budget : Nat) → Reader (List Item)
  | 0, _ => none
  | budget + 1, input =>
    match skipFiller (budget + 1) input with
    | ']' :: rest => some ([], rest)
    | input => do
      let (item, rest) ← value input
      match skipFiller (budget + 1) rest with
      | ',' :: rest =>
        let (items, rest) ← readItems value budget rest
        return (item :: items, rest)
      | ']' :: rest => return ([item], rest)
      | _ => none

/-- A key, an equals sign and a value. -/
def readPair (value : Reader Item) (input : List Char) :
    Option ((List String × Item) × List Char) := do
  let (key, rest) ← readKey input
  let rest ← skipChar '=' rest
  let (item, rest) ← value (skipSpaces rest)
  return ((key, item), skipSpaces rest)

/-- The pairs of an inline table, of which there is at least one, up to its closing brace. -/
def readPairs (value : Reader Item) : (budget : Nat) → Reader (List (List String × Item))
  | 0, _ => none
  | budget + 1, input => do
    let (pair, rest) ← readPair value input
    match rest with
    | ',' :: rest =>
      let (pairs, rest) ← readPairs value budget rest
      return (pair :: pairs, rest)
    | '}' :: rest => return ([pair], rest)
    | _ => none

/-- A value, with at most `levels` more arrays and inline tables open at once. -/
def readValue : (levels : Nat) → Reader Item
  | levels, input =>
    match input with
    | '"' :: _ => (readQuoted input).map fun (text, rest) => (.text text, rest)
    | '\'' :: _ => (readQuoted input).map fun (text, rest) => (.text text, rest)
    | '[' :: rest =>
      match levels with
      | 0 => none
      | levels + 1 =>
        (readItems (readValue levels) (rest.length + 1) rest).map fun (items, rest) =>
          (.list items, rest)
    | '{' :: rest =>
      match levels with
      | 0 => none
      | levels + 1 =>
        match skipSpaces rest with
        | '}' :: rest => some (.table .inline [], rest)
        | rest => do
          let (pairs, rest) ← readPairs (readValue levels) (rest.length + 1) rest
          let entries ← pairs.foldlM insertInline []
          return (.table .inline entries, rest)
    | c :: _ =>
      let rest :=
        if c.isDigit ∨ c = '+' ∨ c = '-' then skipNumber input
        else skipWord "true" input <|> skipWord "false" input <|> skipWord "inf" input <|>
          skipWord "nan" input
      rest.map fun rest => (.scalar, rest)
    | [] => none

/-- What has been read of a document: its entries, and the header that is open. -/
structure Document where
  entries : Entries
  header : List String

/-- Open the table, or the next table of the array, that a header names. -/
def Document.openHeader (document : Document) (key : List String)
    (create : String → Bool → Entries → Option Entries) : Option Document := do
  let last ← key.getLast?
  let entries ← changeAt false (create last) key.dropLast false document.entries
  return ⟨entries, key⟩

/-- Add a value to the table of the open header. -/
def Document.insert (document : Document) (key : List String) (item : Item) : Option Document := do
  let entries ←
    changeAt false (fun _ => insertValue key item) document.header false document.entries
  return { document with entries }

/-- One expression of a document: a header or a value. -/
def readExpression (document : Document) (input : List Char) : Option (Document × List Char) :=
  match input with
  | '[' :: '[' :: rest => do
    let (key, rest) ← readKey rest
    match rest with
    | ']' :: ']' :: rest => return (← document.openHeader key openElement, rest)
    | _ => none
  | '[' :: rest => do
    let (key, rest) ← readKey rest
    match rest with
    | ']' :: rest => return (← document.openHeader key openTable, rest)
    | _ => none
  | _ => do
    let ((key, item), rest) ← readPair (readValue maxNesting) input
    return (← document.insert key item, rest)

/-- The lines of a document. -/
def readLines : (budget : Nat) → Document → List Char → Option Document
  | 0, _, _ => none
  | budget + 1, document, input =>
    match skipSpaces input with
    | [] => some document
    | start => do
      let (document, rest) ←
        if start.head? = some '#' ∨ (newline? start).isSome then some (document, start)
        else readExpression document start
      match skipComment (skipSpaces rest) with
      | [] => some document
      | ending => readLines budget document (← newline? ending)

/-- The entries of a document; a byte order mark at its start is skipped. -/
def read? (text : String) : Option Entries :=
  let input := match text.toList with
    | c :: rest => if c.toNat = 0xFEFF then rest else c :: rest
    | [] => []
  (readLines (input.length + 1) ⟨[], []⟩ input).map (·.entries)

end FunctionBundler.Toml
