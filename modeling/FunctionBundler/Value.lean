/-
Module: FunctionBundler.Value
Purpose: The self-describing values that carry the parameters of an entry point.
Trusted boundary: none
Main exports:
  Value, Value.get?, Value.asText?, Value.asNat?, Value.nesting, Value.mergeEntry,
  Value.normalize, Value.Distinct
-/

namespace FunctionBundler

/-!
A value is an integer of one of two widths, a text, a list of values, or a list
of key-value pairs whose keys are values again.  A *raw* value may repeat a key;
reading merges repeated keys, and `normalize` says how: a repeated key keeps its
first position and takes the last value written, keys being compared after they
have been normalized themselves.
-/

/-- A metadata value. -/
inductive Value where
  | word32 (number : UInt32)
  | word64 (number : UInt64)
  | text (content : String)
  | array (items : List Value)
  | map (entries : List (Value × Value))
deriving Inhabited

namespace Value

/-- Structural equality. -/
def same : Value → Value → Bool
  | .word32 m, .word32 n => m == n
  | .word64 m, .word64 n => m == n
  | .text s, .text t => s == t
  | .array xs, .array ys => sameItems xs ys
  | .map xs, .map ys => sameEntries xs ys
  | _, _ => false
where
  /-- Equality of lists of values. -/
  sameItems : List Value → List Value → Bool
    | [], [] => true
    | x :: xs, y :: ys => same x y && sameItems xs ys
    | _, _ => false
  /-- Equality of lists of key-value pairs. -/
  sameEntries : List (Value × Value) → List (Value × Value) → Bool
    | [], [] => true
    | (k, v) :: xs, (l, w) :: ys => same k l && same v w && sameEntries xs ys
    | _, _ => false

mutual

theorem same_iff : (v w : Value) → (same v w = true ↔ v = w)
  | .word32 m, w => by cases w <;> simp [same]
  | .word64 m, w => by cases w <;> simp [same]
  | .text s, w => by cases w <;> simp [same]
  | .array xs, w => by cases w <;> simp [same, sameItems_iff xs]
  | .map xs, w => by cases w <;> simp [same, sameEntries_iff xs]

theorem sameItems_iff : (xs ys : List Value) → (same.sameItems xs ys = true ↔ xs = ys)
  | [], ys => by cases ys <;> simp [same.sameItems]
  | x :: xs, ys => by cases ys <;> simp [same.sameItems, same_iff x, sameItems_iff xs]

theorem sameEntries_iff :
    (xs ys : List (Value × Value)) → (same.sameEntries xs ys = true ↔ xs = ys)
  | [], ys => by cases ys <;> simp [same.sameEntries]
  | (k, v) :: xs, ys => by
    cases ys <;> simp [same.sameEntries, same_iff k, same_iff v, sameEntries_iff xs, Prod.ext_iff]

end

instance : DecidableEq Value := fun v w =>
  decidable_of_iff _ (same_iff v w)

/-- The text of a text value. -/
def asText? : Value → Option String
  | .text content => some content
  | _ => none

/-- The number of an integer of either width. -/
def asNat? : Value → Option Nat
  | .word32 number => some number.toNat
  | .word64 number => some number.toNat
  | _ => none

/-- The value of the first entry under a text key, in a map only. -/
def get? (value : Value) (key : String) : Option Value :=
  match value with
  | .map entries => (entries.find? fun entry => entry.1 = .text key).map (·.2)
  | _ => none

/-- How many arrays and maps are open at the deepest point of a value. -/
def nesting : Value → Nat
  | .array items => nestingItems items + 1
  | .map entries => nestingEntries entries + 1
  | _ => 0
where
  /-- The deepest nesting in a list of values. -/
  nestingItems : List Value → Nat
    | [] => 0
    | item :: items => max (nesting item) (nestingItems items)
  /-- The deepest nesting in a list of key-value pairs, keys included. -/
  nestingEntries : List (Value × Value) → Nat
    | [] => 0
    | (key, value) :: entries => max (max (nesting key) (nesting value)) (nestingEntries entries)

/-- How many values a value consists of, itself included. -/
def nodes : Value → Nat
  | .array items => nodesItems items + 1
  | .map entries => nodesEntries entries + 1
  | _ => 1
where
  /-- The nodes of a list of values. -/
  nodesItems : List Value → Nat
    | [] => 0
    | item :: items => nodes item + nodesItems items
  /-- The nodes of a list of key-value pairs. -/
  nodesEntries : List (Value × Value) → Nat
    | [] => 0
    | (key, value) :: entries => nodes key + nodes value + nodesEntries entries

/-- Write an entry into a list of entries: a known key keeps its position and takes the value. -/
def mergeEntry (entries : List (Value × Value)) (entry : Value × Value) : List (Value × Value) :=
  match entries with
  | [] => [entry]
  | known :: rest =>
    if known.1 = entry.1 then (known.1, entry.2) :: rest else known :: mergeEntry rest entry

/-- Entries merged in the order in which they are listed. -/
def mergeEntries (entries : List (Value × Value)) : List (Value × Value) :=
  entries.foldl mergeEntry []

/-- A value with every map merged, from the inside out. -/
def normalize : Value → Value
  | .array items => .array (normalizeItems items)
  | .map entries => .map (mergeEntries (normalizeEntries entries))
  | value => value
where
  /-- Normalize each value of a list. -/
  normalizeItems : List Value → List Value
    | [] => []
    | item :: items => normalize item :: normalizeItems items
  /-- Normalize each key and each value of a list of entries. -/
  normalizeEntries : List (Value × Value) → List (Value × Value)
    | [] => []
    | (key, value) :: entries => (normalize key, normalize value) :: normalizeEntries entries

/-- No map of the value, at any depth and inside keys too, repeats a key. -/
def Distinct : Value → Prop
  | .array items => DistinctItems items
  | .map entries => (entries.map (·.1)).Nodup ∧ DistinctEntries entries
  | _ => True
where
  /-- Each value of a list has distinct keys throughout. -/
  DistinctItems : List Value → Prop
    | [] => True
    | item :: items => Distinct item ∧ DistinctItems items
  /-- Each key and each value of a list of entries has distinct keys throughout. -/
  DistinctEntries : List (Value × Value) → Prop
    | [] => True
    | (key, value) :: entries => Distinct key ∧ Distinct value ∧ DistinctEntries entries

end Value

end FunctionBundler
