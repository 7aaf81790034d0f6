/-
Module: FunctionBundler.Deflate.PrefixCode
Purpose: Prefix codes that are given by the lengths of their words.
Trusted boundary: the compression library is assumed to write codes of this format; their choice is
  its own
Main exports:
  PrefixCode.levels, PrefixCode.words, PrefixCode.decode, PrefixCode.lengthsFor
-/
import FunctionBundler.Bits

namespace FunctionBundler.PrefixCode

/-!
The words of a code follow from their lengths alone: shorter words come before
longer ones, and words of one length are consecutive numbers in the order of their
symbols.  Lengths that suit the weights of symbols come from joining the two
lightest trees until one is left; where that gives longer words than a code may
have, the longest are shortened and a shorter one is lengthened in exchange.
-/

/-- The longest word of any code. -/
def longest : Nat := 15

/-- The symbols whose words have a length; a word of length zero does not exist. -/
def symbolsOf (lengths : List Nat) (length : Nat) : List Nat :=
  lengths.zipIdx.filterMap fun (own, symbol) => if own = length then some symbol else none

/-- The symbols of a code by the lengths of their words, from length one on. -/
def levels (lengths : List Nat) : List (List Nat) :=
  (List.range longest).map fun shorter => symbolsOf lengths (shorter + 1)

/-- The words of the symbols at some levels, the first word at the first of them being `first`. -/
def wordsFrom (length first : Nat) : List (List Nat) → List (Nat × Bits)
  | [] => []
  | symbols :: longer =>
    symbols.zipIdx.map (fun (symbol, index) => (symbol, Bits.word length (first + index))) ++
      wordsFrom (length + 1) (2 * (first + symbols.length)) longer

/-- The word of each symbol of a code. -/
def words (lengths : List Nat) : Array Bits :=
  (wordsFrom 1 0 (levels lengths)).foldl
    (fun table (symbol, word) => table.setIfInBounds symbol word)
    (Array.replicate lengths.length [])

/-- The symbol whose word bits begin with, and the bits after it. -/
def decodeFrom (number first : Nat) : List (List Nat) → Bits → Option (Nat × Bits)
  | symbols :: longer, bit :: rest =>
    let number := 2 * number + bit.toNat
    match if first ≤ number then symbols[number - first]? else none with
    | some symbol => some (symbol, rest)
    | none => decodeFrom number (2 * (first + symbols.length)) longer rest
  | _, _ => none

/-- The symbol whose word bits begin with, and the bits after it. -/
def decode (levels : List (List Nat)) (bits : Bits) : Option (Nat × Bits) :=
  decodeFrom 0 0 levels bits

/-- A tree of words: its weight, and the depths of its leaves. -/
structure Tree where
  weight : Nat
  depths : List Nat
deriving Repr, DecidableEq

/-- The tree of one symbol. -/
def Tree.leaf (weight : Nat) : Tree :=
  ⟨weight, [0]⟩

/-- Two trees under one root. -/
def Tree.join (first second : Tree) : Tree :=
  ⟨first.weight + second.weight, (first.depths ++ second.depths).map (· + 1)⟩

/-- The lightest of two ordered lists of trees, and what is left of them.  Of two equal trees, the
one of the first list is taken. -/
def lightest? : (leaves joined : List Tree) → Option (Tree × List Tree × List Tree)
  | [], [] => none
  | leaf :: leaves, [] => some (leaf, leaves, [])
  | [], tree :: joined => some (tree, [], joined)
  | leaf :: leaves, tree :: joined =>
    if tree.weight < leaf.weight then some (tree, leaf :: leaves, joined)
    else some (leaf, leaves, tree :: joined)

/-- Join the two lightest trees, `joins` times, and give the depths of the first tree. -/
def joinedDepths : (joins : Nat) → (leaves joined : List Tree) → List Nat
  | 0, leaves, joined => ((leaves ++ joined).head?.map Tree.depths).getD []
  | joins + 1, leaves, joined =>
    match lightest? leaves joined with
    | none => []
    | some (first, leaves, joined) =>
      match lightest? leaves joined with
      | none => first.depths
      | some (second, leaves, joined) =>
        joinedDepths joins leaves (joined ++ [first.join second])

/-- How many words have each length, from `limit` down to one; words that are too long count as
words of length `limit`. -/
def lengthCounts (limit : Nat) (depths : List Nat) : List Nat :=
  ((List.range limit).map fun shorter =>
    depths.countP fun depth => min limit (max 1 depth) = shorter + 1).reverse

/-- How many words of the greatest length there is no room for. -/
def surplus (counts : List Nat) : Nat :=
  counts.zipIdx.foldl (fun total (count, level) => total + count * Nat.pow 2 level) 0 -
    Nat.pow 2 counts.length

/-- Lengthen the longest of the words above the first level, and make a second one beside it. -/
def lengthen : List Nat → List Nat
  | deeper :: count :: shorter =>
    if count = 0 then deeper :: lengthen (count :: shorter)
    else (deeper + 2) :: (count - 1) :: shorter
  | counts => counts

/-- Exchange one of the longest words for a shorter one, `times` times. -/
def makeRoom : (times : Nat) → List Nat → List Nat
  | times + 1, count :: shorter => makeRoom times (lengthen ((count - 1) :: shorter))
  | _, counts => counts

/-- The lengths of words for symbols with the given weights, none longer than `limit`.  Symbols
without weight get none; heavier symbols get shorter words, and of equally heavy ones the later. -/
def lengthsFor (limit : Nat) (weights : List Nat) : List Nat :=
  let weighted := weights.zipIdx.filter fun (weight, _) => weight ≠ 0
  let ordered := weighted.mergeSort fun first second => first.1 ≤ second.1
  let depths := joinedDepths (ordered.length - 1) (ordered.map fun entry => .leaf entry.1) []
  let counts := lengthCounts limit depths
  let lengths := (makeRoom (surplus counts) counts).reverse.zipIdx.flatMap
    fun (count, shorter) => List.replicate count (shorter + 1)
  let table := (ordered.reverse.zip lengths).foldl
    (fun table ((_, symbol), length) => table.setIfInBounds symbol length)
    (Array.replicate weights.length 0)
  table.toList

end FunctionBundler.PrefixCode
