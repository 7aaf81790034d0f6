/-
Module: FunctionBundler.Deflate.Block
Purpose: The blocks of a deflate stream whose tokens are written in prefix codes.
Trusted boundary: the compression library is assumed to write blocks of this format; their choice is
  its own
Main exports:
  Deflate.Bucket, Deflate.Codes, Deflate.Codes.fixed, Deflate.Codes.suited, Deflate.Codes.write,
  Deflate.Codes.header, Deflate.Reader, Deflate.readCodes, Deflate.readTokens
-/
import FunctionBundler.Deflate.PrefixCode
import FunctionBundler.Deflate.Token

namespace FunctionBundler.Deflate

/-!
A block has two codes: one for bytes, lengths of copies and the end of the block,
and one for distances.  Lengths and distances fall into buckets; a symbol names the
bucket, and extra bits say where in it the number is.  A block either uses the
fixed codes or begins with the lengths of the words of its own codes.
-/

/-- A range of numbers that share a symbol: the first of them, and how many extra bits tell them
apart. -/
structure Bucket where
  start : Nat
  extra : Nat
deriving Repr, DecidableEq

/-- Buckets with the given numbers of extra bits that follow each other. -/
def bucketsFrom (start : Nat) : (extras : List Nat) → List Bucket
  | [] => []
  | extra :: rest => ⟨start, extra⟩ :: bucketsFrom (start + Nat.pow 2 extra) rest

/-- The buckets for lengths; the greatest length has one for itself. -/
def lengthBuckets : List Bucket :=
  bucketsFrom 3 (List.replicate 4 0 ++ [0, 1, 2, 3, 4, 5].flatMap (List.replicate 4)) ++ [⟨258, 0⟩]

/-- The buckets for distances. -/
def distanceBuckets : List Bucket :=
  bucketsFrom 1 ([0, 0] ++ (List.range 14).flatMap (List.replicate 2))

/-- A symbol with its extra bits. -/
structure Piece where
  symbol : Nat
  extra : Bits
deriving Repr, DecidableEq

/-- A number as a piece. -/
def pieceIn (buckets : List Bucket) (number : Nat) : Piece :=
  let index := (buckets.takeWhile fun bucket => bucket.start ≤ number).length - 1
  let bucket := buckets.getD index ⟨0, 0⟩
  ⟨index, .ofNat bucket.extra (number - bucket.start)⟩

/-- The symbol that ends a block. -/
def endSymbol : Nat := 256

/-- The first symbol for a length. -/
def firstLength : Nat := 257

/-- The piece of a token in the first code. -/
def mainPiece : Token → Piece
  | .literal byte => ⟨byte.toNat, []⟩
  | .copy length _ =>
    let piece := pieceIn lengthBuckets length
    ⟨firstLength + piece.symbol, piece.extra⟩

/-- The piece of a token in the code for distances. -/
def distancePiece? : Token → Option Piece
  | .literal _ => none
  | .copy _ distance => some (pieceIn distanceBuckets distance)

/-- The codes of a block, as the lengths of their words. -/
structure Codes where
  main : List Nat
  distance : List Nat
deriving Repr, DecidableEq

/-- How often each of `count` symbols occurs. -/
def weights (count : Nat) (symbols : List Nat) : List Nat :=
  (symbols.foldl (fun table symbol => table.modify symbol (· + 1)) (Array.replicate count 0)).toList

namespace Codes

/-- The codes that need not be written. -/
def fixed : Codes where
  main := List.replicate 144 8 ++ List.replicate 112 9 ++ List.replicate 24 7 ++ List.replicate 8 8
  distance := List.replicate 30 5

/-- The codes that suit some tokens best. -/
def suited (tokens : List Token) : Codes where
  main := PrefixCode.lengthsFor PrefixCode.longest
    (weights 286 (tokens.map (fun token => (mainPiece token).symbol) ++ [endSymbol]))
  distance := PrefixCode.lengthsFor PrefixCode.longest
    (weights 30 (tokens.filterMap fun token => (distancePiece? token).map Piece.symbol))

end Codes

/-- A piece in a code. -/
def writePiece (words : Array Bits) (piece : Piece) : Bits :=
  words.getD piece.symbol [] ++ piece.extra

/-- Tokens and the end of their block, in codes. -/
def Codes.write (codes : Codes) (tokens : List Token) : Bits :=
  let main := PrefixCode.words codes.main
  let distance := PrefixCode.words codes.distance
  (tokens.flatMap fun token =>
    writePiece main (mainPiece token) ++
      ((distancePiece? token).map (writePiece distance)).getD []) ++
    main.getD endSymbol []

/-! Word lengths are written in a code of their own, whose symbols are the lengths and three ways to
repeat one. -/

/-- The symbol that repeats the last length. -/
def againSymbol : Nat := 16

/-- The symbol for a few zeros. -/
def fewZeros : Nat := 17

/-- The symbol for many zeros. -/
def manyZeros : Nat := 18

/-- A run of one word length, as pieces. -/
def runPieces (length count : Nat) : List Piece :=
  if length = 0 then
    let rest := count % 138
    List.replicate (count / 138) ⟨manyZeros, .ofNat 7 127⟩ ++
      if rest < 3 then List.replicate rest ⟨0, []⟩
      else if rest ≤ 10 then [⟨fewZeros, .ofNat 3 (rest - 3)⟩]
      else [⟨manyZeros, .ofNat 7 (rest - 11)⟩]
  else
    let again := count - 1
    let rest := again % 6
    ⟨length, []⟩ :: List.replicate (again / 6) ⟨againSymbol, .ofNat 2 3⟩ ++
      if rest < 3 then List.replicate rest ⟨length, []⟩
      else [⟨againSymbol, .ofNat 2 (rest - 3)⟩]

/-- Word lengths, as pieces. -/
def lengthPieces (lengths : List Nat) : List Piece :=
  (lengths.splitBy (· == ·)).flatMap fun run => runPieces (run.headD 0) run.length

/-- The order in which the code for word lengths is written itself. -/
def lengthOrder : List Nat :=
  [16, 17, 18, 0, 8, 7, 9, 6, 10, 5, 11, 4, 12, 3, 13, 2, 14, 1, 15]

/-- A list without the zeros at its end, but with `atLeast` elements. -/
def trimZeros (atLeast : Nat) (numbers : List Nat) : List Nat :=
  numbers.take (max atLeast (numbers.reverse.dropWhile (· = 0)).length)

/-- The lengths of the words of a block's codes, as they are written before its tokens. -/
def Codes.header (codes : Codes) : Bits :=
  let main := trimZeros 257 codes.main
  let distance := trimZeros 1 codes.distance
  let pieces := lengthPieces (main ++ distance)
  let lengths := PrefixCode.lengthsFor 7 (weights 19 (pieces.map Piece.symbol))
  let ordered := trimZeros 4 (lengthOrder.map fun symbol => lengths.getD symbol 0)
  let words := PrefixCode.words lengths
  Bits.ofNat 5 (main.length - 257) ++ Bits.ofNat 5 (distance.length - 1) ++
    Bits.ofNat 4 (ordered.length - 4) ++ ordered.flatMap (Bits.ofNat 3) ++
    pieces.flatMap (writePiece words)

/-- A reader takes bits off the front of the remaining ones, or fails. -/
abbrev Reader := StateT Bits Option

/-- Read bits. -/
def readBits (count : Nat) : Reader Bits := do
  let input ← get
  let bits := input.take count
  if bits.length < count then failure
  set (input.drop count)
  return bits

/-- Read a number. -/
def readNumber (width : Nat) : Reader Nat :=
  return Bits.toNat (← readBits width)

/-- Read a symbol of a code. -/
def readSymbol (levels : List (List Nat)) : Reader Nat :=
  fun input => PrefixCode.decode levels input

/-- Read the extra bits of a symbol and give its number. -/
def readIn (buckets : List Bucket) (symbol : Nat) : Reader Nat := do
  match buckets[symbol]? with
  | some bucket => return bucket.start + (← readNumber bucket.extra)
  | none => failure

/-- Read the tokens of a block up to its end, `count` at most, and put them after `done`, which has
its last token first. -/
def readTokensOnto (main distance : List (List Nat)) :
    (count : Nat) → (done : List Token) → Reader (List Token)
  | 0, _ => failure
  | count + 1, done => do
    let symbol ← readSymbol main
    if symbol = endSymbol then return done.reverse
    else if symbol < endSymbol then
      readTokensOnto main distance count (.literal (UInt8.ofNat symbol) :: done)
    else
      let length ← readIn lengthBuckets (symbol - firstLength)
      let distanceSymbol ← readSymbol distance
      let back ← readIn distanceBuckets distanceSymbol
      readTokensOnto main distance count (.copy length back :: done)

/-- Read the tokens of a block. -/
def readTokens (codes : Codes) : Reader (List Token) := do
  let count := (← get).length + 1
  readTokensOnto (PrefixCode.levels codes.main) (PrefixCode.levels codes.distance) count []

/-- Read what follows a symbol for word lengths and give the lengths it stands for, after a last
one. -/
def readRun (symbol : Nat) (last : Option Nat) : Reader (List Nat) := do
  if symbol < againSymbol then return [symbol]
  else if symbol = againSymbol then
    match last with
    | some length => return List.replicate (3 + (← readNumber 2)) length
    | none => failure
  else if symbol = fewZeros then return List.replicate (3 + (← readNumber 3)) 0
  else return List.replicate (11 + (← readNumber 7)) 0

/-- Read word lengths until there are as many as wanted, and put them after `done`, which has its
last length first. -/
def readLengthsOnto (levels : List (List Nat)) (wanted : Nat) :
    (steps : Nat) → (done : List Nat) → Reader (List Nat)
  | 0, done => if done.length = wanted then return done.reverse else failure
  | steps + 1, done => do
    if wanted ≤ done.length then
      if done.length = wanted then return done.reverse else failure
    else
      let symbol ← readSymbol levels
      let run ← readRun symbol done.head?
      readLengthsOnto levels wanted steps (run ++ done)

/-- Read the codes that a block begins with. -/
def readCodes : Reader Codes := do
  let main := 257 + (← readNumber 5)
  let distance := 1 + (← readNumber 5)
  let count := 4 + (← readNumber 4)
  let ordered ← (lengthOrder.take count).mapM fun symbol => do
    return (symbol, ← readNumber 3)
  let lengths := (List.range 19).map fun symbol => (ordered.lookup symbol).getD 0
  let total := main + distance
  let both ← readLengthsOnto (PrefixCode.levels lengths) total total []
  return ⟨both.take main, both.drop main⟩

end FunctionBundler.Deflate
