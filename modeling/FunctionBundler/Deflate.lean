/-
Module: FunctionBundler.Deflate
Purpose: Compressed streams: the stream of a content, and the content of a stream.
Trusted boundary: the compression library is assumed to write deflate streams, though not these
  blocks; what is relied on is what a stream expands to
Main exports:
  Deflate.compress, Deflate.decompress?
-/
import FunctionBundler.Deflate.Block

namespace FunctionBundler.Deflate

/-!
A content becomes one block of tokens: in the fixed codes if it is short, and in
codes that suit it otherwise.  A content that such a block does not make shorter is
stored as it is.
-/

/-- The kind of blocks whose content is stored as it is. -/
def storedKind : Nat := 0

/-- The kind of blocks in the fixed codes. -/
def fixedKind : Nat := 1

/-- The kind of blocks in codes of their own. -/
def suitedKind : Nat := 2

/-- The largest content of one stored block. -/
def storedSize : Nat := 65535

/-- One stored block. -/
def storedBlock (last : Bool) (content : Bytes) : Bytes :=
  (if last then 1 else 0) :: Bytes.littleEndian 2 content.length ++
    Bytes.littleEndian 2 (65535 - content.length) ++ content

/-- A content as `count` full stored blocks and a last one. -/
def storedBlocks : (count : Nat) → Bytes → Bytes
  | 0, content => storedBlock true content
  | count + 1, content =>
    storedBlock false (content.take storedSize) ++ storedBlocks count (content.drop storedSize)

/-- A content, stored as it is. -/
def stored (content : Bytes) : Bytes :=
  storedBlocks (content.length / storedSize) content

/-- From what length on a content gets codes of its own. -/
def longEnough : Nat := 48

/-- Up to what length a content is never stored as it is. -/
def neverStored : Nat := 32

/-- The only block of a stream, with tokens in codes. -/
def tokenBlock (size : Nat) (tokens : List Token) : Bits :=
  if size < longEnough then
    true :: Bits.ofNat 2 fixedKind ++ Codes.fixed.write tokens
  else
    let codes := Codes.suited tokens
    true :: Bits.ofNat 2 suitedKind ++ codes.header ++ codes.write tokens

/-- The stream of a content. -/
def compress (content : Bytes) : Bytes :=
  let size := content.length
  let block := tokenBlock size (Token.ofBytes content)
  if neverStored < size ∧ size ≤ block.length / 8 + 1 then stored content
  else Bits.toBytes block

/-- Read the bytes of a stored block; it begins with the next byte of the stream, all of whose bytes
end at its end. -/
def readStored : Reader (List Token) := do
  let left := (← get).length
  let _ ← readBits (left % 8)
  let size ← readNumber 16
  let check ← readNumber 16
  if size + check ≠ 65535 then failure
  let bits ← readBits (8 * size)
  return (Bits.toBytes bits).map .literal

/-- Read the tokens of all blocks, `count` at most. -/
def readBlocks : (count : Nat) → Reader (List Token)
  | 0 => failure
  | count + 1 => do
    let last ← readNumber 1
    let kind ← readNumber 2
    let tokens ←
      if kind = storedKind then readStored
      else if kind = fixedKind then readTokens .fixed
      else if kind = suitedKind then readTokens (← readCodes)
      else failure
    if last = 1 then return tokens
    else return tokens ++ (← readBlocks count)

/-- The content of a stream. -/
def decompress? (stream : Bytes) : Option Bytes := do
  let (tokens, _) ← readBlocks (stream.length + 1) |>.run (Bits.ofBytes stream)
  Token.expand? tokens

end FunctionBundler.Deflate
