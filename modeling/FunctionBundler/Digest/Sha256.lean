/-
Module: FunctionBundler.Digest.Sha256
Purpose: The SHA-256 digest of a byte string.
Trusted boundary: the digest library is assumed to compute SHA-256 as it is computed here
Main exports:
  Digest, Digest.hex, Digest.base64, Sha256.digest
-/
import FunctionBundler.Base64

namespace FunctionBundler

/-!
A digest is the name of a content: 32 bytes, shown in hexadecimal where a key or
a function name is built from it, and in base64 where a platform reports it.
-/

/-- A digest of 32 bytes. -/
structure Digest where
  bytes : Bytes
  length_bytes : bytes.length = 32
deriving DecidableEq

namespace Digest

/-- The 64 lowercase hexadecimal digits of a digest. -/
def hex (digest : Digest) : String :=
  Bytes.hex digest.bytes

/-- The base64 text of a digest, as deployment platforms report it. -/
def base64 (digest : Digest) : String :=
  Base64.encode digest.bytes

end Digest

namespace Sha256

/-- The eight working words. -/
structure Words where
  a : UInt32
  b : UInt32
  c : UInt32
  d : UInt32
  e : UInt32
  f : UInt32
  g : UInt32
  h : UInt32

/-- The first 32 bits of the fractional parts of the cube roots of the first 64 primes. -/
def roundConstants : List UInt32 :=
  [1116352408, 1899447441, 3049323471, 3921009573, 961987163, 1508970993, 2453635748, 2870763221,
   3624381080, 310598401, 607225278, 1426881987, 1925078388, 2162078206, 2614888103, 3248222580,
   3835390401, 4022224774, 264347078, 604807628, 770255983, 1249150122, 1555081692, 1996064986,
   2554220882, 2821834349, 2952996808, 3210313671, 3336571891, 3584528711, 113926993, 338241895,
   666307205, 773529912, 1294757372, 1396182291, 1695183700, 1986661051, 2177026350, 2456956037,
   2730485921, 2820302411, 3259730800, 3345764771, 3516065817, 3600352804, 4094571909, 275423344,
   430227734, 506948616, 659060556, 883997877, 958139571, 1322822218, 1537002063, 1747873779,
   1955562222, 2024104815, 2227730452, 2361852424, 2428436474, 2756734187, 3204031479, 3329325298]

/-- The first 32 bits of the fractional parts of the square roots of the first eight primes. -/
def start : Words :=
  ⟨1779033703, 3144134277, 1013904242, 2773480762, 1359893119, 2600822924, 528734635, 1541459225⟩

/-- Rotation of a word to the right. -/
def rotate (word : UInt32) (count : UInt32) : UInt32 :=
  (word >>> count) ||| (word <<< (32 - count))

/-- A message block of sixteen words extended to the words of all rounds. -/
def schedule (block : Array UInt32) : Array UInt32 :=
  (List.range 48).foldl (fun words i =>
    let early := words.getD (i + 1) 0
    let late := words.getD (i + 14) 0
    let s0 := rotate early 7 ^^^ rotate early 18 ^^^ (early >>> 3)
    let s1 := rotate late 17 ^^^ rotate late 19 ^^^ (late >>> 10)
    words.push (words.getD i 0 + s0 + words.getD (i + 9) 0 + s1)) block

/-- One round, with its constant and its word of the message. -/
def round (w : Words) (constant word : UInt32) : Words :=
  let s1 := rotate w.e 6 ^^^ rotate w.e 11 ^^^ rotate w.e 25
  let choice := (w.e &&& w.f) ^^^ (~~~w.e &&& w.g)
  let first := w.h + s1 + choice + constant + word
  let s0 := rotate w.a 2 ^^^ rotate w.a 13 ^^^ rotate w.a 22
  let majority := (w.a &&& w.b) ^^^ (w.a &&& w.c) ^^^ (w.b &&& w.c)
  ⟨first + s0 + majority, w.a, w.b, w.c, w.d + first, w.e, w.f, w.g⟩

/-- All rounds for one block, added to the words before it. -/
def compress (w : Words) (block : Array UInt32) : Words :=
  let v := (roundConstants.zip (schedule block).toList).foldl
    (fun v (constant, word) => round v constant word) w
  ⟨w.a + v.a, w.b + v.b, w.c + v.c, w.d + v.d, w.e + v.e, w.f + v.f, w.g + v.g, w.h + v.h⟩

/-- A message with its end marked, filled up to whole blocks, and followed by its length in bits. -/
def padded (message : Bytes) : Bytes :=
  let length := message.length
  message ++ 0x80 :: List.replicate ((119 - length % 64) % 64) 0 ++
    Bytes.bigEndian 8 (length * 8)

/-- The big-endian words of a byte string, four bytes each. -/
def wordsOf : Bytes → List UInt32
  | a :: b :: c :: d :: rest =>
    ((a.toUInt32 <<< 24) ||| (b.toUInt32 <<< 16) ||| (c.toUInt32 <<< 8) ||| d.toUInt32) ::
      wordsOf rest
  | _ => []

/-- Run the blocks of a list of words, sixteen words each, at most `count` of them. -/
def runBlocks : (count : Nat) → Words → List UInt32 → Words
  | 0, w, _ => w
  | count + 1, w, words => runBlocks count (compress w (words.take 16).toArray) (words.drop 16)

/-- The bytes of the eight words. -/
def Words.toBytes (w : Words) : Bytes :=
  [w.a, w.b, w.c, w.d, w.e, w.f, w.g, w.h].flatMap fun word => Bytes.bigEndian 4 word.toNat

/-- Eight words make 32 bytes. -/
theorem Words.length_toBytes (w : Words) : w.toBytes.length = 32 := by
  simp [Words.toBytes]

/-- The SHA-256 digest of a byte string. -/
def digest (message : Bytes) : Digest :=
  let words := wordsOf (padded message)
  let final := runBlocks (words.length / 16) start words
  ⟨final.toBytes, final.length_toBytes⟩

end Sha256

end FunctionBundler
