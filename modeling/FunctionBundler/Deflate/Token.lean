/-
Module: FunctionBundler.Deflate.Token
Purpose: Contents as literals and copies of what came before.
Trusted boundary: the compression library is assumed to write tokens of this format; their choice is
  its own
Main exports:
  Token, Token.expand?, Token.ofBytes
-/
import Std.Data.HashMap
import FunctionBundler.Bytes

namespace FunctionBundler

/-!
A token stands for bytes: itself, or some bytes that were written a distance
before.  Tokens for a content are found from its beginning on.  A copy is taken
where three bytes or more occurred before, of all recent places from the one with
the most bytes in common, unless one byte later a longer copy begins.
-/

/-- A byte, or a copy of `length` bytes from `distance` bytes before. -/
inductive Token where
  | literal (byte : UInt8)
  | copy (length distance : Nat)
deriving Repr, DecidableEq

namespace Token

/-- Copy bytes one after the other, so that a copy may go on with bytes that it wrote itself. -/
def copyBack? (distance : Nat) : (length : Nat) → (written : Array UInt8) → Option (Array UInt8)
  | 0, written => some written
  | length + 1, written =>
    if distance = 0 ∨ written.size < distance then none
    else
      match written[written.size - distance]? with
      | some byte => copyBack? distance length (written.push byte)
      | none => none

/-- What is written when a token follows. -/
def write? (written : Array UInt8) : Token → Option (Array UInt8)
  | .literal byte => some (written.push byte)
  | .copy length distance => copyBack? distance length written

/-- The content that tokens stand for, if no copy reaches back before its beginning. -/
def expand? (tokens : List Token) : Option Bytes :=
  (tokens.foldlM write? #[]).map Array.toList

/-- The fewest bytes of a copy. -/
def shortestCopy : Nat := 3

/-- The most bytes of a copy. -/
def longestCopy : Nat := 258

/-- How far back a copy may reach. -/
def farthest : Nat := 32768

/-- From what distance on a copy of the fewest bytes is not worthwhile. -/
def worthwhile : Nat := 8192

/-- How many earlier places are looked at. -/
def attempts : Nat := 128

/-- From what length on a copy is taken without looking further. -/
def plenty : Nat := 128

/-- For each place of a content, the last place before it at which the same three bytes are. -/
def lastSeen (content : Array UInt8) : Array (Option Nat) :=
  let key (place : Nat) : UInt8 × UInt8 × UInt8 :=
    (content.getD place 0, content.getD (place + 1) 0, content.getD (place + 2) 0)
  let seen : Std.HashMap (UInt8 × UInt8 × UInt8) Nat := {}
  ((List.range content.size).foldl (fun (places, seen) place =>
    (places.push seen[key place]?, seen.insert (key place) place)) (#[], seen)).1

/-- How many bytes at two places agree, up to a limit. -/
def agreement (content : Array UInt8) : (limit : Nat) → (first second : Nat) → Nat
  | 0, _, _ => 0
  | limit + 1, first, second =>
    if second < content.size ∧ content[first]? = content[second]? then
      agreement content limit (first + 1) (second + 1) + 1
    else 0

/-- The earlier places at which the same three bytes are, the nearest first. -/
def candidates (last : Array (Option Nat)) : (attempts : Nat) → (place : Nat) → List Nat
  | 0, _ => []
  | attempts + 1, place =>
    match last[place]? with
    | some (some earlier) => earlier :: candidates last attempts earlier
    | _ => []

/-- The best copy at a place, if one is worthwhile: its length and its distance. -/
def best? (content : Array UInt8) (last : Array (Option Nat)) (place : Nat) :
    Option (Nat × Nat) :=
  let near := (candidates last attempts place).takeWhile fun earlier => place - earlier ≤ farthest
  let (length, distance) := near.foldl (fun best earlier =>
    let length := agreement content longestCopy earlier place
    if best.1 < length then (length, place - earlier) else best) (shortestCopy - 1, 0)
  if length < shortestCopy ∨ length = shortestCopy ∧ worthwhile ≤ distance then none
  else some (length, distance)

/-- The token at a place, and how many bytes it stands for. -/
def choose (content : Array UInt8) (last : Array (Option Nat)) (place : Nat) : Token × Nat :=
  let literal := (.literal (content.getD place 0), 1)
  match best? content last place with
  | none => literal
  | some (length, distance) =>
    let next := if length < plenty then best? content last (place + 1) else none
    if next.any fun later => length < later.1 then literal
    else (.copy length distance, length)

/-- The tokens from a place on, put after `done`, which has its last token first; `steps` of them at
most. -/
def chooseOnto (content : Array UInt8) (last : Array (Option Nat)) :
    (steps : Nat) → (done : List Token) → (place : Nat) → List Token
  | 0, done, _ => done.reverse
  | steps + 1, done, place =>
    if place < content.size then
      let (token, size) := choose content last place
      chooseOnto content last steps (token :: done) (place + size)
    else done.reverse

/-- Tokens for a content. -/
def ofBytes (content : Bytes) : List Token :=
  let content := content.toArray
  chooseOnto content (lastSeen content) content.size [] 0

end Token

end FunctionBundler
