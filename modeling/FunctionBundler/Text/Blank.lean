/-
Module: FunctionBundler.Text.Blank
Purpose: White space, trimming, lines and pieces of a text.
Trusted boundary: none
Main exports:
  isBlank, trimBlank, pieces, lines
-/

namespace FunctionBundler.Text

/-!
Texts that other tools print are cut into lines, lines are trimmed, and trimmed
lines are cut at single separators.  "Blank" is the Unicode property White_Space,
which is wider than the ASCII blanks: a no-break space is trimmed as well.
-/

/-- The Unicode property White_Space. -/
def isBlank (c : Char) : Bool :=
  let code := c.toNat
  (9 ≤ code && code ≤ 13) || code = 0x20 || code = 0x85 || code = 0xA0 || code = 0x1680 ||
    (0x2000 ≤ code && code ≤ 0x200A) || code = 0x2028 || code = 0x2029 || code = 0x202F ||
    code = 0x205F || code = 0x3000

/-- A text without its leading and trailing blanks. -/
def trimBlank (text : List Char) : List Char :=
  ((text.dropWhile isBlank).reverse.dropWhile isBlank).reverse

/-- The pieces of a text between occurrences of a separator; a text without the separator
is its own single piece. -/
def pieces (separator : Char) : List Char → List (List Char)
  | [] => [[]]
  | c :: rest =>
    if c = separator then
      [] :: pieces separator rest
    else
      match pieces separator rest with
      | [] => [[c]]
      | piece :: others => (c :: piece) :: others

/-- A line without the carriage return that ends it, if it ends in one. -/
def dropReturn (line : List Char) : List Char :=
  if line.getLast? = some '\r' then line.dropLast else line

/-- The lines of a text: the pieces ended by a line feed, each without a carriage return before
it, and the piece after the last line feed unless it is empty. -/
def lines (text : List Char) : List (List Char) :=
  let all := pieces '\n' text
  let last := all.getLastD []
  all.dropLast.map dropReturn ++ (if last.isEmpty then [] else [last])

/-- Every text has a piece. -/
theorem pieces_ne_nil (separator : Char) (text : List Char) : pieces separator text ≠ [] := by
  cases text with
  | nil => simp [pieces]
  | cons c rest =>
    simp only [pieces]
    split
    · simp
    · split <;> simp

end FunctionBundler.Text
