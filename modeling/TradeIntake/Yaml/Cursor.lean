/-!
# Places in a YAML text

A cursor is a place in a text: what is left of it, and the index, line and column reached. The index
counts bytes of UTF-8 and the column counts characters. A line break is a line feed, a carriage
return with or without one, or one of three Unicode separators.

Stands for the place that the scanner behind `from_yaml` (`src/config.rs`) keeps.
-/

namespace TradeIntake.Yaml

/-! ## Characters -/

/-- The character may stand in a YAML text. -/
def isAllowed (c : Char) : Bool :=
  let n := c.toNat
  n == 0x09 || n == 0x0A || n == 0x0D || (0x20 ≤ n && n ≤ 0x7E) || n == 0x85 ||
    (0xA0 ≤ n && n ≤ 0xFFFD) || 0x10000 ≤ n

/-- A space or a tab. -/
def isBlank (c : Char) : Bool := c == ' ' || c == '\t'

/-- A character that ends a line. -/
def isBreak (c : Char) : Bool :=
  c == '\r' || c == '\n' || c == '\u0085' || c == '\u2028' || c == '\u2029'

/-- A character of an anchor or of the name of a tag's handle. -/
def isWord (c : Char) : Bool := c.isAlphanum || c == '_' || c == '-'

/-- A blank, a line break or the end of the text. -/
def isGap : Option Char → Bool
  | some c => isBlank c || isBreak c
  | none => true

/-- A line break or the end of the text. -/
def isLineEnd : Option Char → Bool
  | some c => isBreak c
  | none => true

/-- The character that a line break counts as in a scalar. -/
def breakChar (c : Char) : Char :=
  if c == '\u2028' || c == '\u2029' then c else '\n'

/-! ## Cursors -/

/-- A place in a text. -/
structure Cursor where
  rest : List Char
  index : Nat
  line : Nat
  column : Nat

namespace Cursor

/-- The start of a text. -/
def ofText (text : List Char) : Cursor := ⟨text, 0, 0, 0⟩

/-- The character `n` places ahead. -/
def peek? (c : Cursor) (n : Nat) : Option Char := c.rest[n]?

/-- The next character is that one. -/
def sees (c : Cursor) (ch : Char) : Bool := c.peek? 0 == some ch

/-- Skip one character of a line. -/
def skip (c : Cursor) : Cursor :=
  match c.rest with
  | [] => c
  | ch :: rest => ⟨rest, c.index + ch.utf8Size, c.line, c.column + 1⟩

/-- Skip one line break, if there is one. -/
def skipBreak (c : Cursor) : Cursor :=
  match c.rest with
  | '\r' :: '\n' :: rest => ⟨rest, c.index + 2, c.line + 1, 0⟩
  | ch :: rest => if isBreak ch then ⟨rest, c.index + ch.utf8Size, c.line + 1, 0⟩ else c
  | [] => c

/-- Skip so many characters of a line. -/
def skipMany : Nat → Cursor → Cursor
  | 0, c => c
  | n + 1, c => skipMany n c.skip

/-- Skip the characters of a line as long as the test holds. -/
def skipWhile (p : Char → Bool) (c : Cursor) : Cursor :=
  c.skipMany (c.rest.takeWhile p).length

/-- The characters that `skipWhile` skips. -/
def run (p : Char → Bool) (c : Cursor) : List Char := c.rest.takeWhile p

/-- Skip a byte order mark, if there is one at the start of the line. -/
def skipByteOrderMark (c : Cursor) : Cursor :=
  if c.column == 0 && c.sees '\ufeff' then c.skip else c

/-- Skip a comment, if there is one. -/
def skipComment (c : Cursor) : Cursor :=
  if c.sees '#' then c.skipWhile fun ch => !isBreak ch else c

/-- Three times that character at the start of a line, and a gap. -/
def seesMarker (c : Cursor) (ch : Char) : Bool :=
  c.column == 0 && c.rest.take 3 == [ch, ch, ch] && isGap (c.peek? 3)

/-- The mark between documents or after a document. -/
def atMarker (c : Cursor) : Bool := c.seesMarker '-' || c.seesMarker '.'

end Cursor
end TradeIntake.Yaml
