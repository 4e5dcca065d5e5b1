import Provisioning.Yaml.Error

/-!
# A place in a YAML text

A `Cursor` is what is left of a text, with the line and the column where it begins.
-/

namespace Provisioning

namespace Yaml

/-- The rest of a text and where it begins. -/
structure Cursor where
  /-- What is left. -/
  rest : List Char
  /-- The number of characters before it. -/
  index : Nat := 0
  /-- The number of line breaks before it. -/
  line : Nat := 0
  /-- The number of characters before it in its line. -/
  column : Nat := 0

/-- Whether a character may stand in a text. -/
def isAllowed (c : Char) : Bool :=
  let n := c.toNat
  n == 0x9 || n == 0xA || n == 0xD || (0x20 ≤ n && n ≤ 0x7E) || n == 0x85
    || (0xA0 ≤ n && n ≤ 0xD7FF) || (0xE000 ≤ n && n ≤ 0xFFFD) || 0x10000 ≤ n

/-- Whether a character ends a line. -/
def isBreak (c : Char) : Bool :=
  c == '\n' || c == '\r' || c == '\u0085' || c == '\u2028' || c == '\u2029'

/-- Whether a character is a space or a tab. -/
def isGap (c : Char) : Bool :=
  c == ' ' || c == '\t'

/-- Whether a character may stand in an anchor or the handle of a tag. -/
def isWordChar (c : Char) : Bool :=
  c.isAlphanum || c == '_' || c == '-'

namespace Cursor

/-- The character at some distance. -/
def peek (c : Cursor) (n : Nat) : Option Char := c.rest[n]?

/-- Whether nothing is left. -/
def atEnd (c : Cursor) : Bool := c.rest.isEmpty

/-- Whether a character stands at some distance. -/
def sees (c : Cursor) (ch : Char) (n : Nat) : Bool := c.peek n == some ch

/-- Whether a space or a tab comes next. -/
def seesGap (c : Cursor) : Bool := (c.peek 0).any isGap

/-- Whether a line break comes next. -/
def seesBreak (c : Cursor) : Bool := (c.peek 0).any isBreak

/-- Whether a line break or the end comes next. -/
def seesLineEnd (c : Cursor) : Bool := (c.peek 0).all isBreak

/-- Whether a space, a tab, a line break or the end stands at some distance. -/
def seesBlank (c : Cursor) (n : Nat) : Bool := (c.peek n).all fun ch => isGap ch || isBreak ch

/-- The place some characters on in the same line. -/
def skip (c : Cursor) (n : Nat) : Cursor :=
  { c with rest := c.rest.drop n, index := c.index + n, column := c.column + n }

/-- The place after a line break; a carriage return takes a line feed after it along. -/
def skipBreak (c : Cursor) : Cursor :=
  let n := if c.sees '\r' 0 && c.sees '\n' 1 then 2 else 1
  { rest := c.rest.drop n, index := c.index + n, line := c.line + 1, column := 0 }

/-- The characters up to the first that does not satisfy `p`, and the place of that one. -/
def takeWhile (c : Cursor) (p : Char → Bool) : List Char × Cursor :=
  let taken := c.rest.takeWhile p
  (taken, c.skip taken.length)

/-- The place of the first character that does not satisfy `p`. -/
def dropWhile (c : Cursor) (p : Char → Bool) : Cursor := (c.takeWhile p).2

/-- The place at the end of a comment, if one comes next. -/
def skipComment (c : Cursor) : Cursor :=
  if c.sees '#' 0 then c.dropWhile fun ch => !isBreak ch else c

/-- Whether three times the same mark stands alone at the beginning of the line. -/
def seesMark (c : Cursor) (ch : Char) : Bool :=
  c.column == 0 && c.sees ch 0 && c.sees ch 1 && c.sees ch 2 && c.seesBlank 3

/-- Whether a line begins that parts documents. -/
def seesDocumentMark (c : Cursor) : Bool := c.seesMark '-' || c.seesMark '.'

/-- An error about what begins here. -/
def fault (c : Cursor) (what : String) : Error := .malformed what c.line c.column

end Cursor

/-- How a line break is read: all but the separators of lines and paragraphs as a line feed. -/
def readBreak (c : Char) : Char :=
  if c == '\u2028' || c == '\u2029' then c else '\n'

end Yaml

end Provisioning
