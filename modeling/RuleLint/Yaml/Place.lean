import RuleLint.Text.Bytes
import RuleLint.Yaml.Fault

/-!
# Places in YAML text

Indentation gives YAML its structure, so a reader has to know line and column of where it stands.
Line breaks are carriage returns, line feeds, both together, and the three Unicode breaks; a break
inside a scalar is read as a line feed, except for the line and the paragraph separator.
-/

namespace RuleLint.Yaml

/-- Whether a character separates tokens within a line. -/
def isSpaceOrTab (c : Char) : Bool :=
  c == ' ' || c == '\t'

/-- Whether a character breaks a line. -/
def isBreak (c : Char) : Bool :=
  c == '\n' || c == '\r' || c == '\u0085' || c == '\u2028' || c == '\u2029'

/-- Whether there is a blank, a break or nothing. -/
def isGap (next : Option Char) : Bool :=
  next.all fun c ↦ isSpaceOrTab c || isBreak c

/-- Whether a stream may hold a character. -/
def isAllowed (c : Char) : Bool :=
  let n := c.toNat
  n == 0x9 || n == 0xA || n == 0xD || (0x20 ≤ n && n ≤ 0x7E) || n == 0x85
    || (0xA0 ≤ n && n ≤ 0xD7FF) || (0xE000 ≤ n && n ≤ 0xFFFD)
    || (0x10000 ≤ n && n ≤ 0x10FFFF)

/-- Whether a character may stand in the names of anchors, handles and directives. -/
def isNameChar (c : Char) : Bool :=
  c.isAlphanum || c == '_' || c == '-'

/-- The value of a hexadecimal digit. -/
def hexValue? (c : Char) : Option Nat :=
  if c.isDigit then some (c.toNat - '0'.toNat)
  else if 'a' ≤ c && c ≤ 'f' then some (c.toNat - 'a'.toNat + 10)
  else if 'A' ≤ c && c ≤ 'F' then some (c.toNat - 'A'.toNat + 10)
  else none

/-- A place in a text: what is left of it, and how far it is from the start. -/
structure Place where
  rest : List Char
  /-- The number of bytes before the place. -/
  offset : Nat
  line : Nat
  column : Nat

namespace Place

/-- The start of a text. -/
def start (text : List Char) : Place :=
  ⟨text, 0, 0, 0⟩

/-- The next character. -/
def peek (place : Place) : Option Char :=
  place.rest.head?

/-- The character after a number of others. -/
def peekAt (place : Place) (n : Nat) : Option Char :=
  place.rest[n]?

/-- Whether the next character is the given one. -/
def sees (place : Place) (c : Char) : Bool :=
  place.peek == some c

/-- Past a character that is no break. -/
def skip (place : Place) : Place :=
  { place with
    rest := place.rest.tail
    offset := place.offset + byteLength (place.rest.take 1)
    column := place.column + 1 }

/-- Past a number of characters that are no breaks. -/
def skipMany (place : Place) (n : Nat) : Place :=
  { place with
    rest := place.rest.drop n
    offset := place.offset + byteLength (place.rest.take n)
    column := place.column + n }

/-- Past the longest run of characters with `p`, none of which is a break. -/
def skipWhile (place : Place) (p : Char → Bool) : Place :=
  place.skipMany (place.rest.takeWhile p).length

/-- Past a break. -/
def skipBreak (place : Place) : Place :=
  match place.rest with
  | '\r' :: '\n' :: rest => ⟨rest, place.offset + 2, place.line + 1, 0⟩
  | c :: rest => ⟨rest, place.offset + c.utf8Size, place.line + 1, 0⟩
  | [] => place

/-- How the break at a place is read. -/
def breakText (place : Place) : List Char :=
  match place.peek with
  | none => []
  | some c => if c == '\u2028' || c == '\u2029' then [c] else ['\n']

/-- Whether the next character is a break. -/
def atBreak (place : Place) : Bool :=
  place.peek.any isBreak

/-- Whether the next character is a space or a tab. -/
def atSpaceOrTab (place : Place) : Bool :=
  place.peek.any isSpaceOrTab

/-- Whether a character stands three times at the start of a line, with a gap after it. -/
def atMark (place : Place) (c : Char) : Bool :=
  place.column == 0 && place.rest.take 3 == [c, c, c] && isGap (place.peekAt 3)

/-- Whether a line starts that begins or ends a document. -/
def atDocumentMark (place : Place) : Bool :=
  place.atMark '-' || place.atMark '.'

/-- Past the rest of the line if there is nothing but blanks and a comment in it; the break is
skipped too. -/
def skipLineEnd? (place : Place) : Option Place :=
  let place := place.skipWhile isSpaceOrTab
  let place := if place.sees '#' then place.skipWhile fun c ↦ !isBreak c else place
  match place.peek with
  | none => some place
  | some c => if isBreak c then some place.skipBreak else none

end Place

end RuleLint.Yaml
