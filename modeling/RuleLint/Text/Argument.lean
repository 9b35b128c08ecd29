import RuleLint.Text.Quoted

/-!
# Call arguments

`Cursor.argument` finds the call argument that starts at a cursor. The argument ends at the first
comma or closing parenthesis that lies outside every bracket and every literal; blanks at either
end do not belong to it. The three kinds of brackets are counted alike, and a closing bracket that
was never opened is part of the argument unless it is a parenthesis.
-/

namespace RuleLint

/-- Whether a character opens a bracket. -/
def isOpening (c : Char) : Bool :=
  c == '(' || c == '[' || c == '\x7b'

/-- Whether a character closes a bracket. -/
def isClosing (c : Char) : Bool :=
  c == ')' || c == ']' || c == '\x7d'

/-- Whether a character ends an argument when it lies outside brackets and literals. -/
def isDelimiter (c : Char) : Bool :=
  c == ',' || c == ')'

namespace Cursor

/-- The place of the delimiter that ends an argument, from a place at which `depth` brackets are
open, given as the two sides of the cursor. -/
def delimiterFrom (depth : Nat) (quotes : QuoteState) : List Char → List Char → Option Cursor
  | _, [] => none
  | before, c :: after =>
    if quotes = .outside && c != '"' then
      if isOpening c then
        delimiterFrom (depth + 1) .outside (c :: before) after
      else if isClosing c && 0 < depth then
        delimiterFrom (depth - 1) .outside (c :: before) after
      else if isDelimiter c && depth == 0 then
        some ⟨before, c :: after⟩
      else
        delimiterFrom depth .outside (c :: before) after
    else
      delimiterFrom depth (quotes.step c) (c :: before) after

/-- The argument that starts at the cursor, or after the blanks there. An empty
argument and one that does not end are none. -/
def argument (c : Cursor) : Option Piece := do
  let start := c.skipBlanks
  let delimiter ← delimiterFrom 0 .outside start.before start.after
  if delimiter.after.length < start.after.length then
    return ⟨start, delimiter.backBlanks⟩
  else
    none

end Cursor

end RuleLint
