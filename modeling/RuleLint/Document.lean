import RuleLint.Text.Position

/-!
# Documents

A document is one snapshot of the source of a rule: what it says, in which dialect, and which
version of it this is. Snapshots are values; new content makes a new snapshot.
-/

namespace RuleLint

/-- One snapshot of the source of a rule. The language is the identifier that the client gave,
known or not. -/
structure Document where
  uri : String
  language : String
  version : Int
  text : String
deriving DecidableEq, Repr

namespace Document

variable (document : Document)

/-- The characters of the text. -/
def chars : List Char :=
  document.text.toList

/-- The document with new content. -/
def withText (version : Int) (text : String) : Document :=
  { document with version, text }

/-- Where the lines of the text start. -/
def lines : LineTable :=
  LineTable.ofText document.chars

/-- The position of a byte offset. -/
def positionAt (offset : Nat) : Position :=
  document.lines.position offset

/-- The range of a span of byte offsets. -/
def rangeAt (span : Span) : Range :=
  document.lines.range span

end Document

end RuleLint
