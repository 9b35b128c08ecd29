import RuleLint.Text.Bisect
import RuleLint.Text.Bytes

/-!
# Lines and columns

Findings are located by byte offsets and reported by zero-based lines and columns, where a column
counts the UTF-16 units since the start of the line. A `LineTable` holds the places at which lines
start, each with the text from there on; a line ends at a line feed and nowhere else, so a carriage
return belongs to its line. Finding a position takes a search in the table and a walk along one
line.

`LineTable.position?` answers only if its look-up is in bounds; `LineTable.position` is the
function to call. Both numbers of a position are 32-bit words.
-/

namespace RuleLint

/-- A zero-based line and a column in UTF-16 units. -/
structure Position where
  line : UInt32
  character : UInt32
deriving DecidableEq, Repr, Inhabited

/-- Order of positions: by line, then by column. -/
instance : LT Position where
  lt p q := p.line < q.line ∨ p.line = q.line ∧ p.character < q.character

instance : LE Position where
  le p q := p.line < q.line ∨ p.line = q.line ∧ p.character ≤ q.character

/-- A stretch of text between two positions. -/
structure Range where
  start : Position
  stop : Position
deriving DecidableEq, Repr, Inhabited

/-- A stretch of text between two byte offsets. -/
structure Span where
  start : Nat
  stop : Nat
deriving DecidableEq, Repr, Inhabited

/-- The span seen from a text in which the measured part starts at `base`. -/
def Span.shift (span : Span) (base : Nat) : Span :=
  ⟨base + span.start, base + span.stop⟩

/-- The start of a line: its byte offset, and the text from there to the end. -/
structure LineStart where
  offset : Nat
  rest : List Char
deriving DecidableEq, Repr

/-- The starts of the lines of a text, in order. -/
structure LineTable where
  starts : Array LineStart
deriving DecidableEq, Repr

namespace LineTable

/-- The starts just after the line feeds of a text that itself starts at `offset`. -/
def startsAfter : List Char → Nat → List LineStart
  | [], _ => []
  | c :: cs, offset =>
    let next := offset + c.utf8Size
    if c = '\n' then ⟨next, cs⟩ :: startsAfter cs next else startsAfter cs next

/-- The first line starts at zero, each other one after a line feed. -/
def ofText (text : List Char) : LineTable :=
  ⟨(⟨0, text⟩ :: startsAfter text 0).toArray⟩

/-- The index of the line in which an offset lies: the last line that does not start after it. -/
def lineAt (table : LineTable) (offset : Nat) : Nat :=
  bisect (fun i ↦ (table.starts[i]?).any (·.offset ≤ offset)) 0 table.starts.size - 1

/-- The position of the last character boundary that does not lie after an offset. -/
def position? (table : LineTable) (offset : Nat) : Option Position := do
  let line := table.lineAt offset
  let start ← table.starts[line]?
  let column := takeBytes start.rest (offset - start.offset)
  return ⟨line.toUInt32, (utf16Length column).toUInt32⟩

/-- The position of an offset: offsets beyond the end count as the end, and offsets inside a
character as its start. -/
def position (table : LineTable) (offset : Nat) : Position :=
  (table.position? offset).getD default

/-- The range of a span. -/
def range (table : LineTable) (span : Span) : Range :=
  ⟨table.position span.start, table.position span.stop⟩

end LineTable

end RuleLint
