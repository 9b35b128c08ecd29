import RuleLint.Text.Search

/-!
# Quoted literals

A literal of rule source is written between double quotes on one line. Two readings of it are in
use. Patterns take the shortest text between two quotes (`quoted`), in which a backslash has no
meaning. Comments and call arguments are found with `QuoteState`, which follows a line character by
character and lets a backslash inside a literal take the next character with it.
-/

namespace RuleLint

/-- A part of a text, given by the cursors at its two ends. -/
structure Piece where
  start : Cursor
  stop : Cursor

namespace Piece

/-- The characters of a piece. -/
def content (piece : Piece) : List Char :=
  piece.start.upTo piece.stop

/-- The span of a piece. -/
def span (piece : Piece) : Span :=
  piece.start.spanTo piece.stop

end Piece

/-- Whether a character may stand in a literal as patterns read it. -/
def isQuotable (c : Char) : Bool :=
  c != '"' && c != '\n'

/-- A quoted literal; the piece is what stands between the quotes. -/
def quoted : Recogniser Piece := fun c ↦ do
  let start ← c.char '"'
  let stop := start.skip isQuotable
  let next ← stop.char '"'
  return (⟨start, stop⟩, next)

/-- Where a scan stands with respect to literals. -/
inductive QuoteState where
  /-- Outside every literal. -/
  | outside
  /-- Inside a literal. -/
  | inside
  /-- Inside a literal, just after a backslash. -/
  | escaped
deriving DecidableEq, Repr

/-- The state after one more character. -/
def QuoteState.step : QuoteState → Char → QuoteState
  | .outside, c => if c = '"' then .inside else .outside
  | .inside, c => if c = '"' then .outside else if c = '\\' then .escaped else .inside
  | .escaped, _ => .inside

/-- The state after more characters. -/
def QuoteState.steps (state : QuoteState) (cs : List Char) : QuoteState :=
  cs.foldl QuoteState.step state

end RuleLint
