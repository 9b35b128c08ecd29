import RuleLint.Check.Case

/-!
# Assignments and comparisons in blocks

Rule source has blocks in braces after a header; a block ends at the first closing brace. Inside
`on` and `emit` blocks only fields with a sigil may be assigned (`blockAssignment`), and inside
`filter` blocks values are compared with `==` (`filterEquals`).

The body of a block is searched as a text of its own: nothing found in it reaches beyond it, and
its start counts as the start of a line. Finds are moved to the document by the offset of the body.
Each block has a loop of its own.
-/

namespace RuleLint.Check

/-- A block of rule source. -/
structure Block where
  header : List Char
  body : List Char
  /-- The byte offset of the body in the document. -/
  base : Nat

/-- A block whose header is read by `header`. -/
def block (header : Cursor → Option Cursor) : Recogniser Block := fun c ↦
  if c.atWordBoundary then do
    let headerEnd ← header c
    let start ← headerEnd.skipBlanks.char '\x7b'
    let stop := start.skip (· != '\x7d')
    let next ← stop.char '\x7d'
    return (⟨c.upTo headerEnd, start.upTo stop, start.offset⟩, next)
  else
    none

/-- The blocks of a document whose headers are read by `header`. -/
def blocks (header : Cursor → Option Cursor) (context : Context) : List Block :=
  (findAll (block header) context.chars).map Found.value

/-! ### Assignments in event blocks -/

/-- Whether a character may stand in the name of an event. -/
def isEventNameChar (c : Char) : Bool :=
  !isBlank c && c != '\x7b'

/-- The header of an event block: `on` and the name of an event, or `emit`. -/
def eventHeader (c : Cursor) : Option Cursor :=
  (do
    let c ← c.word "on"
    let c ← c.run isBlank
    c.run isEventNameChar).or (c.word "emit")

/-- Whether a character may stand in the name of a field. -/
def isFieldChar (c : Char) : Bool :=
  ('a' ≤ c && c ≤ 'z') || c.isDigit || c == '_' || c == '.'

/-- A bare field at the start of a line, and what follows it. -/
structure Assignment where
  field : Piece
  /-- Whether the operator is `=` and not `==`. -/
  isSingle : Bool

/-- A value: blanks, and a run without blanks. -/
def value (c : Cursor) : Option Cursor :=
  c.skipBlanks.run isSolid

/-- A field at the start of a line with an operator and a value. The operator is `==` only if a
value follows both signs; else the second sign belongs to the value. -/
def assignment : Recogniser Assignment := fun c ↦
  if c.atLineStart then do
    let start ← c.run isBlank
    let stop ← start.run isFieldChar
    let operatorEnd ← stop.skipBlanks.char '='
    match (operatorEnd.char '=').bind value with
    | some next => return (⟨⟨start, stop⟩, false⟩, next)
    | none =>
      let next ← value operatorEnd
      return (⟨⟨start, stop⟩, true⟩, next)
  else
    none

/-- The message on an assignment in a block. -/
def assignmentMessage (field header : List Char) : String :=
  "Assigning event field " ++ String.ofList field ++ " is not allowed in block '"
    ++ String.ofList header ++ "'. Use $" ++ String.ofList field

/-- The assignments in a block that lack a sigil. -/
def assignmentFindings (context : Context) (block : Block) : List Diagnostic :=
  (findAll assignment block.body).filterMap fun found ↦
    let field := found.value.field
    if found.value.isSingle then
      some (context.finding .fieldAssignmentInBlock
        ((field.start.spanTo found.stop).shift block.base)
        (assignmentMessage field.content block.header))
    else
      none

/-- The check of assignments in event blocks. -/
def blockAssignment : Check where
  rule := .fieldAssignmentInBlock
  dialects := [.correlation]
  search context :=
    .ok ((blocks eventHeader context).flatMap fun block ↦
      context.capped (assignmentFindings context block))

/-! ### Comparisons in filter blocks -/

/-- A word, a run of equals signs and a literal, set apart by blanks. -/
structure Equation where
  subject : Piece
  operator : List Char

/-- An equation, with the blanks before it. -/
def equation : Recogniser Equation := fun c ↦ do
  let start ← c.run isBlank
  let stop ← start.run isSolid
  let operator ← stop.run isBlank
  let operatorEnd ← operator.run (· == '=')
  let literal ← operatorEnd.run isBlank
  let (_, next) ← quoted literal
  return (⟨⟨start, stop⟩, operator.upTo operatorEnd⟩, next)

/-- The message of the rule on comparisons in filter blocks. -/
def equationMessage : String :=
  "Values in a filter block are compared with =="

/-- The equations in a block that have a single sign. -/
def equationFindings (context : Context) (block : Block) : List Diagnostic :=
  (findAll equation block.body).filterMap fun found ↦
    if found.value.operator == ['='] then
      some (context.finding .filterSingleEquals
        ((found.value.subject.start.spanTo found.stop).shift block.base) equationMessage)
    else
      none

/-- The check of comparisons in filter blocks. -/
def filterEquals : Check where
  rule := .filterSingleEquals
  dialects := [.correlation, .enrichment]
  search context :=
    .ok ((blocks (Cursor.word "filter") context).flatMap fun block ↦
      context.capped (equationFindings context block))

end RuleLint.Check
