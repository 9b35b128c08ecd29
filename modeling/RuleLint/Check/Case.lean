import RuleLint.Check.Basic
import RuleLint.Text.Argument
import RuleLint.Text.Uppercase

/-!
# Lowered values and uppercase literals

A value that has been through `lower(…)` has no uppercase letter, so comparing it with a literal
that has one can never succeed. Two rules look for this: a comparison by `==` or `!=`
(`lowerComparison`), and a call of `find_substr`, `match` or `regex` whose first argument is lowered
and whose second is such a literal (`nestedLower`). The literal of a call may be a regular
expression, so class escapes such as `\S+` are taken out before it is judged.

The argument of `lower` is read as the shortest run without blanks after which the rest fits.
-/

namespace RuleLint.Check

/-- Whether a character is no blank. -/
def isSolid (c : Char) : Bool :=
  !isBlank c

/-- `lower ( argument )` and what `next` reads after it. -/
def loweredThen {α : Type} (next : Cursor → Option α) (c : Cursor) : Option α := do
  let c ← c.word "lower"
  let c ← c.skipBlanks.char '('
  c.skipBlanks.shortest isSolid fun c ↦ do
    let c ← c.skipBlanks.char ')'
    next c.skipBlanks

/-! ### Comparisons -/

/-- `==` or `!=`, and a literal. -/
def comparedLiteral : Recogniser Piece := fun c ↦ do
  let c ← (c.word "==").or (c.word "!=")
  quoted c.skipBlanks

/-- A comparison of a lowered value with a literal. -/
def comparison : Recogniser Piece := fun c ↦
  if c.atWordBoundary then loweredThen comparedLiteral c else none

/-- The message of the rule on comparisons. -/
def comparisonMessage : String :=
  "Condition is always false: the lower() result is compared with a literal that contains "
    ++ "uppercase letters"

/-- The comparisons of a document that are always false. -/
def lowerComparisonFindings (context : Context) : List Diagnostic :=
  (findAll comparison context.chars).filterMap fun found ↦
    if hasUppercase found.value.content then
      some (context.finding .lowerComparisonCase found.span comparisonMessage)
    else
      none

/-- The check of comparisons with lowered values. -/
def lowerComparison : Check where
  rule := .lowerComparisonCase
  dialects := [.correlation]
  search context := .ok (context.capped (lowerComparisonFindings context))

/-! ### Calls -/

/-- Whether a letter names a class or an anchor after a backslash. -/
def isClassLetter (c : Char) : Bool :=
  c == 'A' || c == 'B' || c == 'S' || c == 'W'

/-- Whether a character may follow a class escape: a quantifier or a dot. -/
def isQuantifier (c : Char) : Bool :=
  c == '+' || c == '*' || c == '?' || c == '.'

/-- Whether what follows a backslash makes it a class escape: a class letter at the end or before
a quantifier. -/
def isClassEscape : List Char → Bool
  | [] => false
  | letter :: after => isClassLetter letter && (after.isEmpty || after.head?.any isQuantifier)

/-- Where the removal of class escapes stands. -/
inductive EscapeScan where
  /-- Outside an escape. -/
  | outside
  /-- Before the letter of an escape. -/
  | letter
  /-- After the letter of an escape. -/
  | quantifiers
deriving DecidableEq, Repr

/-- The part of a regular expression that is left when class escapes are taken out. -/
def dropClassEscapes : EscapeScan → List Char → List Char
  | _, [] => []
  | .letter, _ :: rest => dropClassEscapes .quantifiers rest
  | .quantifiers, c :: rest =>
    if isQuantifier c then dropClassEscapes .quantifiers rest
    else if c == '\\' && isClassEscape rest then dropClassEscapes .letter rest
    else c :: dropClassEscapes .outside rest
  | .outside, c :: rest =>
    if c == '\\' && isClassEscape rest then dropClassEscapes .letter rest
    else c :: dropClassEscapes .outside rest

/-- A regular expression without its class escapes, each taken out together with the quantifiers
after it. A backslash counts as the start of an escape wherever it stands, and an escape counts
only before a quantifier, before a dot or at the end, so the parts of a path such as `\Windows`
stay. -/
def withoutClassEscapes (pattern : List Char) : List Char :=
  dropClassEscapes .outside pattern

/-- A comma, and a literal. -/
def nextLiteral : Recogniser Piece := fun c ↦ do
  let c ← c.char ','
  quoted c.skipBlanks

/-- A call of a function with a lowered value and a literal. -/
def loweredCall (function : String) : Recogniser Piece := fun c ↦
  if c.atWordBoundary then do
    let c ← c.word function
    let c ← c.skipBlanks.char '('
    loweredThen nextLiteral c.skipBlanks
  else
    none

/-- The functions whose calls are judged, in order. -/
def matchingFunctions : List String :=
  ["find_substr", "match", "regex"]

/-- The message of the rule on calls. -/
def loweredCallMessage : String :=
  "Condition is always false: the first argument is lowered but the second one contains "
    ++ "uppercase letters"

/-- The calls of a function in a document that are always false. -/
def loweredCallFindings (context : Context) (function : String) : List Diagnostic :=
  (findAll (loweredCall function) context.chars).filterMap fun found ↦
    if hasUppercase (withoutClassEscapes found.value.content) then
      some (context.finding .nestedLowerCase found.span loweredCallMessage)
    else
      none

/-- The check of calls with lowered values. Each function has a loop of its own. -/
def nestedLower : Check where
  rule := .nestedLowerCase
  dialects := [.correlation]
  search context :=
    .ok (matchingFunctions.flatMap fun function ↦
      context.capped (loweredCallFindings context function))

end RuleLint.Check
