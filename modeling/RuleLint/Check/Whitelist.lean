import RuleLint.Check.Case

/-!
# Calls of whitelisting macros

A whitelisting macro is called with the name of the rule, as a literal, and the key that is looked
up. The name has to be the one that the document declares (`whitelistName`), and the key has to be
the expression that the document assigns to `$alert.key` (`whitelistKey`). Keys are compared without
blanks and sigils. A document that declares no name, or assigns no key, has nothing to compare with.
-/

namespace RuleLint.Check

/-- A call of a whitelisting macro, up to the literal; the piece is the name in the literal. -/
def whitelistCall : Recogniser Piece := fun c ↦ do
  let c ← c.word "filter::CheckWL_"
  let c ← c.run isWord
  let c ← c.skipBlanks.char '('
  quoted c.skipBlanks

/-! ### Keys -/

/-- An assignment to `$alert.key`; the value is the expression up to the end of the line, without
the blanks at its end. The expression starts after any blanks, on whichever line that is. If nothing
but blanks is left in the document, the expression is empty, and there has to be a blank other than
a line feed. -/
def keyAssignment : Recogniser (List Char) := fun c ↦ do
  let c ← c.word "$alert.key"
  let c ← c.skipBlanks.char '='
  let start := c.skipBlanks
  if start.after.isEmpty then
    if (c.upTo start).any (· != '\n') then return ([], start) else none
  else
    let lineEnd := start.skip (· != '\n')
    return (start.upTo lineEnd.backBlanks, lineEnd)

/-- A key without blanks and sigils. -/
def normalKey (key : List Char) : List Char :=
  key.filter fun c ↦ !isBlank c && c != '$'

/-- The key that the document declares, in normal form. -/
def declaredKey (text : List Char) : Option (List Char) :=
  (findFirst keyAssignment text).map fun found ↦ normalKey found.value

/-- The declared key of a rule that hands on the key of another. Any key may be looked up then. -/
def inheritedKey : List Char := "alert.key".toList

/-- The key that may always be looked up. -/
def forwardedKey : List Char := "lower(alert.key)".toList

/-- The key argument of a call, which starts after the comma that follows the name. -/
def keyArgument (call : Found Piece) : Option Piece := do
  let c ← call.stop.skipBlanks.char ','
  c.argument

/-- The message of the rule on keys. -/
def keyMessage : String :=
  "The whitelisting key differs from the $alert.key value"

/-- The calls of a document with a key other than the declared one. -/
def keyFindings (context : Context) (declared : List Char) : List Diagnostic :=
  (findAll whitelistCall context.chars).filterMap fun call ↦ do
    let argument ← keyArgument call
    let key := normalKey argument.content
    if key == forwardedKey || key == declared then
      none
    else
      some (context.finding .whitelistKeyMismatch argument.span keyMessage)

/-- The check of the keys of whitelisting macros. -/
def whitelistKey : Check where
  rule := .whitelistKeyMismatch
  dialects := [.correlation]
  search context :=
    .ok <| match declaredKey context.chars with
    | none => []
    | some declared =>
      if declared == inheritedKey then [] else context.capped (keyFindings context declared)

/-! ### Names -/

/-- Whether a character may stand in the name of a rule. -/
def isRuleNameChar (c : Char) : Bool :=
  !isBlank c && c != ':'

/-- The declaration of a name at the start of a line: `rule`, the name and a colon. -/
def nameDeclaration : Recogniser (List Char) := fun c ↦
  if c.atLineStart then do
    let c ← c.skipBlanks.word "rule"
    let start ← c.run isBlank
    let stop ← start.run isRuleNameChar
    let next ← stop.skipBlanks.char ':'
    return (start.upTo stop, next)
  else
    none

/-- The name that the document declares. -/
def declaredName (text : List Char) : Option (List Char) :=
  (findFirst nameDeclaration text).map Found.value

/-- The message on a name that is not the declared one. -/
def nameMessage (declared : List Char) : String :=
  "The first argument of the whitelisting macro differs from the rule name '"
    ++ String.ofList declared ++ "'"

/-- The calls of a document with a name other than the declared one. -/
def nameFindings (context : Context) (declared : List Char) : List Diagnostic :=
  (findAll whitelistCall context.chars).filterMap fun call ↦
    if call.value.content == declared then
      none
    else
      some (context.finding .whitelistRuleNameMismatch call.value.span (nameMessage declared))

/-- The check of the names in calls of whitelisting macros. -/
def whitelistName : Check where
  rule := .whitelistRuleNameMismatch
  dialects := [.correlation]
  search context :=
    .ok <| match declaredName context.chars with
    | none => []
    | some declared => context.capped (nameFindings context declared)

end RuleLint.Check
