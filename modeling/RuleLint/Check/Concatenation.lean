import RuleLint.Check.Case

/-!
# Concatenation of numbers and strings

Joining a numeric field to a string literal with `+` converts the number without being asked and
can give an empty string. The fields known to be numeric are listed by name; `numfield` stands with
any number after it.
-/

namespace RuleLint.Check

/-- The numeric fields with fixed names. -/
def numericFieldNames : List String :=
  ["dst.port", "src.port", "assigned_dst_port", "assigned_src_port", "count", "dst.geo.asn",
    "src.geo.asn", "duration", "external_dst.geo.asn", "external_src.geo.asn", "logon_type"]

/-- The cursor itself, if it stands at a word boundary. -/
def boundary (c : Cursor) : Option Cursor :=
  if c.atWordBoundary then some c else none

/-- `numfield` and a number. -/
def numberedField (c : Cursor) : Option Cursor := do
  let c ← c.word "numfield"
  let c ← c.run isDecimalDigit
  boundary c

/-- The name of a numeric field that ends at a word boundary. -/
def numericFieldName (c : Cursor) : Option Cursor :=
  (numericFieldNames.findSome? fun name ↦ (c.word name).bind boundary).or (numberedField c)

/-- A numeric field, with or without a sigil, that starts and ends at a word boundary. -/
def numericField (c : Cursor) : Option Cursor := do
  let c ← boundary ((c.char '$').getD c)
  numericFieldName c

/-- A numeric field, `+` and a literal. -/
def fieldPlusLiteral (c : Cursor) : Option Cursor := do
  let c ← numericField c
  let c ← c.skipBlanks.char '+'
  let (_, c) ← quoted c.skipBlanks
  return c

/-- A literal, `+` and a numeric field. -/
def literalPlusField (c : Cursor) : Option Cursor := do
  let (_, c) ← quoted c
  let c ← c.skipBlanks.char '+'
  numericField c.skipBlanks

/-- A concatenation of a numeric field and a literal, in either order. -/
def concatenation : Recogniser Unit := fun c ↦
  ((fieldPlusLiteral c).or (literalPlusField c)).map fun next ↦ ((), next)

/-- The message of the rule on concatenations. -/
def concatenationMessage : String :=
  "Possible implicit conversion of a Number to a string, which can produce an empty string. "
    ++ "Use string() to convert explicitly"

/-- The concatenations of numbers and strings in a document. -/
def concatenationFindings (context : Context) : List Diagnostic :=
  (findAll concatenation context.chars).map fun found ↦
    context.finding .numberToStringConcat found.span concatenationMessage

/-- The check of concatenations. -/
def numberConcatenation : Check where
  rule := .numberToStringConcat
  dialects := [.correlation, .enrichment]
  search context := .ok (context.capped (concatenationFindings context))

end RuleLint.Check
