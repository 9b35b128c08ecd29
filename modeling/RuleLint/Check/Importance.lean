import RuleLint.Check.Case

/-!
# Importance and incident severity

A rule grades its alerts with `$importance` and its incidents with `$incident.severity`. When both
are set to literals, the literals have to be the same, unless the severity is set to `$importance`
itself. Only the first assignment to each counts, so there is at most one finding.
-/

namespace RuleLint.Check

/-- An assignment of a quoted grade to a variable. The grade is the shortest text without blanks up
to a quote; it has at least one character, which may itself be a quote. -/
def gradeAssignment (name : String) : Recogniser (List Char) := fun c ↦ do
  let c ← c.word name
  let c ← c.skipBlanks.char '='
  let start ← c.skipBlanks.char '"'
  start.shortest isSolid fun stop ↦ do
    let next ← stop.char '"'
    return (start.upTo stop, next)

/-- The variable that grades alerts. -/
def importanceVariable : String := "$importance"

/-- The variable that grades incidents. -/
def severityVariable : String := "$incident.severity"

/-- The message on two grades that differ. -/
def gradeMessage (importance severity : List Char) : String :=
  "Alert importance \"" ++ String.ofList importance ++ "\" differs from incident severity \""
    ++ String.ofList severity ++ "\""

/-- The finding of a document whose grades differ. -/
def gradeFinding (context : Context) : Option Diagnostic := do
  let importance ← findFirst (gradeAssignment importanceVariable) context.chars
  let severity ← findFirst (gradeAssignment severityVariable) context.chars
  if severity.value == importance.value || severity.value == importanceVariable.toList then
    none
  else
    some (context.finding .importanceSeverityMismatch severity.span
      (gradeMessage importance.value severity.value))

/-- The check of importance and severity. -/
def importanceSeverity : Check where
  rule := .importanceSeverityMismatch
  dialects := [.correlation]
  search context := .ok (gradeFinding context).toList

end RuleLint.Check
