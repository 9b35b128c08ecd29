import RuleLint.Rule
import RuleLint.Text.Position

/-!
# Diagnostics

A diagnostic is one finding, with the range of the document that it is about. `Diagnostic.render`
is its form in reports: a line with severity, rule and message, and a line with the position,
counted from one. Numbers of lines and columns are words of 32 bits, so after the last of them comes
zero again.
-/

namespace RuleLint

/-- One finding. -/
structure Diagnostic where
  rule : Rule
  severity : Severity
  range : Range
  message : String
deriving DecidableEq, Repr

namespace Diagnostic

/-- The name under which editors list the findings. -/
def source : String := "xp"

/-- The form of a finding in reports. -/
def render (diagnostic : Diagnostic) : String :=
  let start := diagnostic.range.start
  diagnostic.severity.name ++ "[" ++ diagnostic.rule.code ++ "]: " ++ diagnostic.message
    ++ "\n    --> " ++ toString (start.line + 1).toNat ++ ":"
    ++ toString (start.character + 1).toNat

end Diagnostic

end RuleLint
