/-!
# Severities

How serious a finding is. A severity has a number, which editors read, a name, which people read,
and one or more spellings in configuration files.
-/

namespace RuleLint

/-- How serious a finding is, from the worst on. -/
inductive Severity where
  /-- The rule is wrong and will misbehave. -/
  | error
  /-- Probably a mistake. -/
  | warning
  | information
  | hint
deriving DecidableEq, Repr

namespace Severity

/-- The number of a severity in the editor protocol. -/
def number : Severity → Nat
  | .error => 1
  | .warning => 2
  | .information => 3
  | .hint => 4

/-- The name of a severity in reports. -/
def name : Severity → String
  | .error => "error"
  | .warning => "warning"
  | .information => "info"
  | .hint => "hint"

/-- The severity with a spelling of the configuration. Spellings are case sensitive, and
`information` may be shortened to `info`. -/
def ofName? : String → Option Severity
  | "error" => some .error
  | "warning" => some .warning
  | "information" => some .information
  | "info" => some .information
  | "hint" => some .hint
  | _ => none

end Severity

end RuleLint
