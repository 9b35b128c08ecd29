import RuleLint.Diagnostic
import RuleLint.Directive
import RuleLint.Settings

/-!
# Configurations

A configuration switches rules off, gives findings another severity and may set the limit of every
document. Configurations are put on top of each other with `Config.merge`: what either switches off
is off, and for severities and the limit the upper one wins where it says something.
-/

namespace RuleLint

/-- What a configuration says. -/
structure Config where
  /-- The rules that are switched off. -/
  disabled : Rule → Bool
  /-- The severities that differ from those of the findings. -/
  severity : Rule → Option Severity
  /-- The limit of every document. -/
  limit : Option Nat

namespace Config

/-- The configuration that says nothing. -/
def empty : Config :=
  ⟨fun _ ↦ false, fun _ ↦ none, none⟩

/-- The configuration that switches one rule off. -/
def disabling (rule : Rule) : Config :=
  { empty with disabled := fun r ↦ r = rule }

/-- The configuration that gives the findings of one rule a severity. -/
def regrading (rule : Rule) (severity : Severity) : Config :=
  { empty with severity := fun r ↦ if r = rule then some severity else none }

/-- One configuration with another on top of it. -/
def merge (lower upper : Config) : Config where
  disabled rule := lower.disabled rule || upper.disabled rule
  severity rule := (upper.severity rule).or (lower.severity rule)
  limit := upper.limit.or lower.limit

/-- The settings of a document under a configuration. -/
def settingsOver (config : Config) (settings : Settings) : Settings :=
  match config.limit with
  | some limit => .ofLimit limit
  | none => settings

/-- A finding with the severity that the configuration gives it. -/
def regrade (config : Config) (diagnostic : Diagnostic) : Diagnostic :=
  match config.severity diagnostic.rule with
  | some severity => { diagnostic with severity }
  | none => diagnostic

/-- The findings that are neither switched off nor silenced, with their severities. -/
def apply (config : Config) (suppressions : Suppressions) (diagnostics : List Diagnostic) :
    List Diagnostic :=
  ((diagnostics.filter fun d ↦ !config.disabled d.rule).filter fun d ↦
    !suppressions.silences d).map config.regrade

/-- The rules that are switched off, in the order of checking. -/
def disabledRules (config : Config) : List Rule :=
  Rule.all.filter config.disabled

end Config

end RuleLint
