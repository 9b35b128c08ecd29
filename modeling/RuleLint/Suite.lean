import RuleLint.Check.Block
import RuleLint.Check.Case
import RuleLint.Check.Concatenation
import RuleLint.Check.Importance
import RuleLint.Check.Whitelist

/-!
# Suites of checks

A suite is a list of checks that are run one after the other. A check that fails adds nothing to the
findings and does not keep the others from running; its failure is noted.
-/

namespace RuleLint

/-- Checks in the order in which they are run. -/
abbrev Suite := List Check

/-- That a check failed in a document. -/
structure CheckFailure where
  rule : Rule
  uri : String
  failure : Failure
deriving DecidableEq, Repr

/-- What comes of running checks. -/
structure Run where
  diagnostics : List Diagnostic
  failures : List CheckFailure
deriving DecidableEq, Repr

namespace Suite

/-- The built-in checks. -/
def standard : Suite :=
  [Check.lowerComparison, Check.nestedLower, Check.blockAssignment, Check.numberConcatenation,
    Check.filterEquals, Check.whitelistKey, Check.whitelistName, Check.importanceSeverity]

theorem standard_map_rule : standard.map Check.rule = Rule.all := rfl

/-- Run every check of a suite on a document. -/
def run : Suite → Document → Nat → Run
  | [], _, _ => ⟨[], []⟩
  | check :: suite, document, limit =>
    let rest := run suite document limit
    match check.validate document limit with
    | .ok diagnostics => { rest with diagnostics := diagnostics ++ rest.diagnostics }
    | .error failure =>
      { rest with failures := ⟨check.rule, document.uri, failure⟩ :: rest.failures }

end Suite

end RuleLint
