import RuleLint.Config.Basic
import RuleLint.Suite

/-!
# Linting a document

`lint` runs a suite on a document, under settings and a configuration, and keeps what neither the
configuration nor the directives of the document take away.
-/

namespace RuleLint

/-- The findings of a suite in a document, and the failures of its checks. -/
def lint (suite : Suite) (document : Document) (settings : Settings) (config : Config) : Run :=
  let limit := (config.settingsOver settings).normalized.limit
  let run := suite.run document limit
  { run with
    diagnostics := config.apply (Suppressions.ofText document.chars) run.diagnostics }

end RuleLint
