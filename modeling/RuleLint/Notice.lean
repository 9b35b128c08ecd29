import RuleLint.Error
import RuleLint.Suite

/-!
# Notices

Some things go wrong without stopping anything: they are noted for the log. A notice says what
happened; `Notice.text` is its wording.
-/

namespace RuleLint

/-- How urgent a notice is. -/
inductive Level where
  | warning
  | error
deriving DecidableEq, Repr

/-- The name of a level. -/
def Level.name : Level → String
  | .warning => "warn"
  | .error => "error"

/-- Something for the log. -/
inductive Notice where
  /-- A check failed and its findings are lost. -/
  | checkFailed (failure : CheckFailure)
  /-- A document changed that was not open. -/
  | changeUnopened (uri : String)
  /-- The settings of a document could not be had. -/
  | settingsUnavailable (uri reason : String)
  /-- A file below a directory could not be read. -/
  | fileUnreadable (path : String) (error : Error)
deriving DecidableEq, Repr

namespace Notice

/-- How urgent a notice is. -/
def level : Notice → Level
  | .checkFailed _ => .error
  | _ => .warning

/-- The wording of a notice. -/
def text : Notice → String
  | .checkFailed failure =>
    "validator " ++ failure.rule.code ++ " failed on " ++ failure.uri ++ ": "
      ++ failure.failure.reason
  | .changeUnopened uri => "change for unopened document " ++ uri
  | .settingsUnavailable uri reason =>
    (Error.settings uri reason).message ++ "; using default settings"
  | .fileUnreadable path error => "failed to read " ++ path ++ ": " ++ error.message

end Notice

end RuleLint
