import RuleLint.Config.Source

/-!
# Errors

What can go wrong outside a check: a configuration that cannot be used, settings that cannot be had,
and files that cannot be read. `Error.message` has the wording of all of them.
-/

namespace RuleLint

/-- Why a file or a directory could not be read. -/
inductive FileFault where
  | missing
  | notDirectory
  | isDirectory
  | tooManyLinks
  | nameTooLong
  /-- A path contains the null character. -/
  | nullInPath
  | notText
deriving DecidableEq, Repr

/-- The description of a fault of the file system. -/
def FileFault.message : FileFault → String
  | .missing => "No such file or directory (os error 2)"
  | .notDirectory => "Not a directory (os error 20)"
  | .isDirectory => "Is a directory (os error 21)"
  | .tooManyLinks => "Too many levels of symbolic links (os error 40)"
  | .nameTooLong => "File name too long (os error 36)"
  | .nullInPath => "file name contained an unexpected NUL byte"
  | .notText => "stream did not contain valid UTF-8"

/-- What can go wrong outside a check. -/
inductive Error where
  | config (fault : ConfigFault)
  | settings (uri reason : String)
  | file (fault : FileFault)
deriving DecidableEq, Repr

/-- The wording of an error. -/
def Error.message : Error → String
  | .config fault =>
    (if fault.isFormal then "YAML parsing error: " else "Invalid lint config: ") ++ fault.message
  | .settings uri reason => "Settings unavailable for '" ++ uri ++ "': " ++ reason
  | .file fault => "IO error: " ++ fault.message

end RuleLint
