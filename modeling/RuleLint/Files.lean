import RuleLint.FileTree.SystemPath
import RuleLint.FileTree.Walk
import RuleLint.Lint
import RuleLint.Notice

/-!
# Linting files

A file is linted as a document in the dialect of its extension, or as a normalization source if the
extension is none of a dialect. Below a directory every rule file is linted; one that cannot be read
has a result of its own and does not keep the others from being linted.

What comes of linting a file depends on its path and on what reading it gives (`lintRead`). In a
file tree paths are texts; `lintRead` takes any path that a system can have.
-/

namespace RuleLint

/-- What comes of linting a file. -/
structure FileResult where
  /-- The path of the file, as the system has it. -/
  location : SystemPath
  diagnostics : List Diagnostic
  /-- Why the file could not be read. -/
  error : Option String
deriving DecidableEq

/-- Results, with what was noted on the way. -/
structure Noted (α : Type) where
  value : α
  notices : List Notice

namespace FileResult

/-- What is shown of the path of the file. -/
def path (result : FileResult) : Path :=
  result.location.shown

/-- The number of findings of a severity. -/
def count (result : FileResult) (severity : Severity) : Nat :=
  result.diagnostics.countP fun diagnostic ↦ diagnostic.severity = severity

/-- Whether the file could not be read or has findings of the severity `error`. -/
def hasErrors (result : FileResult) : Bool :=
  result.error.isSome || 0 < result.count .error

end FileResult

/-- The dialect of the file at a path. Of a path that is no text it is enough to know what is shown:
slashes, dots and the extensions of dialects are shown as they are, and nothing else is shown like
them. -/
def dialectOf (path : Path) : Dialect :=
  (path.extension?.bind Dialect.ofExtension?).getD .normalization

/-- The document that the file at a path holds. -/
def documentOfFile (path : Path) (text : String) : Document where
  uri := "file://" ++ path
  language := (dialectOf path).id
  version := 0
  text := text

/-- Lint the file at a path, given what reading it gives. -/
def lintRead (suite : Suite) (config : Config) (path : SystemPath)
    (read : Except FileFault String) : Except Error (Noted FileResult) :=
  match read with
  | .error fault => .error (.file fault)
  | .ok text =>
    let run := lint suite (documentOfFile path.shown text) .standard config
    .ok ⟨⟨path, run.diagnostics, none⟩, run.failures.map .checkFailed⟩

/-- Lint one of several files, given what reading it gives. -/
def lintReadListed (suite : Suite) (config : Config) (path : SystemPath)
    (read : Except FileFault String) : Noted FileResult :=
  match lintRead suite config path read with
  | .ok result => result
  | .error error =>
    ⟨⟨path, [], some ("error reading file: " ++ error.message)⟩,
      [.fileUnreadable path.shown error]⟩

/-- Lint the file at a path. -/
def lintFile (tree : FileTree) (suite : Suite) (config : Config) (path : Path) :
    Except Error (Noted FileResult) :=
  lintRead suite config path (tree.read path)

/-- Lint one of the files below a directory. -/
def lintListed (tree : FileTree) (suite : Suite) (config : Config) (path : Path) :
    Noted FileResult :=
  lintReadListed suite config path (tree.read path)

/-- Lint the rule files below a directory. -/
def lintDirectory (tree : FileTree) (suite : Suite) (config : Config) (path : Path) :
    Except Error (Noted (List FileResult)) :=
  match tree.ruleFiles path with
  | .error fault => .error (.file fault)
  | .ok paths =>
    let results := paths.map (lintListed tree suite config)
    .ok ⟨results.map Noted.value, results.flatMap Noted.notices⟩

/-- Lint what is at a path: the rule files below it if it is a directory, else the file itself. -/
def lintPath (tree : FileTree) (suite : Suite) (config : Config) (path : Path) :
    Except Error (Noted (List FileResult)) :=
  if (tree.directory? path).isSome then
    lintDirectory tree suite config path
  else
    match lintFile tree suite config path with
    | .ok result => .ok ⟨[result.value], result.notices⟩
    | .error error => .error error

end RuleLint
