import RuleLint.Files
import RuleLint.Json

/-!
# Reports

The results of linting files, for people and for programs. A report names each file that has
findings or could not be read, and ends with the totals; a file that could not be read counts as one
error. The JSON form has the same findings, file by file; there is none if the path of a file is no
text.
-/

namespace RuleLint

/-! ### JSON -/

/-- A position as JSON. -/
def Position.toJson (position : Position) : Json :=
  .object [("line", .whole position.line.toNat), ("character", .whole position.character.toNat)]

/-- A range as JSON. -/
def Range.toJson (range : Range) : Json :=
  .object [("start", range.start.toJson), ("end", range.stop.toJson)]

/-- A finding as JSON. -/
def Diagnostic.toJson (diagnostic : Diagnostic) : Json :=
  .object [
    ("severity", .whole diagnostic.severity.number),
    ("range", diagnostic.range.toJson),
    ("message", .string diagnostic.message),
    ("source", .string Diagnostic.source),
    ("code", .string diagnostic.rule.code)]

/-- A result as JSON, with what is shown of the path. -/
def FileResult.toJson (result : FileResult) : Json :=
  .object ([
    ("path", .string result.path),
    ("diagnostics", .array (result.diagnostics.map Diagnostic.toJson))]
    ++ (result.error.map fun error ↦ ("error", Json.string error)).toList)

/-- Why a path that is no text cannot be written as JSON. -/
def notTextMessage : String :=
  "path contains invalid UTF-8 characters"

/-- A result as JSON, if its path can be written. -/
def FileResult.serialize (result : FileResult) : Except String Json :=
  match result.location.text? with
  | some _ => .ok result.toJson
  | none => .error notTextMessage

/-! ### Text -/

/-- A text with two more blanks at the start of each line. -/
def indentLines (text : String) : String :=
  "  " ++ String.ofList (text.toList.flatMap fun c ↦ if c = '\n' then ['\n', ' ', ' '] else [c])

/-- Totals of a report. -/
structure Totals where
  files : Nat
  errors : Nat
  warnings : Nat
deriving DecidableEq, Repr

namespace Totals

/-- The totals before any file. -/
def zero : Totals :=
  ⟨0, 0, 0⟩

/-- The totals with one more result. -/
def add (totals : Totals) (result : FileResult) : Totals where
  files := totals.files + 1
  errors := totals.errors + if result.error.isSome then 1 else result.count .error
  warnings := totals.warnings + if result.error.isSome then 0 else result.count .warning

/-- The totals of results. -/
def ofResults (results : List FileResult) : Totals :=
  results.foldl add zero

/-- The last line of a report. -/
def render (totals : Totals) : String :=
  "Checked " ++ toString totals.files ++ " file(s): " ++ toString totals.errors ++ " error(s), "
    ++ toString totals.warnings ++ " warning(s)"

end Totals

/-- The lines of a report on one result. -/
def FileResult.lines (result : FileResult) : List String :=
  match result.error with
  | some error => [result.path ++ ": " ++ error]
  | none =>
    if result.diagnostics.isEmpty then []
    else result.path :: result.diagnostics.map fun diagnostic ↦ indentLines diagnostic.render

/-- The text of lines. -/
def unlines (lines : List String) : String :=
  String.join (lines.map (· ++ "\n"))

/-- The report on results. -/
def report (results : List FileResult) : String :=
  unlines (results.flatMap FileResult.lines ++ [(Totals.ofResults results).render])

/-- The JSON form of the report on results, if all of them can be written. -/
def reportJson (results : List FileResult) : Except String String := do
  let items ← results.mapM FileResult.serialize
  return (Json.array items).pretty ++ "\n"

end RuleLint
