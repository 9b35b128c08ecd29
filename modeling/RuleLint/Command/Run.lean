import RuleLint.Command.Basic
import RuleLint.Config.Locate
import RuleLint.Report
import RuleLint.Version

/-!
# Running commands

A command reads a file tree and comes to an outcome: what is printed, and a status. The status is 0
if all went well, 1 if something failed or a result has errors, and 2 if the command line is not
understood.

The order to lint loads a configuration, puts the switches of the command line on top of it as
another configuration, lints, and reports. The first thing that fails decides what is printed.
-/

namespace RuleLint

/-- What a command prints, and its status. -/
structure Outcome where
  status : Nat
  stdout : String
  stderr : String
deriving DecidableEq, Repr

/-- Why a command fails. -/
inductive CommandFault where
  | config (path : Path) (error : Error)
  | unknownRule (code : String)
  | lint (path : Path) (error : Error)
deriving DecidableEq, Repr

/-- The wording of a fault. -/
def CommandFault.message : CommandFault → String
  | .config path error => "Error loading config " ++ path ++ ": " ++ error.message
  | .unknownRule code => "Unknown rule '" ++ code ++ "' (see `xplint rules`)"
  | .lint path error => "Error linting " ++ path ++ ": " ++ error.message

/-! ### Linting -/

namespace LintOrder

/-- The configuration in the file that is named, or else nearest to the path. -/
def lowerConfig (tree : FileTree) (order : LintOrder) : Except CommandFault Config :=
  match order.config.or (Config.nearest? tree order.path) with
  | none => .ok .empty
  | some path => (Config.load tree path).mapError (.config path)

/-- The configuration that switches off the rules with the given codes. -/
def disablingAll : List String → Except CommandFault Config
  | [] => .ok .empty
  | code :: codes =>
    match Rule.ofCode? code with
    | some rule => (disablingAll codes).map (Config.disabling rule).merge
    | none => .error (.unknownRule code)

/-- The configuration that the switches of the command line amount to. -/
def upperConfig (order : LintOrder) : Except CommandFault Config :=
  (disablingAll order.disabled).map fun config ↦ { config with limit := order.limit }

/-- The results of linting what is at the path. -/
def results (tree : FileTree) (order : LintOrder) : Except CommandFault (List FileResult) := do
  let lower ← order.lowerConfig tree
  let upper ← order.upperConfig
  let noted ← (lintPath tree Suite.standard (lower.merge upper) order.path).mapError
    (.lint order.path)
  return noted.value

/-- The status for results. -/
def statusOf (results : List FileResult) : Nat :=
  if results.any FileResult.hasErrors then 1 else 0

/-- What comes of results: they are printed, as a report or as JSON, and decide the status. If they
cannot be written as JSON, nothing is printed and the status is 1, whatever the results. -/
def outcomeOf (json : Bool) (results : List FileResult) : Outcome :=
  if json then
    match reportJson results with
    | .ok text => ⟨statusOf results, text, ""⟩
    | .error reason => ⟨1, "", "JSON serialization error: " ++ reason ++ "\n"⟩
  else
    ⟨statusOf results, report results, ""⟩

/-- Lint what is at the path, and report. -/
def run (tree : FileTree) (order : LintOrder) : Outcome :=
  match order.results tree with
  | .error fault => ⟨1, "", fault.message ++ "\n"⟩
  | .ok results => outcomeOf order.json results

end LintOrder

/-! ### Listing the rules -/

/-- A text with blanks after it up to a width. -/
def padTo (width : Nat) (text : String) : String :=
  text ++ String.ofList (List.replicate (width - text.length) ' ')

/-- The line of a check in the list of rules. -/
def Check.line (check : Check) : String :=
  padTo 30 check.rule.code ++ " " ++ padTo 8 check.rule.severity.name ++ " "
    ++ padTo 6 (String.intercalate "," check.languages) ++ " "
    ++ check.rule.summary

/-- A check in the list of rules, as JSON. -/
def Check.toJson (check : Check) : Json :=
  .object [
    ("code", .string check.rule.code),
    ("severity", .string check.rule.severity.name),
    ("languages", .array (check.languages.map Json.string)),
    ("summary", .string check.rule.summary)]

/-- The list of rules. -/
def rulesText (suite : Suite) : String :=
  unlines (suite.map Check.line)

/-- The list of rules as JSON. -/
def rulesJson (suite : Suite) : String :=
  (Json.array (suite.map Check.toJson)).pretty ++ "\n"

/-! ### All commands -/

/-- How the program is called. -/
def usage : String :=
  unlines [
    "Lint correlation, enrichment and normalization rule sources",
    "",
    "Usage: xplint lint [OPTIONS] <PATH>",
    "       xplint rules [--json]",
    "       xplint --version",
    "",
    "Options of lint:",
    "      --json                Print results as JSON",
    "      --max-problems <N>    Maximum diagnostics per validator and document",
    "  -c, --config <FILE>       Lint config file (default: nearest .xplint.yml above the path)",
    "  -d, --disable <RULE>      Disable a rule by code (can be specified multiple times)"]

/-- Run a command. -/
def Command.run (tree : FileTree) : Command → Outcome
  | .help => ⟨0, usage, ""⟩
  | .version => ⟨0, "xplint " ++ RuleLint.version ++ "\n", ""⟩
  | .rules json => ⟨0, if json then rulesJson .standard else rulesText .standard, ""⟩
  | .lint order => order.run tree

/-- Run the command that the words of a command line stand for. -/
def runWords (tree : FileTree) (words : List String) : Outcome :=
  match Command.ofWords? words with
  | some command => command.run tree
  | none => ⟨2, "", usage⟩

end RuleLint
