import RuleLint.Command.Items
import RuleLint.FileTree.Path
import RuleLint.Text.Number

/-!
# Commands

What can be asked of the program on the command line: to lint what is at a path, to list the rules,
or to say its version or its usage. `Command.ofWords?` reads a command line; it accepts a switch
once only, except for the one that names rules to be switched off. Whoever asks for help need not
give a path, but what comes before the question has to be acceptable.
-/

namespace RuleLint

/-- What to lint, and how. -/
structure LintOrder where
  path : Path
  /-- Whether the report is wanted as JSON. -/
  json : Bool
  /-- A limit that goes before the one of the configuration. -/
  limit : Option Nat
  /-- The configuration to use in place of the nearest one. -/
  config : Option Path
  /-- The codes of the rules to be switched off. -/
  disabled : List String
deriving DecidableEq, Repr

/-- What can be asked of the program. -/
inductive Command where
  | help
  | version
  | rules (json : Bool)
  | lint (order : LintOrder)
deriving DecidableEq, Repr

namespace Command

/-- The text of a path, which must not be empty. -/
def path? (text : String) : Option Path :=
  if text.isEmpty then none else some text

/-- The order to lint that items stand for, if they are acceptable; it is no order unless they give
a path. -/
def lintOrder? (items : List Item) : Option (Option LintOrder) := do
  let path ← (← atMostOne? (operands items)).mapM path?
  let config ← (← atMostOne? (values .config items)).mapM path?
  let limit ← (← atMostOne? (values .maxProblems items)).mapM fun text ↦ readWord? text.toList
  let json ← atMostOne? (items.filter (· = .flag .json))
  return path.map fun path ↦
    { path, json := json.isSome, limit, config, disabled := values .disable items }

/-- The command to lint that items stand for. -/
def lintCommand? (items : List Item) : Option Command := do
  let order ← lintOrder? items
  if hasFlag .help items then return .help else return .lint (← order)

/-- The command to list the rules that items stand for. -/
def rulesCommand? : List Item → Option Command
  | [] => some (.rules false)
  | [.flag .json] => some (.rules true)
  | [.flag .help] => some .help
  | [.flag .json, .flag .help] => some .help
  | _ => none

/-- The command that the words of a command line stand for. Help is there for each command, and for
none in particular. -/
def ofWords? : List String → Option Command
  | "lint" :: words => readItems? words >>= lintCommand?
  | "rules" :: words => readItems? words >>= rulesCommand?
  | "help" :: topics =>
    if [[], ["lint"], ["rules"], ["help"]].contains topics then some .help else none
  | word :: _ =>
    if word == "--version" || word.startsWith "-V" then some .version
    else if word == "--help" || word.startsWith "-h" then some .help
    else none
  | [] => none

end Command

end RuleLint
