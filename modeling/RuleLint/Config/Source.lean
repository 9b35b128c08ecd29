import RuleLint.Config.Basic
import RuleLint.Text.Lines
import RuleLint.Text.Number
import RuleLint.Yaml.Node

/-!
# Configurations as YAML text

A configuration is written as a YAML mapping with up to three fields:

* `disabled_rules`, a sequence of rule codes,
* `severity_overrides`, a mapping from rule codes to severities,
* `max_number_of_problems`, a whole number or null.

A text of blanks, and one without any document, says nothing. A field may be left empty; any other
field is refused, and so is a field that is given twice. The form of the whole text is checked
before any code or severity is looked up, the disabled rules come first, and the first fault is the
one that is reported.
-/

namespace RuleLint

/-- What is wrong with the text of a configuration. -/
inductive ConfigFault where
  /-- The text is not YAML. -/
  | yaml (fault : Yaml.Fault)
  /-- A node is not of the kind that its place asks for. -/
  | wrongKind
  | unknownField (name : String)
  | repeatedField (name : String)
  | unknownRule (code : String)
  | unknownSeverity (name code : String)
deriving DecidableEq, Repr

namespace ConfigFault

/-- Whether a fault is one of the form of the text, and not of what it says. -/
def isFormal : ConfigFault → Bool
  | .unknownRule _ => false
  | .unknownSeverity _ _ => false
  | _ => true

/-- A description of a fault. -/
def message : ConfigFault → String
  | .yaml fault => fault.message
  | .wrongKind => "invalid type"
  | .unknownField name => "unknown field `" ++ name ++ "`"
  | .repeatedField name => "duplicate field `" ++ name ++ "`"
  | .unknownRule code => "unknown rule '" ++ code ++ "'"
  | .unknownSeverity name code =>
    "invalid severity '" ++ name ++ "' for rule '" ++ code ++ "' in lint config"

end ConfigFault

namespace Config

/-! ### The form -/

/-- The fields of a configuration, as far as they are given. -/
structure Fields where
  disabled : Option (List String)
  severities : Option (List (String × String))
  limit : Option (Option Nat)

/-- The words for null. -/
def isNull (text : String) : Bool :=
  text == "null" || text == "Null" || text == "NULL" || text == "~"

/-- The tag of null. -/
def nullTag : Yaml.Tag := .ofText "tag:yaml.org,2002:null"

/-- The tag of whole numbers. -/
def integerTag : Yaml.Tag := .ofText "tag:yaml.org,2002:int"

/-- The number that a plain scalar writes: in base ten without needless zeros at the start, or after
`0x`, `0o` or `0b` in base sixteen, eight or two. A plus sign may come first. -/
def numberOf? (text : List Char) : Option Nat :=
  let unsigned := match text with
    | '+' :: rest => rest
    | _ => text
  let based := match unsigned with
    | '0' :: 'x' :: digits => readDigits? 16 digits
    | '0' :: 'o' :: digits => readDigits? 8 digits
    | '0' :: 'b' :: digits => readDigits? 2 digits
    | _ => none
  let padded := 1 < unsigned.length && unsigned.head? == some '0'
  based.or (if padded then none else readDigits? 10 unsigned)

/-- The text of a scalar. -/
def textOf (document : Yaml.Document) (node : Yaml.Node) : Except ConfigFault String :=
  match document.resolve node with
  | .scalar text _ _ => .ok text
  | _ => .error .wrongKind

/-- Whether a node is a plain scalar without text. -/
def isEmptyPlain : Yaml.Node → Bool
  | .scalar text style _ => text.isEmpty && style == .plain
  | _ => false

/-- The texts of a sequence of scalars. -/
def textsOf (document : Yaml.Document) (node : Yaml.Node) : Except ConfigFault (List String) :=
  match document.resolve node with
  | .sequence items => items.mapM (textOf document)
  | node => if isEmptyPlain node then .ok [] else .error .wrongKind

/-- The pairs whose first part does not come again. -/
def lastOfEach : List (String × String) → List (String × String)
  | [] => []
  | pair :: pairs =>
    if pairs.any fun other ↦ other.1 = pair.1 then lastOfEach pairs else pair :: lastOfEach pairs

/-- The texts of a mapping from scalars to scalars. Of entries with one key the last counts. -/
def pairsOf (document : Yaml.Document) (node : Yaml.Node) :
    Except ConfigFault (List (String × String)) :=
  match document.resolve node with
  | .mapping entries => do
    let pairs ← entries.mapM fun (key, value) ↦ do
      return (← textOf document key, ← textOf document value)
    return lastOfEach pairs
  | node => if isEmptyPlain node then .ok [] else .error .wrongKind

/-- Whether a node is null. Only a plain scalar can be, and one with a tag only if the tag is that
of null and the text is a word for it. -/
def readNull : Yaml.Node → Except ConfigFault Bool
  | .scalar text .plain none => .ok (text.isEmpty || isNull text)
  | .scalar text .plain (some tag) =>
    if tag == nullTag then (if isNull text then .ok true else .error .wrongKind) else .ok false
  | _ => .ok false

/-- The limit that a node gives. Besides plain scalars, literal ones with the tag of whole numbers
are read as numbers. -/
def limitOf (document : Yaml.Document) (node : Yaml.Node) : Except ConfigFault (Option Nat) := do
  let node := document.resolve node
  if ← readNull node then
    return none
  else
    match node with
    | .scalar text style tag =>
      if style == .plain || (style == .literal && tag == some integerTag) then
        match numberOf? text.toList with
        | some n => return some n
        | none => .error .wrongKind
      else
        .error .wrongKind
    | _ => .error .wrongKind

/-- The fields with one more entry of the mapping. -/
def Fields.add (document : Yaml.Document) (fields : Fields) (entry : Yaml.Node × Yaml.Node) :
    Except ConfigFault Fields := do
  match ← textOf document entry.1 with
  | "disabled_rules" =>
    if fields.disabled.isSome then .error (.repeatedField "disabled_rules")
    return { fields with disabled := some (← textsOf document entry.2) }
  | "severity_overrides" =>
    if fields.severities.isSome then .error (.repeatedField "severity_overrides")
    return { fields with severities := some (← pairsOf document entry.2) }
  | "max_number_of_problems" =>
    if fields.limit.isSome then .error (.repeatedField "max_number_of_problems")
    return { fields with limit := some (← limitOf document entry.2) }
  | name => .error (.unknownField name)

/-- The fields of a document. -/
def Fields.ofDocument : Option Yaml.Document → Except ConfigFault Fields
  | none => .ok ⟨none, none, none⟩
  | some document =>
    match document.root with
    | .mapping entries => entries.foldlM (Fields.add document) ⟨none, none, none⟩
    | node => if isEmptyPlain node then .ok ⟨none, none, none⟩ else .error .wrongKind

/-! ### The content -/

/-- The rule with a code. -/
def ruleOf (code : String) : Except ConfigFault Rule :=
  match Rule.ofCode? code with
  | some rule => .ok rule
  | none => .error (.unknownRule code)

/-- The configuration that an entry of `severity_overrides` stands for. -/
def regradingOf (entry : String × String) : Except ConfigFault Config := do
  let rule ← ruleOf entry.1
  match Severity.ofName? entry.2 with
  | some severity => return regrading rule severity
  | none => .error (.unknownSeverity entry.2 entry.1)

/-- The configuration that the fields stand for. -/
def ofFields (fields : Fields) : Except ConfigFault Config := do
  let disabled ← (fields.disabled.getD []).mapM ruleOf
  let severities ← (fields.severities.getD []).mapM regradingOf
  let config := (disabled.map disabling ++ severities).foldl merge empty
  return { config with limit := fields.limit.join }

/-- The configuration that a text stands for. -/
def ofText (text : String) : Except ConfigFault Config :=
  let chars := text.toList
  if chars.all isBlank then
    .ok empty
  else
    match Yaml.documentOf chars with
    | .error fault => .error (.yaml fault)
    | .ok document => Fields.ofDocument document >>= ofFields

end Config

end RuleLint
