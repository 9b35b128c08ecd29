import RuleLint.Diagnostic
import RuleLint.Text.Lines
import RuleLint.Text.Quoted

/-!
# Directives in comments

Rule source can silence findings with comments. `# xplint-disable` followed by rule codes silences
these rules for the whole document, and `# xplint-disable-next-line` followed by codes silences them
for the line after the comment. Without codes a directive silences every rule.

A comment starts at the first `#` outside literals. Its lines are counted as `LineTable` counts
them, so the line after a comment is the line that a finding there reports.
-/

namespace RuleLint

/-- The place of the first `#` outside literals, from a place with the given state of quotes on,
given as the two sides of the cursor. -/
def commentFrom (quotes : QuoteState) : List Char → List Char → Option Cursor
  | _, [] => none
  | before, c :: after =>
    if quotes = .outside && c == '#' then some ⟨before, c :: after⟩
    else commentFrom (quotes.step c) (c :: before) after

/-- The place where the comment of a line starts. -/
def findComment (line : List Char) : Option Cursor :=
  commentFrom .outside [] line

/-- The rules that a directive silences. -/
inductive Scope where
  /-- Every rule. -/
  | all
  /-- The rules with these codes. A code need not be one of a rule. -/
  | only (codes : List String)
deriving DecidableEq, Repr

namespace Scope

/-- Whether a scope holds a code. -/
def covers (code : String) : Scope → Bool
  | .all => true
  | .only codes => codes.contains code

/-- The scope written as a list of codes with commas; no code at all stands for every rule. -/
def ofList (text : List Char) : Scope :=
  match ((splitOnChar ',' text).map trim).filter fun code ↦ !code.isEmpty with
  | [] => .all
  | codes => .only (codes.map String.ofList)

end Scope

/-- What a comment asks for. -/
inductive Directive where
  /-- To silence rules for the whole document. -/
  | document (scope : Scope)
  /-- To silence rules for the next line. -/
  | nextLine (scope : Scope)
deriving DecidableEq, Repr

namespace Directive

/-- The word that starts a directive for the whole document. -/
def documentWord : String := "xplint-disable"

/-- The word that starts a directive for the next line. -/
def nextLineWord : String := "xplint-disable-next-line"

/-- The directive in a comment, which is given without its sign. -/
def ofComment? (comment : List Char) : Option Directive :=
  let comment := trim comment
  match dropWord? nextLineWord.toList comment with
  | some codes => some (.nextLine (Scope.ofList codes))
  | none => (dropWord? documentWord.toList comment).map fun codes ↦ .document (Scope.ofList codes)

/-- The directive in a line. -/
def ofLine? (line : List Char) : Option Directive := do
  let comment ← findComment line
  ofComment? comment.after.tail

end Directive

/-- What the directives of a document silence. -/
structure Suppressions where
  /-- Whether every rule is silenced for the whole document. -/
  everything : Bool
  /-- The codes that are silenced for the whole document. -/
  codes : List String
  /-- The lines for which rules are silenced. -/
  lines : List (UInt32 × Scope)
deriving DecidableEq, Repr

namespace Suppressions

/-- Nothing is silenced. -/
def none : Suppressions :=
  ⟨false, [], []⟩

/-- What is silenced when the line with an index holds a directive. -/
def add (suppressions : Suppressions) (index : Nat) : Directive → Suppressions
  | .document .all => { suppressions with everything := true }
  | .document (.only codes) => { suppressions with codes := suppressions.codes ++ codes }
  | .nextLine scope =>
    { suppressions with lines := suppressions.lines ++ [((index + 1).toUInt32, scope)] }

/-- What the directives in the lines from an index on add. -/
def addLines (suppressions : Suppressions) (index : Nat) : List (List Char) → Suppressions
  | [] => suppressions
  | line :: lines =>
    match Directive.ofLine? line with
    | some directive => addLines (suppressions.add index directive) (index + 1) lines
    | .none => addLines suppressions (index + 1) lines

/-- What the directives of a text silence. -/
def ofText (text : List Char) : Suppressions :=
  none.addLines 0 (linesOf text)

/-- Whether a finding is silenced. For a line it is the start of the finding that counts. -/
def silences (suppressions : Suppressions) (diagnostic : Diagnostic) : Bool :=
  let code := diagnostic.rule.code
  suppressions.everything || suppressions.codes.contains code
    || suppressions.lines.any fun (line, scope) ↦
      line == diagnostic.range.start.line && scope.covers code

end Suppressions

end RuleLint
