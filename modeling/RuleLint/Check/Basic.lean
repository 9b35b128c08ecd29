import RuleLint.Check.Budget
import RuleLint.Diagnostic
import RuleLint.Dialect
import RuleLint.Document

/-!
# Checks

A check looks for the places where a document breaks one rule. It is a value: the rule it reports,
the languages it is made for, and a search. A search sees a `Context`, which turns spans into
diagnostics, and may fail, in which case nothing it found counts.

Each of the built-in searches is a list of loops, and each loop a list of findings that is cut off
at the limit (`Context.capped`), so reaching the limit in one loop cannot affect another.
-/

namespace RuleLint

/-- What a search sees. The characters and the lines of the document are at hand. -/
structure Context where
  document : Document
  /-- The most findings that one loop may report. -/
  limit : Nat
  chars : List Char := document.chars
  lines : LineTable := document.lines
  chars_eq : chars = document.chars := by rfl
  lines_eq : lines = document.lines := by rfl

namespace Context

/-- What a search sees of a document under a limit. -/
def ofDocument (document : Document) (limit : Nat) : Context where
  document := document
  limit := limit

variable (context : Context)

/-- A fresh budget for one loop. -/
def budget : Budget :=
  .ofLimit context.limit

/-- The findings of one loop, cut off at the limit. -/
def capped (findings : List Diagnostic) : List Diagnostic :=
  context.budget.gather findings

/-- A diagnostic for a span of the document. -/
def diagnostic (rule : Rule) (severity : Severity) (span : Span) (message : String) : Diagnostic :=
  ⟨rule, severity, context.lines.range span, message⟩

/-- A diagnostic for a span of a part of the document that starts at the offset `base`. -/
def diagnosticIn (rule : Rule) (severity : Severity) (base : Nat) (span : Span)
    (message : String) : Diagnostic :=
  context.diagnostic rule severity (span.shift base) message

/-- A diagnostic with the severity of its rule. -/
def finding (rule : Rule) (span : Span) (message : String) : Diagnostic :=
  context.diagnostic rule rule.severity span message

end Context

/-- How a search can fail. -/
inductive Failure where
  /-- With a reason. -/
  | because (reason : String)
  /-- Without a reason that could be shown. -/
  | unexplained
deriving DecidableEq, Repr

/-- The reason of a failure, as it is logged. -/
def Failure.reason : Failure → String
  | .because reason => reason
  | .unexplained => "unknown panic"

/-- A search for the places where a document breaks a rule. -/
structure Check where
  rule : Rule
  dialects : List Dialect
  /-- The identifiers of further languages that the check is made for, which need not be dialects.
  The built-in checks have none. -/
  others : List String := []
  search : Context → Except Failure (List Diagnostic)

namespace Check

/-- The identifiers of the languages that a check is made for. -/
def languages (check : Check) : List String :=
  check.dialects.map Dialect.id ++ check.others

/-- Whether a check is made for documents in a language. -/
def appliesTo (check : Check) (language : String) : Bool :=
  check.languages.contains language

/-- The findings of a check in a document: none if it is not made for the document's language. -/
def validate (check : Check) (document : Document) (limit : Nat) :
    Except Failure (List Diagnostic) :=
  if check.appliesTo document.language then check.search { document, limit } else .ok []

end Check

end RuleLint
