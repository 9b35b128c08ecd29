import RuleLint.Severity

/-!
# The rules of the linter

Each finding breaks one of eight rules. A rule is named by its code in configurations, in inline
directives and in every output, so codes are stable and determine the rule (`ofCode?_code`).
`Rule.all` fixes the order in which rules are checked and reported.
-/

namespace RuleLint

/-- What a finding is about. -/
inductive Rule where
  | lowerComparisonCase
  | nestedLowerCase
  | fieldAssignmentInBlock
  | numberToStringConcat
  | filterSingleEquals
  | whitelistKeyMismatch
  | whitelistRuleNameMismatch
  | importanceSeverityMismatch
deriving DecidableEq, Repr

namespace Rule

/-- Every rule, in the order of checking. -/
def all : List Rule :=
  [.lowerComparisonCase, .nestedLowerCase, .fieldAssignmentInBlock, .numberToStringConcat,
    .filterSingleEquals, .whitelistKeyMismatch, .whitelistRuleNameMismatch,
    .importanceSeverityMismatch]

/-- The code of a rule. -/
def code : Rule → String
  | .lowerComparisonCase => "lower_comparison_case"
  | .nestedLowerCase => "nested_lower_case"
  | .fieldAssignmentInBlock => "field_assignment_in_block"
  | .numberToStringConcat => "number_to_string_concat"
  | .filterSingleEquals => "filter_single_equals"
  | .whitelistKeyMismatch => "whitelist_key_mismatch"
  | .whitelistRuleNameMismatch => "whitelist_rule_name_mismatch"
  | .importanceSeverityMismatch => "importance_severity_mismatch"

/-- The rule with a code. -/
def ofCode? (code : String) : Option Rule :=
  all.find? fun rule ↦ rule.code = code

/-- The severity of a finding unless the configuration says otherwise. -/
def severity : Rule → Severity
  | .numberToStringConcat => .warning
  | .whitelistKeyMismatch => .warning
  | .importanceSeverityMismatch => .warning
  | .lowerComparisonCase => .error
  | .nestedLowerCase => .error
  | .fieldAssignmentInBlock => .error
  | .filterSingleEquals => .error
  | .whitelistRuleNameMismatch => .error

/-- One line on what breaks a rule. -/
def summary : Rule → String
  | .lowerComparisonCase => "lower(x) compared with a literal that contains uppercase letters"
  | .nestedLowerCase => "find_substr/match/regex over lower(x) with an uppercase literal"
  | .fieldAssignmentInBlock => "event field assigned without $ inside an on/emit block"
  | .numberToStringConcat => "numeric field concatenated with a string without string()"
  | .filterSingleEquals => "single '=' used for comparison inside filter \x7b\x7d"
  | .whitelistKeyMismatch => "whitelisting macro key differs from the $alert.key value"
  | .whitelistRuleNameMismatch =>
    "whitelisting macro rule name differs from the declared rule name"
  | .importanceSeverityMismatch => "$importance and $incident.severity disagree"

theorem mem_all (rule : Rule) : rule ∈ all := by
  cases rule <;> decide

theorem code_injective {r s : Rule} (h : r.code = s.code) : r = s := by
  cases r <;> cases s <;> first | rfl | exact absurd h (by decide)

theorem ofCode?_code (rule : Rule) : ofCode? rule.code = some rule := by
  cases rule <;> decide

theorem code_of_ofCode? {code : String} {rule : Rule} (h : ofCode? code = some rule) :
    rule.code = code := by
  simpa using List.find?_some h

end Rule

end RuleLint
