/-!
# Budgets

A budget bounds how many findings one search may report. Findings are offered to it one at a time;
`Budget.gather` offers a whole list and stops at the first refusal, which leaves exactly the first
findings of the list, as many as the budget allows (`gather_eq_take`).
-/

namespace RuleLint

/-- How many more findings may be reported. -/
structure Budget where
  remaining : Nat
deriving DecidableEq, Repr

/-- What comes of offering a finding: the findings reported so far, the budget that is left, and
whether the search should go on. -/
structure Budget.Outcome (α : Type) where
  reported : Array α
  budget : Budget
  continues : Bool

namespace Budget

variable {α : Type}

/-- A budget for a number of findings. -/
def ofLimit (limit : Nat) : Budget :=
  ⟨limit⟩

/-- Whether nothing more may be reported. -/
def isExhausted (budget : Budget) : Bool :=
  budget.remaining == 0

/-- Report a finding if there is room for it. The search goes on only while there is room for one
more. -/
def push (budget : Budget) (reported : Array α) (finding : α) : Outcome α :=
  if budget.isExhausted then
    ⟨reported, budget, false⟩
  else
    ⟨reported.push finding, ⟨budget.remaining - 1⟩, 1 < budget.remaining⟩

/-- Report the findings of a list until the budget says to stop. -/
def gatherFrom (budget : Budget) (reported : Array α) : List α → Array α
  | [] => reported
  | finding :: findings =>
    let outcome := budget.push reported finding
    if outcome.continues then
      gatherFrom outcome.budget outcome.reported findings
    else
      outcome.reported

/-- The findings of a list that fit the budget. -/
def gather (budget : Budget) (findings : List α) : List α :=
  (budget.gatherFrom #[] findings).toList

theorem toList_gatherFrom (budget : Budget) (reported : Array α) (findings : List α) :
    (budget.gatherFrom reported findings).toList =
      reported.toList ++ findings.take budget.remaining := by
  induction findings generalizing budget reported with
  | nil => simp [gatherFrom]
  | cons finding findings ih =>
    obtain ⟨remaining⟩ := budget
    match remaining with
    | 0 => simp [gatherFrom, push, isExhausted]
    | 1 => simp [gatherFrom, push, isExhausted]
    | n + 2 => simp [gatherFrom, push, isExhausted, ih]

/-- A budget keeps the first findings. -/
theorem gather_eq_take (budget : Budget) (findings : List α) :
    budget.gather findings = findings.take budget.remaining := by
  simp [gather, toList_gatherFrom]

end Budget

end RuleLint
