import RuleLint.Proofs.Config.Layers

/-!
# What is lost with a check

The checks of a suite do not touch each other. Whatever the checks are and whatever they come to, a
run has the findings of each check that is made for the language and does not fail, one after the
other, and the failure of each one that does (`Suite.run_eq`). The configuration and the directives
look at one finding at a time, so they can be used on the findings of each check by itself.

Hence a check that is taken out or that fails takes its own findings with it and no others, and
switching rules off takes away the findings of these rules (`losses_are_own`). What a check has
found before it fails is among its own findings and is lost as well.
-/

namespace RuleLint

variable {check : Check} {document : Document} {limit : Nat}

/-! ### The part of one check -/

namespace Check

/-- What a check adds to the findings of a run: nothing if it is not made for the language of the
document, and nothing if it fails. -/
def contribution (document : Document) (limit : Nat) (check : Check) : List Diagnostic :=
  if check.appliesTo document.language then
    match check.search (.ofDocument document limit) with
    | .ok findings => findings
    | .error _ => []
  else
    []

/-- What is noted of a check: its failure, if it is made for the language of the document. -/
def failure? (document : Document) (limit : Nat) (check : Check) : Option CheckFailure :=
  if check.appliesTo document.language then
    match check.search (.ofDocument document limit) with
    | .ok _ => none
    | .error failure => some ⟨check.rule, document.uri, failure⟩
  else
    none

/-- A check that comes as far as another one and then fails. -/
def failing (check : Check) (why : Context → Except Failure (List Diagnostic) → Failure) : Check :=
  { check with search := fun context ↦ .error (why context (check.search context)) }

theorem contribution_failing (why : Context → Except Failure (List Diagnostic) → Failure) :
    (check.failing why).contribution document limit = [] :=
  ite_self _

theorem failure?_failing (why : Context → Except Failure (List Diagnostic) → Failure) :
    (check.failing why).failure? document limit =
      if check.appliesTo document.language then
        some ⟨check.rule, document.uri,
          why (.ofDocument document limit) (check.search (.ofDocument document limit))⟩
      else
        none := rfl

end Check

/-- A run consists of the parts of the checks. -/
theorem Suite.run_eq (suite : Suite) (document : Document) (limit : Nat) :
    suite.run document limit =
      ⟨suite.flatMap (Check.contribution document limit),
        suite.filterMap (Check.failure? document limit)⟩ := by
  induction suite with
  | nil => rfl
  | cons check suite ih =>
    have hvalidate : check.validate document limit = if check.appliesTo document.language then
        check.search (.ofDocument document limit) else .ok [] := rfl
    rw [run, ih, hvalidate, List.flatMap_cons, List.filterMap_cons, Check.contribution,
      Check.failure?]
    by_cases happlies : check.appliesTo document.language = true
    · simp only [if_pos happlies]
      cases check.search (.ofDocument document limit) <;> rfl
    · simp only [if_neg happlies]

/-! ### Configurations -/

namespace Config

variable (config : Config) (suppressions : Suppressions)

/-- Each check goes through a configuration by itself. -/
theorem apply_flatMap {α : Type} (parts : List α) (findings : α → List Diagnostic) :
    config.apply suppressions (parts.flatMap findings) =
      parts.flatMap fun part ↦ config.apply suppressions (findings part) := by
  simp only [apply, List.filter_flatMap, List.map_flatMap]

/-- Rules that are switched off in addition take their findings away. -/
theorem apply_disabling (off : Rule → Bool) (findings : List Diagnostic) :
    { config with disabled := fun rule ↦ config.disabled rule || off rule }.apply suppressions
        findings =
      (config.apply suppressions findings).filter fun d ↦ !off d.rule := by
  have hoff : (fun d : Diagnostic ↦ !off d.rule) ∘ config.regrade = fun d ↦ !off d.rule := by
    funext d
    rw [Function.comp_apply, rule_regrade]
  rw [apply_eq, apply_eq, List.filter_map, hoff, List.filter_filter]
  -- severities are given as before
  refine congrArg (List.map config.regrade) (List.filter_congr fun d _ ↦ ?_)
  have hkeeps : { config with disabled := fun rule ↦ config.disabled rule || off rule }.Keeps
      suppressions d ↔ off d.rule = false ∧ config.Keeps suppressions d := by
    rw [Keeps, Keeps, Bool.or_eq_false_iff, and_right_comm, and_comm]
  simp [hkeeps]

end Config

/-! ### Losses -/

/-- What becomes of a check of a suite. -/
inductive Fate where
  | stays
  /-- It is taken out of the suite. -/
  | removed
  /-- It fails. The reason may depend on what it has come to by then. -/
  | fails (why : Context → Except Failure (List Diagnostic) → Failure)

namespace Fate

/-- What takes the place of a check. -/
def replace (check : Check) : Fate → List Check
  | stays => [check]
  | removed => []
  | fails why => [check.failing why]

/-- The part of the findings of a check that is left. -/
def keep (findings : List Diagnostic) : Fate → List Diagnostic
  | stays => findings
  | removed => []
  | fails _ => []

/-- What is noted of a check. -/
def failure? (document : Document) (limit : Nat) (check : Check) : Fate → Option CheckFailure
  | stays => check.failure? document limit
  | removed => none
  | fails why =>
    if check.appliesTo document.language then
      some ⟨check.rule, document.uri,
        why (.ofDocument document limit) (check.search (.ofDocument document limit))⟩
    else
      none

variable {fate : Fate}

theorem contribution_replace :
    (fate.replace check).flatMap (Check.contribution document limit) =
      fate.keep (check.contribution document limit) := by
  cases fate with
  | stays => exact List.flatMap_singleton _ _
  | removed => rfl
  | fails why =>
    rw [replace, List.flatMap_singleton, Check.contribution_failing, keep]

theorem failure?_replace :
    (fate.replace check).filterMap (Check.failure? document limit) =
      (fate.failure? document limit check).toList := by
  have hone : ∀ check : Check, [check].filterMap (Check.failure? document limit) =
      (check.failure? document limit).toList := by
    intro check
    rw [List.filterMap_cons]
    cases check.failure? document limit <;> rfl
  cases fate with
  | stays => exact hone check
  | removed => rfl
  | fails why => rw [replace, hone, Check.failure?_failing, failure?]

/-- What is left of a check goes through a configuration as its findings do. -/
theorem apply_keep (config : Config) (suppressions : Suppressions) (findings : List Diagnostic) :
    config.apply suppressions (fate.keep findings) =
      fate.keep (config.apply suppressions findings) := by
  cases fate <;> rfl

end Fate

/-- A run of the checks of a suite, with what has become of each. -/
theorem Suite.run_replace (checks : List (Check × Fate)) (document : Document) (limit : Nat) :
    Suite.run (checks.flatMap fun p ↦ p.2.replace p.1) document limit =
      ⟨checks.flatMap fun p ↦ p.2.keep (p.1.contribution document limit),
        checks.filterMap fun p ↦ p.2.failure? document limit p.1⟩ := by
  rw [run_eq, List.flatMap_assoc, List.filterMap_flatMap, List.filterMap_eq_flatMap_toList]
  simp only [Fate.contribution_replace, Fate.failure?_replace]

/-- **Every check has its own findings and loses no others.** What is found in a document is what
the checks that are made for its language and do not fail have found, one after the other, without
what is switched off or silenced and with the severities of the configuration; and of each check
that fails, this is noted once. If checks are taken out or fail, whatever they have found by then,
and rules are switched off, then the findings of these checks and rules are gone, and all others are
left in their order. -/
theorem losses_are_own (checks : List (Check × Fate)) (document : Document) (settings : Settings)
    (config : Config) (off : Rule → Bool) :
    let limit := (config.settingsOver settings).normalized.limit
    let left (check : Check) : List Diagnostic :=
      ((check.contribution document limit).filter
        (config.Keeps (.ofText document.chars))).map config.regrade
    lint (checks.map Prod.fst) document settings config =
        ⟨checks.flatMap fun p ↦ left p.1,
          checks.filterMap fun p ↦ p.1.failure? document limit⟩ ∧
      lint (checks.flatMap fun p ↦ p.2.replace p.1) document settings
          { config with disabled := fun rule ↦ config.disabled rule || off rule } =
        ⟨(checks.flatMap fun p ↦ p.2.keep (left p.1)).filter fun d ↦ !off d.rule,
          checks.filterMap fun p ↦ p.2.failure? document limit p.1⟩ := by
  intro limit left
  have hleft : ∀ check : Check, left check =
      config.apply (.ofText document.chars) (check.contribution document limit) :=
    fun check ↦ (config.apply_eq _ _).symm
  simp only [hleft]
  constructor
  · rw [lint, Suite.run_eq]
    simp only [config.apply_flatMap, List.flatMap_map, List.filterMap_map]
    rfl
  · -- the limit does not depend on what is switched off
    let narrower := { config with disabled := fun rule ↦ config.disabled rule || off rule }
    have hlimit : (narrower.settingsOver settings).normalized.limit = limit := rfl
    rw [lint, hlimit, Suite.run_replace]
    simp only [config.apply_disabling, config.apply_flatMap, Fate.apply_keep]

end RuleLint
