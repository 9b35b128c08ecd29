import RuleLint.Proofs.Check.Instances

/-!
# Limits

The limit cuts each loop of a check off and does nothing else (`limit_cuts_each_loop`): under a
limit of `n` a check reports the first `n` findings of its first loop, then the first `n` of its
second, and so on. So what one loop reports does not depend on how many findings another has, and a
larger limit only adds findings.

`Document.loops` lists the findings of the loops of a check when nothing is cut off. It is a limit
of its own that no loop reaches: a find has at least one character, so that a loop has no more
findings than the document has characters (`length_le_of_mem_loops`).
-/

namespace RuleLint

namespace Check

variable {context : Context} {check : Check}

/-- The findings of each loop of a standard check, in the order in which the loops are run: one loop
for a search of the whole document, one for each function, and one for each block. -/
def loops (rule : Rule) (context : Context) : List (List Diagnostic) :=
  match rule with
  | .lowerComparisonCase => [lowerComparisonFindings context]
  | .nestedLowerCase => matchingFunctions.map (loweredCallFindings context)
  | .fieldAssignmentInBlock => (blocks eventHeader context).map (assignmentFindings context)
  | .numberToStringConcat => [concatenationFindings context]
  | .filterSingleEquals => (blocks (Cursor.word "filter") context).map (equationFindings context)
  | .whitelistKeyMismatch =>
    ((declaredKey context.chars).filter (· != inheritedKey)).toList.map (keyFindings context)
  | .whitelistRuleNameMismatch => (declaredName context.chars).toList.map (nameFindings context)
  | .importanceSeverityMismatch => [(gradeFinding context).toList]

/-! ### Cutting off -/

theorem capped_eq_take (findings : List Diagnostic) :
    context.capped findings = findings.take context.limit :=
  Budget.gather_eq_take _ _

/-- The findings of a standard check are those of its loops, each cut off at the limit. -/
theorem search_eq_flatMap_take (hcheck : check ∈ Suite.standard) (hlimit : 1 ≤ context.limit) :
    check.search context = .ok ((loops check.rule context).flatMap (List.take context.limit)) := by
  simp only [Suite.standard, List.mem_cons, List.not_mem_nil, or_false] at hcheck
  rcases hcheck with rfl | rfl | rfl | rfl | rfl | rfl | rfl | rfl
  · simp [lowerComparison, loops, capped_eq_take]
  · simp [nestedLower, loops, capped_eq_take, List.flatMap_map]
  · simp [blockAssignment, loops, capped_eq_take, List.flatMap_map]
  · simp [numberConcatenation, loops, capped_eq_take]
  · simp [filterEquals, loops, capped_eq_take, List.flatMap_map]
  · cases hkey : declaredKey context.chars with
    | none => simp [whitelistKey, loops, hkey]
    | some declared =>
      by_cases hinherited : declared = inheritedKey
      · simp [whitelistKey, loops, hkey, hinherited]
      · have hdeclared : Option.filter (· != inheritedKey) (some declared) = some declared := by
          simp [hinherited]
        simp [whitelistKey, loops, hkey, hinherited, hdeclared, capped_eq_take]
  · cases hname : declaredName context.chars with
    | none => simp [whitelistName, loops, hname]
    | some declared => simp [whitelistName, loops, hname, capped_eq_take]
  · -- this check has no budget, and at most one finding
    have hlength : (gradeFinding context).toList.length ≤ context.limit := by
      cases gradeFinding context with
      | none => exact Nat.zero_le _
      | some d => exact hlimit
    simp [importanceSeverity, loops, List.take_of_length_le hlength]

/-! ### Loops have few findings -/

theorem length_findAllFrom_le {α : Type} (recognise : Recogniser α) (before after : List Char) :
    (findAllFrom recognise before after).length ≤ after.length := by
  fun_induction findAllFrom recognise before after with
  | case1 => exact Nat.le_refl _
  | case2 before c rest hnone ih =>
    rw [List.length_cons]
    omega
  | case3 before c rest value stop hsome hle ih =>
    rw [List.length_cons, List.length_cons]
    omega
  | case4 before c rest value stop hsome hlt ih =>
    rw [List.length_cons]
    omega

theorem length_filterMap_findAll_le {α β : Type} (recognise : Recogniser α)
    (judge : Found α → Option β) (text : List Char) :
    ((findAll recognise text).filterMap judge).length ≤ text.length :=
  (List.length_filterMap_le _ _).trans (length_findAllFrom_le recognise [] text)

theorem length_body_le {header : Cursor → Option Cursor} {language : Language Char} {block : Block}
    (hheader : ∀ c d, header c = some d → c.Spells language d)
    (h : block ∈ blocks header context) : block.body.length ≤ context.chars.length := by
  obtain ⟨first, last, htext, -, hreads, -⟩ := exists_body hheader h
  rw [← htext, Cursor.text, hreads.after_eq, List.length_append, List.length_append]
  omega

theorem length_gradeFinding_le : (gradeFinding context).toList.length ≤ context.chars.length := by
  cases hfinding : gradeFinding context with
  | none => exact Nat.zero_le _
  | some d =>
    obtain ⟨importance, himportance, -⟩ := Option.bind_eq_some_iff.1 hfinding
    have hmem := mem_findAll_of_findFirst himportance
    exact (List.length_pos_of_mem hmem).trans_le (length_findAllFrom_le _ [] context.chars)

/-- A loop has no more findings than the document has characters. -/
theorem length_le_of_mem_loops {rule : Rule} {findings : List Diagnostic}
    (h : findings ∈ loops rule context) : findings.length ≤ context.chars.length := by
  cases rule with
  | lowerComparisonCase =>
    obtain rfl := List.mem_singleton.1 h
    exact length_filterMap_findAll_le _ _ _
  | nestedLowerCase =>
    obtain ⟨function, -, rfl⟩ := List.mem_map.1 h
    exact length_filterMap_findAll_le _ _ _
  | fieldAssignmentInBlock =>
    obtain ⟨block, hblock, rfl⟩ := List.mem_map.1 h
    exact (length_filterMap_findAll_le _ _ _).trans
      (length_body_le (fun _ _ ↦ spells_eventHeader) hblock)
  | numberToStringConcat =>
    obtain rfl := List.mem_singleton.1 h
    rw [concatenationFindings, List.length_map]
    exact length_findAllFrom_le _ [] context.chars
  | filterSingleEquals =>
    obtain ⟨block, hblock, rfl⟩ := List.mem_map.1 h
    exact (length_filterMap_findAll_le _ _ _).trans
      (length_body_le (fun _ _ ↦ Cursor.spells_word) hblock)
  | whitelistKeyMismatch =>
    obtain ⟨declared, -, rfl⟩ := List.mem_map.1 h
    exact length_filterMap_findAll_le _ _ _
  | whitelistRuleNameMismatch =>
    obtain ⟨declared, -, rfl⟩ := List.mem_map.1 h
    exact length_filterMap_findAll_le _ _ _
  | importanceSeverityMismatch =>
    obtain rfl := List.mem_singleton.1 h
    exact length_gradeFinding_le

end Check

/-- The findings of each loop of the check of a rule, with a limit that no loop reaches. -/
def Document.loops (document : Document) (rule : Rule) : List (List Diagnostic) :=
  Check.loops rule (.ofDocument document document.chars.length)

/-- What the loops find does not depend on the limit. -/
theorem Check.loops_eq (rule : Rule) (document : Document) (limit : Nat) :
    loops rule { document, limit } = document.loops rule := by
  cases rule <;> rfl

theorem Document.length_le_of_mem_loops {document : Document} {rule : Rule}
    {findings : List Diagnostic} (h : findings ∈ document.loops rule) :
    findings.length ≤ document.chars.length :=
  Check.length_le_of_mem_loops h

/-! ### Checks and suites -/

section Limits

variable {document : Document} {limit limit' : Nat}

/-- The findings of the loops of a rule under a limit. -/
def Document.findingsUnder (document : Document) (limit : Nat) (rule : Rule) : List Diagnostic :=
  (document.loops rule).flatMap (List.take limit)

/-- A larger limit only adds findings. -/
theorem Document.sublist_findingsUnder (rule : Rule) (h : limit ≤ limit') :
    (document.findingsUnder limit rule).Sublist (document.findingsUnder limit' rule) := by
  rw [findingsUnder, findingsUnder]
  induction document.loops rule with
  | nil => exact .slnil
  | cons findings loops ih =>
    rw [List.flatMap_cons, List.flatMap_cons]
    exact (List.take_sublist_take_left h).append ih

/-- Under a limit of at least the number of characters nothing is cut off. -/
theorem Document.findingsUnder_eq_flatten (rule : Rule) (h : document.chars.length ≤ limit) :
    document.findingsUnder limit rule = (document.loops rule).flatten := by
  rw [findingsUnder, ← List.flatMap_id]
  exact List.flatMap_congr fun findings hmem ↦
    List.take_of_length_le ((length_le_of_mem_loops hmem).trans h)

theorem Check.validate_standard {check : Check} (hcheck : check ∈ Suite.standard)
    (hlimit : 1 ≤ limit) :
    check.validate document limit = .ok (if check.appliesTo document.language then
      document.findingsUnder limit check.rule else []) := by
  rw [validate, Document.findingsUnder, ← loops_eq check.rule document limit]
  split
  · exact search_eq_flatMap_take hcheck hlimit
  · rfl

/-- A suite of checks that do not fail reports the findings of one check after the other. -/
theorem Suite.run_eq_flatMap {suite : Suite} {findings : Check → List Diagnostic}
    (h : ∀ check ∈ suite, check.validate document limit = .ok (findings check)) :
    suite.run document limit = ⟨suite.flatMap findings, []⟩ := by
  induction suite with
  | nil => rfl
  | cons check suite ih =>
    obtain ⟨hcheck, hsuite⟩ := List.forall_mem_cons.1 h
    rw [run, hcheck, ih hsuite]
    rfl

/-- The findings of the standard suite are those of the loops of the rules. -/
theorem Suite.mem_run_standard (hlimit : 1 ≤ limit) {d : Diagnostic} :
    d ∈ (Suite.standard.run document limit).diagnostics ↔
      ∃ check ∈ Suite.standard, check.appliesTo document.language = true ∧ check.rule = d.rule ∧
        d ∈ (Check.loops d.rule { document, limit }).flatMap (List.take limit) := by
  rw [Suite.run_eq_flatMap fun check hcheck ↦ Check.validate_standard hcheck hlimit,
    List.mem_flatMap]
  refine exists_congr fun check ↦ and_congr_right fun hcheck ↦ ?_
  split
  · rename_i happlies
    rw [Document.findingsUnder, ← Check.loops_eq check.rule document limit]
    constructor
    · intro hd
      have hsearch := @Check.search_eq_flatMap_take { document, limit } check hcheck hlimit
      have hrule : check.rule = d.rule :=
        (Check.marks_of_mem_search hcheck hsearch hd).rule_eq.symm
      exact ⟨happlies, hrule, hrule ▸ hd⟩
    · rintro ⟨-, hrule, hd⟩
      rw [hrule]
      exact hd
  · rename_i happlies
    simp [happlies]

/-- A diagnostic of a document is a finding of a loop of its rule, apart from its severity. -/
theorem exists_of_mem_lint {settings : Settings} {config : Config} {d : Diagnostic}
    (hd : d ∈ (lint .standard document settings config).diagnostics) :
    ∃ findings ∈ document.loops d.rule, ∃ found ∈ findings, found.range = d.range := by
  obtain ⟨found, hfound, -, rfl⟩ := Config.exists_of_mem_apply hd
  have hlimit := Settings.normalized_pos (config.settingsOver settings)
  obtain ⟨-, -, -, -, hmem⟩ := (Suite.mem_run_standard hlimit).1 hfound
  obtain ⟨findings, hfindings, hmem⟩ := List.mem_flatMap.1 hmem
  rw [Check.loops_eq] at hfindings
  rw [config.rule_regrade, config.range_regrade]
  exact ⟨findings, hfindings, found, List.mem_of_mem_take hmem, rfl⟩

/-- **The limit cuts each loop off and does nothing else.** A standard check that is made for the
language of a document reports the findings of its loops, the first `limit` of each; the standard
suite reports the findings of its checks in order; a larger limit leaves all findings in place and
adds to them; and a limit of as many findings as the document has characters cuts nothing off. -/
theorem limit_cuts_each_loop (hlimit : 1 ≤ limit) :
    (∀ check ∈ Suite.standard, check.validate document limit =
      .ok (if check.appliesTo document.language then
        (document.loops check.rule).flatMap (List.take limit) else [])) ∧
    Suite.standard.run document limit =
      ⟨Suite.standard.flatMap fun check ↦ if check.appliesTo document.language then
        (document.loops check.rule).flatMap (List.take limit) else [], []⟩ ∧
    (∀ limit', limit ≤ limit' →
      (Suite.standard.run document limit).diagnostics.Sublist
          (Suite.standard.run document limit').diagnostics ∧
        ∀ check ∈ Suite.standard, ∃ findings findings',
          check.validate document limit = .ok findings ∧
            check.validate document limit' = .ok findings' ∧ findings.Sublist findings') ∧
    (document.chars.length ≤ limit → ∀ rule,
      (document.loops rule).flatMap (List.take limit) = (document.loops rule).flatten) := by
  have hvalidate : ∀ {limit}, 1 ≤ limit → ∀ check ∈ Suite.standard, check.validate document limit =
      .ok (if check.appliesTo document.language then document.findingsUnder limit check.rule
        else []) := fun hlimit _ hcheck ↦ Check.validate_standard hcheck hlimit
  have hsublist : ∀ {limit'}, limit ≤ limit' → ∀ check : Check,
      (if check.appliesTo document.language then document.findingsUnder limit check.rule
        else []).Sublist
        (if check.appliesTo document.language then document.findingsUnder limit' check.rule
          else []) := by
    intro limit' hle check
    split
    · exact Document.sublist_findingsUnder check.rule hle
    · exact .slnil
  refine ⟨hvalidate hlimit, Suite.run_eq_flatMap (hvalidate hlimit), fun limit' hle ↦ ⟨?_, ?_⟩,
    fun hlength rule ↦ Document.findingsUnder_eq_flatten rule hlength⟩
  · rw [Suite.run_eq_flatMap (hvalidate hlimit),
      Suite.run_eq_flatMap (hvalidate (hlimit.trans hle))]
    -- The findings under the two limits are compared check by check.
    dsimp only
    induction Suite.standard with
    | nil => exact .slnil
    | cons check suite ih =>
      rw [List.flatMap_cons, List.flatMap_cons]
      exact (hsublist hle check).append ih
  · intro check hcheck
    exact ⟨_, _, hvalidate hlimit check hcheck, hvalidate (hlimit.trans hle) check hcheck,
      hsublist hle check⟩

end Limits

/-- Two blocks under a limit of one: the first has two assignments, of which one is cut off, and the
assignment of the second is reported all the same. -/
theorem limit_cuts_each_loop_blocks :
    let document : Document := ⟨"file:///a.co", "co", 1,
      "on login \x7b\n\tobject = 1\n\tsubject = 2\n\x7d\nemit \x7b\n\tuser = 3\n\x7d"⟩
    let finding (range : Range) (field header : String) : Diagnostic :=
      ⟨.fieldAssignmentInBlock, .error, range,
        Check.assignmentMessage field.toList header.toList⟩
    let object := finding ⟨⟨1, 1⟩, ⟨1, 11⟩⟩ "object" "on login"
    let subject := finding ⟨⟨2, 1⟩, ⟨2, 12⟩⟩ "subject" "on login"
    let user := finding ⟨⟨5, 1⟩, ⟨5, 9⟩⟩ "user" "emit"
    document.loops .fieldAssignmentInBlock = [[object, subject], [user]] ∧
      Suite.standard.run document 1 = ⟨[object, user], []⟩ := by
  intro document finding object subject user
  have hloops : document.loops .fieldAssignmentInBlock = [[object, subject], [user]] := by
    decide +kernel
  obtain ⟨-, hrun, -⟩ := limit_cuts_each_loop (Nat.le_refl 1)
  refine ⟨hloops, hrun.trans ?_⟩
  decide +kernel

end RuleLint
