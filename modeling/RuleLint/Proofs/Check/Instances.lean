import RuleLint.Lint
import RuleLint.Proofs.Check.Construct

/-!
# Findings mark instances

Every finding of the standard suite marks an instance of its rule in the document, and the range it
reports leads back to that instance (`finding_is_instance`).

A search takes its finds from recognisers, which answer at cursors of the document, and a span
between cursors has the positions of the cursors as its range. For a find in the body of a block the
cursors are first moved from the body to the document. The limit and the configuration only take
findings away, apart from the severity that a configuration may give.
-/

namespace RuleLint

open Construct

variable {text : List Char} {rule : Rule} {d : Diagnostic} {start stop : Cursor}

theorem Construct.IsInstance.exists_reads (h : IsInstance start stop rule) :
    ∃ cs, start.Reads cs stop := by
  cases rule with
  | lowerComparisonCase =>
    obtain ⟨-, cs, -, hreads⟩ := h
    exact ⟨cs, hreads⟩
  | nestedLowerCase =>
    obtain ⟨-, -, -, cs, -, hreads⟩ := h
    exact ⟨cs, hreads⟩
  | fieldAssignmentInBlock =>
    obtain ⟨⟨cs, -, hreads⟩, -⟩ := h
    exact ⟨cs, hreads⟩
  | numberToStringConcat =>
    rcases h with ⟨c, ⟨b, ⟨cs, -, hsigil⟩, -, ⟨ds, -, hname⟩, -⟩, ⟨es, -, hrest⟩⟩ |
      ⟨c, ⟨cs, -, hfirst⟩, ⟨b, ⟨ds, -, hsigil⟩, -, ⟨es, -, hname⟩, -⟩⟩
    · exact ⟨_, (hsigil.trans hname).trans hrest⟩
    · exact ⟨_, (hfirst.trans hsigil).trans hname⟩
  | filterSingleEquals =>
    obtain ⟨⟨cs, -, hreads⟩, -⟩ := h
    exact ⟨cs, hreads⟩
  | whitelistKeyMismatch =>
    obtain ⟨cs, hreads, -⟩ := h.trimmed
    exact ⟨cs, hreads⟩
  | whitelistRuleNameMismatch =>
    obtain ⟨-, ⟨cs, -, hreads⟩, -⟩ := h
    exact ⟨cs, hreads⟩
  | importanceSeverityMismatch =>
    obtain ⟨cs, -, hreads⟩ := h
    exact ⟨cs, hreads⟩

/-- Whether a finding marks an instance of a rule in a text, with the severity of the rule. -/
structure Marks (text : List Char) (rule : Rule) (d : Diagnostic) : Prop where
  rule_eq : d.rule = rule
  severity_eq : d.severity = rule.severity
  place : ∃ start stop : Cursor, start.text = text ∧ d.range = ⟨start.position, stop.position⟩ ∧
    IsInstance start stop rule

namespace Check

variable {context : Context} {message : String}

/-- The range of a span between two cursors of the document. -/
theorem range_spanTo (htext : start.text = context.chars) (hstop : stop.text = start.text) :
    context.lines.range (start.spanTo stop) = ⟨start.position, stop.position⟩ := by
  have hlines : context.lines = LineTable.ofText start.text := by
    rw [htext, context.chars_eq, context.lines_eq]
    rfl
  rw [hlines, Cursor.range_spanTo hstop]

theorem marks_finding (htext : start.text = context.chars) (h : IsInstance start stop rule) :
    Marks context.chars rule (context.finding rule (start.spanTo stop) message) where
  rule_eq := rfl
  severity_eq := rfl
  place := by
    obtain ⟨cs, hreads⟩ := h.exists_reads
    exact ⟨start, stop, htext, range_spanTo htext hreads.text_eq, h⟩

theorem mem_of_mem_capped {findings : List Diagnostic} (h : d ∈ context.capped findings) :
    d ∈ findings := by
  rw [Context.capped, Budget.gather_eq_take] at h
  exact List.mem_of_mem_take h

/-! ### Searches in the document -/

theorem marks_lowerComparison (h : d ∈ lowerComparisonFindings context) :
    Marks context.chars .lowerComparisonCase d := by
  obtain ⟨found, hfound, h⟩ := List.mem_filterMap.1 h
  obtain ⟨hupper, h⟩ := Option.ite_none_right_eq_some.1 h
  obtain rfl := Option.some.inj h
  obtain ⟨htext, hfound⟩ := of_mem_findAll (fun _ _ _ ↦ text_comparison) hfound
  exact marks_finding htext (spells_comparison hfound hupper)

theorem marks_loweredCall {function : String} (hfunction : function ∈ matchingFunctions)
    (h : d ∈ loweredCallFindings context function) :
    Marks context.chars .nestedLowerCase d := by
  obtain ⟨found, hfound, h⟩ := List.mem_filterMap.1 h
  obtain ⟨hupper, h⟩ := Option.ite_none_right_eq_some.1 h
  obtain rfl := Option.some.inj h
  obtain ⟨htext, hfound⟩ := of_mem_findAll (fun _ _ _ ↦ text_loweredCall) hfound
  have hcontent : found.value.content ∈
      ({cs | hasUppercase (withoutClassEscapes cs) = true} : Language Char) := hupper
  obtain ⟨hboundary, hspells⟩ := spells_loweredCall hfound hcontent
  exact marks_finding htext ⟨hboundary, function, hfunction, hspells⟩

theorem marks_concatenation (h : d ∈ concatenationFindings context) :
    Marks context.chars .numberToStringConcat d := by
  obtain ⟨found, hfound, rfl⟩ := List.mem_map.1 h
  obtain ⟨htext, hfound⟩ := of_mem_findAll (fun c value d h ↦ by
    obtain ⟨cs, hreads⟩ := (isInstance_concatenation h).exists_reads
    exact hreads.text_eq) hfound
  exact marks_finding htext (isInstance_concatenation hfound)

theorem marks_key {declared : List Char} (h : d ∈ keyFindings context declared) :
    Marks context.chars .whitelistKeyMismatch d := by
  obtain ⟨call, hcall, h⟩ := List.mem_filterMap.1 h
  obtain ⟨argument, hargument, h⟩ := Option.bind_eq_some_iff.1 h
  obtain ⟨-, h⟩ := Option.ite_none_left_eq_some.1 h
  obtain rfl := Option.some.inj h
  obtain ⟨htext, hcall⟩ := of_mem_findAll (fun _ _ _ ↦ text_whitelistCall) hcall
  obtain ⟨hinstance, hstart⟩ := isInstance_keyArgument hcall hargument
  exact marks_finding (hstart.trans htext) hinstance

theorem marks_name {declared : List Char} (h : d ∈ nameFindings context declared) :
    Marks context.chars .whitelistRuleNameMismatch d := by
  obtain ⟨call, hcall, h⟩ := List.mem_filterMap.1 h
  obtain ⟨-, h⟩ := Option.ite_none_left_eq_some.1 h
  obtain rfl := Option.some.inj h
  obtain ⟨htext, hcall⟩ := of_mem_findAll (fun _ _ _ ↦ text_whitelistCall) hcall
  have hstart := (spells_whitelistCall hcall).1.text_eq
  exact marks_finding (hstart.trans htext) (isInstance_whitelistCall hcall)

theorem marks_grade (h : gradeFinding context = some d) :
    Marks context.chars .importanceSeverityMismatch d := by
  obtain ⟨importance, -, h⟩ := Option.bind_eq_some_iff.1 h
  obtain ⟨found, hfound, h⟩ := Option.bind_eq_some_iff.1 h
  obtain ⟨-, h⟩ := Option.ite_none_left_eq_some.1 h
  obtain rfl := Option.some.inj h
  obtain ⟨htext, hfound⟩ := of_mem_findAll (fun c grade d h ↦ (spells_gradeAssignment h).text_eq)
    (mem_findAll_of_findFirst hfound)
  exact marks_finding htext (spells_gradeAssignment hfound)

/-! ### Searches in blocks -/

/-- The body of a block, by the cursors of the document at its two ends. -/
theorem exists_body {header : Cursor → Option Cursor} {language : Language Char} {block : Block}
    (hheader : ∀ c d, header c = some d → c.Spells language d)
    (h : block ∈ blocks header context) :
    ∃ first last : Cursor, first.text = context.chars ∧ first.offset = block.base ∧
      first.Reads block.body last ∧ IsBody language first last := by
  obtain ⟨found, hfound, rfl⟩ := List.mem_map.1 h
  obtain ⟨htext, hfound⟩ := of_mem_findAll (fun c block d h ↦ by
    obtain ⟨_, _, -, -, -, -, hd⟩ := isBody_block hheader h
    exact hd) hfound
  obtain ⟨first, last, hbase, hreads, hbody, hfirst, -⟩ := isBody_block hheader hfound
  exact ⟨first, last, hfirst.trans htext, hbase, hreads, hbody⟩

/-- A span of the body of a block marks what is spelled there. -/
theorem marks_within {first last : Cursor} {language l : Language Char} {block : Block}
    (hfirst : first.text = context.chars) (hbase : first.offset = block.base)
    (hreads : first.Reads block.body last) (hbody : IsBody language first last)
    (htext : start.text = block.body) (hspells : start.Spells l stop)
    (hinstance : ∀ {c d : Cursor}, c.Spells l d → InBody language c d → IsInstance c d rule) :
    Marks context.chars rule
      (context.finding rule ((start.spanTo stop).shift block.base) message) := by
  have hstop : stop.text = block.body := hspells.text_eq.trans htext
  have hbody' : InBody language (first.within last.after start) (first.within last.after stop) := by
    refine ⟨first, last, start.before.reverse, stop.after, hbody, ⟨?_, ?_⟩, ?_, ?_⟩
    · rw [List.reverse_reverse, Cursor.within]
    · rw [hreads.after_eq, ← htext, Cursor.text, Cursor.within, List.append_assoc]
    · rw [hreads.before_eq, ← hstop, Cursor.text, Cursor.within]
      simp
    · rw [Cursor.within]
  -- the span in the body, moved to where the body begins, is the span in the document
  have hspan : (first.within last.after start).spanTo (first.within last.after stop) =
      (start.spanTo stop).shift block.base := by
    rw [Cursor.spanTo_within, hbase]
  rw [← hspan]
  refine marks_finding ?_ (hinstance (hspells.within first last.after) hbody')
  have hwhole : first.Reads start.text last := by
    rw [htext]
    exact hreads
  rw [← hfirst]
  exact Cursor.text_within hwhole

theorem marks_assignment {block : Block} (hblock : block ∈ blocks eventHeader context)
    (h : d ∈ assignmentFindings context block) :
    Marks context.chars .fieldAssignmentInBlock d := by
  obtain ⟨found, hfound, h⟩ := List.mem_filterMap.1 h
  obtain ⟨hsingle, h⟩ := Option.ite_none_right_eq_some.1 h
  obtain rfl := Option.some.inj h
  obtain ⟨first, last, hfirst, hbase, hreads, hbody⟩ :=
    exists_body (fun _ _ ↦ spells_eventHeader) hblock
  obtain ⟨htext, hfound⟩ := of_mem_findAll (fun _ _ _ ↦ text_assignment) hfound
  obtain ⟨hblanks, hspells⟩ := spells_assignment hfound
  rw [if_pos hsingle] at hspells
  exact marks_within hfirst hbase hreads hbody (hblanks.text_eq.trans htext) hspells And.intro

theorem marks_equation {block : Block} (hblock : block ∈ blocks (Cursor.word "filter") context)
    (h : d ∈ equationFindings context block) :
    Marks context.chars .filterSingleEquals d := by
  obtain ⟨found, hfound, h⟩ := List.mem_filterMap.1 h
  obtain ⟨hsingle, h⟩ := Option.ite_none_right_eq_some.1 h
  obtain rfl := Option.some.inj h
  obtain ⟨first, last, hfirst, hbase, hreads, hbody⟩ :=
    exists_body (fun _ _ ↦ Cursor.spells_word) hblock
  obtain ⟨htext, hfound⟩ := of_mem_findAll (fun _ _ _ ↦ text_equation) hfound
  obtain ⟨hblanks, hspells⟩ := spells_equation hfound
  rw [beq_iff_eq.1 hsingle] at hspells
  exact marks_within hfirst hbase hreads hbody (hblanks.text_eq.trans htext) hspells And.intro

/-- **The findings of a standard check mark instances of its rule.** -/
theorem marks_of_mem_search {check : Check} {findings : List Diagnostic}
    (hcheck : check ∈ Suite.standard) (hsearch : check.search context = .ok findings)
    (h : d ∈ findings) : Marks context.chars check.rule d := by
  simp only [Suite.standard, List.mem_cons, List.not_mem_nil, or_false] at hcheck
  rcases hcheck with rfl | rfl | rfl | rfl | rfl | rfl | rfl | rfl <;>
    obtain rfl := Except.ok.inj hsearch
  · exact marks_lowerComparison (mem_of_mem_capped h)
  · obtain ⟨function, hfunction, h⟩ := List.mem_flatMap.1 h
    exact marks_loweredCall hfunction (mem_of_mem_capped h)
  · obtain ⟨block, hblock, h⟩ := List.mem_flatMap.1 h
    exact marks_assignment hblock (mem_of_mem_capped h)
  · exact marks_concatenation (mem_of_mem_capped h)
  · obtain ⟨block, hblock, h⟩ := List.mem_flatMap.1 h
    exact marks_equation hblock (mem_of_mem_capped h)
  · split at h
    · cases h
    · split at h
      · cases h
      · exact marks_key (mem_of_mem_capped h)
  · split at h
    · cases h
    · exact marks_name (mem_of_mem_capped h)
  · exact marks_grade (Option.mem_toList.1 h)

end Check

/-! ### Runs -/

theorem Suite.exists_of_mem_run {suite : Suite} {document : Document} {limit : Nat}
    (h : d ∈ (suite.run document limit).diagnostics) :
    ∃ check ∈ suite, ∃ findings, check.validate document limit = .ok findings ∧ d ∈ findings := by
  induction suite with
  | nil => cases h
  | cons check suite ih =>
    rw [Suite.run] at h
    cases hvalidate : check.validate document limit with
    | error failure =>
      -- a check that fails leaves its failure and no findings
      rw [hvalidate] at h
      obtain ⟨other, hmem, hother⟩ := ih h
      exact ⟨other, List.mem_cons_of_mem _ hmem, hother⟩
    | ok findings =>
      rw [hvalidate] at h
      rcases List.mem_append.1 h with hfindings | hrest
      · exact ⟨check, List.mem_cons_self, findings, hvalidate, hfindings⟩
      · obtain ⟨other, hmem, hother⟩ := ih hrest
        exact ⟨other, List.mem_cons_of_mem _ hmem, hother⟩

theorem Config.exists_of_mem_apply {config : Config} {suppressions : Suppressions}
    {findings : List Diagnostic} (h : d ∈ config.apply suppressions findings) :
    ∃ found ∈ findings, config.disabled found.rule = false ∧ d = config.regrade found := by
  obtain ⟨found, hfound, rfl⟩ := List.mem_map.1 h
  have hkept := (List.mem_filter.1 hfound).1
  obtain ⟨hmem, hdisabled⟩ := List.mem_filter.1 hkept
  exact ⟨found, hmem, by simpa using hdisabled, rfl⟩

theorem Config.rule_regrade (config : Config) (d : Diagnostic) :
    (config.regrade d).rule = d.rule := by
  rw [Config.regrade]
  split <;> rfl

theorem Config.range_regrade (config : Config) (d : Diagnostic) :
    (config.regrade d).range = d.range := by
  rw [Config.regrade]
  split <;> rfl

theorem Config.severity_regrade (config : Config) (d : Diagnostic) :
    (config.regrade d).severity = (config.severity d.rule).getD d.severity := by
  rw [Config.regrade]
  split
  · rename_i severity hseverity
    rw [hseverity]
    rfl
  · rename_i hnone
    rw [hnone]
    rfl

/-- What a check reports is what its search finds in a document that it is made for. -/
theorem Check.search_of_mem_validate {check : Check} {document : Document} {limit : Nat}
    {findings : List Diagnostic} (hvalidate : check.validate document limit = .ok findings)
    (hmem : d ∈ findings) :
    check.appliesTo document.language = true ∧ check.search { document, limit } = .ok findings := by
  rw [Check.validate] at hvalidate
  split at hvalidate
  · rename_i happlies
    exact ⟨happlies, hvalidate⟩
  · obtain rfl := Except.ok.inj hvalidate
    cases hmem

/-- A diagnostic of a document is what the search of a check for its language found, with the
severity that the configuration gives it. -/
theorem exists_search_of_mem_lint {suite : Suite} {document : Document} {settings : Settings}
    {config : Config} (hd : d ∈ (lint suite document settings config).diagnostics) :
    ∃ check ∈ suite, check.appliesTo document.language = true ∧
      ∃ limit findings, check.search { document, limit } = .ok findings ∧
        ∃ found ∈ findings, config.disabled found.rule = false ∧ d = config.regrade found := by
  obtain ⟨found, hfound, hdisabled, rfl⟩ := Config.exists_of_mem_apply hd
  obtain ⟨check, hcheck, findings, hvalidate, hmem⟩ := Suite.exists_of_mem_run hfound
  obtain ⟨happlies, hsearch⟩ := Check.search_of_mem_validate hvalidate hmem
  exact ⟨check, hcheck, happlies, _, findings, hsearch, found, hmem, hdisabled, rfl⟩

/-- A diagnostic of a document marks an instance of a rule that is switched on. -/
theorem exists_marks_of_mem_lint {document : Document} {settings : Settings} {config : Config}
    (hd : d ∈ (lint .standard document settings config).diagnostics) :
    ∃ rule found, Marks document.chars rule found ∧ config.disabled found.rule = false ∧
      d = config.regrade found := by
  obtain ⟨check, hcheck, -, limit, findings, hsearch, found, hmem, hdisabled, rfl⟩ :=
    exists_search_of_mem_lint hd
  exact ⟨_, found, Check.marks_of_mem_search hcheck hsearch hmem, hdisabled, rfl⟩

/-- The instance that a diagnostic of a document marks. -/
theorem exists_instance_of_mem_lint {document : Document} {settings : Settings} {config : Config}
    (hd : d ∈ (lint .standard document settings config).diagnostics) :
    ∃ start stop : Cursor, start.text = document.chars ∧
      d.range = ⟨start.position, stop.position⟩ ∧ IsInstance start stop d.rule := by
  obtain ⟨rule, found, hmarks, -, rfl⟩ := exists_marks_of_mem_lint hd
  rw [Config.rule_regrade, Config.range_regrade, hmarks.rule_eq]
  exact hmarks.place

/-- A diagnostic is about a rule that is switched on, and has the severity that the configuration
gives it or else that of its rule. -/
theorem severity_of_mem_lint {document : Document} {settings : Settings} {config : Config}
    (hd : d ∈ (lint .standard document settings config).diagnostics) :
    config.disabled d.rule = false ∧
      d.severity = (config.severity d.rule).getD d.rule.severity := by
  obtain ⟨rule, found, hmarks, hdisabled, rfl⟩ := exists_marks_of_mem_lint hd
  rw [Config.rule_regrade, Config.severity_regrade, hmarks.severity_eq, hmarks.rule_eq]
  exact ⟨hmarks.rule_eq ▸ hdisabled, rfl⟩

/-- **Every finding points at an instance of its rule.** The rule is made for the language of the
document and not switched off, the severity is the one that the configuration gives or else that of
the rule, and the range leads to two character boundaries of the text, in order, between which
there is an instance of the rule. -/
theorem finding_is_instance {document : Document} {settings : Settings} {config : Config}
    {d : Diagnostic} (hfits : Cursor.Fits document.chars)
    (hd : d ∈ (lint .standard document settings config).diagnostics) :
    (∃ check ∈ Suite.standard, check.rule = d.rule ∧ check.appliesTo document.language = true) ∧
      config.disabled d.rule = false ∧
      d.severity = (config.severity d.rule).getD d.rule.severity ∧
      ∃ start stop : Cursor,
        Cursor.ofPosition? document.chars d.range.start = some start ∧
        Cursor.ofPosition? document.chars d.range.stop = some stop ∧
        start.text = document.chars ∧ stop.text = document.chars ∧
        start.offset ≤ stop.offset ∧ IsInstance start stop d.rule := by
  obtain ⟨found, hfound, hdisabled, rfl⟩ := Config.exists_of_mem_apply hd
  obtain ⟨check, hcheck, findings, hvalidate, hmem⟩ := Suite.exists_of_mem_run hfound
  rw [Check.validate] at hvalidate
  split at hvalidate
  · rename_i happlies
    have hmarks := Check.marks_of_mem_search hcheck hvalidate hmem
    obtain ⟨start, stop, htext, hrange, hinstance⟩ := hmarks.place
    obtain ⟨cs, hreads⟩ := hinstance.exists_reads
    have htext' : start.text = document.chars := htext
    have hstop : stop.text = document.chars := hreads.text_eq.trans htext'
    rw [Config.rule_regrade, Config.severity_regrade, Config.range_regrade, hrange, hmarks.rule_eq,
      hmarks.severity_eq]
    rw [hmarks.rule_eq] at hdisabled
    refine ⟨⟨check, hcheck, rfl, happlies⟩, hdisabled, rfl, start, stop, ?_, ?_, htext', hstop, ?_,
      hinstance⟩
    · rw [← htext']
      exact Cursor.ofPosition?_position (htext' ▸ hfits)
    · rw [← hstop]
      exact Cursor.ofPosition?_position (hstop ▸ hfits)
    · rw [hreads.offset_eq]
      exact Nat.le_add_right _ _
  · obtain rfl := Except.ok.inj hvalidate
    cases hmem

/-- A field that is assigned in an event block, in a text with characters of several bytes and
units, under a configuration that makes it a hint. -/
theorem finding_is_instance_in_block :
    let document : Document := ⟨"file:///a.co", "co", 1, "on 𝔏 \x7b\n\tobject = \"é\"\n\x7d"⟩
    let config := Config.regrading .fieldAssignmentInBlock .hint
    let d : Diagnostic := ⟨.fieldAssignmentInBlock, .hint, ⟨⟨1, 1⟩, ⟨1, 13⟩⟩,
      "Assigning event field object is not allowed in block 'on 𝔏'. Use $object"⟩
    Cursor.Fits document.chars ∧ d ∈ (lint .standard document .standard config).diagnostics ∧
      config.disabled d.rule = false ∧ ∃ start stop : Cursor,
        Cursor.ofPosition? document.chars ⟨1, 1⟩ = some start ∧
        Cursor.ofPosition? document.chars ⟨1, 13⟩ = some stop ∧
        IsInstance start stop .fieldAssignmentInBlock := by
  intro document config d
  have hfits : Cursor.Fits document.chars := Cursor.fits_of_length (by decide)
  have hd : d ∈ (lint .standard document .standard config).diagnostics := by decide +kernel
  obtain ⟨-, hdisabled, -, start, stop, hstart, hstop, -, -, -, hinstance⟩ :=
    finding_is_instance hfits hd
  exact ⟨hfits, hd, hdisabled, start, stop, hstart, hstop, hinstance⟩

end RuleLint
