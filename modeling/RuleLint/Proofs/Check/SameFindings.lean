import RuleLint.Proofs.Check.LineEndings

/-!
# Findings and line endings

A document has the same findings with both kinds of line endings, in the same order, with the same
rules, severities and ranges (`lint_crlf`). A message can differ only where it quotes the header of
a block that goes on over several lines.

This is said of documents without carriage returns that do not end in an open assignment of a key,
unless they declare a key before. An open assignment is none as long as only line feeds follow, but
with a carriage return before each of them it declares the empty key, and then every key of a
whitelisting macro differs from it (`lint_crlf_openKey`).
-/

namespace RuleLint

open Construct Cursor

/-- The document with a carriage return before each line feed. -/
def Document.crlf (document : Document) : Document :=
  { document with text := String.ofList (RuleLint.crlf document.chars) }

theorem Document.chars_crlf (document : Document) :
    document.crlf.chars = RuleLint.crlf document.chars :=
  String.toList_ofList

/-- Two findings that differ at most in the line endings of a header that the message quotes. -/
structure SameFinding (d d' : Diagnostic) : Prop where
  rule_eq : d'.rule = d.rule
  severity_eq : d'.severity = d.severity
  range_eq : d'.range = d.range
  message_eq : d'.message = d.message ∨ ∃ field header,
    d.message = Check.assignmentMessage field header ∧
      d'.message = Check.assignmentMessage field (crlf header)

namespace Check

section Contexts

variable {context context' : Context} {rule : Rule} {start stop : Cursor} {message : String}

theorem sameFinding (hchars : context'.chars = crlf context.chars)
    (htext : start.text = context.chars) (hreads : ∃ cs, start.Reads cs stop) :
    SameFinding (context.finding rule (start.spanTo stop) message)
      (context'.finding rule (start.crlf.spanTo stop.crlf) message) where
  rule_eq := rfl
  severity_eq := rfl
  range_eq := by
    obtain ⟨cs, hreads⟩ := hreads
    have htext' : start.crlf.text = context'.chars := by rw [text_crlf, htext, hchars]
    show context'.lines.range _ = context.lines.range _
    rw [range_spanTo htext hreads.text_eq, range_spanTo htext' hreads.crlf.text_eq, position_crlf,
      position_crlf]
  message_eq := .inl rfl

/-- A finding that marks all of a find. -/
theorem sameFinding_span {α : Type} {recognise : Recogniser α} {V : α → α → Prop}
    {found found' : Found α} (hchars : context'.chars = crlf context.chars)
    (hrecognise : IgnoresEndings context.chars V recognise)
    (hsame : SameFound recognise context.chars V found found') :
    SameFinding (context.finding rule found.span message)
      (context'.finding rule found'.span message) := by
  obtain ⟨cs, -, hreads⟩ := hrecognise.advances _ _ _ hsame.answer
  rw [Found.span, Found.span, hsame.start_eq, hsame.stop_eq]
  exact sameFinding hchars hsame.text_eq ⟨cs, hreads⟩

theorem same_capped (hlimit : context'.limit = context.limit) {findings findings' : List Diagnostic}
    (h : List.Forall₂ SameFinding findings findings') :
    List.Forall₂ SameFinding (context.capped findings) (context'.capped findings') := by
  rw [Context.capped, Context.capped, Budget.gather_eq_take, Budget.gather_eq_take]
  show List.Forall₂ _ (findings.take context.limit) (findings'.take context'.limit)
  rw [hlimit]
  exact List.forall₂_take context.limit h

/-! ### Searches in the document -/

theorem same_lowerComparison (hchars : context'.chars = crlf context.chars) :
    List.Forall₂ SameFinding (lowerComparisonFindings context)
      (lowerComparisonFindings context') := by
  rw [lowerComparisonFindings, lowerComparisonFindings, hchars]
  refine List.rel_filterMap (fun found found' hsame ↦ ?_)
    (findAll_crlf (ignoresEndings_comparison context.chars))
  rw [hsame.value.content_eq]
  split
  · exact .some (sameFinding_span hchars (ignoresEndings_comparison _) hsame)
  · exact .none

theorem same_loweredCall (hchars : context'.chars = crlf context.chars) {function : String}
    (hfunction : Unbroken function.toList) :
    List.Forall₂ SameFinding (loweredCallFindings context function)
      (loweredCallFindings context' function) := by
  rw [loweredCallFindings, loweredCallFindings, hchars]
  refine List.rel_filterMap (fun found found' hsame ↦ ?_)
    (findAll_crlf (ignoresEndings_loweredCall hfunction context.chars))
  rw [hsame.value.content_eq]
  split
  · exact .some (sameFinding_span hchars (ignoresEndings_loweredCall hfunction _) hsame)
  · exact .none

theorem same_concatenation (hchars : context'.chars = crlf context.chars) :
    List.Forall₂ SameFinding (concatenationFindings context) (concatenationFindings context') := by
  rw [concatenationFindings, concatenationFindings, hchars]
  refine List.rel_map (fun found found' hsame ↦ ?_)
    (findAll_crlf (ignoresEndings_concatenation context.chars))
  exact sameFinding_span hchars (ignoresEndings_concatenation _) hsame

theorem same_key (hchars : context'.chars = crlf context.chars) (declared : List Char) :
    List.Forall₂ SameFinding (keyFindings context declared) (keyFindings context' declared) := by
  rw [keyFindings, keyFindings, hchars]
  refine List.rel_filterMap (fun call call' hsame ↦ ?_)
    (findAll_crlf (ignoresEndings_whitelistCall context.chars))
  rw [keyArgument_crlf hsame.stop_eq]
  cases hargument : keyArgument call with
  | none => exact .none
  | some argument =>
    obtain ⟨c₁, hcomma, h⟩ := Option.bind_eq_some_iff.1 hargument
    obtain ⟨-, cs, -, -, hreads, -⟩ := reads_argument h
    have htext : argument.start.text = context.chars :=
      (isInstance_keyArgument hsame.answer hargument).2.trans hsame.text_eq
    have hkey : normalKey (argument.start.crlf.upTo argument.stop.crlf) =
        normalKey argument.content := by
      rw [upTo_crlf hreads, normalKey_crlf]
      rfl
    show Option.Rel _
      (if normalKey argument.content == forwardedKey || normalKey argument.content == declared then
        none else some (context.finding .whitelistKeyMismatch argument.span keyMessage))
      (if normalKey (argument.start.crlf.upTo argument.stop.crlf) == forwardedKey ||
          normalKey (argument.start.crlf.upTo argument.stop.crlf) == declared then
        none else some (context'.finding .whitelistKeyMismatch
          (argument.start.crlf.spanTo argument.stop.crlf) keyMessage))
    rw [hkey]
    split
    · exact .none
    · exact .some (sameFinding hchars htext ⟨cs, hreads⟩)

theorem same_name (hchars : context'.chars = crlf context.chars) (declared : List Char) :
    List.Forall₂ SameFinding (nameFindings context declared) (nameFindings context' declared) := by
  rw [nameFindings, nameFindings, hchars]
  refine List.rel_filterMap (fun call call' hsame ↦ ?_)
    (findAll_crlf (ignoresEndings_whitelistCall context.chars))
  obtain ⟨hstart, -, ⟨cs, -, hreads⟩, -⟩ := spells_whitelistCall hsame.answer
  rw [hsame.value.content_eq, Piece.span, Piece.span, hsame.value.start_eq, hsame.value.stop_eq]
  split
  · exact .none
  · exact .some (sameFinding hchars (hstart.text_eq.trans hsame.text_eq) ⟨cs, hreads⟩)

theorem same_grade (hchars : context'.chars = crlf context.chars) :
    Option.Rel SameFinding (gradeFinding context) (gradeFinding context') := by
  rw [gradeFinding, gradeFinding, hchars]
  have himportance : IgnoresEndings context.chars Eq (gradeAssignment importanceVariable) :=
    ignoresEndings_gradeAssignment (by decide) (by decide) context.chars
  have hseverity : IgnoresEndings context.chars Eq (gradeAssignment severityVariable) :=
    ignoresEndings_gradeAssignment (by decide) (by decide) context.chars
  refine rel_bind (rel_findFirst_crlf himportance) fun importance importance' _ _ hsame ↦ ?_
  refine rel_bind (rel_findFirst_crlf hseverity) fun severity severity' _ _ hsame' ↦ ?_
  rw [← hsame.value, ← hsame'.value]
  split
  · exact .none
  · exact .some (sameFinding_span hchars hseverity hsame')

/-! ### Searches in blocks -/

theorem same_blocks {header : Cursor → Option Cursor} (hheader : HeaderImage header)
    (hchars : context'.chars = crlf context.chars) :
    List.Forall₂ (SameBlock context.chars) (blocks header context) (blocks header context') := by
  rw [blocks, blocks, hchars]
  exact List.rel_map (fun found found' hsame ↦ hsame.value)
    (findAll_crlf (ignoresEndings_block hheader context.chars))

/-- A finding in the body of a block. -/
theorem sameFinding_shift {block block' : Block} (hchars : context'.chars = crlf context.chars)
    (hblock : SameBlock context.chars block block') (htext : start.text = block.body)
    (hreads : ∃ cs, start.Reads cs stop) :
    SameFinding (context.finding rule ((start.spanTo stop).shift block.base) message)
      (context'.finding rule ((start.crlf.spanTo stop.crlf).shift block'.base) message) := by
  obtain ⟨first, last, hfirst, hbody, hbase, hbase'⟩ := hblock.place
  obtain ⟨cs, hreads⟩ := hreads
  -- the span in the body is one in the document, between the cursors that have all its text around
  have hwhole : first.Reads start.text last := by
    rw [htext]
    exact hbody
  rw [hbase, hbase', ← @spanTo_within first start stop last.after,
    ← @spanTo_within first.crlf start.crlf stop.crlf (crlf last.after), within_crlf, within_crlf]
  exact sameFinding hchars ((text_within hwhole).trans hfirst) ⟨cs, hreads.within first last.after⟩

theorem same_assignment {block block' : Block} (hchars : context'.chars = crlf context.chars)
    (hblock : SameBlock context.chars block block') :
    List.Forall₂ SameFinding (assignmentFindings context block)
      (assignmentFindings context' block') := by
  rw [assignmentFindings, assignmentFindings, hblock.body_eq]
  refine List.rel_filterMap (fun found found' hsame ↦ ?_)
    (findAll_crlf (ignoresEndings_assignment block.body))
  obtain ⟨hblanks, cs, -, hreads⟩ := spells_assignment hsame.answer
  have hfield := hsame.value.field
  dsimp only
  rw [hsame.value.isSingle_eq, hfield.start_eq, hfield.content_eq, hsame.stop_eq, hblock.header_eq]
  split
  · have htext := hblanks.text_eq.trans hsame.text_eq
    -- the place of a finding does not depend on its message
    have hplain : SameFinding (context.finding .fieldAssignmentInBlock _ "")
      (context'.finding .fieldAssignmentInBlock _ "") :=
        sameFinding_shift hchars hblock htext ⟨cs, hreads⟩
    exact .some ⟨rfl, rfl, hplain.range_eq, .inr ⟨_, _, rfl, rfl⟩⟩
  · exact .none

theorem same_equation {block block' : Block} (hchars : context'.chars = crlf context.chars)
    (hblock : SameBlock context.chars block block') :
    List.Forall₂ SameFinding (equationFindings context block)
      (equationFindings context' block') := by
  rw [equationFindings, equationFindings, hblock.body_eq]
  refine List.rel_filterMap (fun found found' hsame ↦ ?_)
    (findAll_crlf (ignoresEndings_equation block.body))
  obtain ⟨hblanks, cs, -, hreads⟩ := spells_equation hsame.answer
  rw [hsame.value.operator_eq, hsame.value.subject.start_eq, hsame.stop_eq]
  split
  · exact .some (sameFinding_shift hchars hblock (hblanks.text_eq.trans hsame.text_eq) ⟨cs, hreads⟩)
  · exact .none

/-- **The findings of a standard check do not depend on the line endings.** -/
theorem same_search {check : Check} (hcheck : check ∈ Suite.standard)
    (hchars : context'.chars = crlf context.chars) (hlimit : context'.limit = context.limit)
    (hopen : declaredKey context.chars = none → context.chars ∉ (⊤ * openKey : Language Char)) :
    ∃ findings findings', check.search context = .ok findings ∧
      check.search context' = .ok findings' ∧ List.Forall₂ SameFinding findings findings' := by
  simp only [Suite.standard, List.mem_cons, List.not_mem_nil, or_false] at hcheck
  rcases hcheck with rfl | rfl | rfl | rfl | rfl | rfl | rfl | rfl
  · exact ⟨_, _, rfl, rfl, same_capped hlimit (same_lowerComparison hchars)⟩
  · refine ⟨_, _, rfl, rfl, ?_⟩
    have hfunctions : ∀ function ∈ matchingFunctions, Unbroken function.toList := by decide
    refine List.rel_flatMap (R := fun f g ↦ f = g ∧ f ∈ matchingFunctions)
      (List.forall₂_same.2 fun _ hmem ↦ ⟨rfl, hmem⟩) ?_
    rintro function _ ⟨rfl, hmem⟩
    exact same_capped hlimit (same_loweredCall hchars (hfunctions function hmem))
  · refine ⟨_, _, rfl, rfl, List.rel_flatMap (same_blocks headerImage_eventHeader hchars) ?_⟩
    exact fun _ _ hblock ↦ same_capped hlimit (same_assignment hchars hblock)
  · exact ⟨_, _, rfl, rfl, same_capped hlimit (same_concatenation hchars)⟩
  · refine ⟨_, _, rfl, rfl, List.rel_flatMap (same_blocks headerImage_filter hchars) ?_⟩
    exact fun _ _ hblock ↦ same_capped hlimit (same_equation hchars hblock)
  · refine ⟨_, _, rfl, rfl, ?_⟩
    rw [hchars, declaredKey_crlf hopen]
    split
    · exact .nil
    · split
      · exact .nil
      · exact same_capped hlimit (same_key hchars _)
  · refine ⟨_, _, rfl, rfl, ?_⟩
    rw [hchars, declaredName_crlf]
    split
    · exact .nil
    · exact same_capped hlimit (same_name hchars _)
  · exact ⟨_, _, rfl, rfl, forall₂_toList (same_grade hchars)⟩

end Contexts

end Check

/-! ### Runs -/

theorem Suite.same_run {suite : Suite} {document document' : Document} {limit : Nat}
    (hlanguage : document'.language = document.language)
    (hsuite : ∀ check ∈ suite, ∃ findings findings',
      check.search { document, limit } = .ok findings ∧
      check.search { document := document', limit } = .ok findings' ∧
      List.Forall₂ SameFinding findings findings') :
    List.Forall₂ SameFinding (suite.run document limit).diagnostics
      (suite.run document' limit).diagnostics := by
  induction suite with
  | nil => exact .nil
  | cons check suite ih =>
    obtain ⟨⟨findings, findings', hsearch, hsearch', hsame⟩, hsuite⟩ :=
      List.forall_mem_cons.1 hsuite
    have hrest := ih hsuite
    rw [Suite.run, Suite.run, Check.validate, Check.validate, hlanguage, hsearch, hsearch']
    by_cases happlies : check.appliesTo document.language = true
    · rw [if_pos happlies, if_pos happlies]
      exact List.rel_append hsame hrest
    · rw [if_neg happlies, if_neg happlies]
      exact hrest

theorem Suite.same_run_standard {document : Document} (limit : Nat)
    (hopen : Check.declaredKey document.chars = none →
      document.chars ∉ (⊤ * Check.openKey : Language Char)) :
    List.Forall₂ SameFinding (standard.run document limit).diagnostics
      (standard.run document.crlf limit).diagnostics := by
  let context : Context := { document, limit }
  let context' : Context := { document := document.crlf, limit }
  have hchars : context'.chars = crlf context.chars := by
    rw [context'.chars_eq, context.chars_eq]
    exact document.chars_crlf
  refine same_run rfl fun check hcheck ↦ ?_
  exact @Check.same_search context context' check hcheck hchars rfl hopen

/-- The directives of a text without carriage returns do not depend on its line endings. -/
theorem Suppressions.ofText_crlf {text : List Char} (h : '\r' ∉ text) :
    ofText (crlf text) = ofText text := by
  rw [ofText, ofText, linesOf_crlf h]

theorem Suppressions.silences_of_same {suppressions : Suppressions} {d d' : Diagnostic}
    (h : SameFinding d d') : suppressions.silences d' = suppressions.silences d := by
  rw [silences, silences, h.rule_eq, h.range_eq]

theorem Config.same_regrade {config : Config} {d d' : Diagnostic} (h : SameFinding d d') :
    SameFinding (config.regrade d) (config.regrade d') := by
  rw [regrade, regrade, h.rule_eq]
  split
  · exact ⟨rfl, rfl, h.range_eq, h.message_eq⟩
  · exact h

theorem Config.same_apply {config : Config} {suppressions : Suppressions}
    {findings findings' : List Diagnostic} (h : List.Forall₂ SameFinding findings findings') :
    List.Forall₂ SameFinding (config.apply suppressions findings)
      (config.apply suppressions findings') := by
  have hkept : List.Forall₂ SameFinding (findings.filter fun d ↦ !config.disabled d.rule)
      (findings'.filter fun d ↦ !config.disabled d.rule) := by
    refine List.rel_filter (fun d d' hsame ↦ ?_) h
    show (!config.disabled d.rule) = true ↔ (!config.disabled d'.rule) = true
    rw [hsame.rule_eq]
  refine List.rel_map (fun d d' hsame ↦ same_regrade hsame)
    (List.rel_filter (fun d d' hsame ↦ ?_) hkept)
  show (!suppressions.silences d) = true ↔ (!suppressions.silences d') = true
  rw [Suppressions.silences_of_same hsame]

/-- **Line endings do not matter.** A document without carriage returns and its form with a carriage
return before each line feed have the same findings, unless the document ends in an open assignment
of a key and declares no key. -/
theorem lint_crlf {document : Document} (settings : Settings) (config : Config)
    (hplain : '\r' ∉ document.chars)
    (hopen : Check.declaredKey document.chars = none →
      document.chars ∉ (⊤ * Check.openKey : Language Char)) :
    List.Forall₂ SameFinding (lint .standard document settings config).diagnostics
      (lint .standard document.crlf settings config).diagnostics := by
  rw [lint, lint, document.chars_crlf, Suppressions.ofText_crlf hplain]
  exact Config.same_apply (Suite.same_run_standard _ hopen)

/-- A block whose header goes on over two lines: its finding quotes the header, and is the same in
everything else. -/
theorem lint_crlf_header :
    let document : Document :=
      ⟨"file:///a.co", "co", 1, "$alert.key = a\non\nlogin \x7b\n\tobject = 1\n\x7d"⟩
    '\r' ∉ document.chars ∧ Check.declaredKey document.chars ≠ none ∧
      ∃ d d', (lint .standard document .standard .empty).diagnostics = [d] ∧
        (lint .standard document.crlf .standard .empty).diagnostics = [d'] ∧
        SameFinding d d' ∧ d.range = ⟨⟨3, 1⟩, ⟨3, 11⟩⟩ ∧ d'.message ≠ d.message := by
  intro document
  have hplain : '\r' ∉ document.chars := by decide
  have hkey : Check.declaredKey document.chars ≠ none := by decide +kernel
  have hsame := lint_crlf .standard .empty hplain fun hnone ↦ absurd hnone hkey
  let d : Diagnostic := ⟨.fieldAssignmentInBlock, .error, ⟨⟨3, 1⟩, ⟨3, 11⟩⟩,
    Check.assignmentMessage "object".toList "on\nlogin".toList⟩
  let d' : Diagnostic :=
    { d with message := Check.assignmentMessage "object".toList "on\r\nlogin".toList }
  have hd : (lint .standard document .standard .empty).diagnostics = [d] := by decide +kernel
  have hd' : (lint .standard document.crlf .standard .empty).diagnostics = [d'] := by
    decide +kernel
  rw [hd, hd'] at hsame
  obtain ⟨hfinding, -⟩ := List.forall₂_cons.1 hsame
  exact ⟨hplain, hkey, d, d', hd, hd', hfinding, rfl, by decide⟩

/-- A document that ends in an open assignment of a key has a finding more with carriage
returns. -/
theorem lint_crlf_openKey :
    let document : Document :=
      ⟨"file:///a.co", "co", 1, "filter::CheckWL_A(\"n\", x)\n$alert.key =\n"⟩
    '\r' ∉ document.chars ∧ (lint .standard document .standard .empty).diagnostics = [] ∧
      (lint .standard document.crlf .standard .empty).diagnostics =
        [⟨.whitelistKeyMismatch, .warning, ⟨⟨0, 23⟩, ⟨0, 24⟩⟩, Check.keyMessage⟩] ∧
      ¬ List.Forall₂ SameFinding (lint .standard document .standard .empty).diagnostics
        (lint .standard document.crlf .standard .empty).diagnostics := by
  intro document
  have hnone : (lint .standard document .standard .empty).diagnostics = [] := by decide +kernel
  have hone : (lint .standard document.crlf .standard .empty).diagnostics =
      [⟨.whitelistKeyMismatch, .warning, ⟨⟨0, 23⟩, ⟨0, 24⟩⟩, Check.keyMessage⟩] := by
    decide +kernel
  refine ⟨by decide, hnone, hone, ?_⟩
  rw [hnone, hone]
  nofun

end RuleLint
