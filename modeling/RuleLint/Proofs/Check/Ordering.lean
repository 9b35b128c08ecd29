import RuleLint.Proofs.Check.Limits
import RuleLint.Proofs.Check.Loops
import RuleLint.Proofs.Check.Losses
import RuleLint.Proofs.Text.Order

/-!
# The order of findings

The findings of a document come rule by rule, and those of one rule from the top of the document to
its end, no two of them starting at the same place (`findings_in_order`). Only the calls of
`find_substr`, `match` and `regex` are searched for one function after the other, so they are in
order function by function.

A search goes on where its last find ended. So if a loop marks something that starts within the
find, its marks come one after the other (`Loop.Inside.ascends`), and this carries over to blocks,
which are finds themselves. The key argument of a call comes after the call, and the next call may
stand in this argument; but it does not begin before it, as nothing but blanks and a comma is passed
over to get there.

What the limit, the configuration and the directives leave is in the order in which it was.
-/

namespace RuleLint

open Cursor Construct

/-! ### Findings one after the other -/

/-- Whether a diagnostic starts before another one in a text. -/
def Before (text : List Char) (d e : Diagnostic) : Prop :=
  ∃ c c' : Cursor, c.text = text ∧ c.Precedes c' ∧ d.range.start = c.position ∧
    e.range.start = c'.position

theorem Before.start_lt {text : List Char} {d e : Diagnostic} (h : Before text d e)
    (hfits : Fits text) : d.range.start < e.range.start := by
  obtain ⟨c, c', rfl, hprecedes, hd, he⟩ := h
  rw [hd, he]
  exact hprecedes.position_lt hfits

/-! ### Loops in order -/

namespace Check

namespace Loop

variable {α : Type} {loop : Loop α} {text : List Char} {rule : Rule}

/-- A loop whose marks come one after the other. -/
structure Ascends (loop : Loop α) : Prop where
  sound : loop.Sound
  precedes : ∀ {found found' : Found α} {cs : List Char} {m m' : Piece × String},
    loop.recognise found.start = some (found.value, found.stop) →
    loop.recognise found'.start = some (found'.value, found'.stop) →
    found.stop.Reads cs found'.start → loop.mark found = some m → loop.mark found' = some m' →
    m.1.start.Precedes m'.1.start

/-- A loop whose marks start in what is found. -/
structure Inside (loop : Loop α) : Prop where
  sound : loop.Sound
  starts : ∀ {found : Found α} {m : Piece × String},
    loop.recognise found.start = some (found.value, found.stop) → loop.mark found = some m →
    (∃ cs, found.start.Reads cs m.1.start) ∧ m.1.start.Precedes found.stop

theorem Inside.ascends (h : loop.Inside) : loop.Ascends where
  sound := h.sound
  precedes hfound hfound' hbetween hm hm' := by
    obtain ⟨-, hprecedes⟩ := h.starts hfound hm
    obtain ⟨⟨cs, hreads⟩, -⟩ := h.starts hfound' hm'
    exact (hprecedes.trans_reads hbetween).trans_reads hreads

/-- A loop that marks the whole of what it finds. -/
theorem Inside.of_start_eq (hloop : loop.Sound)
    (h : ∀ found m, loop.mark found = some m → m.1.start = found.start) : loop.Inside where
  sound := hloop
  starts hfound hm := by
    rw [h _ _ hm]
    exact ⟨⟨[], .refl _⟩, hloop.advances _ _ _ hfound⟩

/-- The marks of a loop come one after the other. -/
theorem Ascends.pairwise_marks (h : loop.Ascends) (text : List Char) :
    (loop.marks text).Pairwise fun m m' ↦ m.1.start.Precedes m'.1.start := by
  rw [marks, List.pairwise_filterMap]
  refine (pairwise_findAllFrom h.sound.advances [] text).imp_of_mem ?_
  rintro found found' hfound hfound' ⟨cs, hbetween⟩ m hm m' hm'
  obtain ⟨-, hanswer⟩ := h.sound.of_mem_findAll hfound
  obtain ⟨-, hanswer'⟩ := h.sound.of_mem_findAll hfound'
  exact h.precedes hanswer hanswer' hbetween hm hm'

theorem Ascends.pairwise_findings (h : loop.Ascends) (text : List Char) (rule : Rule) :
    ((loop.marks text).map (findingAt rule)).Pairwise (Before text) := by
  rw [List.pairwise_map]
  refine (h.pairwise_marks text).imp_of_mem fun {m m'} hm _ hprecedes ↦ ?_
  obtain ⟨found, hfound, hmark⟩ := List.mem_filterMap.1 hm
  exact ⟨m.1.start, m'.1.start, (h.sound.text_eq hfound hmark).1, hprecedes, rfl, rfl⟩

end Loop

/-! ### The loops of the checks -/

section Loops

theorem inside_comparisonLoop : comparisonLoop.Inside :=
  .of_start_eq sound_comparisonLoop fun found m hm ↦ by
    obtain ⟨-, hm⟩ := Option.ite_none_right_eq_some.1 hm
    obtain rfl := Option.some.inj hm
    rfl

theorem inside_callLoop {function : String} (hfunction : function ∈ matchingFunctions) :
    (callLoop function).Inside :=
  .of_start_eq (sound_callLoop hfunction) fun found m hm ↦ by
    obtain ⟨-, hm⟩ := Option.ite_none_right_eq_some.1 hm
    obtain rfl := Option.some.inj hm
    rfl

theorem inside_concatenationLoop : concatenationLoop.Inside :=
  .of_start_eq sound_concatenationLoop fun found m hm ↦ by
    obtain rfl := Option.some.inj hm
    rfl

/-- A name may be empty, but there is a quote after it. -/
theorem inside_nameLoop (declared : List Char) : (nameLoop declared).Inside where
  sound := sound_nameLoop declared
  starts hfound hm := by
    obtain ⟨-, hm⟩ := Option.ite_none_left_eq_some.1 hm
    obtain rfl := Option.some.inj hm
    obtain ⟨⟨cs, -, hstart⟩, -, ⟨ds, -, hcontent⟩, hquote⟩ := spells_whitelistCall hfound
    exact ⟨⟨cs, hstart⟩, hcontent.trans_precedes (hquote.advances (nil_notMem_mark '"'))⟩

theorem inside_assignmentLoop (header : List Char) : (assignmentLoop header).Inside where
  sound := sound_assignmentLoop header
  starts hfound hm := by
    obtain ⟨-, hm⟩ := Option.ite_none_right_eq_some.1 hm
    obtain rfl := Option.some.inj hm
    obtain ⟨⟨cs, -, hblanks⟩, hspells⟩ := spells_assignment hfound
    exact ⟨⟨cs, hblanks⟩, hspells.advances (nil_notMem_mul_right (nil_notMem_several isSolid))⟩

theorem inside_equationLoop : equationLoop.Inside where
  sound := sound_equationLoop
  starts hfound hm := by
    obtain ⟨-, hm⟩ := Option.ite_none_right_eq_some.1 hm
    obtain rfl := Option.some.inj hm
    obtain ⟨⟨cs, -, hblanks⟩, hspells⟩ := spells_equation hfound
    exact ⟨⟨cs, hblanks⟩, hspells.advances (nil_notMem_mul_right (nil_notMem_literal ⊤))⟩

/-- Between a call and its key argument there are only blanks and a comma. -/
theorem reads_keyArgument {call : Found Piece} {argument : Piece}
    (h : keyArgument call = some argument) :
    ∃ gap, call.stop.Reads gap argument.start ∧ ∀ x ∈ gap, isBlank x = true ∨ x = ',' := by
  obtain ⟨c, hcomma, h⟩ := Option.bind_eq_some_iff.1 h
  obtain ⟨hstart, -⟩ := reads_argument h
  obtain ⟨pad, hpad, hblank⟩ := call.stop.reads_skipBlanks
  obtain ⟨pad', hpad', hblank'⟩ := c.reads_skipBlanks
  rw [hstart]
  refine ⟨_, (hpad.trans (reads_char hcomma)).trans hpad', fun x hx ↦ ?_⟩
  simp only [List.mem_append, List.mem_singleton] at hx
  rcases hx with (hx | rfl) | hx
  · exact .inl (hblank x hx)
  · exact .inr rfl
  · exact .inl (hblank' x hx)

theorem head?_of_whitelistCall {c d : Cursor} {name : Piece}
    (h : whitelistCall c = some (name, d)) : c.after.head? = some 'f' := by
  obtain ⟨c₁, hword, -⟩ := Option.bind_eq_some_iff.1 h
  exact (reads_word hword).head?_after

/-- A call that follows another one does not begin before the key argument of that one, since no
call begins with a blank or a comma. -/
theorem exists_reads_of_keyArgument {call call' : Found Piece} {argument : Piece} {cs : List Char}
    (hargument : keyArgument call = some argument)
    (hcall' : whitelistCall call'.start = some (call'.value, call'.stop))
    (hbetween : call.stop.Reads cs call'.start) : ∃ ds, argument.start.Reads ds call'.start := by
  obtain ⟨gap, hgap, hall⟩ := reads_keyArgument hargument
  rcases hgap.total hbetween with ⟨rest, -, hrest⟩ | ⟨rest, rfl, hrest⟩
  · exact ⟨rest, hrest⟩
  · cases rest with
    | nil =>
      rw [hrest.unique (.refl _)]
      exact ⟨[], .refl _⟩
    | cons x rest =>
      obtain rfl := Option.some.inj (hrest.head?_after.symm.trans (head?_of_whitelistCall hcall'))
      exact absurd (hall 'f' (by simp)) (by decide)

theorem ascends_keyLoop (declared : List Char) : (keyLoop declared).Ascends where
  sound := sound_keyLoop declared
  precedes {_ _ _ _ _} hcall hcall' hbetween hm hm' := by
    obtain ⟨argument, hargument, hm⟩ := Option.bind_eq_some_iff.1 hm
    obtain ⟨argument', hargument', hm'⟩ := Option.bind_eq_some_iff.1 hm'
    obtain ⟨-, hm⟩ := Option.ite_none_left_eq_some.1 hm
    obtain ⟨-, hm'⟩ := Option.ite_none_left_eq_some.1 hm'
    obtain rfl := Option.some.inj hm
    obtain rfl := Option.some.inj hm'
    obtain ⟨ds, hds⟩ := exists_reads_of_keyArgument hargument hcall' hbetween
    obtain ⟨gap, hgap, -⟩ := reads_keyArgument hargument'
    have hadvances := (sound_keyLoop declared).advances _ _ _ hcall'
    exact (hds.trans_precedes hadvances).trans_reads hgap

end Loops

/-! ### Blocks in order -/

section Blocks

variable {context : Context} {header : Cursor → Option Cursor} {α : Type} {rule : Rule}
  {loop : List Char → Loop α} {findings : Context → Block → List Diagnostic}

/-- The body of a block lies in the block. -/
theorem reads_block {c d : Cursor} {block : Block} (hheader : HeaderImage header)
    (h : Check.block header c = some (block, d)) :
    ∃ (first last : Cursor) (cs ds : List Char), first.offset = block.base ∧ c.Reads cs first ∧
      first.Reads block.body last ∧ last.Reads ds d := by
  obtain ⟨-, h⟩ := Option.ite_none_right_eq_some.1 h
  obtain ⟨c₁, hc₁, h⟩ := Option.bind_eq_some_iff.1 h
  obtain ⟨first, hfirst, h⟩ := Option.bind_eq_some_iff.1 h
  obtain ⟨next, hnext, h⟩ := Option.bind_eq_some_iff.1 h
  obtain ⟨rfl, rfl⟩ := Prod.mk.inj (Option.some.inj h)
  obtain ⟨as, has⟩ := hheader.reads c c₁ hc₁
  obtain ⟨pad, hpad, -⟩ := c₁.reads_skipBlanks
  obtain ⟨body, hbody, -, -⟩ := first.reads_skip (· != '\x7d')
  refine ⟨first, _, _, _, rfl, (has.trans hpad).trans (reads_char hfirst), ?_, reads_char hnext⟩
  rw [hbody.upTo_eq]
  exact hbody

/-- The marks in the body of a block, seen in the document. -/
theorem Loop.Inside.around {loop : Loop α} (hloop : loop.Inside) {first last : Cursor}
    {body : List Char} (hbody : first.Reads body last) {m : Piece × String}
    (hm : m ∈ loop.marks body) :
    (∃ cs, first.Reads cs (first.within last.after m.1.start)) ∧
      (first.within last.after m.1.start).Precedes last := by
  obtain ⟨found, hfound, hmark⟩ := List.mem_filterMap.1 hm
  obtain ⟨-, hanswer⟩ := hloop.sound.of_mem_findAll hfound
  obtain ⟨htext, -⟩ := hloop.sound.text_eq hfound hmark
  obtain ⟨-, cs, hne, hreads⟩ := hloop.starts hanswer hmark
  obtain ⟨hbefore, hafter⟩ := Reads.around_within (htext ▸ hbody)
  refine ⟨⟨_, hbefore⟩, _, ?_, hafter⟩
  rw [hreads.after_eq]
  exact List.append_ne_nil_of_left_ne_nil hne _

/-- The findings of loops over the bodies of blocks come one after the other, block by block. -/
theorem pairwise_blocks (hheader : HeaderImage header) (hloop : ∀ head, (loop head).Inside)
    (hfindings : Searches rule loop findings) :
    ((blocks header context).flatMap (findings context)).Pairwise (Before context.chars) := by
  have hadvances : Advances (block header) := (ignoresEndings_block hheader []).advances
  -- the findings of a block are the marks in its body, seen in the document
  have hplaces : ∀ found ∈ findAll (block header) context.chars,
      ∃ (first last : Cursor) (cs ds : List Char), first.text = context.chars ∧
        found.start.Reads cs first ∧ first.Reads found.value.body last ∧
        last.Reads ds found.stop ∧ findings context found.value =
          ((loop found.value.header).marks found.value.body).map fun m ↦
            findingAt rule (markWithin first last.after m) := by
    intro found hfound
    obtain ⟨htext, hanswer⟩ := of_mem_findAll (fun c value d h ↦ by
      obtain ⟨cs, -, hreads⟩ := hadvances c value d h
      exact hreads.text_eq) hfound
    obtain ⟨first, last, cs, ds, hbase, hbefore, hbody, hafter⟩ := reads_block hheader hanswer
    have hfirst := hbefore.text_eq.trans htext
    exact ⟨first, last, cs, ds, hfirst, hbefore, hbody, hafter,
      hfindings context found.value first last hfirst hbody hbase⟩
  rw [blocks, List.flatMap_map, List.pairwise_flatMap]
  constructor
  · intro found hfound
    obtain ⟨first, last, -, -, hfirst, -, hbody, -, heq⟩ := hplaces found hfound
    rw [heq, List.pairwise_map]
    refine ((hloop _).ascends.pairwise_marks _).imp_of_mem fun {m m'} hm _ hprecedes ↦ ?_
    obtain ⟨⟨cs, hreads⟩, -⟩ := (hloop _).around hbody hm
    exact ⟨_, _, hreads.text_eq.trans hfirst, hprecedes.within first last.after, rfl, rfl⟩
  · -- a block begins where the one before it has ended or later
    refine (pairwise_findAllFrom hadvances [] context.chars).imp_of_mem ?_
    rintro found found' hfound hfound' ⟨between, hbetween⟩ d hd e he
    obtain ⟨first, last, -, ds, hfirst, -, hbody, hafter, heq⟩ := hplaces found hfound
    obtain ⟨first', last', cs', -, -, hbefore', hbody', -, heq'⟩ := hplaces found' hfound'
    rw [heq] at hd
    rw [heq'] at he
    obtain ⟨m, hm, rfl⟩ := List.mem_map.1 hd
    obtain ⟨m', hm', rfl⟩ := List.mem_map.1 he
    obtain ⟨⟨cs, hreads⟩, hprecedes⟩ := (hloop _).around hbody hm
    obtain ⟨⟨es, hreads'⟩, -⟩ := (hloop _).around hbody' hm'
    have hbodies := ((hafter.trans hbetween).trans hbefore').trans hreads'
    exact ⟨_, _, hreads.text_eq.trans hfirst, hprecedes.trans_reads hbodies, rfl, rfl⟩

end Blocks

/-! ### Checks in order -/

/-- The findings of the loops of a rule come one after the other, except for those of calls. -/
theorem pairwise_loops {context : Context} {rule : Rule} (hrule : rule ≠ .nestedLowerCase) :
    (loops rule context).flatten.Pairwise (Before context.chars) := by
  cases rule with
  | lowerComparisonCase =>
    rw [loops, List.flatten_singleton, lowerComparisonFindings_eq]
    exact inside_comparisonLoop.ascends.pairwise_findings _ _
  | nestedLowerCase => exact absurd rfl hrule
  | fieldAssignmentInBlock =>
    exact pairwise_blocks headerImage_eventHeader inside_assignmentLoop searches_assignmentFindings
  | numberToStringConcat =>
    rw [loops, List.flatten_singleton, concatenationFindings_eq]
    exact inside_concatenationLoop.ascends.pairwise_findings _ _
  | filterSingleEquals =>
    exact pairwise_blocks headerImage_filter (fun _ ↦ inside_equationLoop) searches_equationFindings
  | whitelistKeyMismatch =>
    rw [loops]
    cases (declaredKey context.chars).filter (· != inheritedKey) with
    | none => exact .nil
    | some declared =>
      rw [Option.toList_some, List.map_singleton, List.flatten_singleton, keyFindings_eq]
      exact (ascends_keyLoop declared).pairwise_findings _ _
  | whitelistRuleNameMismatch =>
    rw [loops]
    cases declaredName context.chars with
    | none => exact .nil
    | some declared =>
      rw [Option.toList_some, List.map_singleton, List.flatten_singleton, nameFindings_eq]
      exact (inside_nameLoop declared).ascends.pairwise_findings _ _
  | importanceSeverityMismatch =>
    rw [loops, List.flatten_singleton]
    cases gradeFinding context with
    | none => exact .nil
    | some d => exact List.pairwise_singleton _ _

theorem pairwise_loweredCallFindings {context : Context} {function : String}
    (hfunction : function ∈ matchingFunctions) :
    (loweredCallFindings context function).Pairwise (Before context.chars) := by
  rw [loweredCallFindings_eq hfunction]
  exact (inside_callLoop hfunction).ascends.pairwise_findings _ _

end Check

/-! ### What is left -/

/-- The standard check of a rule. -/
def Rule.check : Rule → Check
  | .lowerComparisonCase => Check.lowerComparison
  | .nestedLowerCase => Check.nestedLower
  | .fieldAssignmentInBlock => Check.blockAssignment
  | .numberToStringConcat => Check.numberConcatenation
  | .filterSingleEquals => Check.filterEquals
  | .whitelistKeyMismatch => Check.whitelistKey
  | .whitelistRuleNameMismatch => Check.whitelistName
  | .importanceSeverityMismatch => Check.importanceSeverity

theorem Rule.rule_check (rule : Rule) : rule.check.rule = rule := by
  cases rule <;> rfl

theorem Suite.standard_eq_map : standard = Rule.all.map Rule.check := rfl

theorem Rule.check_mem_standard (rule : Rule) : rule.check ∈ Suite.standard :=
  List.mem_map_of_mem rule.mem_all

section Left

variable {document : Document} {settings : Settings} {config : Config} {rule : Rule}
  {d : Diagnostic}

/-- What is left of the findings of a loop when a document is linted. -/
def Document.left (document : Document) (settings : Settings) (config : Config) (rule : Rule)
    (findings : List Diagnostic) : List Diagnostic :=
  if rule.check.appliesTo document.language then
    config.apply (.ofText document.chars)
      (findings.take (config.settingsOver settings).normalized.limit)
  else
    []

/-- The findings of a document are what is left of the loops, rule by rule. -/
theorem lint_standard_eq (document : Document) (settings : Settings) (config : Config) :
    (lint .standard document settings config).diagnostics = Rule.all.flatMap fun rule ↦
      (document.loops rule).flatMap (document.left settings config rule) := by
  have hlimit := Settings.normalized_pos (config.settingsOver settings)
  rw [lint, Suite.run_eq_flatMap fun check hcheck ↦ Check.validate_standard hcheck hlimit]
  dsimp only
  rw [Suite.standard_eq_map, List.flatMap_map, Config.apply_flatMap]
  refine List.flatMap_congr fun rule _ ↦ ?_
  unfold Document.left
  rw [rule.rule_check]
  by_cases happlies : rule.check.appliesTo document.language = true
  · simp only [if_pos happlies]
    rw [Document.findingsUnder, Config.apply_flatMap]
  · simp only [if_neg happlies]
    exact (List.flatMap_eq_nil_iff.2 fun _ _ ↦ rfl).symm

/-- Findings are left in their order, apart from their severities. -/
theorem Document.exists_left_eq (document : Document) (settings : Settings) (config : Config)
    (rule : Rule) (findings : List Diagnostic) :
    ∃ kept : List Diagnostic, kept.Sublist findings ∧
      document.left settings config rule findings = kept.map config.regrade := by
  rw [left]
  split
  · refine ⟨_, ?_, rfl⟩
    exact (List.filter_sublist.trans List.filter_sublist).trans (List.take_sublist _ _)
  · exact ⟨[], List.nil_sublist _, rfl⟩

theorem Document.exists_flatMap_left_eq (document : Document) (settings : Settings)
    (config : Config) (rule : Rule) (loops : List (List Diagnostic)) :
    ∃ kept : List Diagnostic, kept.Sublist loops.flatten ∧
      loops.flatMap (document.left settings config rule) = kept.map config.regrade := by
  induction loops with
  | nil => exact ⟨[], .slnil, rfl⟩
  | cons findings loops ih =>
    obtain ⟨kept, hkept, heq⟩ := document.exists_left_eq settings config rule findings
    obtain ⟨kept', hkept', heq'⟩ := ih
    refine ⟨kept ++ kept', hkept.append hkept', ?_⟩
    rw [List.flatMap_cons, heq, heq', List.map_append]

/-- What is left of findings that come one after the other does so as well. -/
theorem Document.pairwise_left {text : List Char} {loops : List (List Diagnostic)}
    (h : loops.flatten.Pairwise (Before text)) :
    (loops.flatMap (document.left settings config rule)).Pairwise (Before text) := by
  obtain ⟨kept, hkept, heq⟩ := document.exists_flatMap_left_eq settings config rule loops
  rw [heq, List.pairwise_map]
  refine (h.sublist hkept).imp fun {d e} hbefore ↦ ?_
  rw [Before, Config.range_regrade, Config.range_regrade]
  exact hbefore

theorem Document.exists_of_mem_left {findings : List Diagnostic}
    (h : d ∈ document.left settings config rule findings) :
    ∃ found ∈ findings, found.rule = d.rule ∧ found.range = d.range := by
  obtain ⟨kept, hkept, heq⟩ := document.exists_left_eq settings config rule findings
  rw [heq] at h
  obtain ⟨found, hfound, rfl⟩ := List.mem_map.1 h
  exact ⟨found, hkept.subset hfound, (config.rule_regrade found).symm,
    (config.range_regrade found).symm⟩

theorem Document.rule_eq_of_mem_loops {findings : List Diagnostic}
    (hfindings : findings ∈ document.loops rule) (hd : d ∈ findings) : d.rule = rule := by
  have hsearch := @Check.search_eq_flatMap_take { document, limit := document.chars.length + 1 }
    rule.check rule.check_mem_standard (Nat.le_add_left _ _)
  rw [rule.rule_check, Check.loops_eq] at hsearch
  have hmem : d ∈ (document.loops rule).flatMap (List.take (document.chars.length + 1)) := by
    refine List.mem_flatMap.2 ⟨findings, hfindings, ?_⟩
    rwa [List.take_of_length_le ((length_le_of_mem_loops hfindings).trans (Nat.le_succ _))]
  exact (Check.marks_of_mem_search rule.check_mem_standard hsearch hmem).rule_eq.trans
    rule.rule_check

theorem Document.rule_eq_of_mem_left
    (h : d ∈ (document.loops rule).flatMap (document.left settings config rule)) :
    d.rule = rule := by
  obtain ⟨findings, hfindings, h⟩ := List.mem_flatMap.1 h
  obtain ⟨found, hfound, hrule, -⟩ := exists_of_mem_left h
  exact hrule.symm.trans (rule_eq_of_mem_loops hfindings hfound)

/-- The findings of one rule among those of all rules. -/
theorem filter_flatMap_all {part : Rule → List Diagnostic}
    (hpart : ∀ rule, ∀ d ∈ part rule, d.rule = rule) (rule : Rule) :
    (Rule.all.flatMap part).filter (fun d ↦ d.rule = rule) = part rule := by
  have hfilter : ∀ other, (part other).filter (fun d ↦ d.rule = rule) =
      if other = rule then part rule else [] := by
    intro other
    split
    · rename_i heq
      subst heq
      exact List.filter_eq_self.2 fun d hd ↦ decide_eq_true (hpart other d hd)
    · rename_i hne
      exact List.filter_eq_nil_iff.2 fun d hd ↦ by simpa [hpart other d hd] using hne
  rw [List.filter_flatMap]
  simp only [hfilter]
  cases rule <;> simp [Rule.all]

/-! ### Calls -/

/-- Where a call is found, there is the name of its function. -/
theorem Check.exists_word_of_mem_loweredCallFindings {context : Context} {function : String}
    (hfunction : function ∈ matchingFunctions) (hd : d ∈ loweredCallFindings context function) :
    ∃ c : Cursor, c.text = context.chars ∧ d.range.start = c.position ∧
      (c.word function).isSome = true := by
  rw [loweredCallFindings_eq hfunction] at hd
  obtain ⟨found, m, htext, hanswer, hmark, rfl⟩ := (sound_callLoop hfunction).exists_of_mem_map hd
  obtain ⟨-, hmark⟩ := Option.ite_none_right_eq_some.1 hmark
  obtain rfl := Option.some.inj hmark
  obtain ⟨-, hanswer⟩ := Option.ite_none_right_eq_some.1 hanswer
  obtain ⟨c, hword, -⟩ := Option.bind_eq_some_iff.1 hanswer
  exact ⟨found.start, htext, rfl, Option.isSome_iff_exists.2 ⟨c, hword⟩⟩

/-- At no place are there the names of two functions. -/
theorem Check.eq_of_isSome_word {c : Cursor} {f g : String} (hf : f ∈ matchingFunctions)
    (hg : g ∈ matchingFunctions) (hcf : (c.word f).isSome = true)
    (hcg : (c.word g).isSome = true) : f = g := by
  have hheads : ∀ f ∈ matchingFunctions, ∀ g ∈ matchingFunctions, f.toList.head? = g.toList.head? →
      f = g := by decide
  have hhead : ∀ f ∈ matchingFunctions, (c.word f).isSome = true →
      c.after.head? = f.toList.head? := by
    intro f hf hsome
    obtain ⟨d, hd⟩ := Option.isSome_iff_exists.1 hsome
    have hne : ∀ f ∈ matchingFunctions, f.toList ≠ [] := by decide
    rw [(reads_word hd).after_eq, List.head?_append_of_ne_nil _ (hne f hf)]
  exact hheads f hf g hg ((hhead f hf hcf).symm.trans (hhead g hg hcg))

/-- What is left of the calls of a function. -/
def Document.callsOf (document : Document) (settings : Settings) (config : Config)
    (function : String) : List Diagnostic :=
  document.left settings config .nestedLowerCase
    (Check.loweredCallFindings (.ofDocument document document.chars.length) function)

theorem Document.flatMap_left_calls :
    (document.loops .nestedLowerCase).flatMap (document.left settings config .nestedLowerCase) =
      Check.matchingFunctions.flatMap (document.callsOf settings config) :=
  List.flatMap_map _ _ _

theorem Document.pairwise_callsOf {function : String}
    (hfunction : function ∈ Check.matchingFunctions) :
    (document.callsOf settings config function).Pairwise (Before document.chars) := by
  have hpairwise := @pairwise_left document settings config .nestedLowerCase document.chars
    [Check.loweredCallFindings (.ofDocument document document.chars.length) function] (by
      rw [List.flatten_singleton]
      exact @Check.pairwise_loweredCallFindings (.ofDocument document document.chars.length) _
        hfunction)
  rwa [List.flatMap_singleton] at hpairwise

theorem Document.exists_word_of_mem_callsOf (hfits : Fits document.chars) {function : String}
    (hfunction : function ∈ Check.matchingFunctions)
    (hd : d ∈ document.callsOf settings config function) :
    ∃ c, ofPosition? document.chars d.range.start = some c ∧ (c.word function).isSome = true := by
  obtain ⟨found, hfound, -, hrange⟩ := exists_of_mem_left hd
  obtain ⟨c, htext, hstart, hword⟩ :=
    Check.exists_word_of_mem_loweredCallFindings hfunction hfound
  have htext' : c.text = document.chars := htext
  refine ⟨c, ?_, hword⟩
  rw [← hrange, hstart, ← htext']
  exact ofPosition?_position (htext' ▸ hfits)

/-- Calls of two functions do not start at the same place. -/
theorem Document.start_ne_of_mem_callsOf (hfits : Fits document.chars) {e : Diagnostic}
    {f g : String} (hf : f ∈ Check.matchingFunctions) (hg : g ∈ Check.matchingFunctions)
    (hne : f ≠ g) (hd : d ∈ document.callsOf settings config f)
    (he : e ∈ document.callsOf settings config g) : d.range.start ≠ e.range.start := by
  intro heq
  obtain ⟨c, hc, hword⟩ := exists_word_of_mem_callsOf hfits hf hd
  obtain ⟨c', hc', hword'⟩ := exists_word_of_mem_callsOf hfits hg he
  rw [heq, hc'] at hc
  obtain rfl := Option.some.inj hc
  exact hne (Check.eq_of_isSome_word hf hg hword hword')

end Left

/-! ### Findings in order -/

theorem Before.range_ne {text : List Char} {d e : Diagnostic} (h : Before text d e)
    (hfits : Fits text) : d.range ≠ e.range := by
  intro heq
  have hlt := h.start_lt hfits
  rw [heq] at hlt
  exact Position.lt_irrefl _ hlt

/-- What is left of the findings of one rule has different ranges. -/
theorem Document.pairwise_range_ne {document : Document} {settings : Settings} {config : Config}
    (hfits : Fits document.chars) (rule : Rule) :
    ((document.loops rule).flatMap (document.left settings config rule)).Pairwise
      fun d e ↦ d.range ≠ e.range := by
  by_cases hrule : rule = .nestedLowerCase
  · subst hrule
    rw [flatMap_left_calls, List.pairwise_flatMap]
    constructor
    · intro function hfunction
      exact (pairwise_callsOf hfunction).imp fun hbefore ↦ hbefore.range_ne hfits
    · have hnodup : Check.matchingFunctions.Nodup := by decide
      refine hnodup.imp_of_mem fun {f g} hf hg hne d hd e he heq ↦ ?_
      exact start_ne_of_mem_callsOf hfits hf hg hne hd he (congrArg Range.start heq)
  · exact (pairwise_left (Check.pairwise_loops hrule)).imp fun hbefore ↦ hbefore.range_ne hfits

/-- **Findings are in order, and no two are the same.** The rules come in the order in which they
are checked. Within a rule the findings start one after the other; those on calls of matching
functions do so for each function, and the functions come in their order. So no two findings are of
the same rule and have the same range. -/
theorem findings_in_order {document : Document} (settings : Settings) (config : Config)
    (hfits : Fits document.chars) :
    let findings := (lint .standard document settings config).diagnostics
    let order (d : Diagnostic) : Nat := (Suite.standard.map Check.rule).idxOf d.rule
    findings.Pairwise (fun d e ↦ order d ≤ order e) ∧
    (∀ rule ≠ .nestedLowerCase, (findings.filter fun d ↦ d.rule = rule).Pairwise
      fun d e ↦ d.range.start < e.range.start) ∧
    (∃ calls : String → List Diagnostic,
      (findings.filter fun d ↦ d.rule = .nestedLowerCase) =
          Check.matchingFunctions.flatMap calls ∧
        ∀ function ∈ Check.matchingFunctions,
          (calls function).Pairwise (fun d e ↦ d.range.start < e.range.start) ∧
            ∀ d ∈ calls function, ∃ c, ofPosition? document.chars d.range.start = some c ∧
              (c.word function).isSome = true) ∧
    findings.Pairwise fun d e ↦ ¬(d.rule = e.rule ∧ d.range = e.range) := by
  intro findings order
  have hfindings : findings = Rule.all.flatMap fun rule ↦
      (document.loops rule).flatMap (document.left settings config rule) :=
    lint_standard_eq document settings config
  have hrule : ∀ rule, ∀ d ∈ (document.loops rule).flatMap (document.left settings config rule),
      d.rule = rule := fun rule d ↦ Document.rule_eq_of_mem_left
  have hfilter : ∀ rule, (findings.filter fun d ↦ d.rule = rule) =
      (document.loops rule).flatMap (document.left settings config rule) := by
    intro rule
    rw [hfindings]
    exact filter_flatMap_all hrule rule
  have hall : Rule.all.Pairwise fun r s ↦ Rule.all.idxOf r < Rule.all.idxOf s := by decide
  refine ⟨?_, fun rule hne ↦ ?_, ⟨document.callsOf settings config, ?_, fun function hfunction ↦
    ⟨?_, fun d ↦ Document.exists_word_of_mem_callsOf hfits hfunction⟩⟩, ?_⟩
  · rw [hfindings, List.pairwise_flatMap]
    constructor
    · refine fun rule _ ↦ List.pairwise_of_forall_mem_list fun d hd e he ↦ ?_
      exact Nat.le_of_eq (by simp only [order, hrule rule d hd, hrule rule e he])
    · refine hall.imp fun {r s} hlt d hd e he ↦ ?_
      simp only [order, hrule r d hd, hrule s e he, Suite.standard_map_rule]
      exact hlt.le
  · rw [hfilter]
    exact (Document.pairwise_left (Check.pairwise_loops hne)).imp
      fun hbefore ↦ hbefore.start_lt hfits
  · rw [hfilter, Document.flatMap_left_calls]
  · exact (Document.pairwise_callsOf hfunction).imp fun hbefore ↦ hbefore.start_lt hfits
  · rw [hfindings, List.pairwise_flatMap]
    constructor
    · exact fun rule _ ↦ (Document.pairwise_range_ne hfits rule).imp fun hne hsame ↦ hne hsame.2
    -- Findings of two rules differ in the rule, whatever their ranges.
    · refine hall.imp fun {r s} hlt d hd e he hsame ↦ ?_
      rw [hrule r d hd, hrule s e he] at hsame
      rw [hsame.1] at hlt
      exact Nat.lt_irrefl _ hlt

/-- A call in the key argument of another one, both with an empty name, and calls of two matching
functions, of which the second one is found first. -/
theorem findings_in_order_nested_calls :
    let document : Document := ⟨"file:///a.co", "co", 1,
      "rule R: x\n$alert.key = k\nfilter::CheckWL_a(\"\", filter::CheckWL_b(\"\", y))\n" ++
        "match(lower(a), \"A\") and find_substr(lower(b), \"B\")"⟩
    let findings := (lint .standard document .standard .empty).diagnostics
    Fits document.chars ∧
      findings.map (fun d ↦ (d.rule, d.range.start)) =
        [(.nestedLowerCase, ⟨3, 25⟩), (.nestedLowerCase, ⟨3, 0⟩),
          (.whitelistKeyMismatch, ⟨2, 22⟩), (.whitelistKeyMismatch, ⟨2, 44⟩),
          (.whitelistRuleNameMismatch, ⟨2, 19⟩), (.whitelistRuleNameMismatch, ⟨2, 41⟩)] ∧
      (findings.filter fun d ↦ d.rule = .whitelistKeyMismatch).Pairwise
        (fun d e ↦ d.range.start < e.range.start) ∧
      findings.Pairwise fun d e ↦ ¬(d.rule = e.rule ∧ d.range = e.range) := by
  intro document findings
  have hfits : Fits document.chars := fits_of_length (by decide +kernel)
  obtain ⟨-, hstarts, -, hdifferent⟩ := findings_in_order .standard .empty hfits
  exact ⟨hfits, by decide +kernel, hstarts .whitelistKeyMismatch nofun, hdifferent⟩

end RuleLint
