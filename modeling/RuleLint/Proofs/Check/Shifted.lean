import RuleLint.Proofs.Check.Limits
import RuleLint.Proofs.Check.Loops

/-!
# Findings further down

If a text begins after some empty lines, it has the same findings as without them, as many lines
further down (`lint_shifted`): the lines before it have no finds of their own, and what follows a
line feed is read as what stands at the start of a text. Directives move with the text, so they
silence the same findings.

Only the declaration of a name is found elsewhere, since the blanks before it belong to it and so do
the line feeds; but it is the same name.
-/

namespace RuleLint

open Cursor Construct

/-! ### Positions further down -/

/-- The position so many lines further down. -/
def Position.down (n : Nat) (position : Position) : Position :=
  { position with line := (position.line.toNat + n).toUInt32 }

/-- The range so many lines further down. -/
def Range.down (n : Nat) (range : Range) : Range :=
  ⟨range.start.down n, range.stop.down n⟩

/-- The finding so many lines further down. -/
def Diagnostic.down (n : Nat) (diagnostic : Diagnostic) : Diagnostic :=
  { diagnostic with range := diagnostic.range.down n }

theorem toUInt32_add (m n : Nat) : (m.toUInt32.toNat + n).toUInt32 = (m + n).toUInt32 := by
  apply UInt32.toNat_inj.1
  simp

namespace Cursor

variable {outer c : Cursor} {rest : List Char}

theorem lineBefore_within (houter : outer.atLineStart = true) :
    (outer.within rest c).lineBefore = c.lineBefore := by
  have hnone : outer.before.takeWhile (· != '\n') = [] := by
    rw [atLineStart] at houter
    split at houter
    · rename_i hbefore
      rw [hbefore]
      rfl
    · rename_i previous before hbefore
      rw [hbefore, List.takeWhile_cons_of_neg (by simpa using houter)]
  rw [lineBefore, lineBefore, within, List.takeWhile_append, hnone, List.append_nil]
  split
  · rename_i hlength
    exact ((List.takeWhile_prefix _).eq_of_length hlength).symm
  · rfl

/-- A cursor of a part that begins at the start of a line. -/
theorem position_within (houter : outer.atLineStart = true) :
    (outer.within rest c).position = c.position.down outer.line := by
  have hline : (outer.within rest c).line = c.line + outer.line := List.count_append
  rw [position, column, lineBefore_within houter, hline, position, Position.down]
  dsimp only
  rw [toUInt32_add]
  rfl

end Cursor

namespace Check

variable {α : Type} {context context' : Context} {rule : Rule} {k : Nat}

theorem findingAt_within {outer : Cursor} {rest : List Char} (houter : outer.atLineStart = true)
    (m : Piece × String) :
    findingAt rule (markWithin outer rest m) = (findingAt rule m).down outer.line := by
  have hstart := @position_within outer m.1.start rest houter
  have hstop := @position_within outer m.1.stop rest houter
  rw [findingAt, findingAt, markWithin, Piece.within, hstart, hstop]
  rfl

/-! ### Empty lines -/

/-- The cursor after so many line feeds. -/
def afterFeeds (k : Nat) : Cursor :=
  ⟨(List.replicate k '\n').reverse, []⟩

theorem atLineStart_afterFeeds (k : Nat) : (afterFeeds k).atLineStart = true := by
  rw [afterFeeds, List.reverse_replicate]
  cases k with
  | zero => rfl
  | succ k => rfl

theorem atWordBoundary_afterFeeds (k : Nat) :
    (afterFeeds k).before.head?.any isWord = false := by
  rw [afterFeeds, List.reverse_replicate]
  cases k with
  | zero => rfl
  | succ k => rfl

theorem line_afterFeeds (k : Nat) : (afterFeeds k).line = k := by
  rw [line, afterFeeds, List.count_reverse, List.count_replicate_self]

/-- A search passes over line feeds if nothing begins with one. -/
theorem findAllFrom_feeds {recognise : Recogniser α}
    (hfeed : ∀ before after, recognise ⟨before, '\n' :: after⟩ = none) (k : Nat)
    (before text : List Char) :
    findAllFrom recognise before (List.replicate k '\n' ++ text) =
      findAllFrom recognise ((List.replicate k '\n').reverse ++ before) text := by
  refine findAllFrom_pass fun passed x rest hparts ↦ ?_
  obtain rfl : x = '\n' :=
    List.eq_of_mem_replicate (hparts ▸ List.mem_append_right passed List.mem_cons_self)
  exact hfeed _ _

theorem findAll_feeds {recognise : Recogniser α} {image : α → α} (hadvances : Advances recognise)
    (hfeed : ∀ before after, recognise ⟨before, '\n' :: after⟩ = none)
    (hcarries : Carries (afterFeeds k) [] (Prod.map image ((afterFeeds k).within [])) recognise)
    (text : List Char) :
    findAll recognise (List.replicate k '\n' ++ text) =
      (findAll recognise text).map (Found.within (afterFeeds k) [] image) := by
  rw [findAll, findAllFrom_feeds hfeed, List.append_nil]
  exact findAllFrom_eq_map hadvances hcarries text

/-- The findings of a loop that finds nothing at a line feed. -/
theorem map_marks_feeds {loop : Loop α} (hloop : loop.Sound)
    (hfeed : ∀ before after, loop.recognise ⟨before, '\n' :: after⟩ = none) {text : List Char}
    (hcarries : loop.Carries (afterFeeds k) [] text) :
    (loop.marks (List.replicate k '\n' ++ text)).map (findingAt rule) =
      ((loop.marks text).map (findingAt rule)).map (Diagnostic.down k) := by
  rw [loop.marks_below hloop hcarries, List.map_map, List.map_map]
  · refine List.map_congr_left fun m _ ↦ ?_
    have hfinding := @findingAt_within rule _ [] (atLineStart_afterFeeds k) m
    rw [line_afterFeeds] at hfinding
    exact hfinding
  · have hfeeds := findAllFrom_feeds hfeed k [] text
    rw [List.append_nil] at hfeeds
    exact hfeeds

/-! ### What a text declares -/

theorem declaredKey_feeds (k : Nat) (text : List Char) :
    declaredKey (List.replicate k '\n' ++ text) = declaredKey text := by
  rw [declaredKey, declaredKey, findFirst, findFirst,
    findAll_feeds advances_keyAssignment (fun _ _ ↦ rfl) carries_keyAssignment, List.head?_map,
    Option.map_map]
  rfl

/-- A declaration that is found at a line feed is found after it too, since its blanks lead to the
same place. -/
theorem head?_nameDeclaration_feed {before : List Char} (after : List Char)
    (hstart : (Cursor.mk before ('\n' :: after)).atLineStart = true) :
    (findAllFrom nameDeclaration before ('\n' :: after)).head?.map Found.value =
      (findAllFrom nameDeclaration ('\n' :: before) after).head?.map Found.value := by
  have hadvances : Advances nameDeclaration := (ignoresEndings_nameDeclaration []).advances
  have hsame :
      nameDeclaration ⟨before, '\n' :: after⟩ = nameDeclaration ⟨'\n' :: before, after⟩ := by
    have hnext : (Cursor.mk ('\n' :: before) after).atLineStart = true := rfl
    rw [nameDeclaration, nameDeclaration, if_pos hstart, if_pos hnext]
    rfl
  cases hanswer : nameDeclaration ⟨before, '\n' :: after⟩ with
  | none => rw [findAllFrom_of_none hanswer]
  | some answer =>
    obtain ⟨name, stop⟩ := answer
    rw [findAllFrom_of_some hadvances hanswer]
    rw [hsame] at hanswer
    cases after with
    | nil =>
      obtain ⟨cs, hne, hreads⟩ := hadvances _ _ _ hanswer
      exact absurd (List.append_eq_nil_iff.1 hreads.after_eq.symm).1 hne
    | cons x after =>
      rw [findAllFrom_of_some hadvances hanswer]
      rfl

theorem declaredName_feeds (k : Nat) (text : List Char) :
    declaredName (List.replicate k '\n' ++ text) = declaredName text := by
  -- the induction goes along the line feeds, of which `j` have been passed
  have hfeeds : ∀ j, (findAllFrom nameDeclaration (List.replicate j '\n')
      (List.replicate k '\n' ++ text)).head?.map Found.value =
        (findAllFrom nameDeclaration (List.replicate (j + k) '\n') text).head?.map Found.value := by
    induction k with
    | zero => exact fun j ↦ rfl
    | succ k ih =>
      intro j
      have hstart : (Cursor.mk (List.replicate j '\n')
          ('\n' :: (List.replicate k '\n' ++ text))).atLineStart = true := by
        cases j with
        | zero => rfl
        | succ j => rfl
      have hnext := ih (j + 1)
      rw [List.replicate_succ, Nat.add_right_comm] at hnext
      rw [List.replicate_succ, List.cons_append, head?_nameDeclaration_feed _ hstart]
      exact hnext
  have hall := hfeeds 0
  rw [Nat.zero_add] at hall
  have hbefore : (afterFeeds k).before = List.replicate k '\n' := List.reverse_replicate
  have htext := findAllFrom_eq_map
    (ignoresEndings_nameDeclaration []).advances
    (carries_nameDeclaration (atLineStart_afterFeeds k) apart_nil) text
  rw [hbefore] at htext
  rw [declaredName, declaredName, findFirst, findFirst, findAll]
  refine hall.trans ?_
  rw [htext, List.head?_map, Option.map_map]
  rfl

/-! ### Blocks -/

theorem blocks_feeds {header : Cursor → Option Cursor} (hheader : HeaderImage header)
    (hfeed : ∀ before after, header ⟨before, '\n' :: after⟩ = none)
    (hcarries : HeaderCarries (afterFeeds k) [] header)
    (hchars : context'.chars = List.replicate k '\n' ++ context.chars) :
    blocks header context' = (blocks header context).map (Block.within (afterFeeds k)) := by
  rw [blocks, blocks, hchars, findAll_feeds (ignoresEndings_block hheader []).advances
    (fun before after ↦ ?_) (carries_block hcarries), List.map_map, List.map_map]
  · rfl
  · rw [block, hfeed]
    split <;> rfl

/-- The findings in a block of a part that begins at the start of a line. -/
theorem Searches.down {loop : List Char → Loop α} {findings : Context → Block → List Diagnostic}
    (hfindings : Searches rule loop findings) {header : Cursor → Option Cursor}
    {language : Language Char} (hheader : ∀ c d, header c = some d → c.Spells language d)
    {outer : Cursor} (houter : outer.atLineStart = true)
    (hchars : context'.chars = outer.before.reverse ++ context.chars) {block : Block}
    (h : block ∈ blocks header context) :
    findings context' (block.within outer) =
      (findings context block).map (Diagnostic.down outer.line) := by
  obtain ⟨first, last, hfirst, hbase, hreads, -⟩ := exists_body hheader h
  have hfirst' : (outer.within [] first).text = context'.chars := by
    rw [hchars, ← hfirst]
    simp [text, within]
  have hbase' : (outer.within [] first).offset = (block.within outer).base := by
    rw [offset_within, hbase]
    rfl
  rw [hfindings context block first last hfirst hreads hbase,
    hfindings context' (block.within outer) _ _ hfirst' (hreads.within outer []) hbase',
    List.map_map]
  refine List.map_congr_left fun m _ ↦ ?_
  refine Eq.trans ?_ (@findingAt_within _ _ [] houter (markWithin first last.after m))
  simp only [markWithin, Piece.within, within, List.append_assoc]

/-! ### Grades -/

theorem findFirst_grade_feeds {name : String} (hunbroken : Unbroken name.toList)
    (hne : name.toList ≠ []) (hblank : name.toList.any breaks.contains = false)
    (hfeed : ∀ before after, gradeAssignment name ⟨before, '\n' :: after⟩ = none)
    (text : List Char) :
    findFirst (gradeAssignment name) (List.replicate k '\n' ++ text) =
      (findFirst (gradeAssignment name) text).map (Found.within (afterFeeds k) [] id) := by
  rw [findFirst, findFirst, findAll_feeds (ignoresEndings_gradeAssignment hunbroken hne []).advances
    hfeed (carries_gradeAssignment hblank apart_nil), List.head?_map]

theorem gradeFinding_feeds (hchars : context'.chars = List.replicate k '\n' ++ context.chars) :
    gradeFinding context' = (gradeFinding context).map (Diagnostic.down k) := by
  have hmark : gradeMark context'.chars =
      (gradeMark context.chars).map (markWithin (afterFeeds k) []) := by
    rw [hchars, gradeMark, gradeMark,
      findFirst_grade_feeds (by decide) (by decide) (by decide) fun _ _ ↦ rfl,
      findFirst_grade_feeds (by decide) (by decide) (by decide) fun _ _ ↦ rfl]
    cases findFirst (gradeAssignment importanceVariable) context.chars with
    | none => rfl
    | some importance =>
      cases findFirst (gradeAssignment severityVariable) context.chars with
      | none => rfl
      | some severity => exact severityMark_within importance.value severity
  rw [gradeFinding_eq, gradeFinding_eq, hmark, Option.map_map, Option.map_map]
  congr 1
  funext m
  have hfinding := @findingAt_within .importanceSeverityMismatch _ []
    (atLineStart_afterFeeds k) m
  rw [line_afterFeeds] at hfinding
  exact hfinding

/-! ### All loops -/

theorem comparison_feed (before after : List Char) : comparison ⟨before, '\n' :: after⟩ = none := by
  rw [comparison]
  split <;> rfl

theorem loweredCall_feed {function : String} (hfunction : function ∈ matchingFunctions)
    (before after : List Char) : loweredCall function ⟨before, '\n' :: after⟩ = none := by
  have hfeed : ∀ function ∈ matchingFunctions, ∀ before after,
      Cursor.word function ⟨before, '\n' :: after⟩ = none := by
    simp [matchingFunctions, word, exactly, char, one_cons]
  rw [loweredCall, hfeed function hfunction]
  split <;> rfl

theorem concatenation_feed (before after : List Char) :
    concatenation ⟨before, '\n' :: after⟩ = none := by
  rw [concatenation, fieldPlusLiteral, numericField, boundary]
  split <;> rfl

theorem keyFindings_feeds (hchars : context'.chars = List.replicate k '\n' ++ context.chars)
    (declared : List Char) :
    keyFindings context' declared = (keyFindings context declared).map (Diagnostic.down k) := by
  rw [keyFindings_eq, keyFindings_eq, hchars]
  exact map_marks_feeds (sound_keyLoop declared) (fun _ _ ↦ rfl)
    (carries_keyLoop declared apart_nil (.inl rfl))

theorem nameFindings_feeds (hchars : context'.chars = List.replicate k '\n' ++ context.chars)
    (declared : List Char) :
    nameFindings context' declared = (nameFindings context declared).map (Diagnostic.down k) := by
  rw [nameFindings_eq, nameFindings_eq, hchars]
  exact map_marks_feeds (sound_nameLoop declared) (fun _ _ ↦ rfl)
    (carries_nameLoop declared apart_nil)

/-- **The loops of a text after empty lines find what they find without them, further down.** -/
theorem loops_feeds (rule : Rule)
    (hchars : context'.chars = List.replicate k '\n' ++ context.chars) :
    loops rule context' = (loops rule context).map (List.map (Diagnostic.down k)) := by
  have hword := atWordBoundary_afterFeeds k
  have hfeeds : context'.chars = (afterFeeds k).before.reverse ++ context.chars := by
    rw [hchars, afterFeeds, List.reverse_reverse]
  cases rule with
  | lowerComparisonCase =>
    refine congrArg (fun findings ↦ [findings]) ?_
    rw [lowerComparisonFindings_eq, lowerComparisonFindings_eq, hchars]
    exact map_marks_feeds sound_comparisonLoop comparison_feed
      (carries_comparisonLoop hword apart_nil)
  | nestedLowerCase =>
    rw [loops, loops, List.map_map]
    refine List.map_congr_left fun function hfunction ↦ ?_
    show loweredCallFindings context' function = (loweredCallFindings context function).map _
    rw [loweredCallFindings_eq hfunction, loweredCallFindings_eq hfunction, hchars]
    exact map_marks_feeds (sound_callLoop hfunction) (loweredCall_feed hfunction)
      (carries_callLoop hfunction hword apart_nil)
  | fieldAssignmentInBlock =>
    rw [loops, loops, blocks_feeds headerImage_eventHeader (fun _ _ ↦ rfl)
      (carries_opening_eventHeader hword apart_nil) hchars, List.map_map, List.map_map]
    refine List.map_congr_left fun block hblock ↦ ?_
    have hdown := searches_assignmentFindings.down (fun _ _ ↦ spells_eventHeader)
      (atLineStart_afterFeeds k)
      hfeeds hblock
    rw [line_afterFeeds] at hdown
    exact hdown
  | numberToStringConcat =>
    refine congrArg (fun findings ↦ [findings]) ?_
    rw [concatenationFindings_eq, concatenationFindings_eq, hchars]
    exact map_marks_feeds sound_concatenationLoop concatenation_feed
      (carries_concatenationLoop hword apart_nil)
  | filterSingleEquals =>
    rw [loops, loops, blocks_feeds headerImage_filter (fun _ _ ↦ rfl)
      (carries_opening_filter hword apart_nil) hchars, List.map_map, List.map_map]
    refine List.map_congr_left fun block hblock ↦ ?_
    have hdown := searches_equationFindings.down (fun _ _ ↦ spells_word) (atLineStart_afterFeeds k)
      hfeeds hblock
    rw [line_afterFeeds] at hdown
    exact hdown
  | whitelistKeyMismatch =>
    rw [loops, loops, hchars, declaredKey_feeds, List.map_map]
    exact List.map_congr_left fun declared _ ↦ keyFindings_feeds hchars declared
  | whitelistRuleNameMismatch =>
    rw [loops, loops, hchars, declaredName_feeds, List.map_map]
    exact List.map_congr_left fun declared _ ↦ nameFindings_feeds hchars declared
  | importanceSeverityMismatch =>
    refine congrArg (fun findings ↦ [findings]) ?_
    rw [gradeFinding_feeds hchars]
    cases gradeFinding context <;> rfl

end Check

/-! ### Runs -/

/-- The document with so many empty lines before its text. -/
def Document.shifted (k : Nat) (document : Document) : Document :=
  { document with text := String.ofList (List.replicate k '\n' ++ document.chars) }

theorem Document.chars_shifted (k : Nat) (document : Document) :
    (document.shifted k).chars = List.replicate k '\n' ++ document.chars :=
  String.toList_ofList

theorem Document.findingsUnder_shifted (k : Nat) (document : Document) (limit : Nat) (rule : Rule) :
    (document.shifted k).findingsUnder limit rule =
      (document.findingsUnder limit rule).map (Diagnostic.down k) := by
  have hloops : (document.shifted k).loops rule =
      (document.loops rule).map (List.map (Diagnostic.down k)) := by
    rw [← Check.loops_eq rule document (document.shifted k).chars.length]
    exact Check.loops_feeds
      rule (document.chars_shifted k)
  rw [findingsUnder, findingsUnder, hloops, List.flatMap_map, List.map_flatMap]
  simp only [List.map_take]

theorem Suite.run_shifted (k : Nat) (document : Document) {limit : Nat} (hlimit : 1 ≤ limit) :
    standard.run (document.shifted k) limit =
      { standard.run document limit with
        diagnostics := (standard.run document limit).diagnostics.map (Diagnostic.down k) } := by
  rw [run_eq_flatMap fun check hcheck ↦ Check.validate_standard hcheck hlimit,
    run_eq_flatMap fun check hcheck ↦ Check.validate_standard hcheck hlimit, List.map_flatMap]
  simp only [Run.mk.injEq, and_true]
  refine List.flatMap_congr fun check _ ↦ ?_
  show (if check.appliesTo document.language then _ else []) = List.map _ (if _ then _ else [])
  rw [Document.findingsUnder_shifted]
  split <;> rfl

/-! ### Directives -/

/-- What is silenced, so many lines further down. -/
def Suppressions.down (k : Nat) (suppressions : Suppressions) : Suppressions :=
  { suppressions with
    lines := suppressions.lines.map fun (line, scope) ↦ ((line.toNat + k).toUInt32, scope) }

theorem linesOf_feeds (k : Nat) (text : List Char) :
    linesOf (List.replicate k '\n' ++ text) = List.replicate k [] ++ linesOf text := by
  induction k with
  | zero => rfl
  | succ k ih =>
    rw [List.replicate_succ, List.replicate_succ, List.cons_append, List.cons_append, ← ih]
    rfl

theorem Suppressions.down_add (k : Nat) (suppressions : Suppressions) (index : Nat)
    (directive : Directive) :
    (suppressions.down k).add (k + index) directive =
      (suppressions.add index directive).down k := by
  cases directive with
  | document scope => cases scope <;> rfl
  | nextLine scope =>
    have hline : (k + index + 1).toUInt32 = ((index + 1).toUInt32.toNat + k).toUInt32 := by
      rw [toUInt32_add, Nat.add_assoc, Nat.add_comm]
    simp only [add, down, List.map_append, List.map_cons, List.map_nil, hline]

theorem Suppressions.down_addLines (k : Nat) (suppressions : Suppressions) (index : Nat)
    (lines : List (List Char)) :
    (suppressions.down k).addLines (k + index) lines =
      (suppressions.addLines index lines).down k := by
  induction lines generalizing suppressions index with
  | nil => rfl
  | cons line lines ih =>
    rw [addLines, addLines]
    cases Directive.ofLine? line with
    | some directive =>
      dsimp only
      rw [down_add]
      exact ih _ (index + 1)
    | none => exact ih _ (index + 1)

theorem Suppressions.addLines_replicate_nil (k : Nat) (suppressions : Suppressions) (index : Nat)
    (lines : List (List Char)) :
    suppressions.addLines index (List.replicate k [] ++ lines) =
      suppressions.addLines (k + index) lines := by
  induction k generalizing index with
  | zero => rw [Nat.zero_add]; rfl
  | succ k ih =>
    have hnone : Directive.ofLine? [] = Option.none := rfl
    rw [List.replicate_succ, List.cons_append, addLines, hnone]
    dsimp only
    rw [ih, Nat.add_assoc, Nat.add_comm index]

/-- Directives move with the text. -/
theorem Suppressions.ofText_feeds (k : Nat) (text : List Char) :
    ofText (List.replicate k '\n' ++ text) = (ofText text).down k := by
  rw [ofText, ofText, linesOf_feeds, addLines_replicate_nil]
  exact down_addLines k none 0 (linesOf text)

theorem Suppressions.silences_down (k : Nat) (suppressions : Suppressions) (d : Diagnostic) :
    (suppressions.down k).silences (d.down k) = suppressions.silences d := by
  rw [silences, silences, down]
  congr 1
  rw [List.any_map]
  congr 1
  funext ⟨line, scope⟩
  show ((line.toNat + k).toUInt32 == (d.range.start.line.toNat + k).toUInt32 && _) = _
  rw [Bool.eq_iff_iff]
  simp [Diagnostic.down]

theorem Config.apply_down (k : Nat) (config : Config) (suppressions : Suppressions)
    (findings : List Diagnostic) :
    config.apply (suppressions.down k) (findings.map (Diagnostic.down k)) =
      (config.apply suppressions findings).map (Diagnostic.down k) := by
  have hregrade : config.regrade ∘ Diagnostic.down k = Diagnostic.down k ∘ config.regrade := by
    funext d
    have hrule : (d.down k).rule = d.rule := rfl
    rw [Function.comp_apply, Function.comp_apply, regrade, regrade, hrule]
    cases config.severity d.rule <;> rfl
  have hsilences : (fun d ↦ !(suppressions.down k).silences d) ∘ Diagnostic.down k =
      fun d ↦ !suppressions.silences d := by
    funext d
    exact congrArg (! ·) (suppressions.silences_down k d)
  rw [apply, apply, List.filter_map, List.filter_map, hsilences, List.map_map, List.map_map,
    hregrade]
  rfl

/-- **Findings move with the text.** After `k` empty lines a document has the findings that it has
without them, in the same order, each with `k` added to the lines of its range and the same in
everything else. -/
theorem lint_shifted (document : Document) (settings : Settings) (config : Config) (k : Nat) :
    lint .standard (document.shifted k) settings config =
      { lint .standard document settings config with
        diagnostics :=
          (lint .standard document settings config).diagnostics.map (Diagnostic.down k) } := by
  rw [lint, lint, document.chars_shifted, Suppressions.ofText_feeds,
    Suite.run_shifted k document (Settings.normalized_pos _)]
  dsimp only
  rw [Config.apply_down]

end RuleLint
