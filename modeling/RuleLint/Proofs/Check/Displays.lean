import RuleLint.Proofs.Check.Messages
import RuleLint.Proofs.Text.Digits
import RuleLint.Proofs.Text.Offsets
import RuleLint.Proofs.Text.Pieces
import RuleLint.Report

/-!
# Findings in reports

In a report a finding has a headline, with its severity, rule and message, and a line with the place
where it begins, counted from one in words of 32 bits (`Diagnostic.place_of_mem_lint`: in a text of
fewer bytes than there are words, no number starts over). This module is about what a reader of the
report can rely on, who sees nothing but lines.

* `display_is_headline_and_place` rests on what messages say (`worded_of_mem_lint`). If the message
  has no line break, the display is exactly these two lines, alone and indented in a report. The one
  message that can have a line break is about an assignment in an event block whose header has one,
  and then the headline goes on for more lines (`display_on_three_lines`).
* `places_of_report` rests on nothing in a message being like a place: a line that gives a place has
  a blank after `>` (`readPlace?_of_unarrowed`), and no message has. So the places are read back
  from a report even where a headline has several lines. What stands before the findings of a file,
  its path or why it could not be read, is up to the file, so that it gives no place is assumed.
-/

namespace RuleLint

/-! ### The two parts of a display -/

theorem onOneLine_toString (n : Nat) : OnOneLine (toString n).toList := by
  refine onOneLine_of_not_isBlank fun x hx ↦ Check.not_isBlank_of_isFieldChar ?_
  rw [Check.isFieldChar, isDigit_of_mem_toString hx, Bool.or_true]
  rfl

namespace Diagnostic

variable (d : Diagnostic)

/-- What a report says of a finding first: how serious it is, the rule and the message. -/
def headline : String :=
  d.severity.name ++ "[" ++ d.rule.code ++ "]: " ++ d.message

/-- The line and the column where a finding begins, counted from one, in words of 32 bits. -/
def place : Nat × Nat :=
  ((d.range.start.line + 1).toNat, (d.range.start.character + 1).toNat)

/-- Counting from one starts over after the last word. -/
theorem place_eq_mod : d.place =
    ((d.range.start.line.toNat + 1) % 2 ^ 32, (d.range.start.character.toNat + 1) % 2 ^ 32) := by
  rw [place, UInt32.toNat_add, UInt32.toNat_add]
  rfl

/-- What a report says of a finding last: where it begins. -/
def placeLine : String :=
  "    --> " ++ toString d.place.1 ++ ":" ++ toString d.place.2

theorem toList_render : d.render.toList = d.headline.toList ++ '\n' :: d.placeLine.toList := by
  have hbreak : "\n    --> ".toList = '\n' :: "    --> ".toList := by decide
  simp only [render, headline, placeLine, place, String.toList_append, hbreak, List.append_assoc,
    List.cons_append]

/-- What stands before the message has no line break and no `>`. -/
theorem exists_headline_eq : ∃ opened, d.headline.toList = opened ++ d.message.toList ∧
    OnOneLine opened ∧ '>' ∉ opened := by
  have hname : OnOneLine d.severity.name.toList ∧ '>' ∉ d.severity.name.toList := by
    cases d.severity <;> decide
  have hcode : OnOneLine d.rule.code.toList ∧ '>' ∉ d.rule.code.toList := by
    cases d.rule <;> decide +kernel
  have hbracket : OnOneLine "[".toList := by decide
  have hcolon : OnOneLine "]: ".toList := by decide
  refine ⟨d.severity.name.toList ++ "[".toList ++ d.rule.code.toList ++ "]: ".toList, ?_,
    ((hname.1.append hbracket).append hcode.1).append hcolon, ?_⟩
  · simp only [headline, String.toList_append]
  · exact List.not_mem_append (List.not_mem_append (List.not_mem_append hname.2 (by decide))
      hcode.2) (by decide)

theorem onOneLine_headline (h : OnOneLine d.message.toList) : OnOneLine d.headline.toList := by
  obtain ⟨opened, hheadline, hopened, -⟩ := d.exists_headline_eq
  rw [hheadline]
  exact hopened.append h

theorem unarrowed_headline (h : Unarrowed d.message.toList) : Unarrowed d.headline.toList := by
  obtain ⟨opened, hheadline, -, hopened⟩ := d.exists_headline_eq
  have henclosed := h.enclose hopened List.not_mem_nil nofun
  rwa [List.append_nil, ← hheadline] at henclosed

theorem onOneLine_placeLine : OnOneLine d.placeLine.toList := by
  have harrow : OnOneLine "    --> ".toList := by decide
  have hcolon : OnOneLine ":".toList := by decide
  simp only [placeLine, String.toList_append]
  exact ((harrow.append (onOneLine_toString _)).append hcolon).append (onOneLine_toString _)

/-- The last line of a display is about the place, and the message has the lines before it. -/
theorem splitOnChar_render : splitOnChar '\n' d.render.toList =
    splitOnChar '\n' d.headline.toList ++ [d.placeLine.toList] := by
  rw [toList_render, splitOnChar_append, splitOnChar_of_notMem d.onOneLine_placeLine.newline_notMem]

end Diagnostic

/-! ### Reading a place back -/

/-- The place that a line of a report gives: two numbers with a colon between them, after an
arrow. -/
def readPlace? (line : List Char) : Option (Nat × Nat) := do
  let rest ← dropWord? "--> ".toList (line.dropWhile (· == ' '))
  match splitOnChar ':' rest with
  | [row, column] => return (← (String.ofList row).toNat?, ← (String.ofList column).toNat?)
  | _ => none

theorem readPlace?_cons_blank (line : List Char) : readPlace? (' ' :: line) = readPlace? line :=
  rfl

theorem dropWord?_append (word text : List Char) : dropWord? word (word ++ text) = some text := by
  induction word with
  | nil => rfl
  | cons x word ih => rw [List.cons_append, dropWord?, if_pos rfl, ih]

theorem eq_append_of_dropWord? {word text rest : List Char} (h : dropWord? word text = some rest) :
    text = word ++ rest := by
  fun_induction dropWord? word text with
  | case1 text => exact Option.some.inj h
  | case2 => cases h
  | case3 c word text ih => rw [ih h, List.cons_append]
  | case4 => cases h

theorem readPlace?_placeLine (d : Diagnostic) : readPlace? d.placeLine.toList = some d.place := by
  have hline : d.placeLine.toList = ' ' :: ' ' :: ' ' :: ' ' :: ("--> ".toList ++
      ((toString d.place.1).toList ++ ':' :: (toString d.place.2).toList)) := by
    have harrow : "    --> ".toList = ' ' :: ' ' :: ' ' :: ' ' :: "--> ".toList := by decide
    have hcolon : ":".toList = [':'] := by decide
    simp only [Diagnostic.placeLine, String.toList_append, harrow, hcolon, List.append_assoc,
      List.cons_append, List.nil_append]
  rw [hline, readPlace?_cons_blank, readPlace?_cons_blank, readPlace?_cons_blank,
    readPlace?_cons_blank, readPlace?]
  have hblanks (rest : List Char) : ("--> ".toList ++ rest).dropWhile (· == ' ') =
      "--> ".toList ++ rest := rfl
  rw [hblanks, dropWord?_append, Option.bind_eq_bind, Option.bind_some, splitOnChar_append,
    splitOnChar_of_notMem (notMem_toString (by decide) _),
    splitOnChar_of_notMem (notMem_toString (by decide) _)]
  simp only [List.singleton_append, toNat?_ofList_toString]
  rfl

/-- A line that gives a place has an arrow with a blank behind it. -/
theorem readPlace?_of_unarrowed {line : List Char} (h : Unarrowed line) :
    readPlace? line = none := by
  cases hdrop : dropWord? "--> ".toList (line.dropWhile (· == ' ')) with
  | none => rw [readPlace?, hdrop]; rfl
  | some rest =>
    have hsuffix := List.dropWhile_suffix (· == ' ') (l := line)
    rw [eq_append_of_dropWord? hdrop] at hsuffix
    have harrow : ['>', ' '] <:+: "--> ".toList ++ rest := ⟨['-', '-'], rest, rfl⟩
    have hchain : Unarrowed ['>', ' '] := List.IsChain.infix h (harrow.trans hsuffix.isInfix)
    exact absurd ⟨rfl, rfl⟩ (List.isChain_cons_cons.1 hchain).1

/-! ### Lines of reports -/

/-- The induction is on the text, with the part `piece` of a line that is read before it. -/
theorem splitOnFrom_indent (piece text : List Char) :
    splitOnFrom '\n' (piece ++ [' ', ' '])
        (text.flatMap fun c ↦ if c = '\n' then ['\n', ' ', ' '] else [c]) =
      (splitOnFrom '\n' piece text).map ([' ', ' '] ++ ·) := by
  induction text generalizing piece with
  | nil => rw [List.flatMap_nil, splitOnFrom, splitOnFrom, List.reverse_append]; rfl
  | cons c text ih =>
    rw [List.flatMap_cons]
    by_cases hc : c = '\n'
    · have hline : (piece ++ [' ', ' ']).reverse = [' ', ' '] ++ piece.reverse :=
        List.reverse_append
      rw [if_pos hc, splitOnFrom, if_pos hc, List.map_cons, ← ih [], ← hline]
      rfl
    · rw [if_neg hc, List.singleton_append, splitOnFrom, if_neg hc, splitOnFrom, if_neg hc,
        ← List.cons_append, ih]

/-- The lines of an indented text are the indented lines of the text. -/
theorem splitOnChar_indentLines (text : String) :
    splitOnChar '\n' (indentLines text).toList =
      (splitOnChar '\n' text.toList).map ([' ', ' '] ++ ·) := by
  have hopened : "  ".toList = [' ', ' '] := by decide
  rw [indentLines, String.toList_append, hopened, String.toList_ofList]
  exact splitOnFrom_indent [] text.toList

theorem splitOnChar_unlines (lines : List String) :
    splitOnChar '\n' (unlines lines).toList =
      (lines.flatMap fun line ↦ splitOnChar '\n' line.toList) ++ [[]] := by
  induction lines with
  | nil => rfl
  | cons line lines ih =>
    have hunlines : (unlines (line :: lines)).toList =
        line.toList ++ '\n' :: (unlines lines).toList := by
      rw [unlines, List.map_cons, String.join_cons, String.toList_append, String.toList_append,
        List.append_assoc]
      rfl
    rw [hunlines, splitOnChar_append, ih, List.flatMap_cons, List.append_assoc]

/-! ### Places in displays and reports -/

theorem readPlace?_indent (line : List Char) : readPlace? ([' ', ' '] ++ line) = readPlace? line :=
  rfl

/-- The lines of a text without arrows give no places. -/
theorem filterMap_readPlace?_of_unarrowed {text : List Char} (h : Unarrowed text) :
    (splitOnChar '\n' text).filterMap readPlace? = [] := by
  refine List.filterMap_eq_nil_iff.2 fun line hline ↦ readPlace?_of_unarrowed ?_
  exact List.IsChain.infix h (isInfix_of_mem_splitOnChar hline)

/-- The one place that a display gives is that of the finding. -/
theorem filterMap_readPlace?_render {d : Diagnostic} (h : Unarrowed d.message.toList) :
    (splitOnChar '\n' d.render.toList).filterMap readPlace? = [d.place] := by
  rw [d.splitOnChar_render, List.filterMap_append,
    filterMap_readPlace?_of_unarrowed (d.unarrowed_headline h), List.nil_append,
    List.filterMap_cons, readPlace?_placeLine]
  rfl

theorem filterMap_readPlace?_indentLines (text : String) :
    (splitOnChar '\n' (indentLines text).toList).filterMap readPlace? =
      (splitOnChar '\n' text.toList).filterMap readPlace? := by
  rw [splitOnChar_indentLines, List.filterMap_map]
  exact List.filterMap_congr fun line _ ↦ readPlace?_indent line

namespace FileResult

/-- What a report says of a result first: the path, and why the file could not be read. -/
def title (result : FileResult) : String :=
  result.error.elim result.path (result.path ++ ": " ++ ·)

/-- Where the findings of a result begin, if there are findings in a report. -/
def places (result : FileResult) : List (Nat × Nat) :=
  if result.error.isSome then [] else result.diagnostics.map Diagnostic.place

theorem mem_lines {result : FileResult} {d : Diagnostic} (herror : result.error = none)
    (hd : d ∈ result.diagnostics) : indentLines d.render ∈ result.lines := by
  have hsome : ¬result.diagnostics.isEmpty = true := by
    rw [List.isEmpty_iff]
    exact List.ne_nil_of_mem hd
  have hmem : indentLines d.render ∈ result.diagnostics.map fun d ↦ indentLines d.render :=
    List.mem_map_of_mem hd
  rw [lines, herror]
  simp only [if_neg hsome, List.mem_cons, hmem, or_true]

/-- The places in the lines on a result are those of its findings, if its title gives none. -/
theorem filterMap_readPlace?_lines {result : FileResult}
    (hmessages : ∀ d ∈ result.diagnostics, Unarrowed d.message.toList)
    (htitle : ∀ line ∈ splitOnChar '\n' result.title.toList, readPlace? line = none) :
    (result.lines.flatMap fun line ↦ splitOnChar '\n' line.toList).filterMap readPlace? =
      result.places := by
  have htitle := List.filterMap_eq_nil_iff.2 htitle
  obtain ⟨location, diagnostics, error⟩ := result
  cases error with
  | some error =>
    rw [lines, List.flatMap_singleton]
    exact htitle
  | none =>
    have hlines : lines ⟨location, diagnostics, none⟩ = if diagnostics.isEmpty then [] else
        location.shown :: diagnostics.map fun d ↦ indentLines d.render := rfl
    have hplaces : places ⟨location, diagnostics, none⟩ = diagnostics.flatMap fun d ↦ [d.place] :=
      List.map_eq_flatMap
    rw [hlines, hplaces]
    split
    · rename_i hempty
      rw [List.isEmpty_iff.1 hempty]
      rfl
    · have htitle : (splitOnChar '\n' location.shown.toList).filterMap readPlace? = [] := htitle
      rw [List.flatMap_cons, List.filterMap_append, htitle, List.nil_append, List.flatMap_map,
        List.filterMap_flatMap]
      refine List.flatMap_congr fun d hd ↦ ?_
      rw [filterMap_readPlace?_indentLines, filterMap_readPlace?_render (hmessages d hd)]

end FileResult

theorem notMem_render_totals {x : Char} (totals : Totals) (hdigit : x.isDigit = false)
    (hopened : x ∉ "Checked ".toList) (hfiles : x ∉ " file(s): ".toList)
    (herrors : x ∉ " error(s), ".toList) (hwarnings : x ∉ " warning(s)".toList) :
    x ∉ totals.render.toList := by
  simp only [Totals.render, String.toList_append, List.mem_append, not_or]
  exact ⟨⟨⟨⟨⟨⟨hopened, notMem_toString hdigit _⟩, hfiles⟩, notMem_toString hdigit _⟩, herrors⟩,
    notMem_toString hdigit _⟩, hwarnings⟩

theorem splitOnChar_report (results : List FileResult) :
    splitOnChar '\n' (report results).toList =
      ((results.flatMap FileResult.lines).flatMap fun line ↦ splitOnChar '\n' line.toList) ++
        [(Totals.ofResults results).render.toList, []] := by
  rw [report, splitOnChar_unlines, List.flatMap_append, List.flatMap_singleton,
    splitOnChar_of_notMem (notMem_render_totals _ rfl (by decide) (by decide) (by decide)
      (by decide)), List.append_assoc]
  rfl

/-- **A report gives the places of its findings**, in order, and no others, if no message in it has
a blank after `>` and no title in it gives a place. -/
theorem filterMap_readPlace?_report {results : List FileResult}
    (hmessages : ∀ result ∈ results, ∀ d ∈ result.diagnostics, Unarrowed d.message.toList)
    (htitles : ∀ result ∈ results, ∀ line ∈ splitOnChar '\n' result.title.toList,
      readPlace? line = none) :
    (splitOnChar '\n' (report results).toList).filterMap readPlace? =
      results.flatMap FileResult.places := by
  have htotals := readPlace?_of_unarrowed (unarrowed_of_notMem_arrow (notMem_render_totals
    (Totals.ofResults results) rfl (by decide) (by decide) (by decide) (by decide)))
  have hempty : readPlace? [] = none := rfl
  rw [splitOnChar_report, List.filterMap_append, List.filterMap_cons_none htotals,
    List.filterMap_cons_none hempty, List.filterMap_nil, List.append_nil, List.flatMap_assoc,
    List.filterMap_flatMap]
  exact List.flatMap_congr fun result hresult ↦
    FileResult.filterMap_readPlace?_lines (hmessages result hresult) (htitles result hresult)

/-! ### Findings of the linter -/

theorem Config.message_regrade (config : Config) (d : Diagnostic) :
    (config.regrade d).message = d.message := by
  rw [Config.regrade]
  split <;> rfl

section Linted

variable {document : Document} {settings : Settings} {config : Config} {d : Diagnostic}

theorem worded_of_mem_lint (hd : d ∈ (lint .standard document settings config).diagnostics) :
    Check.Worded document.chars d.rule d.message := by
  obtain ⟨check, hcheck, -, limit, findings, hsearch, found, hmem, -, rfl⟩ :=
    exists_search_of_mem_lint hd
  rw [Config.rule_regrade, Config.message_regrade]
  exact Check.worded_of_mem_search hcheck hsearch hmem

/-- In a text that is small enough for words, both numbers of a place are one more than those of the
position. -/
theorem place_of_mem_lint (hd : d ∈ (lint .standard document settings config).diagnostics)
    (hsize : document.text.utf8ByteSize < 2 ^ 32 - 1) :
    d.place = (d.range.start.line.toNat + 1, d.range.start.character.toNat + 1) := by
  obtain ⟨start, stop, htext, hrange, -⟩ := exists_instance_of_mem_lint hd
  have hbytes : byteLength start.text = document.text.utf8ByteSize := by
    rw [htext, Document.chars, ← utf8ByteSize_ofList, String.ofList_toList]
  have hoffset := start.offset_le
  have hline : d.range.start.line.toNat ≤ start.line := by
    rw [hrange]
    exact Nat.mod_le _ _
  have hcolumn : d.range.start.character.toNat ≤ start.column := by
    rw [hrange]
    exact Nat.mod_le _ _
  have hline' := start.line_le_offset
  have hcolumn' := start.column_le_offset
  rw [d.place_eq_mod, Nat.mod_eq_of_lt (by omega), Nat.mod_eq_of_lt (by omega)]

/-- **A finding is displayed on one line, with its place on another**, unless its message has a line
break, and the place can be read back. A message has a line break if and only if it is about an
assignment in an event block with a line break in the header. The numbers of the place are one more
than those of the position, modulo `2 ^ 32`, and exactly so in a text of fewer than `2 ^ 32 - 1`
bytes. -/
theorem display_is_headline_and_place
    (hd : d ∈ (lint .standard document settings config).diagnostics) :
    (¬OnOneLine d.message.toList ↔ d.rule = .fieldAssignmentInBlock ∧
      ∃ header ∈ Check.eventHeaders document.chars, ¬OnOneLine header ∧
        ∃ field, (∀ x ∈ field, Check.isFieldChar x = true) ∧
          d.message = Check.assignmentMessage field header) ∧
      (OnOneLine d.message.toList → OnOneLine d.headline.toList ∧ OnOneLine d.placeLine.toList ∧
        splitOnChar '\n' d.render.toList = [d.headline.toList, d.placeLine.toList] ∧
        splitOnChar '\n' (indentLines d.render).toList =
          [' ' :: ' ' :: d.headline.toList, ' ' :: ' ' :: d.placeLine.toList]) ∧
      (splitOnChar '\n' d.render.toList).filterMap readPlace? = [d.place] ∧
      (splitOnChar '\n' (indentLines d.render).toList).filterMap readPlace? = [d.place] ∧
      d.place = ((d.range.start.line.toNat + 1) % 2 ^ 32,
        (d.range.start.character.toNat + 1) % 2 ^ 32) ∧
      (document.text.utf8ByteSize < 2 ^ 32 - 1 →
        d.place = (d.range.start.line.toNat + 1, d.range.start.character.toNat + 1)) ∧
      ∀ results : List FileResult, ∀ result ∈ results, result.error = none →
        d ∈ result.diagnostics →
          splitOnChar '\n' (indentLines d.render).toList <:+:
            splitOnChar '\n' (report results).toList := by
  have hworded := worded_of_mem_lint hd
  have hplace := filterMap_readPlace?_render hworded.unarrowed
  refine ⟨hworded.not_onOneLine_iff, fun honeLine ↦ ?_, hplace, ?_, d.place_eq_mod,
    place_of_mem_lint hd, ?_⟩
  · have hheadline := d.onOneLine_headline honeLine
    have hlines : splitOnChar '\n' d.render.toList = [d.headline.toList, d.placeLine.toList] := by
      rw [d.splitOnChar_render, splitOnChar_of_notMem hheadline.newline_notMem,
        List.singleton_append]
    refine ⟨hheadline, d.onOneLine_placeLine, hlines, ?_⟩
    rw [splitOnChar_indentLines, hlines]
    rfl
  · rw [filterMap_readPlace?_indentLines, hplace]
  · intro results result hresult herror hmem
    have hline : indentLines d.render ∈ results.flatMap FileResult.lines :=
      List.mem_flatMap.2 ⟨result, hresult, FileResult.mem_lines herror hmem⟩
    have hpart := List.infix_of_mem_flatten
      (List.mem_map_of_mem (f := fun line : String ↦ splitOnChar '\n' line.toList) hline)
    rw [splitOnChar_report, List.flatMap_def]
    exact hpart.trans (List.prefix_append _ _).isInfix

/-- An assignment in a block with its header on one line, and the report on the file. -/
theorem display_of_assignment :
    let document : Document := ⟨"file:///a.co", "co", 1, "on e \x7b\n\tobject = 1\n\x7d"⟩
    let d : Diagnostic := ⟨.fieldAssignmentInBlock, .error, ⟨⟨1, 1⟩, ⟨1, 11⟩⟩,
      "Assigning event field object is not allowed in block 'on e'. Use $object"⟩
    d ∈ (lint .standard document .standard .empty).diagnostics ∧ OnOneLine d.message.toList ∧
      splitOnChar '\n' d.render.toList = [d.headline.toList, d.placeLine.toList] ∧
      document.text.utf8ByteSize < 2 ^ 32 - 1 ∧
      (splitOnChar '\n' d.render.toList).filterMap readPlace? = [(1 + 1, 1 + 1)] ∧
      splitOnChar '\n' (indentLines d.render).toList <:+:
        splitOnChar '\n' (report [⟨"a.co", [d], none⟩]).toList := by
  intro document d
  have hd : d ∈ (lint .standard document .standard .empty).diagnostics := by decide +kernel
  have honeLine : OnOneLine d.message.toList := by decide +kernel
  have hsize : document.text.utf8ByteSize < 2 ^ 32 - 1 := by decide +kernel
  obtain ⟨-, hlines, hplaces, -, -, hplace, hreport⟩ := display_is_headline_and_place hd
  rw [hplace hsize] at hplaces
  exact ⟨hd, honeLine, (hlines honeLine).2.2.1, hsize, hplaces,
    hreport _ _ List.mem_cons_self rfl List.mem_cons_self⟩

/-- **A line break in the header of a block is one in the display.** -/
theorem display_on_three_lines :
    ∃ d ∈ (lint .standard ⟨"file:///a.co", "co", 1, "on\ne \x7b\n a = 1\n\x7d"⟩ .standard
        .empty).diagnostics,
      ¬OnOneLine d.message.toList ∧ (splitOnChar '\n' d.render.toList).length = 3 := by
  refine ⟨⟨.fieldAssignmentInBlock, .error, ⟨⟨2, 1⟩, ⟨2, 6⟩⟩,
      "Assigning event field a is not allowed in block 'on\ne'. Use $a"⟩, ?_, ?_, ?_⟩
  · decide +kernel
  · decide +kernel
  · decide +kernel

/-- **The places of all findings can be read back from a report on them**, in order, if no title in
it gives a place. -/
theorem places_of_report {results : List FileResult}
    (hlinted : ∀ result ∈ results, ∀ d ∈ result.diagnostics, ∃ document settings config,
      d ∈ (lint .standard document settings config).diagnostics)
    (htitles : ∀ result ∈ results, ∀ line ∈ splitOnChar '\n' result.title.toList,
      readPlace? line = none) :
    (splitOnChar '\n' (report results).toList).filterMap readPlace? =
      results.flatMap FileResult.places := by
  refine filterMap_readPlace?_report (fun result hresult d hd ↦ ?_) htitles
  obtain ⟨document, settings, config, hd⟩ := hlinted result hresult d hd
  exact (worded_of_mem_lint hd).unarrowed

end Linted

end RuleLint
