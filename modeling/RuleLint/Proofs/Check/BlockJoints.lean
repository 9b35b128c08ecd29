import RuleLint.Proofs.Check.Joints
import RuleLint.Proofs.Text.Order

/-!
# Where the end of a line cuts nothing of a block

What the rules on blocks look for goes on from a line to the next one between the header of a block
and its brace and, in the body of a block, before and behind a sign. Also, an assignment is found
from the blanks before its field on, which may be empty lines. So for these rules the end of a line
cuts nothing if, besides what is asked for the other rules, a statement ends there: the line does
not end with a blank, with a brace that opens a block or with `on`, and the lines below do not begin
with such a brace (`LineEnd.EndsStatement.clear`).

Between two blocks nothing is asked but what a header could go on with
(`LineEnd.BetweenBlocks.clear`).
-/

namespace RuleLint

open Cursor Check

theorem trimEnd_eq_self {cs : List Char} (h : cs.getLast?.any isBlank = false) :
    trimEnd cs = cs := by
  rw [← List.head?_reverse] at h
  rw [trimEnd, List.dropWhile_eq_self_iff.2, List.reverse_reverse]
  intro hlength
  rw [List.head?_eq_getElem?, List.getElem?_eq_getElem hlength] at h
  simpa using h

namespace Cursor

variable {c : Cursor} {p : Char → Bool}

/-- In a text that does not end with a blank, blanks do not lead out. -/
theorem after_skipBlanks_ne_nil (hsolid : c.text.getLast?.any isBlank = false)
    (hc : c.after ≠ []) : c.skipBlanks.after ≠ [] := by
  intro hnil
  obtain ⟨bs, hbs, hblank⟩ := c.reads_skipBlanks
  have hafter : c.after = bs := by rw [hbs.after_eq, hnil, List.append_nil]
  obtain ⟨cs, x, hlast⟩ : ∃ cs x, c.after = cs ++ [x] :=
    (List.eq_nil_or_concat' _).resolve_left hc
  rw [text, hlast, ← List.append_assoc, List.getLast?_concat, Option.any_some] at hsolid
  rw [hblank x (hafter ▸ hlast ▸ by simp)] at hsolid
  cases hsolid

theorem endsOpen_run (hp : ∀ x, p x = true → x ∈ openSigns) : EndsOpen (run p) := by
  intro c d h
  obtain ⟨cs, hreads, hne, hall, -⟩ := reads_run h
  refine ⟨cs.dropLast, cs.getLast hne, hp _ (hall _ (List.getLast_mem hne)), ?_⟩
  rwa [List.dropLast_append_getLast hne]

end Cursor

namespace Check

variable {above rest : List Char}

/-! ### Openings of blocks -/

/-- The brace after a header. -/
theorem carriesIn_openingEnd (hrest : Ends rest) (hbrace : (trimStart rest).head? ≠ some '\x7b') :
    CarriesIn above rest (Prod.map ((atStart []).within rest) ((atStart []).within rest))
      openingEnd := by
  have hopen : CarriesIn above rest ((atStart []).within rest) fun c ↦ c.skipBlanks.char '\x7b' :=
    (carries_char hrest (by decide)).carriesIn.skipBlanks_of_none (fun _ ↦ rfl)
      fun _ ↦ char_eq_none_of_head hbrace
  intro headerEnd htext
  have hchar : ((atStart []).within rest headerEnd).skipBlanks.char '\x7b' = _ :=
    hopen headerEnd htext
  rw [openingEnd, hchar]
  exact bind_within fun start _ ↦ rfl

theorem carriesIn_opening_filter (hrest : Ends rest)
    (hbrace : (trimStart rest).head? ≠ some '\x7b') :
    CarriesIn above rest (Prod.map ((atStart []).within rest) ((atStart []).within rest))
      (opening (Cursor.word "filter")) :=
  ((carries_word hrest (by decide)).carriesIn.bind (stays_word "filter")
    (carriesIn_openingEnd hrest hbrace)).atWordBoundary hrest

/-- Behind `on` there is something other than blanks in the text. -/
theorem carriesIn_eventName (hrest : Ends rest) (hbrace : (trimStart rest).head? ≠ some '\x7b')
    (hon : ¬"on".toList <:+ trimEnd above) :
    CarriesIn above rest (Prod.map ((atStart []).within rest) ((atStart []).within rest)) fun c ↦
      (c.word "on").bind fun c ↦ (eventName c).bind openingEnd := by
  have hname := (@carries_run _ _ isEventNameChar (hrest.of_head (by decide))).carriesIn.bind
    (stays_run isEventNameChar) (@carriesIn_openingEnd above rest hrest hbrace)
  intro c hc
  dsimp only
  rw [carries_word hrest (by decide) c]
  refine bind_within fun d hd ↦ ?_
  have hreads := reads_word hd
  have hne : d.skipBlanks.after ≠ [] := fun hnil ↦
    hon (hc ▸ @suffix_trimEnd ['o'] c d 'n' hreads (by decide) hnil)
  rw [eventName, eventName, Option.bind_assoc, Option.bind_assoc, run_within_of_ne_nil hne]
  exact bind_within fun e he ↦ hname e
    (((stays_run isBlank d e he).trans hreads.text_eq).trans hc)

theorem carriesIn_opening_eventHeader (hrest : Ends rest)
    (hbrace : (trimStart rest).head? ≠ some '\x7b') (hon : ¬"on".toList <:+ trimEnd above) :
    CarriesIn above rest (Prod.map ((atStart []).within rest) ((atStart []).within rest))
      (opening eventHeader) := by
  have hemit : CarriesIn above rest
      (Prod.map ((atStart []).within rest) ((atStart []).within rest)) fun c ↦
        (c.word "emit").bind openingEnd :=
    (carries_word hrest (by decide)).carriesIn.bind (stays_word "emit")
      (carriesIn_openingEnd hrest hbrace)
  have hheader : CarriesIn above rest
      (Prod.map ((atStart []).within rest) ((atStart []).within rest)) fun c ↦
        (eventHeader c).bind openingEnd := by
    intro c hc
    dsimp only
    rw [eventHeader_bind, eventHeader_bind, Option.map_or]
    exact congrArg₂ Option.or (carriesIn_eventName hrest hbrace hon c hc) (hemit c hc)
  exact hheader.atWordBoundary hrest

/-- The signs between which the body of a block is. -/
def braces : List Char :=
  ['\x7b', '\x7d']

/-- No block is open at the end of a text whose last brace is no opening one. -/
theorem settled_of_closed {header : Cursor → Option Cursor} {language : Language Char}
    (hheader : IsHeader header language)
    (h : (above.filter braces.contains).getLast? ≠ some '\x7b') : Settled header [] above := by
  refine (settled_or_openFrom hheader.advances hheader.avoids [] above).resolve_right ?_
  rintro ⟨start, opened, hopen⟩
  obtain ⟨cs, hcs, -⟩ := reads_opening hheader.avoids hopen.opening_eq
  have habove : above = (start.before.reverse ++ cs) ++ '\x7b' :: opened.2.after := by
    rw [← hopen.start_text, Cursor.text, hcs.after_eq]
    simp
  -- the brace is not closed, so any brace behind it opens something, too
  have hopens : ∀ x ∈ opened.2.after.filter braces.contains, x = '\x7b' := by
    intro x hx
    obtain ⟨hmem, hbrace⟩ := List.mem_filter.1 hx
    rcases List.mem_pair.1 (List.contains_iff_mem.1 hbrace) with rfl | rfl
    · rfl
    · exact absurd hmem hopen.unclosed
  refine h ?_
  rw [habove, List.filter_append, List.filter_cons_of_pos (by decide), List.getLast?_append,
    List.getLast?_cons, Option.some_or]
  cases hlast : (opened.2.after.filter braces.contains).getLast? with
  | none => rfl
  | some x => rw [hopens x (List.mem_of_getLast? hlast), Option.getD_some]

end Check

/-! ### Assignments and equations -/

section Bodies

variable {above rest cs : List Char} {c d : Cursor}

theorem Separate.char_eq_none (hsep : Separate above rest) {x : Char} (hx : x ∈ joiningSigns)
    (before : List Char) : char x ⟨before, trimStart rest⟩ = none :=
  joins_char hx _ hsep.first

theorem Separate.valueBegins (hsep : Separate above rest) (htext : c.text = above)
    (hreads : c.Reads (cs ++ ['=']) d) : ValueBegins d := by
  rw [ValueBegins]
  cases hsecond : d.char '=' with
  | none => exact hsep.after_ne_nil htext hreads (by decide)
  | some e => exact hsep.after_ne_nil htext (hreads.trans (reads_char hsecond)) (by decide)

theorem Separate.valued (hsep : Separate above rest) (htext : c.text = above) : Valued c := by
  intro signEnd hsignEnd
  obtain ⟨-, h⟩ := Option.ite_none_right_eq_some.1 (Option.mem_def.1 hsignEnd)
  obtain ⟨start, hblanks, h⟩ := Option.bind_eq_some_iff.1 h
  obtain ⟨stop, hfield, hsign⟩ := Option.bind_eq_some_iff.1 h
  obtain ⟨bs, hbs, -⟩ := stop.reads_skipBlanks
  have hstop : stop.text = above :=
    (stays_run _ _ _ hfield).trans ((stays_run _ _ _ hblanks).trans htext)
  exact hsep.valueBegins hstop (hbs.trans (reads_char hsign))

/-- The assignments in a text that ends with the end of a statement. -/
theorem Separate.carries_assignmentLoop (hsep : Separate above rest)
    (hsolid : above.getLast?.any isBlank = false) (header : List Char) :
    (assignmentLoop header).Carries (atStart []) rest above := by
  refine ⟨_, fun c hc hne ↦ assignment_within rfl hsep.ends (fun hnil ↦ ?_)
    (hsep.char_eq_none (by decide)) (.inr (hsep.valued hc)), fun found _ ↦
      assignmentMark_within header found⟩
  exact absurd hnil (after_skipBlanks_ne_nil (hc ▸ hsolid) hne)

theorem Separate.run_eq_none (hsep : Separate above rest) (before : List Char) :
    run (· == '=') ⟨before, trimStart rest⟩ = none :=
  congrArg (Option.map _) (hsep.char_eq_none (by decide) before)

theorem Separate.equationRest_eq_none (hsep : Separate above rest) :
    equationRest (atStart rest) = none := by
  have hblanks : equationRest ((atStart []).within rest (atStart [])) =
      (equationRest (atStart [])).map id :=
    runBlanks_within_of_none (fun _ ↦ rfl)
      (fun _ before ↦ by rw [hsep.run_eq_none, Option.bind_none]) fun d hd ↦ by cases hd
  exact hblanks

/-- The equations in a text that ends with the end of a statement. -/
theorem Separate.carries_equationLoop (hsep : Separate above rest)
    (hsolid : above.getLast?.any isBlank = false) :
    equationLoop.Carries (atStart []) rest above := by
  have hsign : EndsOpen (run (· == '=')) := endsOpen_run fun x hx ↦ by
    obtain rfl := beq_iff_eq.1 hx
    decide
  refine ⟨_, fun c hc hne ↦ equation_within hsep.ends (fun hnil ↦ ?_) hsep.run_eq_none
    fun d e hd hrun hnil ↦ ?_, fun found _ ↦ equationMark_within found⟩
  · exact absurd hnil (after_skipBlanks_ne_nil (hc ▸ hsolid) hne)
  · obtain ⟨cs, x, hx, hreads⟩ := hsign d e hrun
    exact absurd hnil (hsep.after_ne_nil (hd.trans hc) hreads hx)

end Bodies

namespace LineEnd

variable {cut : LineEnd} {context : Context} {α : Type} {rule : Rule}

/-! ### Findings in blocks -/

/-- Without a brace that closes one, a text has no blocks. -/
theorem blocks_eq_nil {header : Cursor → Option Cursor} {language : Language Char}
    (hheader : IsHeader header language) (h : '\x7d' ∉ context.chars) :
    blocks header context = [] := by
  refine List.eq_nil_iff_forall_not_mem.2 fun block hblock ↦ h ?_
  obtain ⟨first, last, hfirst, -, hreads, hbody⟩ := exists_body hheader.spells hblock
  obtain ⟨next, _, rfl, hclosed⟩ := hbody.closed
  rw [← hfirst, Cursor.text, (hreads.trans hclosed).after_eq]
  simp

/-- Outside of the bodies of blocks the findings are those of the two parts, if every header is read
in the text as it is above. -/
theorem keepsBlocks_of_inside {header : Cursor → Option Cursor} {language : Language Char}
    {loop : List Char → Loop α} {findings : Context → Block → List Diagnostic}
    {KeepsBody : Block → List Char → List Char → Prop} (hheader : IsHeader header language)
    (hfindings : Searches rule loop findings) (htext : context.chars = cut.text)
    (hcarries : CarriesIn cut.above (cut.ending ++ cut.below)
      (Prod.map ((atStart []).within (cut.ending ++ cut.below))
        ((atStart []).within (cut.ending ++ cut.below))) (opening header))
    (hinside : ∀ block ∈ blocks header context, ∀ head tail, cut.InBody block head tail →
      KeepsBody block head tail) :
    cut.KeepsBlocks context header findings KeepsBody where
  inside := hinside
  apart hapart := by
    rcases settled_or_openFrom hheader.advances hheader.avoids [] cut.above with
      hsettled | ⟨start, opened, hopen⟩
    · have happend := @blockFindings_settled cut _ _ header language loop findings context []
        hheader hfindings hsettled List.not_mem_nil hcarries
        (cut.pass_ending (mute_block hheader.mute))
      have hwhole : cut.above ++ (([] ++ cut.ending) ++ cut.below) = context.chars := htext.symm
      rw [hwhole, Context.withText_chars] at happend
      rw [happend]
      exact covered_of_subset (List.Subset.refl _)
    · -- the open block is closed nowhere, so below there are no blocks
      have hunclosed : '\x7d' ∉ cut.below := by
        intro hclosed
        obtain ⟨tail, rest, hbelow, htail⟩ := List.eq_append_cons_of_mem hclosed
        obtain ⟨block, hblock, -, hin⟩ := hopen.inBody hheader htext hbelow htail
        exact hapart block hblock _ _ hin
      have hbelow : blockFindings header findings (context.withText cut.below) = [] := by
        rw [blockFindings, blocks_eq_nil hheader (by rwa [Context.chars_withText])]
        rfl
      rw [hbelow, List.map_nil, List.append_nil]
      refine covered_of_subset fun d hd ↦ ?_
      obtain ⟨block, hblock, hd⟩ := List.mem_flatMap.1 hd
      rw [blocks_withText] at hblock
      have hsame : findings context block = findings (context.withText cut.above) block :=
        hfindings.eq_withText_above hheader htext hblock
      refine List.mem_flatMap.2 ⟨block, ?_, hsame ▸ hd⟩
      rw [hopen.blocks_eq htext]
      exact List.mem_append_left _ hblock

/-- For the rules on blocks it is enough to look at the bodies of blocks, if no header goes on over
the end of the line. -/
theorem clear_of_inside (htext : context.chars = cut.text)
    (hrule : rule ∈ [.fieldAssignmentInBlock, .filterSingleEquals])
    (hon : ¬"on".toList <:+ trimEnd cut.above)
    (hbrace : (trimStart cut.below).head? ≠ some '\x7b')
    (hassignments : ∀ block ∈ blocks eventHeader context, ∀ head tail,
      cut.InBody block head tail → cut.KeepsAssignments context block head tail)
    (hequations : ∀ block ∈ blocks (Cursor.word "filter") context, ∀ head tail,
      cut.InBody block head tail → cut.KeepsEquations context block head tail) :
    cut.Clear context rule := by
  have hends := cut.ends_ending cut.below_eq_nil
  rw [← cut.trimStart_ending] at hbrace
  cases rule with
  | fieldAssignmentInBlock =>
    exact keepsBlocks_of_inside isHeader_eventHeader searches_assignmentFindings htext
      (carriesIn_opening_eventHeader hends hbrace hon) hassignments
  | filterSingleEquals =>
    exact keepsBlocks_of_inside isHeader_filter searches_equationFindings htext
      (carriesIn_opening_filter hends hbrace) hequations
  | _ => simp at hrule

/-! ### Between blocks -/

/-- Whether a line ends between two blocks: the last brace up to there opens no block, no brace
follows, and the line does not end with `on`, behind which the name of an event could follow. -/
structure BetweenBlocks (cut : LineEnd) : Prop where
  closed : (cut.above.filter braces.contains).getLast? ≠ some '\x7b'
  last : ¬"on".toList <:+ trimEnd cut.above
  first : (trimStart cut.below).head? ≠ some '\x7b'

/-- **The end of a line between two blocks cuts nothing** for the rules on blocks. -/
theorem BetweenBlocks.clear (h : cut.BetweenBlocks) (htext : context.chars = cut.text)
    (hrule : rule ∈ [.fieldAssignmentInBlock, .filterSingleEquals]) : cut.Clear context rule := by
  refine clear_of_inside htext hrule h.last h.first (fun block hblock head tail hin ↦ ?_)
    fun block hblock head tail hin ↦ ?_
  · exact absurd hin (not_inBody_of_settled (settled_of_closed isHeader_eventHeader h.closed) htext
      hblock head tail)
  · exact absurd hin (not_inBody_of_settled (settled_of_closed isHeader_filter h.closed) htext
      hblock head tail)

example : LineEnd.BetweenBlocks ⟨"filter \x7b x == \"a\" \x7d".toList, ['\n'],
    "on e \x7b a = 1 \x7d".toList, .inr (.inl ⟨rfl, by decide⟩)⟩ :=
  ⟨by decide, by decide, by decide⟩

/-! ### In the body of a block -/

/-- The text on both sides of the end of a line in the body of a block: the body is behind a brace,
and something follows it. -/
theorem InBody.exists_parts {header : Cursor → Option Cursor} {language : Language Char}
    {block : Block} {head tail : List Char} (hheader : IsHeader header language)
    (htext : context.chars = cut.text) (hblock : block ∈ blocks header context)
    (h : cut.InBody block head tail) :
    ∃ before rest, cut.above = List.reverse ('\x7b' :: before) ++ head ∧
      cut.below = tail ++ '\x7d' :: rest := by
  obtain ⟨first, last, hfirst, hbase, hreads, hbody⟩ := exists_body hheader.spells hblock
  obtain ⟨start, -, hopened⟩ := hbody.opened
  obtain ⟨brace, -, _, rfl, hbrace⟩ := hopened.exists_mid
  obtain ⟨next, _, rfl, hclosed⟩ := hbody.closed
  rw [h.body_eq, ← List.append_assoc] at hreads
  obtain ⟨below, hreads, htail⟩ := hreads.exists_split
  obtain ⟨mid, hhead, hending⟩ := hreads.exists_split
  have hmid : mid = ⟨cut.above.reverse, cut.ending ++ cut.below⟩ := by
    refine eq_of_offset_eq ?_ ?_
    · rw [hhead.text_eq, hfirst, htext, Cursor.text, List.reverse_reverse]
      rfl
    · rw [hhead.offset_eq, hbase, h.base_add, offset, byteLength_reverse]
  refine ⟨brace.before, next.after, ?_, ?_⟩
  · have habove : cut.above.reverse = head.reverse ++ '\x7b' :: brace.before := by
      have hbefore := hhead.before_eq
      rwa [hmid, hbrace.before_eq] at hbefore
    rw [← List.reverse_reverse cut.above, habove, List.reverse_append, List.reverse_reverse]
  · have hbelow : cut.ending ++ cut.below = cut.ending ++ (tail ++ '\x7d' :: next.after) := by
      have hafter := hending.after_eq
      rwa [hmid, htail.after_eq, hclosed.after_eq] at hafter
    exact List.append_cancel_left hbelow

/-- Whether a statement ends at the end of a line and nothing goes on there, in the body of a block
or outside. -/
structure EndsStatement (cut : LineEnd) : Prop extends Separates cut where
  solid : cut.above.getLast?.any isBlank = false
  braceless : cut.above.getLast? ≠ some '\x7b'
  eventless : ¬"on".toList <:+ trimEnd cut.above
  unopened : (trimStart cut.below).head? ≠ some '\x7b'

section Bodies

variable {block : Block} {head tail before rest : List Char}

/-- The last character of the line is in the body. -/
theorem EndsStatement.getLast?_eq (h : cut.EndsStatement)
    (habove : cut.above = List.reverse ('\x7b' :: before) ++ head) :
    head ≠ [] ∧ head.getLast? = cut.above.getLast? := by
  have hne : head ≠ [] := by
    rintro rfl
    refine h.braceless ?_
    rw [habove, List.append_nil, List.getLast?_reverse]
    rfl
  refine ⟨hne, ?_⟩
  rw [habove, List.getLast?_append_of_ne_nil _ hne]

theorem EndsStatement.separate_body (h : cut.EndsStatement)
    (habove : cut.above = List.reverse ('\x7b' :: before) ++ head)
    (hbelow : cut.below = tail ++ '\x7d' :: rest) : Separate head (cut.ending ++ tail) where
  ends := cut.ends_ending fun hending ↦ by
    have hnil := cut.below_eq_nil hending
    rw [hbelow] at hnil
    exact (List.append_eq_nil_iff.1 hnil).1
  last := by
    obtain ⟨-, hlast⟩ := h.getLast?_eq habove
    have hopen := h.last
    rw [trimEnd_eq_self h.solid, ← hlast] at hopen
    rwa [trimEnd_eq_self (hlast ▸ h.solid)]
  first := by
    have hfirst := h.first
    rw [hbelow, trimStart, List.dropWhile_append] at hfirst
    rw [cut.trimStart_ending, trimStart]
    cases hsolid : tail.dropWhile isBlank with
    | nil => rfl
    | cons x tail =>
      rw [hsolid] at hfirst
      exact hfirst

/-- The findings in the body of a block in which a statement ends at the end of a line. -/
theorem EndsStatement.keepsAssignments (h : cut.EndsStatement) (htext : context.chars = cut.text)
    (hin : cut.InBody block head tail)
    (habove : cut.above = List.reverse ('\x7b' :: before) ++ head)
    (hbelow : cut.below = tail ++ '\x7d' :: rest) :
    cut.KeepsAssignments context block head tail := by
  have hsep := h.separate_body habove hbelow
  obtain ⟨hne, hlast⟩ := h.getLast?_eq habove
  have hbase := hin.base_eq habove
  have hchars : context.chars = List.reverse ('\x7b' :: before) ++
      (head ++ (cut.ending ++ (tail ++ '\x7d' :: rest))) := by
    rw [htext, text, habove, hbelow, List.append_assoc]
  have hlineStart : (Cursor.mk (head ++ cut.ending).reverse []).atLineStart = true :=
    cut.atLineStart_ending (by rw [hbelow]; simp) _ _
  -- the line has something other than blanks, so no assignment begins at its end
  have hbefore : ∀ after, (Cursor.mk head.reverse after).atLineStart = false := by
    obtain ⟨passed, x, rfl⟩ := (List.eq_nil_or_concat' head).resolve_left hne
    have hx : x ≠ '\n' := by
      rintro rfl
      have hsolid := h.solid
      rw [← hlast, List.getLast?_concat] at hsolid
      cases hsolid
    have hstart := atLineStart_eq_false hx passed []
    rwa [List.append_nil] at hstart
  have hpass := @findAllFrom_ending cut _ assignment (fun c hc ↦ by rw [assignment, hc]; rfl) _
    hbefore tail
  rw [← List.reverse_append] at hpass
  have hmarks := (assignmentLoop block.header).marks_append (sound_assignmentLoop block.header)
    (hsep.carries_assignmentLoop (hlast ▸ h.solid) block.header)
    (carries_assignmentLoop block.header hlineStart apart_nil (.inl rfl)) hpass
  have happend := searches_assignmentFindings.append hchars hbase hmarks
  rw [← hin.body_eq] at happend
  refine ⟨fun c hc ↦ hsep.valued hc, ?_⟩
  rw [← happend]
  exact covered_of_subset (List.Subset.refl _)

theorem EndsStatement.keepsEquations (h : cut.EndsStatement) (htext : context.chars = cut.text)
    (hin : cut.InBody block head tail)
    (habove : cut.above = List.reverse ('\x7b' :: before) ++ head)
    (hbelow : cut.below = tail ++ '\x7d' :: rest) :
    cut.KeepsEquations context block head tail := by
  have hsep := h.separate_body habove hbelow
  obtain ⟨-, hlast⟩ := h.getLast?_eq habove
  have hbase := hin.base_eq habove
  have hchars : context.chars = List.reverse ('\x7b' :: before) ++
      (head ++ ([] ++ ((cut.ending ++ tail) ++ '\x7d' :: rest))) := by
    rw [htext, text, habove, hbelow]
    simp
  have hpass : findAllFrom equation head.reverse ([] ++ (cut.ending ++ tail)) =
      findAllFrom equation (head ++ []).reverse (cut.ending ++ tail) := by
    rw [List.append_nil]
    rfl
  have hmarks := @Loop.marks_append _ equationLoop sound_equationLoop head [] (cut.ending ++ tail)
    (hsep.carries_equationLoop (hlast ▸ h.solid)) (carries_equationLoop apart_nil) hpass
  have happend := searches_equationFindings.append hchars hbase hmarks
  rw [List.append_nil, List.nil_append, ← hin.body_eq] at happend
  refine ⟨hsep.equationRest_eq_none, ?_⟩
  rw [← happend]
  exact covered_of_subset (List.Subset.refl _)

end Bodies

/-- **The end of a line at which a statement ends cuts nothing** for the rules on blocks. -/
theorem EndsStatement.clear (h : cut.EndsStatement) (htext : context.chars = cut.text)
    (hrule : rule ∈ [.fieldAssignmentInBlock, .filterSingleEquals]) : cut.Clear context rule := by
  refine clear_of_inside htext hrule h.eventless h.unopened (fun block hblock head tail hin ↦ ?_)
    fun block hblock head tail hin ↦ ?_
  · obtain ⟨before, rest, habove, hbelow⟩ := hin.exists_parts isHeader_eventHeader htext hblock
    exact h.keepsAssignments htext hin habove hbelow
  · obtain ⟨before, rest, habove, hbelow⟩ := hin.exists_parts isHeader_filter htext hblock
    exact h.keepsEquations htext hin habove hbelow

end LineEnd

end RuleLint
