import RuleLint.Proofs.Check.Cuts

/-!
# Where the end of a line cuts nothing

Whether the end of a line cuts something that a rule looks for (`LineEnd.Clear`) can be seen from
the characters at both sides of it. What the rules look for goes on over blanks, and so over the end
of a line, only behind an opening parenthesis, a comma or an operator, or before one of these or a
closing parenthesis. Where none of these stands (`Separate`), every reader answers in the text as it
answers in the part above (`CarriesIn`), so a search finds above and below what it finds in each
part alone.

For comparisons, calls, concatenations and grades nothing more is asked (`LineEnd.Separates.clear`).
A key argument may have parentheses or a literal that is open at the end of the line, a key goes on
to the end of the line itself, and the word `rule` may stand on a line above the name, so for the
rules on whitelisting macros these are still to be looked at (`LineEnd.Separates.clear_key`,
`LineEnd.Separates.clear_name`). The rules on blocks look at braces as well; they have a module of
their own.
-/

namespace RuleLint

open Cursor Check

/-! ### The characters at both sides -/

/-- The signs behind which something goes on. -/
def openSigns : List Char :=
  ['(', ',', '=', '+']

/-- The signs with which something goes on. -/
def joiningSigns : List Char :=
  ['(', ')', ',', '=', '!', '+']

/-- Whether nothing goes on from a text to what follows it: it does not end with a sign behind which
something goes on, and what follows does not begin with a sign with which something does, apart from
blanks. -/
structure Separate (above rest : List Char) : Prop where
  ends : Ends rest
  last : (trimEnd above).getLast?.any openSigns.contains = false
  first : (trimStart rest).head?.any joiningSigns.contains = false

/-- What is read up to a sign and followed by blanks only ends the text, apart from blanks. -/
theorem suffix_trimEnd {cs : List Char} {c d : Cursor} {x : Char} (hreads : c.Reads (cs ++ [x]) d)
    (hx : isBlank x = false) (hnil : d.skipBlanks.after = []) : cs ++ [x] <:+ trimEnd c.text := by
  obtain ⟨bs, hbs, hblank⟩ := d.reads_skipBlanks
  have hafter : d.after = bs := by rw [hbs.after_eq, hnil, List.append_nil]
  have hbefore : d.before = x :: (cs.reverse ++ c.before) := by
    rw [hreads.before_eq]
    simp
  have hsolid : ¬isBlank x = true := by simp [hx]
  have htrim : trimEnd c.text = c.before.reverse ++ (cs ++ [x]) := by
    rw [trimEnd, ← hreads.text_eq, Cursor.text, hafter, List.reverse_append, List.reverse_reverse,
      List.dropWhile_append_of_pos fun y hy ↦ hblank y (List.mem_reverse.1 hy), hbefore,
      List.dropWhile_cons_of_neg hsolid]
    simp
  rw [htrim]
  exact List.suffix_append _ _

/-- Behind an open sign of a text there is something other than blanks in the text. -/
theorem Separate.after_ne_nil {above rest cs : List Char} {c d : Cursor} {x : Char}
    (h : Separate above rest) (hc : c.text = above) (hreads : c.Reads (cs ++ [x]) d)
    (hx : x ∈ openSigns) : d.skipBlanks.after ≠ [] := by
  intro hnil
  have hsigns : openSigns.all (fun x ↦ isBlank x = false) = true := by decide
  have hsolid : isBlank x = false := by simpa using List.all_eq_true.1 hsigns x hx
  obtain ⟨before, hbefore⟩ := suffix_trimEnd hreads hsolid hnil
  have hclosed := h.last
  rw [← hc, ← hbefore, ← List.append_assoc, List.getLast?_concat, Option.any_some,
    List.contains_eq_mem, decide_eq_false_iff_not] at hclosed
  exact hclosed hx

namespace Cursor

variable {α : Type} {above rest cs : List Char} {image : α → α} {next : Cursor → Option α}
  {move : Cursor → Option Cursor} {c d : Cursor} {x : Char}

/-! ### Readers -/

/-- Whether a reader answers only at a sign with which something goes on. -/
def Joins (next : Cursor → Option α) : Prop :=
  ∀ c : Cursor, c.after.head?.any joiningSigns.contains = false → next c = none

/-- Whether a movement stays in its text. -/
def Stays (move : Cursor → Option Cursor) : Prop :=
  ∀ c d, move c = some d → d.text = c.text

/-- Whether a movement ends behind an open sign. -/
def EndsOpen (move : Cursor → Option Cursor) : Prop :=
  ∀ c d, move c = some d → ∃ cs, ∃ x ∈ openSigns, c.Reads (cs ++ [x]) d

theorem CarriesIn.bind (h : CarriesIn above rest ((atStart []).within rest) move)
    (hstays : Stays move) (h' : CarriesIn above rest image next) :
    CarriesIn above rest image fun c ↦ (move c).bind next := by
  intro c hc
  dsimp only
  rw [h c hc]
  exact bind_within fun d hd ↦ h' d ((hstays c d hd).trans hc)

theorem CarriesIn.atWordBoundary (hrest : Ends rest) (h : CarriesIn above rest image next) :
    CarriesIn above rest image fun c ↦ if c.atWordBoundary then next c else none := by
  intro c hc
  dsimp only
  rw [atWordBoundary_within rfl hrest]
  split
  · exact h c hc
  · rfl

/-- After blanks, a reader that answers neither at the end of the text nor behind the blanks that
follow it. -/
theorem CarriesIn.skipBlanks_of_none (h : CarriesIn above rest image next)
    (hend : ∀ before, next ⟨before, []⟩ = none)
    (hrest : ∀ before, next ⟨before, trimStart rest⟩ = none) :
    CarriesIn above rest image fun c ↦ next c.skipBlanks := by
  intro c hc
  obtain ⟨bs, hbs, -⟩ := c.reads_skipBlanks
  exact skipBlanks_within_of_none hend (fun _ ↦ hrest) (h c.skipBlanks (hbs.text_eq.trans hc))

/-- After blanks, a sign with which something goes on. -/
theorem CarriesIn.skipBlanks (hsep : Separate above rest) (h : CarriesIn above rest image next)
    (hjoins : Joins next) : CarriesIn above rest image fun c ↦ next c.skipBlanks :=
  h.skipBlanks_of_none (fun _ ↦ hjoins _ rfl) fun _ ↦ hjoins _ hsep.first

/-- After an open sign and blanks, anything. -/
theorem CarriesIn.afterSign (hsep : Separate above rest)
    (hmove : CarriesIn above rest ((atStart []).within rest) move) (hopen : EndsOpen move)
    (h : CarriesIn above rest image next) :
    CarriesIn above rest image fun c ↦ (move c).bind fun d ↦ next d.skipBlanks := by
  intro c hc
  dsimp only
  rw [hmove c hc]
  refine bind_within fun d hd ↦ ?_
  obtain ⟨cs, x, hx, hreads⟩ := hopen c d hd
  have hskip : ((atStart []).within rest d).skipBlanks = (atStart []).within rest d.skipBlanks :=
    skip_within_of_ne_nil (hsep.after_ne_nil hc hreads hx)
  obtain ⟨bs, hbs, -⟩ := d.reads_skipBlanks
  rw [hskip]
  exact h d.skipBlanks ((hbs.text_eq.trans hreads.text_eq).trans hc)

theorem stays_char (x : Char) : Stays (char x) := fun _ _ h ↦ (reads_char h).text_eq

theorem stays_word (w : String) : Stays (word w) := fun _ _ h ↦ (reads_word h).text_eq

theorem stays_run (p : Char → Bool) : Stays (run p) := by
  intro c d h
  obtain ⟨cs, hreads, -⟩ := reads_run h
  exact hreads.text_eq

theorem endsOpen_char (hx : x ∈ openSigns) : EndsOpen (char x) :=
  fun _ _ h ↦ ⟨[], x, hx, reads_char h⟩

/-- A run that ends in the text. -/
theorem run_within_of_ne_nil {p : Char → Bool} (h : (c.skip p).after ≠ []) :
    ((atStart []).within rest c).run p = (c.run p).map ((atStart []).within rest) := by
  obtain ⟨before, after⟩ := c
  cases after with
  | nil => exact absurd (after_skip p _) h
  | cons y after =>
    rw [run, run, one_within_of_ne_nil (List.cons_ne_nil y after), one_cons]
    split
    · rename_i hy
      refine congrArg some (skip_within_of_ne_nil ?_)
      rwa [after_skip, List.dropWhile_cons_of_pos hy, ← after_skip p ⟨y :: before, after⟩] at h
    · rfl

theorem char_eq_none_of_head (h : c.after.head? ≠ some x) : c.char x = none := by
  obtain ⟨before, after⟩ := c
  cases after with
  | nil => rfl
  | cons y after =>
    refine char_eq_none ?_ before after
    rintro rfl
    exact h rfl

theorem joins_char (hx : x ∈ joiningSigns) : Joins (char x) := by
  intro c hc
  refine char_eq_none_of_head fun hhead ↦ ?_
  rw [hhead, Option.any_some, List.contains_eq_mem, decide_eq_false_iff_not] at hc
  exact hc hx

theorem Joins.bind {β : Type} {first : Cursor → Option β} (h : Joins first)
    (next : Cursor → β → Option α) : Joins fun c ↦ (first c).bind (next c) := by
  intro c hc
  dsimp only
  rw [h c hc, Option.bind_none]

theorem Joins.or {next' : Cursor → Option α} (h : Joins next) (h' : Joins next') :
    Joins fun c ↦ (next c).or (next' c) := by
  intro c hc
  dsimp only
  rw [h c hc, h' c hc, Option.or_none]

theorem joins_word {w : String} (hw : ∃ x ∈ joiningSigns, w.toList.head? = some x) :
    Joins (word w) := by
  obtain ⟨x, hx, hhead⟩ := hw
  obtain ⟨word, hparts⟩ := List.head?_eq_some_iff.1 hhead
  have hword : Cursor.word w = fun c ↦ (c.char x).bind (exactly word) := by
    funext c
    rw [Cursor.word, hparts, exactly]
  rw [hword]
  exact (joins_char hx).bind fun _ ↦ exactly word

end Cursor

namespace Check

variable {α : Type} {above rest : List Char} {image : α → α} {next : Cursor → Option α}

/-! ### Recognisers -/

theorem carriesIn_loweredThen (hsep : Separate above rest) (h : CarriesIn above rest image next)
    (hjoins : Joins next) : CarriesIn above rest image (loweredThen next) := by
  have hchar : ∀ {x : Char}, x ∉ breaks →
      CarriesIn above rest ((atStart []).within rest) (char x) := fun hx ↦
    (carries_char hsep.ends hx).carriesIn
  have hclose : CarriesIn above rest image fun c ↦
      (c.skipBlanks.char ')').bind fun c ↦ next c.skipBlanks :=
    ((hchar (by decide)).bind (stays_char ')') (h.skipBlanks hsep hjoins)).skipBlanks hsep
      ((joins_char (by decide)).bind _)
  have hargument : CarriesIn above rest image fun c ↦ c.shortest isSolid fun c ↦
      (c.skipBlanks.char ')').bind fun c ↦ next c.skipBlanks := fun c hc ↦
    shortest_within (hsep.ends.of_head (by decide)) fun d hd ↦ hclose d (hd.trans hc)
  have hopen := ((hchar (x := '(') (by decide)).afterSign hsep (endsOpen_char (by decide))
    hargument).skipBlanks hsep ((joins_char (by decide)).bind _)
  exact (carries_word hsep.ends (by decide)).carriesIn.bind (stays_word "lower") hopen

theorem carriesIn_comparison (hsep : Separate above rest) :
    CarriesIn above rest
      (Prod.map (Piece.within (atStart []) rest) ((atStart []).within rest)) comparison := by
  have hsigns : CarriesIn above rest ((atStart []).within rest) fun c ↦
      (c.word "==").or (c.word "!=") :=
    ((carries_word hsep.ends (by decide)).or (carries_word hsep.ends (by decide))).carriesIn
  have hopen : EndsOpen fun c ↦ (c.word "==").or (c.word "!=") := by
    intro c d h
    rcases Option.or_eq_some_iff.1 h with h | ⟨-, h⟩
    · exact ⟨['='], '=', by decide, reads_word h⟩
    · exact ⟨['!'], '=', by decide, reads_word h⟩
  have hliteral := hsigns.afterSign hsep hopen (carries_quoted hsep.ends).carriesIn
  have hjoins : Joins comparedLiteral :=
    ((joins_word ⟨'=', by decide, rfl⟩).or (joins_word ⟨'!', by decide, rfl⟩)).bind _
  exact (carriesIn_loweredThen hsep hliteral hjoins).atWordBoundary hsep.ends

theorem carriesIn_loweredCall {function : String}
    (hfunction : function.toList.any breaks.contains = false) (hsep : Separate above rest) :
    CarriesIn above rest
      (Prod.map (Piece.within (atStart []) rest) ((atStart []).within rest))
      (loweredCall function) := by
  have hliteral := (carries_char (x := ',') hsep.ends (by decide)).carriesIn.afterSign hsep
    (endsOpen_char (by decide)) (@carries_quoted (atStart []) rest hsep.ends).carriesIn
  have hjoins : Joins nextLiteral := (joins_char (by decide)).bind _
  have hopen := ((carries_char (x := '(') hsep.ends (by decide)).carriesIn.afterSign hsep
    (endsOpen_char (by decide)) (carriesIn_loweredThen hsep hliteral hjoins)).skipBlanks hsep
      ((joins_char (by decide)).bind _)
  exact ((carries_word hsep.ends hfunction).carriesIn.bind (stays_word function)
    hopen).atWordBoundary hsep.ends

/-- What is read behind a literal. -/
theorem CarriesIn.behindQuoted {next : Cursor → Option Cursor} (hsep : Separate above rest)
    (h : CarriesIn above rest ((atStart []).within rest) next) :
    CarriesIn above rest ((atStart []).within rest) fun c ↦
      (quoted c).bind fun answer ↦ next answer.2 := by
  intro c hc
  dsimp only
  rw [carries_quoted hsep.ends c]
  cases hquoted : quoted c with
  | none => rfl
  | some answer =>
    obtain ⟨hopen, hcontent, hclose, -⟩ := reads_quoted hquoted
    exact h answer.2 (((hclose.text_eq.trans hcontent.text_eq).trans hopen.text_eq).trans hc)

theorem carriesIn_concatenation (hsep : Separate above rest) :
    CarriesIn above rest (Prod.map id ((atStart []).within rest)) concatenation := by
  have hnumber : CarriesIn above rest ((atStart []).within rest) numericField :=
    (carries_numericField rfl hsep.ends).carriesIn
  have hplus : CarriesIn above rest ((atStart []).within rest) (char '+') :=
    (carries_char hsep.ends (by decide)).carriesIn
  have hstays : Stays numericField := fun c d h ↦ by
    obtain ⟨_, hsigil, -, hname, -⟩ := isNumericField h
    exact hname.text_eq.trans hsigil.text_eq
  have hliteral := hplus.afterSign hsep (endsOpen_char (by decide))
    (@CarriesIn.behindQuoted _ _ some hsep fun _ _ ↦ rfl)
  have hfield := hplus.afterSign hsep (endsOpen_char (by decide)) hnumber
  have hfirst : CarriesIn above rest ((atStart []).within rest) fieldPlusLiteral :=
    hnumber.bind hstays (hliteral.skipBlanks hsep ((joins_char (by decide)).bind _))
  have hsecond : CarriesIn above rest ((atStart []).within rest) literalPlusField :=
    CarriesIn.behindQuoted hsep (hfield.skipBlanks hsep ((joins_char (by decide)).bind _))
  intro c hc
  rw [concatenation, concatenation, hfirst c hc, hsecond c hc, ← Option.map_or, Option.map_map,
    Option.map_map]
  rfl

theorem carriesIn_whitelistCall (hsep : Separate above rest) :
    CarriesIn above rest
      (Prod.map (Piece.within (atStart []) rest) ((atStart []).within rest)) whitelistCall := by
  have hopen := ((carries_char (x := '(') hsep.ends (by decide)).carriesIn.afterSign hsep
    (endsOpen_char (by decide)) (@carries_quoted (atStart []) rest hsep.ends).carriesIn).skipBlanks
      hsep ((joins_char (by decide)).bind _)
  have hname :=
    (carries_run (hsep.ends.of_head (by decide))).carriesIn.bind (stays_run isWord) hopen
  exact (carries_word hsep.ends (by decide)).carriesIn.bind (stays_word _) hname

theorem carriesIn_gradeAssignment {name : String} (hname : name.toList.any breaks.contains = false)
    (hsep : Separate above rest) :
    CarriesIn above rest (Prod.map id ((atStart []).within rest)) (gradeAssignment name) := by
  have hgrade : Carries (atStart []) rest (Prod.map id ((atStart []).within rest)) fun start ↦
      start.shortest isSolid fun stop ↦ (stop.char '"').bind fun next ↦
        some (start.upTo stop, next) := by
    intro start
    refine shortest_within (hsep.ends.of_head (by decide)) fun stop _ ↦ ?_
    rw [carries_char hsep.ends (by decide) stop, upTo_within]
    exact bind_within fun next _ ↦ rfl
  have hquote : CarriesIn above rest (Prod.map id ((atStart []).within rest)) _ :=
    ((carries_char (x := '"') hsep.ends (by decide)).bind hgrade).carriesIn
  have hsign := ((carries_char (x := '=') hsep.ends (by decide)).carriesIn.afterSign hsep
    (endsOpen_char (by decide)) hquote).skipBlanks hsep ((joins_char (by decide)).bind _)
  exact (carries_word hsep.ends hname).carriesIn.bind (stays_word name) hsign

end Check

namespace LineEnd

variable {cut : LineEnd} {context : Context} {α : Type} {rule : Rule}

/-! ### Findings -/

/-- Whether nothing goes on over the end of a line. -/
structure Separates (cut : LineEnd) : Prop where
  last : (trimEnd cut.above).getLast?.any openSigns.contains = false
  first : (trimStart cut.below).head?.any joiningSigns.contains = false

theorem ends_ending (cut : LineEnd) {rest : List Char} (hrest : cut.ending = [] → rest = []) :
    Ends (cut.ending ++ rest) where
  begins x hx := by
    rcases cut.head_ending rest hrest x hx with rfl | rfl <;> decide
  unquoted := cut.quote_notMem_takeWhile hrest

theorem trimStart_ending (cut : LineEnd) (rest : List Char) :
    trimStart (cut.ending ++ rest) = trimStart rest := by
  refine List.dropWhile_append_of_pos fun x hx ↦ ?_
  rcases cut.mem_ending hx with rfl | rfl <;> decide

theorem Separates.separate (h : cut.Separates) : Separate cut.above (cut.ending ++ cut.below) where
  ends := cut.ends_ending cut.below_eq_nil
  last := h.last
  first := by
    rw [cut.trimStart_ending]
    exact h.first

/-- A loop over the whole text, if it finds above the end of a line what it finds there alone. -/
theorem keepsParts_of_carries {loop : Loop α} {findings : Context → List Diagnostic}
    (htext : context.chars = cut.text) (hsound : loop.Sound) (hmute : Mute loop.recognise)
    (hfindings : ∀ context, findings context = (loop.marks context.chars).map (findingAt rule))
    (habove : loop.Carries (atStart []) (cut.ending ++ cut.below) cut.above)
    (hbelow : ∀ outer : Cursor, outer.atLineStart = true → loop.Carries outer [] cut.below) :
    cut.KeepsParts context findings := by
  have happend : (loop.marks cut.text).map (findingAt rule) = _ :=
    @Loop.findings_append cut α rule loop [] hsound List.not_mem_nil habove hbelow
      (cut.pass_ending hmute)
  rw [KeepsParts, hfindings context, htext, happend, hfindings, hfindings, Context.chars_withText,
    Context.chars_withText]
  exact covered_of_subset (List.Subset.refl _)

theorem Separates.keepsParts_comparison (h : cut.Separates) (htext : context.chars = cut.text) :
    cut.KeepsParts context lowerComparisonFindings :=
  keepsParts_of_carries htext sound_comparisonLoop mute_comparison
    (fun _ ↦ lowerComparisonFindings_eq)
    ⟨_, fun c hc _ ↦ carriesIn_comparison h.separate c hc,
      fun found _ ↦ comparisonMark_within found⟩
    fun _ houter ↦ carries_comparisonLoop (atWordBoundary_of_atLineStart houter) apart_nil

theorem Separates.keepsParts_call {function : String} (h : cut.Separates)
    (htext : context.chars = cut.text) (hfunction : function ∈ matchingFunctions) :
    cut.KeepsParts context fun context ↦ loweredCallFindings context function :=
  keepsParts_of_carries htext (sound_callLoop hfunction) (mute_loweredCall hfunction)
    (fun _ ↦ loweredCallFindings_eq hfunction)
    ⟨_, fun c hc _ ↦ carriesIn_loweredCall (unbroken_of_mem_matchingFunctions hfunction) h.separate
      c hc, fun found _ ↦ callMark_within function found⟩
    fun _ houter ↦ carries_callLoop hfunction (atWordBoundary_of_atLineStart houter) apart_nil

theorem Separates.keepsParts_concatenation (h : cut.Separates) (htext : context.chars = cut.text) :
    cut.KeepsParts context concatenationFindings :=
  keepsParts_of_carries htext sound_concatenationLoop mute_concatenation
    (fun _ ↦ concatenationFindings_eq)
    ⟨_, fun c hc _ ↦ carriesIn_concatenation h.separate c hc, fun _ _ ↦ rfl⟩
    fun _ houter ↦ carries_concatenationLoop (atWordBoundary_of_atLineStart houter) apart_nil

theorem Separates.keepsParts_name (h : cut.Separates) (htext : context.chars = cut.text)
    (declared : List Char) : cut.KeepsParts context fun context ↦ nameFindings context declared :=
  keepsParts_of_carries htext (sound_nameLoop declared) mute_whitelistCall
    (fun _ ↦ nameFindings_eq declared)
    ⟨_, fun c hc _ ↦ carriesIn_whitelistCall h.separate c hc,
      fun call _ ↦ nameMark_within declared call⟩
    fun _ _ ↦ carries_nameLoop declared apart_nil

/-- The key arguments above end there. -/
theorem Separates.keepsParts_key (h : cut.Separates) (htext : context.chars = cut.text)
    (hends : ∀ call ∈ findAll whitelistCall cut.above, KeyEnds call) (declared : List Char) :
    cut.KeepsParts context fun context ↦ keyFindings context declared := by
  have hcomma : CarriesIn cut.above (cut.ending ++ cut.below)
      ((atStart []).within (cut.ending ++ cut.below)) fun c ↦ c.skipBlanks.char ',' :=
    (carries_char h.separate.ends (by decide)).carriesIn.skipBlanks h.separate
      (joins_char (by decide))
  refine keepsParts_of_carries htext (sound_keyLoop declared) mute_whitelistCall
    (fun _ ↦ keyFindings_eq declared)
    ⟨_, fun c hc _ ↦ carriesIn_whitelistCall h.separate c hc, fun call hcall ↦
      keyMark_within declared (.inr (hends call hcall)) (hcomma call.stop ?_)⟩
    fun _ _ ↦ carries_keyLoop declared apart_nil (.inl rfl)
  obtain ⟨htext, hanswer⟩ := of_mem_findAll (fun _ _ _ ↦ text_whitelistCall) hcall
  exact (text_whitelistCall hanswer).trans htext

theorem Separates.firstGrade_eq {name : String} (h : cut.Separates)
    (hname : name ∈ [importanceVariable, severityVariable]) :
    firstGrade name cut.text = (firstGrade name cut.above).or
      ((firstGrade name cut.below).map (Prod.map id (Position.down cut.lines))) := by
  obtain ⟨hhead, hblank, -⟩ := grade_name hname
  exact @firstGrade_more cut name [] hname List.not_mem_nil
    (fun c hc ↦ carriesIn_gradeAssignment hblank h.separate c hc)
    (cut.pass_ending (mute_gradeAssignment hhead))

/-- **Where nothing goes on over the end of a line, it cuts nothing** for the rules on comparisons,
calls, concatenations and grades. -/
theorem Separates.clear (h : cut.Separates) (htext : context.chars = cut.text)
    (hrule : rule ∈ [.lowerComparisonCase, .nestedLowerCase, .numberToStringConcat,
      .importanceSeverityMismatch]) : cut.Clear context rule := by
  cases rule with
  | lowerComparisonCase => exact h.keepsParts_comparison htext
  | nestedLowerCase => exact fun _ hfunction ↦ h.keepsParts_call htext hfunction
  | numberToStringConcat => exact h.keepsParts_concatenation htext
  | importanceSeverityMismatch => exact fun _ hname ↦ h.firstGrade_eq hname
  | _ => simp at hrule

example : LineEnd.Separates ⟨"lower($x) == \"A\"  ".toList, ['\n'], "\t$count + \"s\"".toList,
    .inr (.inl ⟨rfl, by decide⟩)⟩ :=
  ⟨by decide, by decide⟩

/-- It cuts nothing for the rule on keys if, besides, the key is declared apart from it and the key
arguments above end there. -/
theorem Separates.clear_key (h : cut.Separates) (htext : context.chars = cut.text)
    (hkey : cut.KeepsKey) (hends : ∀ call ∈ findAll whitelistCall cut.above, KeyEnds call) :
    cut.Clear context .whitelistKeyMismatch :=
  ⟨hkey, fun declared _ _ ↦ ⟨hends, h.keepsParts_key htext hends declared⟩⟩

/-- It cuts nothing for the rule on names if, besides, the name is that of the parts. -/
theorem Separates.clear_name (h : cut.Separates) (htext : context.chars = cut.text)
    (hname : declaredName cut.text = (declaredName cut.above).or (declaredName cut.below)) :
    cut.Clear context .whitelistRuleNameMismatch :=
  ⟨hname, fun declared _ ↦ h.keepsParts_name htext declared⟩

end LineEnd

end RuleLint
