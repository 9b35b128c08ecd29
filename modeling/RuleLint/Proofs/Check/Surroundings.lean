import RuleLint.Proofs.Check.LineEndings
import RuleLint.Proofs.Text.Surroundings

/-!
# Recognisers and what stands around a text

The recognisers of the checks answer in a longer text what they answer in a part of it, if a word
does not go on before the part and nothing or a comment comes after it. For an assignment, a key and
an argument a comment could be more than that: it can be the value of an assignment, it goes with
the expression of a key, and it may close an argument. These are looked at with nothing after the
part.
-/

namespace RuleLint

open Cursor

namespace Check

variable {α : Type} {outer c : Cursor} {rest : List Char} {image : α → α}
  {next : Cursor → Option α}

/-! ### Lowered values -/

theorem needsMore_shortest_close (next : Cursor → Option α) :
    NeedsMore fun c ↦ c.shortest isSolid fun c ↦ (c.skipBlanks.char ')').bind next where
  none_end _ := rfl
  none_sign _ _ := rfl

theorem carries_loweredThen (hrest : Apart rest) (h : Carries outer rest image next)
    (hmore : NeedsMore next) : Carries outer rest image (loweredThen next) := by
  have hclose : Carries outer rest image fun c ↦
      (c.skipBlanks.char ')').bind fun c ↦ next c.skipBlanks :=
    ((carries_char hrest.ends (by decide)).bind (h.skipBlanks hrest hmore)).skipBlanks hrest
      ((needsMore_char (by decide)).bind _)
  have hargument : Carries outer rest image fun c ↦
      c.skipBlanks.shortest isSolid fun c ↦
        (c.skipBlanks.char ')').bind fun c ↦ next c.skipBlanks :=
    Carries.skipBlanks hrest
      (fun _ ↦ shortest_within (hrest.ends.of_head (by decide)) fun d _ ↦ hclose d)
      (needsMore_shortest_close _)
  have hopen := ((carries_char (x := '(') hrest.ends (by decide)).bind hargument).skipBlanks hrest
    ((needsMore_char (by decide)).bind _)
  exact (carries_word hrest.ends (by decide)).bind hopen

theorem carries_comparison (houter : outer.before.head?.any isWord = false) (hrest : Apart rest) :
    Carries outer rest (Prod.map (Piece.within outer rest) (outer.within rest)) comparison := by
  have hsigns : Carries outer rest (outer.within rest) fun c ↦ (c.word "==").or (c.word "!=") :=
    (carries_word hrest.ends (by decide)).or (carries_word hrest.ends (by decide))
  have hliteral := hsigns.bind ((carries_quoted hrest.ends).skipBlanks hrest needsMore_quoted)
  have hmore : NeedsMore comparedLiteral :=
    ((needsMore_word ⟨_, rfl, by decide⟩).or (needsMore_word ⟨_, rfl, by decide⟩)).bind _
  exact (carries_loweredThen hrest hliteral hmore).atWordBoundary houter hrest.ends

theorem carries_loweredCall {function : String}
    (hfunction : function.toList.any breaks.contains = false)
    (houter : outer.before.head?.any isWord = false) (hrest : Apart rest) :
    Carries outer rest (Prod.map (Piece.within outer rest) (outer.within rest))
      (loweredCall function) := by
  have hliteral := (carries_char (x := ',') hrest.ends (by decide)).bind
    ((@carries_quoted outer rest hrest.ends).skipBlanks hrest needsMore_quoted)
  have hmore : NeedsMore nextLiteral := (needsMore_char (by decide)).bind _
  have hlowered := (carries_loweredThen hrest hliteral hmore).skipBlanks hrest
    ((needsMore_word ⟨_, rfl, by decide⟩).bind _)
  have hopen := ((carries_char (x := '(') hrest.ends (by decide)).bind hlowered).skipBlanks hrest
    ((needsMore_char (by decide)).bind _)
  exact ((carries_word hrest.ends hfunction).bind hopen).atWordBoundary houter hrest.ends

/-! ### Concatenations -/

theorem carries_boundary (houter : outer.before.head?.any isWord = false) (hrest : Ends rest) :
    Carries outer rest (outer.within rest) boundary :=
  Carries.atWordBoundary houter hrest fun _ ↦ rfl

theorem carries_numericFieldName (houter : outer.before.head?.any isWord = false)
    (hrest : Ends rest) : Carries outer rest (outer.within rest) numericFieldName := by
  have hboundary := carries_boundary houter hrest
  have hnumbered : Carries outer rest (outer.within rest) numberedField :=
    (carries_word hrest (by decide)).bind
      ((carries_run (hrest.of_head (by decide))).bind hboundary)
  have hnames : ∀ names : List String, (∀ name ∈ names, name.toList.any breaks.contains = false) →
      Carries outer rest (outer.within rest) fun c ↦
        names.findSome? fun name ↦ (c.word name).bind boundary := by
    intro names hwords c
    induction names with
    | nil => rfl
    | cons name names ih =>
      obtain ⟨hname, hwords⟩ := List.forall_mem_cons.1 hwords
      have hfirst := (carries_word hrest hname).bind hboundary c
      dsimp only at hfirst ih ⊢
      rw [List.findSome?_cons, List.findSome?_cons, hfirst, ih hwords]
      cases (c.word name).bind boundary <;> rfl
  exact (hnames numericFieldNames (by decide)).or hnumbered

theorem carries_numericField (houter : outer.before.head?.any isWord = false)
    (hrest : Ends rest) : Carries outer rest (outer.within rest) numericField := by
  intro c
  have hsigil : ((outer.within rest c).char '$').getD (outer.within rest c) =
      outer.within rest ((c.char '$').getD c) := by
    rw [carries_char hrest (by decide) c]
    cases c.char '$' <;> rfl
  rw [numericField, numericField, hsigil, carries_boundary houter hrest]
  exact bind_within fun d _ ↦ carries_numericFieldName houter hrest d

theorem needsMore_numericField : NeedsMore numericField where
  none_end before := by
    rw [numericField, boundary]
    split <;> rfl
  none_sign before more := by
    rw [numericField, boundary]
    split <;> rfl

theorem carries_concatenation (houter : outer.before.head?.any isWord = false)
    (hrest : Apart rest) :
    Carries outer rest (Prod.map id (outer.within rest)) concatenation := by
  have hquoted : ∀ {next : Cursor → Option Cursor}, Carries outer rest (outer.within rest) next →
      Carries outer rest (outer.within rest) fun c ↦
        (quoted c).bind fun answer ↦ next answer.2 := by
    intro next h c
    dsimp only
    rw [carries_quoted hrest.ends c]
    cases quoted c with
    | none => rfl
    | some answer => exact h answer.2
  have hliteral := (carries_char (x := '+') hrest.ends (by decide)).bind
    ((@hquoted some fun _ ↦ rfl).skipBlanks hrest (needsMore_quoted.bind _))
  have hfield := (carries_char (x := '+') hrest.ends (by decide)).bind
    ((carries_numericField houter hrest.ends).skipBlanks hrest needsMore_numericField)
  have hfirst : Carries outer rest (outer.within rest) fieldPlusLiteral :=
    (carries_numericField houter hrest.ends).bind
      (hliteral.skipBlanks hrest ((needsMore_char (by decide)).bind _))
  have hsecond : Carries outer rest (outer.within rest) literalPlusField :=
    hquoted (hfield.skipBlanks hrest ((needsMore_char (by decide)).bind _))
  intro c
  rw [concatenation, concatenation, hfirst, hsecond, ← Option.map_or, Option.map_map,
    Option.map_map]
  rfl

/-! ### Whitelisting macros -/

theorem carries_whitelistCall (hrest : Apart rest) :
    Carries outer rest (Prod.map (Piece.within outer rest) (outer.within rest)) whitelistCall := by
  have hopen := (carries_char (x := '(') hrest.ends (by decide)).bind
    ((@carries_quoted outer rest hrest.ends).skipBlanks hrest needsMore_quoted)
  exact (carries_word hrest.ends (by decide)).bind
    ((carries_run (hrest.ends.of_head (by decide))).bind
      (hopen.skipBlanks hrest ((needsMore_char (by decide)).bind _)))

theorem carries_nameDeclaration (houter : outer.atLineStart = true) (hrest : Apart rest) :
    Carries outer rest (Prod.map id (outer.within rest)) nameDeclaration := by
  -- the name, and with it the answer, is what stands between two cursors of the part
  have hname : Carries outer rest (Prod.map id (outer.within rest)) fun start ↦
      (start.run isRuleNameChar).bind fun stop ↦ (stop.skipBlanks.char ':').bind fun next ↦
        some (start.upTo stop, next) := by
    intro start
    dsimp only
    rw [carries_run (hrest.ends.of_head (by decide)) start]
    refine bind_within fun stop _ ↦ ?_
    rw [char_skipBlanks_within hrest (by decide) (by decide), upTo_within]
    exact bind_within fun next _ ↦ rfl
  have hword := (carries_word (w := "rule") hrest.ends (by decide)).bind
    (hname.runBlanks hrest ⟨fun _ ↦ rfl, fun _ _ ↦ rfl⟩)
  intro c
  rw [nameDeclaration, nameDeclaration, atLineStart_within houter]
  split
  · exact hword.skipBlanks hrest ((needsMore_word ⟨_, rfl, by decide⟩).bind _) c
  · rfl

/-! ### Grades -/

theorem carries_gradeAssignment {name : String} (hname : name.toList.any breaks.contains = false)
    (hrest : Apart rest) :
    Carries outer rest (Prod.map id (outer.within rest)) (gradeAssignment name) := by
  have hgrade : Carries outer rest (Prod.map id (outer.within rest)) fun start ↦
      start.shortest isSolid fun stop ↦ (stop.char '"').bind fun next ↦
        some (start.upTo stop, next) := by
    intro start
    refine shortest_within (hrest.ends.of_head (by decide)) fun stop _ ↦ ?_
    rw [carries_char hrest.ends (by decide) stop, upTo_within]
    exact bind_within fun next _ ↦ rfl
  have hquote := ((carries_char (x := '"') hrest.ends (by decide)).bind hgrade).skipBlanks hrest
    ((needsMore_char (by decide)).bind _)
  exact (carries_word hrest.ends hname).bind (((carries_char (x := '=') hrest.ends (by decide)).bind
    hquote).skipBlanks hrest ((needsMore_char (by decide)).bind _))

/-! ### Equations -/

/-- The image of an equation in a longer text. -/
def Equation.within (outer : Cursor) (rest : List Char) (found : Equation) : Equation :=
  { found with subject := found.subject.within outer rest }

/-- The literal of an equation. -/
def equationLiteral (subject : Piece) (operator : List Char) : Recogniser Equation := fun c ↦
  (quoted c).bind fun answer ↦ some (⟨subject, operator⟩, answer.2)

/-- An equation from the operator on. -/
def equationOperator (subject : Piece) : Recogniser Equation := fun c ↦
  (c.run (· == '=')).bind fun operatorEnd ↦
    (operatorEnd.run isBlank).bind (equationLiteral subject (c.upTo operatorEnd))

/-- An equation from the subject on. -/
def equationSubject : Recogniser Equation := fun c ↦
  (c.run isSolid).bind fun stop ↦ (stop.run isBlank).bind (equationOperator ⟨c, stop⟩)

theorem equation_eq (c : Cursor) : equation c = (c.run isBlank).bind equationSubject := rfl

theorem equationLiteral_within (hrest : Ends rest) (subject : Piece) (operator : List Char)
    (c : Cursor) :
    equationLiteral (subject.within outer rest) operator (outer.within rest c) =
      (equationLiteral subject operator c).map
        (Prod.map (Equation.within outer rest) (outer.within rest)) := by
  rw [equationLiteral, equationLiteral, carries_quoted hrest c]
  cases quoted c <;> rfl

theorem equationOperator_within (hrest : Ends rest) (subject : Piece)
    (hliteral : ∀ d, c.run (· == '=') = some d → d.skipBlanks.after = [] →
      ∀ before, quoted ⟨before, trimStart rest⟩ = none) :
    equationOperator (subject.within outer rest) (outer.within rest c) =
      (equationOperator subject c).map
        (Prod.map (Equation.within outer rest) (outer.within rest)) := by
  rw [equationOperator, equationOperator, carries_run (hrest.of_head (by decide)) c]
  refine bind_within fun operatorEnd hoperator ↦ ?_
  rw [upTo_within]
  refine runBlanks_within_of_none (fun _ ↦ rfl) (fun hnil before ↦ ?_) fun literal _ ↦
    equationLiteral_within hrest subject _ literal
  rw [equationLiteral, hliteral operatorEnd hoperator hnil before, Option.bind_none]

/-- An equation, if nothing is read where blanks lead out of the part. -/
theorem equation_within (hrest : Ends rest)
    (hsubject : c.skipBlanks.after = [] →
      ∀ before, equationSubject ⟨before, trimStart rest⟩ = none)
    (hoperator : ∀ before, run (· == '=') ⟨before, trimStart rest⟩ = none)
    (hliteral : ∀ d e : Cursor, d.text = c.text → d.run (· == '=') = some e →
      e.skipBlanks.after = [] → ∀ before, quoted ⟨before, trimStart rest⟩ = none) :
    equation (outer.within rest c) =
      (equation c).map (Prod.map (Equation.within outer rest) (outer.within rest)) := by
  rw [equation_eq, equation_eq]
  refine runBlanks_within_of_none (fun _ ↦ rfl) hsubject fun start hblanks ↦ ?_
  rw [equationSubject, equationSubject, carries_run (hrest.of_head (by decide)) start]
  refine bind_within fun stop hstop ↦ runBlanks_within_of_none (fun _ ↦ rfl) (fun _ before ↦ ?_)
    fun operator hblanks' ↦ equationOperator_within hrest ⟨start, stop⟩ fun d hd ↦
      hliteral operator d ?_ hd
  · rw [equationOperator, hoperator, Option.bind_none]
  · obtain ⟨_, hreads, -⟩ := reads_run hblanks
    obtain ⟨_, hreads', -⟩ := reads_run hstop
    obtain ⟨_, hreads'', -⟩ := reads_run hblanks'
    exact ((hreads.trans hreads').trans hreads'').text_eq

theorem carries_equation (hrest : Apart rest) :
    Carries outer rest (Prod.map (Equation.within outer rest) (outer.within rest)) equation := by
  have hsubject : NeedsMore equationSubject := ⟨fun _ ↦ rfl, fun _ _ ↦ rfl⟩
  exact fun c ↦ equation_within hrest.ends (fun _ ↦ hsubject.none_trimStart hrest)
    ((needsMore_run (by decide)).none_trimStart hrest)
    fun _ _ _ _ _ ↦ needsMore_quoted.none_trimStart hrest

/-- What an equation goes on with after its subject. -/
def equationRest (c : Cursor) : Option Cursor :=
  (c.run isBlank).bind fun operator ↦ (operator.run (· == '=')).bind fun operatorEnd ↦
    (operatorEnd.run isBlank).bind fun literal ↦ (quoted literal).map Prod.snd

theorem equationRest_of_operator {stop d : Cursor} {subject : Piece} {found : Equation}
    (h : (stop.run isBlank).bind (equationOperator subject) = some (found, d)) :
    equationRest stop = some d := by
  obtain ⟨operator, hoperator, h⟩ := Option.bind_eq_some_iff.1 h
  obtain ⟨operatorEnd, hend, h⟩ := Option.bind_eq_some_iff.1 h
  obtain ⟨literal, hliteral, h⟩ := Option.bind_eq_some_iff.1 h
  obtain ⟨answer, hanswer, h⟩ := Option.bind_eq_some_iff.1 h
  obtain ⟨rfl, rfl⟩ := Prod.mk.inj (Option.some.inj h)
  rw [equationRest, hoperator, Option.bind_some, hend, Option.bind_some, hliteral, Option.bind_some,
    hanswer]
  rfl

theorem carries_equationRest (outer : Cursor) :
    Carries outer [] (outer.within []) equationRest := by
  have hrun : ∀ p, Carries outer [] (outer.within []) (run p) := fun p ↦
    carries_run fun _ h ↦ nomatch h
  have hliteral :
      Carries outer [] (outer.within []) fun literal ↦ (quoted literal).map Prod.snd := by
    intro c
    dsimp only
    rw [carries_quoted apart_nil.ends c, Option.map_map, Option.map_map]
    rfl
  have hoperator : Carries outer [] (outer.within []) fun operator ↦
      (operator.run (· == '=')).bind fun operatorEnd ↦
        (operatorEnd.run isBlank).bind fun literal ↦ (quoted literal).map Prod.snd :=
    (hrun _).bind ((hrun _).bind hliteral)
  exact (hrun _).bind hoperator

/-! ### Assignments -/

/-- The image of an assignment in a longer text. -/
def Assignment.within (outer : Cursor) (rest : List Char) (found : Assignment) : Assignment :=
  { found with field := found.field.within outer rest }

/-- An assignment from the end of the first sign on. -/
def assignmentValue (field : Piece) : Recogniser Assignment := fun c ↦
  match (c.char '=').bind value with
  | some next => some (⟨field, false⟩, next)
  | none => (value c).bind fun next ↦ some (⟨field, true⟩, next)

/-- An assignment from the field on. -/
def assignmentField : Recogniser Assignment := fun c ↦
  (c.run isFieldChar).bind fun stop ↦ (stop.skipBlanks.char '=').bind (assignmentValue ⟨c, stop⟩)

theorem assignment_eq (c : Cursor) :
    assignment c = if c.atLineStart then (c.run isBlank).bind assignmentField else none := rfl

/-- Whether the value after a sign begins before the end of the text, or what stands for it. -/
def ValueBegins (c : Cursor) : Prop :=
  ((c.char '=').getD c).skipBlanks.after ≠ []

instance : DecidablePred ValueBegins := fun _ ↦ inferInstanceAs (Decidable (_ ≠ _))

/-- The end of the sign of the assignment that begins at a cursor. -/
def assignmentSign (c : Cursor) : Option Cursor :=
  if c.atLineStart then
    (c.run isBlank).bind fun start ↦ (start.run isFieldChar).bind fun stop ↦
      stop.skipBlanks.char '='
  else
    none

/-- Whether the assignment that begins at a cursor, if any, has its value in the text. -/
def Valued (c : Cursor) : Prop :=
  ∀ signEnd ∈ assignmentSign c, ValueBegins signEnd

instance : DecidablePred Valued := fun _ ↦ inferInstanceAs (Decidable (∀ _ ∈ _, _))

theorem value_isSome (h : c.skipBlanks.after ≠ []) : (value c).isSome = true := by
  obtain ⟨-, -, -, hstop⟩ := c.reads_skip isBlank
  obtain ⟨x, after, hafter⟩ := List.exists_cons_of_ne_nil h
  have hsolid : isSolid x = true := by
    rw [isSolid, hstop x (by rw [← skipBlanks, hafter]; rfl)]
    rfl
  have hcursor : c.skipBlanks = ⟨c.skipBlanks.before, x :: after⟩ := by rw [← hafter]
  rw [value, hcursor, run, one_cons, if_pos hsolid]
  rfl

theorem value_within (hrest : Ends rest) (h : rest = [] ∨ c.skipBlanks.after ≠ []) :
    value (outer.within rest c) = (value c).map (outer.within rest) := by
  have hskip : (outer.within rest c).skipBlanks = outer.within rest c.skipBlanks := by
    obtain rfl | hne := h
    · exact skip_within_nil _ outer _
    · exact skip_within_of_ne_nil hne
  rw [value, value, hskip, carries_run (hrest.of_head (by decide))]

theorem assignmentValue_within (hrest : Ends rest) (field : Piece)
    (h : rest = [] ∨ ValueBegins c) :
    assignmentValue (field.within outer rest) (outer.within rest c) =
      (assignmentValue field c).map
        (Prod.map (Assignment.within outer rest) (outer.within rest)) := by
  rw [assignmentValue, assignmentValue, carries_char hrest (by decide) c]
  cases hsign : c.char '=' with
  | none =>
    have hvalue := @value_within outer c rest hrest (by
      simpa [ValueBegins, hsign] using h)
    show (value (outer.within rest c)).bind _ = ((value c).bind _).map _
    rw [hvalue]
    exact bind_within fun next _ ↦ rfl
  | some second =>
    have hbegins : rest = [] ∨ second.skipBlanks.after ≠ [] := by
      simpa [ValueBegins, hsign] using h
    rw [Option.map_some, Option.bind_some, Option.bind_some, value_within hrest hbegins]
    cases hvalue : value second with
    | some next => rfl
    | none =>
      -- only without anything after the part may there be no value after both signs
      obtain rfl | hne := hbegins
      · show (value (outer.within [] c)).bind _ = ((value c).bind _).map _
        rw [value_within hrest (.inl rfl)]
        exact bind_within fun next _ ↦ rfl
      · have hsome := value_isSome hne
        rw [hvalue] at hsome
        cases hsome

/-- An assignment, if nothing is read where blanks lead out of the part and the value is in the
part, or any if there is nothing after the part. -/
theorem assignment_within (houter : outer.atLineStart = true) (hrest : Ends rest)
    (hfield : c.skipBlanks.after = [] → ∀ before, assignmentField ⟨before, trimStart rest⟩ = none)
    (hsign : ∀ before, char '=' ⟨before, trimStart rest⟩ = none) (h : rest = [] ∨ Valued c) :
    assignment (outer.within rest c) =
      (assignment c).map (Prod.map (Assignment.within outer rest) (outer.within rest)) := by
  rw [assignment_eq, assignment_eq, atLineStart_within houter]
  split
  · rename_i hstart
    refine runBlanks_within_of_none (fun _ ↦ rfl) hfield fun start hblanks ↦ ?_
    rw [assignmentField, assignmentField, carries_run (hrest.of_head (by decide)) start]
    refine bind_within fun stop hstop ↦ ?_
    have hequals : (outer.within rest stop).skipBlanks.char '=' =
        (stop.skipBlanks.char '=').map (outer.within rest) :=
      skipBlanks_within_of_none (fun _ ↦ rfl) (fun _ ↦ hsign)
        (carries_char hrest (by decide) stop.skipBlanks)
    rw [hequals]
    refine bind_within fun signEnd hsignEnd ↦ ?_
    exact assignmentValue_within hrest ⟨start, stop⟩
      (h.imp_right fun hvalued ↦ hvalued signEnd (by
        rw [assignmentSign, if_pos hstart, hblanks, Option.bind_some, hstop, Option.bind_some,
          hsignEnd]
        rfl))
  · rfl

theorem assignment_within_of_apart (houter : outer.atLineStart = true) (hrest : Apart rest)
    (h : rest = [] ∨ Valued c) :
    assignment (outer.within rest c) =
      (assignment c).map (Prod.map (Assignment.within outer rest) (outer.within rest)) := by
  have hfield : NeedsMore assignmentField := ⟨fun _ ↦ rfl, fun _ _ ↦ rfl⟩
  exact assignment_within houter hrest.ends (fun _ ↦ hfield.none_trimStart hrest)
    ((needsMore_char (by decide)).none_trimStart hrest) h

/-! ### Blocks -/

/-- The image of a block in a longer text. -/
def Block.within (outer : Cursor) (block : Block) : Block :=
  { block with base := outer.offset + block.base }

/-- The opening of a block: where its header ends, and where its body starts. -/
def opening (header : Cursor → Option Cursor) (c : Cursor) : Option (Cursor × Cursor) :=
  if c.atWordBoundary then
    (header c).bind fun headerEnd ↦ (headerEnd.skipBlanks.char '\x7b').bind fun start ↦
      some (headerEnd, start)
  else
    none

/-- A block from its opening on. -/
def blockBody (c : Cursor) (opened : Cursor × Cursor) : Option (Block × Cursor) :=
  let stop := opened.2.skip (· != '\x7d')
  (stop.char '\x7d').bind fun next ↦
    some (⟨c.upTo opened.1, opened.2.upTo stop, opened.2.offset⟩, next)

theorem block_eq (header : Cursor → Option Cursor) (c : Cursor) :
    block header c = (opening header c).bind (blockBody c) := by
  rw [block, opening]
  split
  · show (header c).bind _ = ((header c).bind _).bind _
    rw [Option.bind_assoc]
    congr 1
    funext headerEnd
    show (headerEnd.skipBlanks.char '\x7b').bind _ =
      ((headerEnd.skipBlanks.char '\x7b').bind _).bind _
    rw [Option.bind_assoc]
    rfl
  · rfl

/-- The brace after a header. -/
def openingEnd (headerEnd : Cursor) : Option (Cursor × Cursor) :=
  (headerEnd.skipBlanks.char '\x7b').bind fun start ↦ some (headerEnd, start)

/-- A reader of headers whose openings are carried over. -/
def HeaderCarries (outer : Cursor) (rest : List Char) (header : Cursor → Option Cursor) : Prop :=
  Carries outer rest (Prod.map (outer.within rest) (outer.within rest)) (opening header)

theorem openingEnd_within (hrest : Apart rest) :
    Carries outer rest (Prod.map (outer.within rest) (outer.within rest)) openingEnd := by
  intro headerEnd
  rw [openingEnd, char_skipBlanks_within hrest (by decide) (by decide)]
  exact bind_within fun start _ ↦ rfl

theorem carries_opening_filter (houter : outer.before.head?.any isWord = false)
    (hrest : Apart rest) : HeaderCarries outer rest (Cursor.word "filter") :=
  ((carries_word hrest.ends (by decide)).bind (openingEnd_within hrest)).atWordBoundary houter
    hrest.ends

theorem word_emit_of_on {d : Cursor} (h : c.word "on" = some d) : c.word "emit" = none := by
  rw [Option.eq_none_iff_forall_not_mem]
  intro e he
  have hon := (reads_word h).after_eq
  rw [(reads_word he).after_eq] at hon
  exact absurd (List.cons.inj hon).1 (by decide)

/-- The name of an event, after `on`. -/
def eventName (c : Cursor) : Option Cursor :=
  (c.run isBlank).bind fun c ↦ c.run isEventNameChar

/-- What follows the header of an event block. Of the two headers, at most one is there. -/
theorem eventHeader_bind {β : Type} (next : Cursor → Option β) (c : Cursor) :
    (eventHeader c).bind next =
      ((c.word "on").bind fun c ↦ (eventName c).bind next).or ((c.word "emit").bind next) := by
  show (((c.word "on").bind eventName).or (c.word "emit")).bind next = _
  cases hon : c.word "on" with
  | none => rfl
  | some d =>
    rw [word_emit_of_on hon, Option.or_none, Option.bind_none, Option.or_none]
    rfl

theorem carries_opening_eventHeader (houter : outer.before.head?.any isWord = false)
    (hrest : Apart rest) : HeaderCarries outer rest eventHeader := by
  have hname : Carries outer rest (Prod.map (outer.within rest) (outer.within rest)) fun c ↦
      (eventName c).bind openingEnd := by
    have hrun : Carries outer rest (Prod.map (outer.within rest) (outer.within rest)) fun c ↦
        (c.run isEventNameChar).bind openingEnd :=
      (carries_run (hrest.ends.of_head (by decide))).bind (openingEnd_within hrest)
    intro c
    have hblanks := hrun.runBlanks hrest ⟨fun _ ↦ rfl, fun _ _ ↦ rfl⟩ c
    dsimp only [eventName] at hblanks ⊢
    rw [Option.bind_assoc, Option.bind_assoc]
    exact hblanks
  have hheader : Carries outer rest (Prod.map (outer.within rest) (outer.within rest)) fun c ↦
      (eventHeader c).bind openingEnd := by
    intro c
    dsimp only
    rw [eventHeader_bind, eventHeader_bind]
    exact ((carries_word hrest.ends (by decide)).bind hname).or
      ((carries_word hrest.ends (by decide)).bind (openingEnd_within hrest)) c
  exact hheader.atWordBoundary houter hrest.ends

/-- A block with nothing after the part. -/
theorem carries_block {header : Cursor → Option Cursor} (hheader : HeaderCarries outer [] header) :
    Carries outer [] (Prod.map (Block.within outer) (outer.within [])) (block header) := by
  intro c
  rw [block_eq, block_eq, hheader c]
  cases opening header c with
  | none => rfl
  | some opened =>
    show blockBody (outer.within [] c) _ = (blockBody c opened).map _
    rw [blockBody, blockBody]
    dsimp only [Prod.map]
    rw [skip_within_nil, carries_char apart_nil.ends (by decide)]
    refine bind_within fun next _ ↦ ?_
    rw [upTo_within, upTo_within, offset_within]
    rfl

/-! ### Keys -/

/-- An assignment of a key, up to the sign. -/
def keyOpening (c : Cursor) : Option Cursor :=
  (c.word "$alert.key").bind fun c ↦ c.skipBlanks.char '='

/-- An assignment of a key from the end of the sign on. -/
def keyValue : Recogniser (List Char) := fun c ↦
  let start := c.skipBlanks
  if start.after.isEmpty then
    if (c.upTo start).any (· != '\n') then some ([], start) else none
  else
    let lineEnd := start.skip (· != '\n')
    some (start.upTo lineEnd.backBlanks, lineEnd)

theorem keyAssignment_eq (c : Cursor) : keyAssignment c = (keyOpening c).bind keyValue := by
  rw [keyOpening, Option.bind_assoc]
  rfl

theorem carries_keyOpening (hrest : Apart rest) :
    Carries outer rest (outer.within rest) keyOpening :=
  (carries_word hrest.ends (by decide)).bind fun c ↦
    char_skipBlanks_within hrest (by decide) (by decide) c

/-- A key whose line ends in the part, or any if there is nothing after the part. -/
theorem keyValue_within (h : rest = [] ∨ (c.skipBlanks.skip (· != '\n')).after ≠ []) :
    keyValue (outer.within rest c) = (keyValue c).map (Prod.map id (outer.within rest)) := by
  have hline : (outer.within rest c.skipBlanks).skip (· != '\n') =
      outer.within rest (c.skipBlanks.skip (· != '\n')) := by
    obtain rfl | hne := h
    · exact skip_within_nil _ outer _
    · exact skip_within_of_ne_nil hne
  obtain ⟨cs, hcs, hall, hstop⟩ := c.skipBlanks.reads_skip (· != '\n')
  have hend : c.skipBlanks.after = [] → rest = [] := by
    intro hnil
    refine h.resolve_right fun hne ↦ hne ?_
    rw [hcs.after_eq] at hnil
    exact (List.append_eq_nil_iff.1 hnil).2
  have hskip : (outer.within rest c).skipBlanks = outer.within rest c.skipBlanks := by
    by_cases hnil : c.skipBlanks.after = []
    · obtain rfl := hend hnil
      exact skip_within_nil _ outer _
    · exact skip_within_of_ne_nil hnil
  rw [keyValue, keyValue]
  dsimp only
  rw [hskip, hline, upTo_within]
  by_cases hnil : c.skipBlanks.after = []
  · obtain rfl := hend hnil
    have hnil' : (outer.within [] c.skipBlanks).after = [] := by rw [within, hnil]; rfl
    rw [hnil, hnil']
    simp only [List.isEmpty_nil, if_true]
    split <;> rfl
  · have hnil' : (outer.within rest c.skipBlanks).after ≠ [] :=
      List.append_ne_nil_of_left_ne_nil hnil _
    rw [if_neg (by simpa using hnil'), if_neg (by simpa using hnil)]
    -- the line has something other than blanks, its first character
    have hsolid : ∃ x ∈ (c.skipBlanks.skip (· != '\n')).before, isBlank x = false := by
      obtain ⟨-, -, -, hblank⟩ := c.reads_skip isBlank
      obtain ⟨x, after, hafter⟩ := List.exists_cons_of_ne_nil hnil
      have hx : isBlank x = false := hblank x (by rw [← skipBlanks, hafter]; rfl)
      refine ⟨x, ?_, hx⟩
      rw [hcs.before_eq]
      refine List.mem_append_left _ (List.mem_reverse.2 ?_)
      cases cs with
      | nil =>
        have hfeed : (x != '\n') = false := by
          refine hstop x ?_
          have hsame := hcs.after_eq
          rw [List.nil_append, hafter] at hsame
          rw [← hsame]
          rfl
        obtain rfl : x = '\n' := by simpa using hfeed
        cases hx
      | cons y cs =>
        have hsame := hcs.after_eq
        rw [hafter] at hsame
        rw [(List.cons.inj hsame).1]
        exact List.mem_cons_self
    rw [backBlanks_within hsolid, upTo_within]
    rfl

/-- An assignment of a key with nothing after the part. -/
theorem carries_keyAssignment : Carries outer [] (Prod.map id (outer.within [])) keyAssignment := by
  intro c
  rw [keyAssignment_eq, keyAssignment_eq, carries_keyOpening apart_nil c]
  exact bind_within fun d _ ↦ keyValue_within (.inl rfl)

/-! ### Arguments -/

/-- Whether the argument that starts at a cursor ends in the text. -/
def ArgumentEnds (c : Cursor) : Prop :=
  (delimiterFrom 0 .outside c.skipBlanks.before c.skipBlanks.after).isSome = true

theorem argument_within (h : rest = [] ∨ ArgumentEnds c) :
    (outer.within rest c).argument = c.argument.map (Piece.within outer rest) := by
  have hskip : (outer.within rest c).skipBlanks = outer.within rest c.skipBlanks := by
    obtain rfl | hends := h
    · exact skip_within_nil _ outer _
    · refine skip_within_of_ne_nil fun hnil ↦ ?_
      rw [ArgumentEnds, skipBlanks, hnil] at hends
      cases hends
  rw [argument, argument, hskip]
  show (delimiterFrom 0 .outside (c.skipBlanks.before ++ outer.before)
    (c.skipBlanks.after ++ rest)).bind _ = _
  rw [delimiterFrom_within 0 .outside _ _ h]
  cases hdelimiter : delimiterFrom 0 .outside c.skipBlanks.before c.skipBlanks.after with
  | none => rfl
  | some delimiter =>
    obtain ⟨cs, hcs⟩ := reads_delimiterFrom hdelimiter
    have hreads : c.skipBlanks.Reads cs delimiter := hcs.reads
    show (if (outer.within rest delimiter).after.length <
        (outer.within rest c.skipBlanks).after.length
      then some (Piece.mk (outer.within rest c.skipBlanks) (outer.within rest delimiter).backBlanks)
      else none) = (if delimiter.after.length < c.skipBlanks.after.length
        then some (Piece.mk c.skipBlanks delimiter.backBlanks) else none).map _
    have hreads' := hreads.within outer rest
    by_cases hne : cs ≠ []
    · rw [if_pos (hreads'.length_lt_iff.2 hne), if_pos (hreads.length_lt_iff.2 hne)]
      -- the argument has something other than blanks, its first character
      have hsolid : ∃ x ∈ delimiter.before, isBlank x = false := by
        obtain ⟨x, cs, rfl⟩ := List.exists_cons_of_ne_nil hne
        refine ⟨x, ?_, hreads.head_skipBlanks x rfl⟩
        rw [hreads.before_eq]
        exact List.mem_append_left _ (List.mem_reverse.2 List.mem_cons_self)
      rw [backBlanks_within hsolid]
      rfl
    · rw [if_neg (mt hreads'.length_lt_iff.1 hne), if_neg (mt hreads.length_lt_iff.1 hne)]
      rfl

end Check

end RuleLint
