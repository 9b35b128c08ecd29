import RuleLint.Proofs.Check.Instances
import RuleLint.Proofs.Text.LineEndings

/-!
# Checks and line endings

The answers of the recognisers, and with them the findings of the checks, do not depend on whether
the lines of a document end with a line feed or with a carriage return and a line feed.

For each recogniser but one there is a lemma that it ignores line endings (`IgnoresEndings`): its
answer at the image of a cursor is the image of its answer, it answers between the characters of a
line ending only where it answers before them, and it reads at least one character.

The exception is the assignment of a key whose expression is missing at the end of the text. After
line feeds alone it is no assignment, but a carriage return among them is taken for its expression.
-/

namespace RuleLint

open Construct Cursor

/-! ### Reading something -/

section Nonempty

variable {l m : Language Char}

theorem Construct.nil_notMem_mul_left (h : [] ∉ l) : [] ∉ l * m := by
  rintro ⟨as, has, bs, -, heq⟩
  obtain ⟨rfl, -⟩ := List.append_eq_nil_iff.1 heq
  exact h has

theorem Construct.nil_notMem_mul_right (h : [] ∉ m) : [] ∉ l * m := by
  rintro ⟨as, -, bs, hbs, heq⟩
  obtain ⟨-, rfl⟩ := List.append_eq_nil_iff.1 heq
  exact h hbs

theorem Construct.nil_notMem_mark (x : Char) : [] ∉ mark x :=
  fun h ↦ List.cons_ne_nil _ _ (Eq.symm h)

theorem Construct.nil_notMem_several (p : Char → Bool) : [] ∉ several p :=
  fun h ↦ h.1 rfl

theorem Construct.nil_notMem_literal (contents : Language Char) : [] ∉ literal contents :=
  nil_notMem_mul_right (nil_notMem_mark '"')

theorem Cursor.Spells.advances {c d : Cursor} (h : c.Spells l d) (hl : [] ∉ l) :
    ∃ cs, cs ≠ [] ∧ c.Reads cs d := by
  obtain ⟨cs, hcs, hreads⟩ := h
  refine ⟨cs, ?_, hreads⟩
  rintro rfl
  exact hl hcs

end Nonempty

namespace Check

variable {text : List Char} {c d : Cursor}

/-! ### Lowered values -/

theorem rel_loweredThen {α β : Type} {R : α → β → Prop} {next : Cursor → Option α}
    {next' : Cursor → Option β} (hnext : ∀ d, Option.Rel R (next d) (next' d.crlf)) (c : Cursor) :
    Option.Rel R (loweredThen next c) (loweredThen next' c.crlf) := by
  rw [loweredThen, loweredThen, word_crlf (by decide)]
  refine rel_bind_crlf fun c₁ _ ↦ ?_
  rw [skipBlanks_crlf, char_crlf (by decide) (by decide)]
  refine rel_bind_crlf fun c₂ _ ↦ ?_
  rw [skipBlanks_crlf]
  refine rel_shortest rfl rfl c₂.skipBlanks fun _ c₃ _ _ ↦ ?_
  rw [skipBlanks_crlf, char_crlf (by decide) (by decide)]
  refine rel_bind_crlf fun c₄ _ ↦ ?_
  rw [skipBlanks_crlf]
  exact hnext c₄.skipBlanks

theorem ignoresEndings_comparison (text : List Char) :
    IgnoresEndings text SamePiece comparison where
  image c _ := by
    rw [comparison, comparison, atWordBoundary_crlf]
    split
    · refine rel_loweredThen (fun d ↦ ?_) c
      rw [comparedLiteral, comparedLiteral, word_crlf (by decide), word_crlf (by decide),
        ← Option.map_or]
      refine rel_bind_crlf fun c₁ _ ↦ ?_
      rw [skipBlanks_crlf]
      exact image_quoted c₁.skipBlanks
    · exact .none
  quiet c hfeed _ := by
    rw [comparison, atWordBoundary_pastReturn hfeed]
    rfl
  advances c piece d h := by
    obtain ⟨-, hspells⟩ : _ ∧ c.Spells (Construct.comparison ⊤) d := spells_comparison h trivial
    exact hspells.advances (nil_notMem_mul_right (nil_notMem_literal ⊤))

theorem ignoresEndings_loweredCall {function : String}
    (hfunction : Unbroken function.toList) (text : List Char) :
    IgnoresEndings text SamePiece (loweredCall function) where
  image c _ := by
    rw [loweredCall, loweredCall, atWordBoundary_crlf]
    split
    · rw [word_crlf hfunction]
      refine rel_bind_crlf fun c₁ _ ↦ ?_
      rw [skipBlanks_crlf, char_crlf (by decide) (by decide)]
      refine rel_bind_crlf fun c₂ _ ↦ ?_
      rw [skipBlanks_crlf]
      refine rel_loweredThen (fun d ↦ ?_) c₂.skipBlanks
      rw [nextLiteral, nextLiteral, char_crlf (by decide) (by decide)]
      refine rel_bind_crlf fun c₃ _ ↦ ?_
      rw [skipBlanks_crlf]
      exact image_quoted c₃.skipBlanks
    · exact .none
  quiet c hfeed _ := by
    rw [loweredCall, atWordBoundary_pastReturn hfeed]
    rfl
  advances c piece d h := by
    obtain ⟨-, hspells⟩ : _ ∧ c.Spells (Construct.loweredCall function ⊤) d :=
      spells_loweredCall h trivial
    exact hspells.advances (nil_notMem_mul_right (nil_notMem_literal ⊤))

/-! ### Blocks -/

/-- A block and its image. The header and the body have the line endings of their texts. -/
structure SameBlock (text : List Char) (block block' : Block) : Prop where
  header_eq : block'.header = crlf block.header
  body_eq : block'.body = crlf block.body
  place : ∃ first last : Cursor, first.text = text ∧ first.Reads block.body last ∧
    block.base = first.offset ∧ block'.base = first.crlf.offset

/-- A reader of headers whose answers at images are images of its answers. -/
structure HeaderImage (header : Cursor → Option Cursor) : Prop where
  reads : ∀ c d, header c = some d → ∃ cs, c.Reads cs d
  image : ∀ c, header c.crlf = (header c).map Cursor.crlf

theorem ignoresEndings_block {header : Cursor → Option Cursor} (hheader : HeaderImage header)
    (text : List Char) : IgnoresEndings text (SameBlock text) (block header) where
  image c hc := by
    rw [block, block, atWordBoundary_crlf]
    split
    · rw [hheader.image]
      refine rel_bind_crlf fun c₁ h₁ ↦ ?_
      rw [skipBlanks_crlf, char_crlf (by decide) (by decide)]
      refine rel_bind_crlf fun start hstart ↦ ?_
      rw [skip_crlf rfl]
      dsimp only
      rw [char_crlf (by decide) (by decide)]
      refine rel_bind_crlf fun next _ ↦ ?_
      obtain ⟨cs, hcs⟩ := hheader.reads c c₁ h₁
      obtain ⟨bs, hbs, -, -⟩ := start.reads_skip (· != '\x7d')
      have htext : start.text = text := by
        rw [text_one hstart, text_skipBlanks, hcs.text_eq, hc]
      have hbody : start.Reads (start.upTo (start.skip (· != '\x7d')))
          (start.skip (· != '\x7d')) := by
        rw [hbs.upTo_eq]
        exact hbs
      exact .some ⟨⟨upTo_crlf hcs, upTo_crlf hbs, start, _, htext, hbody, rfl, rfl⟩, rfl⟩
    · exact .none
  quiet c hfeed _ := by
    rw [block, atWordBoundary_pastReturn hfeed]
    rfl
  advances c found d h := by
    obtain ⟨-, h⟩ := Option.ite_none_right_eq_some.1 h
    obtain ⟨c₁, h₁, h⟩ := Option.bind_eq_some_iff.1 h
    obtain ⟨start, hstart, h⟩ := Option.bind_eq_some_iff.1 h
    obtain ⟨next, hnext, h⟩ := Option.bind_eq_some_iff.1 h
    obtain ⟨-, rfl⟩ := Prod.mk.inj (Option.some.inj h)
    obtain ⟨cs, hcs⟩ := hheader.reads c c₁ h₁
    obtain ⟨bs, hbs, -⟩ := c₁.reads_skipBlanks
    obtain ⟨es, hes, -⟩ := start.reads_skip (· != '\x7d')
    exact ⟨_, by simp, (((hcs.trans hbs).trans (reads_char hstart)).trans hes).trans
      (reads_char hnext)⟩

theorem headerImage_eventHeader : HeaderImage eventHeader where
  reads c d h := by
    obtain ⟨cs, -, hreads⟩ := spells_eventHeader h
    exact ⟨cs, hreads⟩
  image c := by
    rw [eventHeader, eventHeader, word_crlf (by decide), word_crlf (by decide), Option.map_or]
    congr 1
    cases c.word "on" with
    | none => rfl
    | some c₁ =>
      show (c₁.crlf.run isBlank).bind _ = ((c₁.run isBlank).bind _).map Cursor.crlf
      rw [run_crlf rfl]
      cases c₁.run isBlank with
      | none => rfl
      | some c₂ => exact run_crlf rfl c₂

theorem headerImage_filter : HeaderImage (Cursor.word "filter") where
  reads c d h := ⟨_, reads_word h⟩
  image := word_crlf (by decide)

/-! ### Assignments and equations -/

theorem value_crlf (c : Cursor) : value c.crlf = (value c).map Cursor.crlf := by
  rw [value, value, skipBlanks_crlf, run_crlf rfl]

/-- An assignment and its image. -/
structure SameAssignment (found found' : Assignment) : Prop where
  field : SamePiece found.field found'.field
  isSingle_eq : found'.isSingle = found.isSingle

theorem ignoresEndings_assignment (text : List Char) :
    IgnoresEndings text SameAssignment assignment where
  image c _ := by
    rw [assignment, assignment, atLineStart_crlf]
    split
    · rw [run_crlf rfl]
      refine rel_bind_crlf fun start _ ↦ ?_
      rw [run_crlf rfl]
      refine rel_bind_crlf fun stop hstop ↦ ?_
      obtain ⟨cs, hreads, -, hall, -⟩ := reads_run hstop
      have hfield : SamePiece ⟨start, stop⟩ ⟨start.crlf, stop.crlf⟩ :=
        samePiece hreads fun hmem ↦ absurd (hall _ hmem) (by decide)
      rw [skipBlanks_crlf, char_crlf (by decide) (by decide)]
      refine rel_bind_crlf fun operatorEnd _ ↦ ?_
      -- with two signs or with one, the same place comes next
      have hboth : (operatorEnd.crlf.char '=').bind value =
          ((operatorEnd.char '=').bind value).map Cursor.crlf := by
        rw [char_crlf (by decide) (by decide)]
        cases operatorEnd.char '=' with
        | none => rfl
        | some c₁ => exact value_crlf c₁
      rw [hboth]
      cases (operatorEnd.char '=').bind value with
      | some next => exact .some ⟨⟨hfield, rfl⟩, rfl⟩
      | none =>
        show Option.Rel _ ((value operatorEnd).bind _) ((value operatorEnd.crlf).bind _)
        rw [value_crlf]
        exact rel_bind_crlf fun next _ ↦ .some ⟨⟨hfield, rfl⟩, rfl⟩
    · exact .none
  quiet c hfeed _ := by
    rw [assignment, atLineStart_pastReturn hfeed]
    rfl
  advances c found d h := by
    obtain ⟨hblanks, hspells⟩ := spells_assignment h
    exact (hblanks.mul hspells).advances (nil_notMem_mul_left (nil_notMem_several isBlank))

/-- An equation and its image. -/
structure SameEquation (found found' : Equation) : Prop where
  subject : SamePiece found.subject found'.subject
  operator_eq : found'.operator = found.operator

theorem ignoresEndings_equation (text : List Char) :
    IgnoresEndings text SameEquation equation where
  image c _ := by
    rw [equation, equation, run_crlf rfl]
    refine rel_bind_crlf fun start _ ↦ ?_
    rw [run_crlf rfl]
    refine rel_bind_crlf fun stop hstop ↦ ?_
    obtain ⟨cs, hcs, -, hsolid, -⟩ := reads_run hstop
    rw [run_crlf rfl]
    refine rel_bind_crlf fun operator _ ↦ ?_
    rw [run_crlf rfl]
    refine rel_bind_crlf fun operatorEnd hend ↦ ?_
    obtain ⟨es, hes, -, hsigns, -⟩ := reads_run hend
    rw [run_crlf rfl]
    refine rel_bind_crlf fun literal _ ↦ ?_
    refine rel_bind (image_quoted literal) fun answer answer' _ _ hanswer ↦ ?_
    have hsubject : SamePiece ⟨start, stop⟩ ⟨start.crlf, stop.crlf⟩ :=
      samePiece hcs fun hmem ↦ absurd (hsolid _ hmem) (by decide)
    have hoperator : operator.crlf.upTo operatorEnd.crlf = operator.upTo operatorEnd := by
      rw [upTo_crlf hes, hes.upTo_eq, crlf_eq_self fun hmem ↦ absurd (hsigns _ hmem) (by decide)]
    exact .some ⟨⟨hsubject, hoperator⟩, hanswer.2⟩
  quiet c _ h := by
    -- an equation begins with blanks, and of these it may as well leave out the first
    rw [equation, run_pastReturn rfl rfl]
    exact h
  advances c found d h := by
    obtain ⟨hblanks, hspells⟩ := spells_equation h
    exact (hblanks.mul hspells).advances (nil_notMem_mul_left (nil_notMem_several isBlank))

/-! ### Concatenations -/

theorem boundary_crlf (c : Cursor) : boundary c.crlf = (boundary c).map Cursor.crlf := by
  rw [boundary, boundary, atWordBoundary_crlf]
  split <;> rfl

theorem numberedField_crlf (c : Cursor) :
    numberedField c.crlf = (numberedField c).map Cursor.crlf := by
  rw [numberedField, numberedField, word_crlf (by decide)]
  cases c.word "numfield" with
  | none => rfl
  | some c₁ =>
    show (c₁.crlf.run isDecimalDigit).bind boundary =
      ((c₁.run isDecimalDigit).bind boundary).map Cursor.crlf
    rw [run_crlf rfl]
    cases c₁.run isDecimalDigit with
    | none => rfl
    | some c₂ => exact boundary_crlf c₂

theorem findSome?_word_crlf (names : List String)
    (hnames : ∀ name ∈ names, Unbroken name.toList) (c : Cursor) :
    (names.findSome? fun name ↦ (c.crlf.word name).bind boundary) =
      (names.findSome? fun name ↦ (c.word name).bind boundary).map Cursor.crlf := by
  induction names with
  | nil => rfl
  | cons name names ih =>
    obtain ⟨hname, hnames⟩ := List.forall_mem_cons.1 hnames
    have hword : (c.crlf.word name).bind boundary =
        ((c.word name).bind boundary).map Cursor.crlf := by
      rw [word_crlf hname]
      cases c.word name with
      | none => rfl
      | some c₁ => exact boundary_crlf c₁
    rw [List.findSome?_cons, List.findSome?_cons, hword, ih hnames]
    cases (c.word name).bind boundary <;> rfl

theorem numericFieldName_crlf (c : Cursor) :
    numericFieldName c.crlf = (numericFieldName c).map Cursor.crlf := by
  rw [numericFieldName, numericFieldName, numberedField_crlf, Option.map_or,
    findSome?_word_crlf numericFieldNames (by decide)]

theorem numericField_crlf (c : Cursor) :
    numericField c.crlf = (numericField c).map Cursor.crlf := by
  have hsigil : (c.crlf.char '$').getD c.crlf = ((c.char '$').getD c).crlf := by
    rw [char_crlf (by decide) (by decide)]
    cases c.char '$' <;> rfl
  rw [numericField, numericField, hsigil, boundary_crlf]
  cases boundary ((c.char '$').getD c) with
  | none => rfl
  | some c₁ => exact numericFieldName_crlf c₁

/-- What is read after a literal does not depend on the line endings either. -/
theorem quoted_bind_crlf (c : Cursor) (next : Cursor → Option Cursor)
    (hnext : ∀ d, next d.crlf = (next d).map Cursor.crlf) :
    ((quoted c.crlf).bind fun answer ↦ next answer.2) =
      ((quoted c).bind fun answer ↦ next answer.2).map Cursor.crlf := by
  have himage := image_quoted c
  cases hquoted : quoted c with
  | none =>
    rw [hquoted] at himage
    rw [eq_none_of_rel himage]
    rfl
  | some answer =>
    rw [hquoted] at himage
    obtain ⟨answer', hquoted', -, hstop⟩ := exists_of_rel himage
    rw [hquoted']
    show next answer'.2 = (next answer.2).map Cursor.crlf
    rw [hstop, hnext]

theorem fieldPlusLiteral_crlf (c : Cursor) :
    fieldPlusLiteral c.crlf = (fieldPlusLiteral c).map Cursor.crlf := by
  rw [fieldPlusLiteral, fieldPlusLiteral, numericField_crlf]
  cases numericField c with
  | none => rfl
  | some c₁ =>
    show (c₁.crlf.skipBlanks.char '+').bind _ = ((c₁.skipBlanks.char '+').bind _).map Cursor.crlf
    rw [skipBlanks_crlf, char_crlf (by decide) (by decide)]
    cases c₁.skipBlanks.char '+' with
    | none => rfl
    | some c₂ =>
      show (quoted c₂.crlf.skipBlanks).bind _ = ((quoted c₂.skipBlanks).bind _).map Cursor.crlf
      rw [skipBlanks_crlf]
      exact quoted_bind_crlf c₂.skipBlanks some fun _ ↦ rfl

theorem literalPlusField_crlf (c : Cursor) :
    literalPlusField c.crlf = (literalPlusField c).map Cursor.crlf := by
  refine quoted_bind_crlf c (fun c ↦ (c.skipBlanks.char '+').bind fun c ↦ numericField c.skipBlanks)
    fun d ↦ ?_
  rw [skipBlanks_crlf, char_crlf (by decide) (by decide)]
  cases d.skipBlanks.char '+' with
  | none => rfl
  | some c₁ =>
    show numericField c₁.crlf.skipBlanks = (numericField c₁.skipBlanks).map Cursor.crlf
    rw [skipBlanks_crlf, numericField_crlf]

theorem ignoresEndings_concatenation (text : List Char) :
    IgnoresEndings text Eq concatenation where
  image c _ := by
    rw [concatenation, concatenation, fieldPlusLiteral_crlf, literalPlusField_crlf, ← Option.map_or]
    cases (fieldPlusLiteral c).or (literalPlusField c) with
    | none => exact .none
    | some next => exact .some ⟨rfl, rfl⟩
  quiet c hfeed _ := by
    obtain ⟨before, after⟩ := c
    obtain ⟨after, rfl⟩ := List.head?_eq_some_iff.1 hfeed
    rfl
  advances c value d h := by
    rcases isInstance_concatenation h with ⟨c₁, ⟨b, ⟨cs, -, hsigil⟩, -, ⟨ds, -, hname⟩, -⟩, hrest⟩ |
      ⟨c₁, hfirst, ⟨b, ⟨ds, -, hsigil⟩, -, ⟨es, -, hname⟩, -⟩⟩
    · obtain ⟨es, hes, hreads⟩ := hrest.advances (nil_notMem_mul_right (nil_notMem_literal ⊤))
      exact ⟨_, List.append_ne_nil_of_right_ne_nil _ hes, (hsigil.trans hname).trans hreads⟩
    · obtain ⟨cs, hcs, hreads⟩ :=
        hfirst.advances (nil_notMem_mul_left (nil_notMem_mul_right (nil_notMem_mark '+')))
      exact ⟨_, List.append_ne_nil_of_left_ne_nil (List.append_ne_nil_of_left_ne_nil hcs _) _,
        (hreads.trans hsigil).trans hname⟩

/-! ### Whitelisting macros -/

theorem ignoresEndings_whitelistCall (text : List Char) :
    IgnoresEndings text SamePiece whitelistCall where
  image c _ := by
    rw [whitelistCall, whitelistCall, word_crlf (by decide)]
    refine rel_bind_crlf fun c₁ _ ↦ ?_
    rw [run_crlf rfl]
    refine rel_bind_crlf fun c₂ _ ↦ ?_
    rw [skipBlanks_crlf, char_crlf (by decide) (by decide)]
    refine rel_bind_crlf fun c₃ _ ↦ ?_
    rw [skipBlanks_crlf]
    exact image_quoted c₃.skipBlanks
  quiet c _ h := by
    rw [whitelistCall, word_pastReturn (by decide) (by decide)]
    exact h
  advances c piece d h := by
    obtain ⟨-, hspells, -, -⟩ := spells_whitelistCall h
    exact hspells.advances (nil_notMem_mul_right (nil_notMem_literal ⊤))

theorem argument_crlf (c : Cursor) :
    c.crlf.argument = c.argument.map fun piece ↦ ⟨piece.start.crlf, piece.stop.crlf⟩ := by
  rw [argument, argument, skipBlanks_crlf]
  show (delimiterFrom 0 .outside (crlfBack _) (crlf _)).bind _ = _
  rw [delimiterFrom_crlf]
  cases hdelimiter : delimiterFrom 0 .outside c.skipBlanks.before c.skipBlanks.after with
  | none => rfl
  | some delimiter =>
    obtain ⟨cs, hcs⟩ := reads_delimiterFrom hdelimiter
    have hreads : c.skipBlanks.Reads cs delimiter := hcs.reads
    have hlength : delimiter.crlf.after.length < c.skipBlanks.crlf.after.length ↔
        delimiter.after.length < c.skipBlanks.after.length := by
      rw [hreads.crlf.length_lt_iff, hreads.length_lt_iff, Ne, crlf_eq_nil_iff]
    rw [Option.map_some]
    show (if delimiter.crlf.after.length < c.skipBlanks.crlf.after.length then
        some (Piece.mk c.skipBlanks.crlf delimiter.crlf.backBlanks) else none) =
      (if delimiter.after.length < c.skipBlanks.after.length then
        some (Piece.mk c.skipBlanks delimiter.backBlanks) else none).map _
    rw [backBlanks_crlf, if_congr hlength rfl rfl]
    split <;> rfl

theorem keyArgument_crlf {call call' : Found Piece} (h : call'.stop = call.stop.crlf) :
    keyArgument call' =
      (keyArgument call).map fun piece ↦ ⟨piece.start.crlf, piece.stop.crlf⟩ := by
  rw [keyArgument, keyArgument, h, skipBlanks_crlf, char_crlf (by decide) (by decide)]
  cases call.stop.skipBlanks.char ',' with
  | none => rfl
  | some c₁ => exact argument_crlf c₁

theorem normalKey_crlf (key : List Char) : normalKey (crlf key) = normalKey key :=
  filter_crlf rfl

/-! ### Assignments of keys -/

/-- An assignment of a key whose expression is missing, up to the end of the text. -/
def openKey : Language Char :=
  said "$alert.key" * blanks * mark '=' * several (· == '\n')

/-- The line on which something stands after blanks, up to the blanks at its end. -/
theorem reads_lineEnd (hne : c.skipBlanks.after ≠ []) :
    ∃ cs, c.skipBlanks.Reads cs (c.skipBlanks.skip (· != '\n')).backBlanks ∧ '\n' ∉ cs := by
  obtain ⟨-, -, -, hsolid⟩ := c.reads_skip isBlank
  obtain ⟨cs, hreads, hall, hstop⟩ := c.skipBlanks.reads_skip (· != '\n')
  have hsome : cs ≠ [] := by
    -- what comes after blanks would be a line feed, which is one
    rintro rfl
    obtain ⟨x, rest, hafter⟩ := List.exists_cons_of_ne_nil hne
    have hline : (c.skipBlanks.skip (· != '\n')).after = x :: rest := by
      rw [← hafter, hreads.after_eq]
      rfl
    have hfeed : (x != '\n') = false := hstop x (by rw [hline]; rfl)
    have hblank : isBlank x = false := hsolid x (by rw [← skipBlanks, hafter]; rfl)
    obtain rfl : x = '\n' := by simpa using hfeed
    cases hblank
  obtain ⟨as, pad, rfl, hline, -⟩ := exists_trimmed hreads hsome hreads.head_skipBlanks
  refine ⟨as, hline, fun hmem ↦ ?_⟩
  exact absurd (hall _ (List.mem_append_left pad hmem)) (by decide)

/-- An assignment of a key, as far as its value is concerned. -/
theorem rel_keyAssignment (hopen : c.after ∉ openKey) :
    Option.Rel (fun x y ↦ y.1 = x.1) (keyAssignment c) (keyAssignment c.crlf) := by
  rw [keyAssignment, keyAssignment, word_crlf (by decide)]
  refine rel_bind_crlf fun c₁ h₁ ↦ ?_
  rw [skipBlanks_crlf, char_crlf (by decide) (by decide)]
  refine rel_bind_crlf fun c₂ h₂ ↦ ?_
  rw [skipBlanks_crlf]
  dsimp only
  have hempty : c₂.skipBlanks.crlf.after.isEmpty = c₂.skipBlanks.after.isEmpty := by
    rw [Bool.eq_iff_iff, List.isEmpty_iff, List.isEmpty_iff]
    exact crlf_eq_nil_iff
  rw [hempty]
  split
  · obtain ⟨cs, hcs, -⟩ := c₂.reads_skipBlanks
    have hafter : c₂.skipBlanks.after = [] := by simpa using ‹c₂.skipBlanks.after.isEmpty = true›
    rw [hcs.upTo_eq, upTo_crlf hcs, hcs.upTo_eq]
    by_cases hany : cs.any (· != '\n') = true
    · obtain ⟨x, hx, hne⟩ := List.any_eq_true.1 hany
      rw [if_pos hany, if_pos (List.any_eq_true.2 ⟨x, mem_crlf hx, hne⟩)]
      exact .some rfl
    · -- only line feeds are left, and as the assignment is not open, not even these
      have hfeeds : ∀ x ∈ cs, (x == '\n') = true := by simpa using hany
      have hnone : cs = [] := by
        by_contra hne
        have hspells : c.Spells openKey c₂.skipBlanks :=
          (((spells_word h₁).mul c₁.spells_skipBlanks).mul (spells_char h₂)).mul
            ⟨cs, ⟨hne, hfeeds⟩, hcs⟩
        obtain ⟨ds, hds, hreads⟩ := hspells
        have hwhole : c.after = ds := by rw [hreads.after_eq, hafter, List.append_nil]
        exact hopen (hwhole ▸ hds)
      subst hnone
      exact .none
  · -- the value ends within the line, before the carriage return that the image has there
    rename_i hsome
    have hne : c₂.skipBlanks.after ≠ [] := by simpa using hsome
    obtain ⟨cs, hreads, hcs⟩ := reads_lineEnd hne
    have hvalue := upTo_crlf hreads
    rw [hreads.upTo_eq, crlf_eq_self hcs] at hvalue
    rw [skip_crlf_pastReturn rfl rfl, backBlanks_pastReturn, hvalue, hreads.upTo_eq]
    exact .some rfl

theorem quiet_keyAssignment : Quiet keyAssignment := by
  intro c _ h
  rw [keyAssignment, word_pastReturn (by decide) (by decide)]
  exact h

theorem advances_keyAssignment : Advances keyAssignment := by
  intro c key d h
  obtain ⟨c₁, h₁, h⟩ := Option.bind_eq_some_iff.1 h
  obtain ⟨c₂, h₂, h⟩ := Option.bind_eq_some_iff.1 h
  obtain ⟨bs, hbs, -⟩ := c₁.reads_skipBlanks
  obtain ⟨cs, hcs, -⟩ := c₂.reads_skipBlanks
  obtain ⟨ds, hds, -, -⟩ := c₂.skipBlanks.reads_skip (· != '\n')
  have hstart := (((reads_word h₁).trans hbs).trans (reads_char h₂)).trans hcs
  dsimp only at h
  split at h
  · obtain ⟨-, h⟩ := Option.ite_none_right_eq_some.1 h
    obtain ⟨-, rfl⟩ := Prod.mk.inj (Option.some.inj h)
    exact ⟨_, by simp, hstart⟩
  · obtain ⟨-, rfl⟩ := Prod.mk.inj (Option.some.inj h)
    exact ⟨_, by simp, hstart.trans hds⟩

theorem toList_alertKey : "$alert.key".toList = '$' :: "alert.key".toList := by decide

/-- A text without a sigil has no assignment of a key. -/
theorem findAllFrom_keyAssignment (before after : List Char) (h : '$' ∉ after) :
    findAllFrom keyAssignment before after = [] := by
  induction after generalizing before with
  | nil => rw [findAllFrom]
  | cons x after ih =>
    obtain ⟨hx, hafter⟩ := List.ne_and_not_mem_of_not_mem_cons h
    have hnone : keyAssignment ⟨before, x :: after⟩ = none := by
      rw [Option.eq_none_iff_forall_not_mem]
      intro answer hanswer
      obtain ⟨c₁, hword, -⟩ := Option.bind_eq_some_iff.1 hanswer
      have hparts : x :: after = "$alert.key".toList ++ c₁.after := (reads_word hword).after_eq
      rw [toList_alertKey] at hparts
      exact hx (List.cons.inj hparts).1.symm
    rw [findAllFrom_of_none hnone, ih _ hafter]

/-- The parts of an open assignment of a key. -/
theorem exists_of_mem_openKey {after : List Char} (h : after ∈ openKey) :
    ∃ bs feeds, after = "$alert.key".toList ++ (bs ++ ('=' :: feeds)) ∧
      (∀ x ∈ bs, isBlank x = true) ∧ feeds ≠ [] ∧ ∀ x ∈ feeds, x = '\n' := by
  obtain ⟨_, ⟨_, ⟨_, rfl, bs, hbs, rfl⟩, _, rfl, rfl⟩, feeds, ⟨hne, hfeeds⟩, rfl⟩ := h
  exact ⟨bs, feeds, by simp, hbs, hne, by simpa using hfeeds⟩

/-- How an open assignment of a key is read: up to the sign, and then line feeds up to the end. -/
theorem reads_openKey (h : c.after ∈ openKey) :
    ∃ c₁ c₂ feeds, c.word "$alert.key" = some c₁ ∧ c₁.skipBlanks.char '=' = some c₂ ∧
      c₂.Reads feeds c₂.skipBlanks ∧ c₂.skipBlanks.after = [] ∧ feeds ≠ [] ∧
      ∀ x ∈ feeds, x = '\n' := by
  obtain ⟨before, after⟩ := c
  obtain ⟨bs, feeds, rfl, hbs, hne, hfeeds⟩ := exists_of_mem_openKey h
  have hsign : ∀ before : List Char, skipBlanks ⟨before, bs ++ ('=' :: feeds)⟩ =
      ⟨bs.reverse ++ before, '=' :: feeds⟩ := fun before ↦ skip_append hbs before _
  have hend : ∀ before : List Char, skipBlanks ⟨before, feeds⟩ = ⟨feeds.reverse ++ before, []⟩ := by
    intro before
    have hblank : ∀ x ∈ feeds, isBlank x = true := fun x hx ↦ hfeeds x hx ▸ isBlank_newline
    have hskip := skip_append hblank before []
    rw [List.append_nil] at hskip
    exact hskip
  refine ⟨⟨"$alert.key".toList.reverse ++ before, bs ++ ('=' :: feeds)⟩,
    ⟨'=' :: (bs.reverse ++ ("$alert.key".toList.reverse ++ before)), feeds⟩, feeds,
    exactly_append _ _ _, ?_, ?_, ?_, hne, hfeeds⟩
  · rw [hsign]
    rfl
  · rw [hend]
    exact ⟨rfl, (List.append_nil feeds).symm⟩
  · rw [hend]

/-- An open assignment of a key is no assignment. -/
theorem keyAssignment_openKey (h : c.after ∈ openKey) : keyAssignment c = none := by
  obtain ⟨c₁, c₂, feeds, hword, hsign, hreads, hend, -, hfeeds⟩ := reads_openKey h
  rw [keyAssignment, hword]
  show (c₁.skipBlanks.char '=').bind _ = none
  rw [hsign]
  show (if c₂.skipBlanks.after.isEmpty then
    if (c₂.upTo c₂.skipBlanks).any (· != '\n') then _ else none else _) = none
  rw [hreads.upTo_eq, if_pos (by rw [hend]; rfl), if_neg (by simpa using hfeeds)]

/-- With carriage returns, it is an assignment of the empty key. -/
theorem keyAssignment_crlf_openKey (h : c.after ∈ openKey) :
    ∃ stop, keyAssignment c.crlf = some ([], stop) := by
  obtain ⟨c₁, c₂, feeds, hword, hsign, hreads, hend, hne, hfeeds⟩ := reads_openKey h
  refine ⟨c₂.skipBlanks.crlf, ?_⟩
  have hreturn : (crlf feeds).any (· != '\n') = true := by
    obtain ⟨x, feeds, rfl⟩ := List.exists_cons_of_ne_nil hne
    obtain rfl := hfeeds x List.mem_cons_self
    rfl
  rw [keyAssignment, word_crlf (by decide), hword]
  show (c₁.crlf.skipBlanks.char '=').bind _ = _
  rw [skipBlanks_crlf, char_crlf (by decide) (by decide), hsign]
  show (if c₂.crlf.skipBlanks.after.isEmpty then
    if (c₂.crlf.upTo c₂.crlf.skipBlanks).any (· != '\n') then some ([], c₂.crlf.skipBlanks)
    else none else _) = _
  rw [skipBlanks_crlf, upTo_crlf hreads, hreads.upTo_eq, if_pos hreturn]
  exact if_pos (by rw [Cursor.crlf, hend]; rfl)

/-- No assignment of a key follows an open one. -/
theorem findAllFrom_openKey (before after : List Char) (h : after ∈ openKey) :
    findAllFrom keyAssignment before after = [] := by
  have hnone := keyAssignment_openKey (c := ⟨before, after⟩) h
  obtain ⟨bs, feeds, hafter, hbs, -, hfeeds⟩ := exists_of_mem_openKey h
  -- what comes after its first character has no sigil
  have hsigil : '$' ∉ "alert.key".toList ++ (bs ++ ('=' :: feeds)) := by
    simp only [List.mem_append, List.mem_cons, not_or]
    refine ⟨by decide, fun hmem ↦ ?_, by decide, fun hmem ↦ ?_⟩
    · exact absurd (hbs _ hmem) (by decide)
    · exact absurd (hfeeds _ hmem) (by decide)
  rw [toList_alertKey, List.cons_append] at hafter
  subst hafter
  rw [findAllFrom_of_none hnone, findAllFrom_keyAssignment _ _ hsigil]

/-- The key that a text declares does not depend on its line endings. -/
theorem declaredKey_crlf (hopen : declaredKey text = none → text ∉ (⊤ * openKey : Language Char)) :
    declaredKey (crlf text) = declaredKey text := by
  refine map_eq_of_rel (@rel_findFirst_value _ (fun key key' ↦ key' = key) keyAssignment text
    advances_keyAssignment quiet_keyAssignment fun c hc hlater ↦ rel_keyAssignment fun hafter ↦ ?_)
    fun found found' hvalue ↦ congrArg normalKey hvalue
  have hnone : declaredKey text = none := by
    rw [declaredKey, hlater (findAllFrom_openKey c.before c.after hafter)]
    rfl
  refine hopen hnone ?_
  rw [← hc]
  exact Language.append_mem_mul trivial hafter

/-- If a text without assignments of a key ends in an open one, the first assignment with carriage
returns is that one. -/
theorem head?_findAllFrom_crlf_openKey (before after : List Char)
    (hnone : findAllFrom keyAssignment before after = [])
    (hopen : after ∈ (⊤ * openKey : Language Char)) :
    ∃ found, (findAllFrom keyAssignment (crlfBack before) (crlf after)).head? = some found ∧
      found.value = [] := by
  induction after generalizing before with
  | nil => exact absurd hopen (nil_notMem_mul_right (nil_notMem_mul_right (nil_notMem_several _)))
  | cons x after ih =>
    by_cases hhere : x :: after ∈ openKey
    · obtain ⟨stop, hanswer⟩ := keyAssignment_crlf_openKey (c := ⟨before, x :: after⟩) hhere
      rw [findAllFrom_crlf_of_some advances_keyAssignment before after x hanswer]
      exact ⟨_, rfl, rfl⟩
    · obtain ⟨answer, hrest⟩ := findAllFrom_eq_nil advances_keyAssignment hnone
      have hrel := rel_keyAssignment (c := ⟨before, x :: after⟩) hhere
      rw [answer] at hrel
      rw [findAllFrom_crlf_of_none quiet_keyAssignment before after x (eq_none_of_rel hrel)]
      -- the open assignment is not the whole text, so it is at the end of the rest
      refine ih (x :: before) hrest ?_
      obtain ⟨as, -, ks, hks, hparts⟩ := hopen
      cases as with
      | nil =>
        rw [← hparts] at hhere
        exact absurd hks hhere
      | cons a as =>
        obtain ⟨-, rfl⟩ := List.cons.inj hparts
        exact Language.append_mem_mul trivial hks

/-- If a text without assignments of a key ends in an open one, it declares the empty key with
carriage returns. -/
theorem declaredKey_crlf_openKey (hnone : declaredKey text = none)
    (hopen : text ∈ (⊤ * openKey : Language Char)) : declaredKey (crlf text) = some [] := by
  have hfinds : findAllFrom keyAssignment [] text = [] := by
    simpa [declaredKey, findFirst, findAll] using hnone
  obtain ⟨found, hfound, hvalue⟩ := head?_findAllFrom_crlf_openKey [] text hfinds hopen
  have hfirst : findFirst keyAssignment (crlf text) = some found := hfound
  rw [declaredKey, hfirst, Option.map_some, hvalue]
  rfl

/-- The key that a text declares depends on the line endings just if the text declares none and
ends in an open assignment of a key. -/
theorem declaredKey_crlf_iff (text : List Char) :
    declaredKey (crlf text) = declaredKey text ↔
      (declaredKey text = none → text ∉ (⊤ * openKey : Language Char)) := by
  refine ⟨fun heq hnone hopen ↦ ?_, declaredKey_crlf⟩
  rw [declaredKey_crlf_openKey hnone hopen, hnone] at heq
  cases heq

/-! ### Declarations and grades -/

theorem ignoresEndings_nameDeclaration (text : List Char) :
    IgnoresEndings text Eq nameDeclaration where
  image c _ := by
    rw [nameDeclaration, nameDeclaration, atLineStart_crlf]
    split
    · rw [skipBlanks_crlf, word_crlf (by decide)]
      refine rel_bind_crlf fun c₁ _ ↦ ?_
      rw [run_crlf rfl]
      refine rel_bind_crlf fun start _ ↦ ?_
      rw [run_crlf rfl]
      refine rel_bind_crlf fun stop hstop ↦ ?_
      obtain ⟨cs, hreads, -, hall, -⟩ := reads_run hstop
      have hname : start.crlf.upTo stop.crlf = start.upTo stop := by
        rw [upTo_crlf hreads, hreads.upTo_eq]
        exact crlf_eq_self fun hmem ↦ absurd (hall _ hmem) (by decide)
      rw [skipBlanks_crlf, char_crlf (by decide) (by decide), hname]
      exact rel_bind_crlf fun next _ ↦ .some ⟨rfl, rfl⟩
    · exact .none
  quiet c hfeed _ := by
    rw [nameDeclaration, atLineStart_pastReturn hfeed]
    rfl
  advances c name d h := by
    obtain ⟨-, h⟩ := Option.ite_none_right_eq_some.1 h
    obtain ⟨c₁, h₁, h⟩ := Option.bind_eq_some_iff.1 h
    obtain ⟨start, hstart, h⟩ := Option.bind_eq_some_iff.1 h
    obtain ⟨stop, hstop, h⟩ := Option.bind_eq_some_iff.1 h
    obtain ⟨next, hnext, h⟩ := Option.bind_eq_some_iff.1 h
    obtain ⟨-, rfl⟩ := Prod.mk.inj (Option.some.inj h)
    have hspells := ((((c.spells_skipBlanks.mul (spells_word h₁)).mul (spells_run hstart)).mul
      (spells_run hstop)).mul stop.spells_skipBlanks).mul (spells_char hnext)
    exact hspells.advances (nil_notMem_mul_right (nil_notMem_mark ':'))

/-- The name that a text declares does not depend on its line endings. -/
theorem declaredName_crlf (text : List Char) : declaredName (crlf text) = declaredName text :=
  map_eq_of_rel (rel_findFirst_crlf (ignoresEndings_nameDeclaration text)) fun _ _ hsame ↦
    hsame.value.symm

theorem ignoresEndings_gradeAssignment {name : String}
    (hname : Unbroken name.toList) (hne : name.toList ≠ []) (text : List Char) :
    IgnoresEndings text Eq (gradeAssignment name) where
  image c _ := by
    rw [gradeAssignment, gradeAssignment, word_crlf hname]
    refine rel_bind_crlf fun c₁ _ ↦ ?_
    rw [skipBlanks_crlf, char_crlf (by decide) (by decide)]
    refine rel_bind_crlf fun c₂ _ ↦ ?_
    rw [skipBlanks_crlf, char_crlf (by decide) (by decide)]
    refine rel_bind_crlf fun start _ ↦ ?_
    refine rel_shortest rfl rfl start fun cs stop hreads hall ↦ ?_
    have hgrade : start.crlf.upTo stop.crlf = start.upTo stop := by
      rw [upTo_crlf hreads, hreads.upTo_eq]
      exact crlf_eq_self fun hmem ↦ absurd (hall _ hmem) (by decide)
    rw [char_crlf (by decide) (by decide), hgrade]
    exact rel_bind_crlf fun next _ ↦ .some ⟨rfl, rfl⟩
  quiet c _ h := by
    rw [gradeAssignment, word_pastReturn hname hne]
    exact h
  advances c grade d h := by
    exact (spells_gradeAssignment h).advances (nil_notMem_mul_right (nil_notMem_mark '"'))

end Check

end RuleLint
