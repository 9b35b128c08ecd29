import RuleLint.Proofs.Check.Construct
import RuleLint.Proofs.Text.Offsets

/-!
# Arguments as expressions

An argument of a call ends at the first delimiter outside brackets and literals. Here is the grammar
of what stands before it: an `Expression` is put together from closed literals, brackets that are
closed, of any kind, and characters that stand alone. Which characters may stand alone outside
brackets is a parameter: commas may not, and in arguments as they are meant, closing brackets may
not either (`isBare`). The scan also passes over a closing `]` or `}` that was never opened
(`isLoose`), and that is all it does besides: an argument is found if and only if the text has this
form, and it is the expression without the blanks around it (`argument_exact`).

One direction follows the grammar: at any depth a scan comes out behind an expression as deep as it
went in (`delimiterFrom_of_expression`). The other follows the text: what a scan has still to read
until its brackets and literals are closed (`Nesting.Completes`) is found by going backwards, one
character at a time. Nothing is said about offsets inside a character: a cursor is a boundary.
-/

namespace RuleLint

namespace Construct

variable {alone alone' : Char → Bool} {cs ds : List Char} {x y : Char}

/-! ### The grammar -/

/-- Contents of literals as scans read them: a backslash takes the next character with it, and no
other quote occurs. -/
inductive Escaped : List Char → Prop
  | nil : Escaped []
  | plain {x : Char} {cs : List Char} (hquote : x ≠ '"') (hbackslash : x ≠ '\\')
      (rest : Escaped cs) : Escaped (x :: cs)
  | escape {x : Char} {cs : List Char} (rest : Escaped cs) : Escaped ('\\' :: x :: cs)

/-- Whether a character may stand alone inside brackets. -/
def isPlain (x : Char) : Bool :=
  x != '"' && !isOpening x && !isClosing x

/-- Whether a character may stand alone outside brackets. -/
def isBare (x : Char) : Bool :=
  isPlain x && !isDelimiter x

/-- Whether a character may stand alone outside brackets when closing brackets that were never
opened count as characters like any other. -/
def isLoose (x : Char) : Bool :=
  x != '"' && !isOpening x && !isDelimiter x

/-- Texts in which literals and brackets are closed and every other character may stand alone. The
kinds of brackets are not told apart. -/
inductive Expression : (Char → Bool) → List Char → Prop
  | nil {alone : Char → Bool} : Expression alone []
  | single {alone : Char → Bool} {x : Char} {cs : List Char} (hx : alone x = true)
      (rest : Expression alone cs) : Expression alone (x :: cs)
  | literal {alone : Char → Bool} {content cs : List Char} (hcontent : Escaped content)
      (rest : Expression alone cs) : Expression alone ('"' :: (content ++ '"' :: cs))
  | bracket {alone : Char → Bool} {x y : Char} {inner cs : List Char} (hx : isOpening x = true)
      (hinner : Expression isPlain inner) (hy : isClosing y = true)
      (rest : Expression alone cs) : Expression alone (x :: (inner ++ y :: cs))

theorem isLoose_of_isBare (h : isBare x = true) : isLoose x = true := by
  simp only [isBare, isPlain, isLoose, Bool.and_eq_true] at h ⊢
  exact ⟨h.1.1, h.2⟩

theorem isBare_of_isBlank (h : isBlank x = true) : isBare x = true := by
  have hne : ∀ y, isBlank y = false → x ≠ y := by
    rintro y hy rfl
    rw [h] at hy
    cases hy
  have hquote := hne '"' (by decide)
  have hround := And.intro (hne '(' (by decide)) (hne ')' (by decide))
  have hsquare := And.intro (hne '[' (by decide)) (hne ']' (by decide))
  have hcurly := And.intro (hne '\x7b' (by decide)) (hne '\x7d' (by decide))
  have hcomma := hne ',' (by decide)
  simp [isBare, isPlain, isOpening, isClosing, isDelimiter, hquote, hround, hsquare, hcurly, hcomma]

theorem Expression.mono (h : Expression alone cs) (hle : ∀ x, alone x = true → alone' x = true) :
    Expression alone' cs := by
  induction h with
  | nil => exact .nil
  | single hx rest ih => exact .single (hle _ hx) (ih hle)
  | literal hcontent rest ih => exact .literal hcontent (ih hle)
  | bracket hx hinner hy rest _ ih => exact .bracket hx hinner hy (ih hle)

theorem Expression.append (first : Expression alone cs) (rest : Expression alone ds) :
    Expression alone (cs ++ ds) := by
  induction first with
  | nil => exact rest
  | single hx _ ih => exact .single hx (ih rest)
  | literal hcontent _ ih =>
    rw [List.cons_append, List.append_assoc]
    exact .literal hcontent (ih rest)
  | bracket hx hinner hy _ _ ih =>
    rw [List.cons_append, List.append_assoc]
    exact .bracket hx hinner hy (ih rest)

theorem expression_of_forall (h : ∀ x ∈ cs, alone x = true) : Expression alone cs := by
  induction cs with
  | nil => exact .nil
  | cons x cs ih =>
    obtain ⟨hx, hrest⟩ := List.forall_mem_cons.1 h
    exact .single hx (ih hrest)

theorem escaped_of_forall (h : ∀ x ∈ cs, x ≠ '"' ∧ x ≠ '\\') : Escaped cs := by
  induction cs with
  | nil => exact .nil
  | cons x cs ih =>
    obtain ⟨⟨hquote, hbackslash⟩, hrest⟩ := List.forall_mem_cons.1 h
    exact .plain hquote hbackslash (ih hrest)

theorem expression_of_blanks (hcs : cs ∈ blanks) : Expression isLoose cs :=
  expression_of_forall fun x hx ↦ isLoose_of_isBare (isBare_of_isBlank (hcs x hx))

/-- A character at the end that is neither a quote nor a bracket belongs to nothing before it. -/
theorem Expression.of_append_singleton (h : Expression alone (cs ++ [x])) (hquote : x ≠ '"')
    (hclosing : isClosing x = false) : Expression alone cs := by
  generalize htext : cs ++ [x] = text at h
  induction h generalizing cs with
  | nil => exact absurd htext (by simp)
  | @single alone y rest hy _ ih =>
    cases cs with
    | nil => exact .nil
    | cons z cs =>
      obtain ⟨rfl, hrest⟩ := List.cons.inj htext
      exact .single hy (ih hrest)
  | @literal alone content rest hcontent _ ih =>
    have htext' : cs ++ [x] = ('"' :: (content ++ ['"'])) ++ rest := by simpa using htext
    rcases List.eq_nil_or_concat rest with rfl | ⟨rest, z, rfl⟩
    · rw [List.append_nil, ← List.cons_append] at htext'
      exact absurd (List.append_inj_right' htext' rfl) (by simpa using hquote)
    · rw [List.concat_eq_append, ← List.append_assoc] at htext'
      obtain ⟨rfl, hz⟩ := List.append_inj' htext' rfl
      have hshorter := @ih rest (by rw [hz, List.concat_eq_append])
      simpa using Expression.literal hcontent hshorter
  | @bracket alone y z inner rest hy hinner hz _ _ ih =>
    have htext' : cs ++ [x] = (y :: (inner ++ [z])) ++ rest := by simpa using htext
    rcases List.eq_nil_or_concat rest with rfl | ⟨rest, w, rfl⟩
    · rw [List.append_nil, ← List.cons_append] at htext'
      obtain rfl : x = z := by simpa using List.append_inj_right' htext' rfl
      rw [hz] at hclosing
      cases hclosing
    · rw [List.concat_eq_append, ← List.append_assoc] at htext'
      obtain ⟨rfl, hw⟩ := List.append_inj' htext' rfl
      have hshorter := @ih rest (by rw [hw, List.concat_eq_append])
      simpa using Expression.bracket hy hinner hz hshorter

/-- Blanks at the end are not needed. -/
theorem Expression.of_append_blanks (h : Expression alone (cs ++ ds)) (hds : ds ∈ blanks) :
    Expression alone cs := by
  induction ds using List.reverseRecOn with
  | nil => rwa [List.append_nil] at h
  | append_singleton ds x ih =>
    have hx : isBare x = true := isBare_of_isBlank (hds x (by simp))
    simp only [isBare, isPlain, Bool.and_eq_true, bne_iff_ne, Bool.not_eq_true'] at hx
    rw [← List.append_assoc] at h
    exact ih (h.of_append_singleton hx.1.1.1 hx.1.2) fun y hy ↦ hds y (List.mem_append_left _ hy)

/-- Nor are blanks at the beginning. -/
theorem Expression.of_blanks_append (h : Expression alone (ds ++ cs)) (hds : ds ∈ blanks) :
    Expression alone cs := by
  induction ds with
  | nil => exact h
  | cons x ds ih =>
    obtain ⟨hx, hds⟩ := List.forall_mem_cons.1 hds
    have hbare := isBare_of_isBlank hx
    generalize htext : x :: ds ++ cs = text at h
    cases h with
    | nil => cases htext
    | single _ hrest =>
      obtain ⟨-, rfl⟩ := List.cons.inj htext
      exact ih hrest hds
    | literal =>
      obtain ⟨rfl, -⟩ := List.cons.inj htext
      exact absurd hbare (by decide)
    | bracket hopening =>
      obtain ⟨rfl, -⟩ := List.cons.inj htext
      simp [isBare, isPlain, hopening] at hbare

/-! ### What a scan has still to read -/

/-- The characters that a scan passes over without a change, by the number of open brackets. -/
def aloneAt : Nat → Char → Bool
  | 0 => isLoose
  | _ + 1 => isPlain

/-- Texts that close the open brackets, each behind an expression. -/
def ClosesBrackets : Nat → List Char → Prop
  | 0, cs => Expression isLoose cs
  | depth + 1, cs => ∃ inner y rest, cs = inner ++ y :: rest ∧ Expression isPlain inner ∧
      isClosing y = true ∧ ClosesBrackets depth rest

/-- Texts that close the open literal and the open brackets. -/
def Nesting.Completes : Nesting → List Char → Prop
  | ⟨depth, .outside⟩, cs => ClosesBrackets depth cs
  | ⟨depth, .inside⟩, cs => ∃ content rest, cs = content ++ '"' :: rest ∧ Escaped content ∧
      ClosesBrackets depth rest
  | ⟨depth, .escaped⟩, cs => ∃ x content rest, cs = x :: (content ++ '"' :: rest) ∧
      Escaped content ∧ ClosesBrackets depth rest

theorem ClosesBrackets.prepend {depth : Nat} (h : ClosesBrackets depth cs)
    (first : Expression (aloneAt depth) ds) : ClosesBrackets depth (ds ++ cs) := by
  cases depth with
  | zero => exact first.append h
  | succ depth =>
    obtain ⟨inner, y, rest, rfl, hinner, hy, hrest⟩ := h
    exact ⟨ds ++ inner, y, rest, (List.append_assoc _ _ _).symm, first.append hinner, hy, hrest⟩

/-- A character outside literals that is no quote, before a text that completes the nesting after
it. -/
theorem ClosesBrackets.cons {depth : Nat} (hquote : x ≠ '"')
    (h : (Nesting.step ⟨depth, .outside⟩ x).Completes cs)
    (hfirst : depth = 0 → isDelimiter x = false) : ClosesBrackets depth (x :: cs) := by
  rw [Nesting.step, if_pos ⟨rfl, hquote⟩] at h
  have hneq : (x != '"') = true := bne_iff_ne.2 hquote
  split_ifs at h with hopening hclosing
  · obtain ⟨inner, y, rest, rfl, hinner, hy, hrest⟩ := h
    simpa using ClosesBrackets.prepend hrest (.bracket hopening hinner hy .nil)
  · cases depth with
    | zero =>
      have hloose : isLoose x = true := by simp [isLoose, hneq, hopening, hfirst rfl]
      exact .single hloose h
    | succ depth => exact ⟨[], x, cs, rfl, .nil, hclosing, h⟩
  · have halone : aloneAt depth x = true := by
      cases depth with
      | zero => simp [aloneAt, isLoose, hneq, hopening, hfirst rfl]
      | succ depth => simp [aloneAt, isPlain, hneq, hopening, hclosing]
    exact ClosesBrackets.prepend h (.single halone .nil)

/-- One more character before a text that completes the nesting after it. -/
theorem Nesting.Completes.cons {nesting : Nesting} (h : (nesting.step x).Completes cs)
    (hfirst : nesting = .top → isDelimiter x = false) : nesting.Completes (x :: cs) := by
  obtain ⟨depth, quotes⟩ := nesting
  cases quotes with
  | outside =>
    by_cases hquote : x = '"'
    · subst hquote
      obtain ⟨content, rest, rfl, hcontent, hrest⟩ := h
      change ClosesBrackets depth _
      simpa using ClosesBrackets.prepend hrest (.literal hcontent .nil)
    · exact ClosesBrackets.cons hquote h fun hdepth ↦ hfirst (by rw [hdepth]; rfl)
  | inside =>
    by_cases hquote : x = '"'
    · subst hquote
      exact ⟨[], cs, rfl, .nil, h⟩
    · by_cases hbackslash : x = '\\'
      · subst hbackslash
        obtain ⟨y, content, rest, rfl, hcontent, hrest⟩ := h
        exact ⟨'\\' :: y :: content, rest, rfl, .escape hcontent, hrest⟩
      · have hstep : Nesting.step ⟨depth, .inside⟩ x = ⟨depth, .inside⟩ := by
          simp [Nesting.step, QuoteState.step, hquote, hbackslash]
        rw [hstep] at h
        obtain ⟨content, rest, rfl, hcontent, hrest⟩ := h
        exact ⟨x :: content, rest, rfl, .plain hquote hbackslash hcontent, hrest⟩
  | escaped =>
    obtain ⟨content, rest, rfl, hcontent, hrest⟩ := h
    exact ⟨x, content, rest, rfl, hcontent, hrest⟩

/-- A text after which no bracket and no literal is open any more, and in which no delimiter was
outside them, completes the nesting before it. -/
theorem completes_of_steps {nesting : Nesting} (htop : nesting.steps cs = .top)
    (hfirst : ∀ as x bs, cs = as ++ x :: bs → nesting.steps as = .top → isDelimiter x = false) :
    nesting.Completes cs := by
  induction cs generalizing nesting with
  | nil =>
    obtain rfl : nesting = .top := htop
    exact .nil
  | cons x cs ih =>
    refine .cons (ih htop fun as y bs hparts hsteps ↦ ?_) (hfirst [] x cs rfl)
    exact hfirst (x :: as) y bs (by rw [hparts]; rfl) hsteps

theorem Delimits.expression {c d : Cursor} (h : Delimits .top c cs d) : Expression isLoose cs :=
  completes_of_steps h.top h.first

end Construct

namespace Cursor

open Construct

variable {alone : Char → Bool} {cs : List Char} {c d : Cursor}

/-! ### Scans over expressions -/

/-- Whether a scan with some brackets open passes over a character without a change. -/
def Passes (depth : Nat) (x : Char) : Prop :=
  x ≠ '"' ∧ isOpening x = false ∧ (isClosing x = true → depth = 0) ∧
    (isDelimiter x = true → 0 < depth)

theorem passes_isPlain {x : Char} (h : isPlain x = true) (depth : Nat) : Passes (depth + 1) x := by
  simp only [isPlain, Bool.and_eq_true, bne_iff_ne, Bool.not_eq_true'] at h
  obtain ⟨⟨hquote, hopening⟩, hclosing⟩ := h
  refine ⟨hquote, hopening, fun hx ↦ ?_, fun _ ↦ Nat.succ_pos depth⟩
  rw [hclosing] at hx
  cases hx

theorem passes_isBare {x : Char} (h : isBare x = true) (depth : Nat) : Passes depth x := by
  simp only [isBare, isPlain, Bool.and_eq_true, bne_iff_ne, Bool.not_eq_true'] at h
  obtain ⟨⟨⟨hquote, hopening⟩, hclosing⟩, hdelimiter⟩ := h
  exact ⟨hquote, hopening, by simp [hclosing], by simp [hdelimiter]⟩

theorem passes_isLoose {x : Char} (h : isLoose x = true) : Passes 0 x := by
  simp only [isLoose, Bool.and_eq_true, bne_iff_ne, Bool.not_eq_true'] at h
  obtain ⟨⟨hquote, hopening⟩, hdelimiter⟩ := h
  exact ⟨hquote, hopening, fun _ ↦ rfl, by simp [hdelimiter]⟩

theorem delimiterFrom_of_passes {depth : Nat} {x : Char} (h : Passes depth x)
    (before after : List Char) :
    delimiterFrom depth .outside before (x :: after) =
      delimiterFrom depth .outside (x :: before) after := by
  obtain ⟨hquote, hopening, hclosing, hdelimiter⟩ := h
  have hopen : ¬(isClosing x && decide (0 < depth)) = true := by
    intro hboth
    obtain ⟨hx, hdepth⟩ : isClosing x = true ∧ 0 < depth := by simpa using hboth
    exact absurd (hclosing hx) (by omega)
  have hgoes : ¬(isDelimiter x && depth == 0) = true := by
    intro hboth
    obtain ⟨hx, hdepth⟩ : isDelimiter x = true ∧ depth = 0 := by simpa using hboth
    exact absurd (hdelimiter hx) (by omega)
  rw [delimiterFrom, if_pos (by simpa using hquote), if_neg (by simp [hopening]), if_neg hopen,
    if_neg hgoes]

/-- A scan with no bracket open stops at a delimiter. -/
theorem delimiterFrom_eq_self {rest : List Char} {x : Char} (h : c.after = x :: rest)
    (hx : isDelimiter x = true) : delimiterFrom 0 .outside c.before c.after = some c := by
  obtain ⟨before, after⟩ := c
  obtain rfl : after = x :: rest := h
  simp only [isDelimiter, Bool.or_eq_true, beq_iff_eq] at hx
  rcases hx with rfl | rfl <;> rfl

/-- A scan that is inside a literal comes out behind the closing quote. -/
theorem delimiterFrom_of_escaped (hcs : Escaped cs) (depth : Nat) (before after : List Char) :
    delimiterFrom depth .inside before (cs ++ '"' :: after) =
      delimiterFrom depth .outside ('"' :: (cs.reverse ++ before)) after := by
  induction hcs generalizing before with
  | nil => rfl
  | @plain x cs hquote hbackslash _ ih =>
    have hstep : QuoteState.inside.step x = .inside := by
      simp [QuoteState.step, hquote, hbackslash]
    rw [List.cons_append, delimiterFrom, if_neg (by simp), hstep, ih, List.reverse_cons,
      List.append_assoc]
    rfl
  | @escape x cs _ ih =>
    rw [List.cons_append, List.cons_append, delimiterFrom, if_neg (by simp), delimiterFrom,
      if_neg (by simp [QuoteState.step])]
    have hsteps : (QuoteState.inside.step '\\').step x = .inside := rfl
    rw [hsteps, ih, List.reverse_cons, List.reverse_cons, List.append_assoc, List.append_assoc]
    rfl

/-- A scan comes out behind an expression with as many brackets open as before it. -/
theorem delimiterFrom_of_expression (hcs : Expression alone cs) {depth : Nat}
    (halone : ∀ x, alone x = true → Passes depth x) (before after : List Char) :
    delimiterFrom depth .outside before (cs ++ after) =
      delimiterFrom depth .outside (cs.reverse ++ before) after := by
  induction hcs generalizing depth before after with
  | nil => rfl
  | single hx _ ih =>
    rw [List.cons_append, delimiterFrom_of_passes (halone _ hx), ih halone, List.reverse_cons,
      List.append_assoc]
    rfl
  | literal hcontent _ ih =>
    rw [List.cons_append, List.append_assoc, delimiterFrom, if_neg (by simp)]
    have hstep : QuoteState.outside.step '"' = .inside := rfl
    rw [hstep, List.cons_append, delimiterFrom_of_escaped hcontent, ih halone]
    simp
  | @bracket alone x y inner cs hx _ hy _ ihinner ih =>
    -- the opening bracket is no quote, and the closing one meets an open bracket
    have hopening : (x != '"') = true := bne_iff_ne.2 (by rintro rfl; exact absurd hx (by decide))
    have hclosing : (y != '"') = true := bne_iff_ne.2 (by rintro rfl; exact absurd hy (by decide))
    have hneither : isOpening y = false := by
      simp only [isClosing, Bool.or_eq_true, beq_iff_eq] at hy
      rcases hy with (rfl | rfl) | rfl <;> rfl
    rw [List.cons_append, List.append_assoc, delimiterFrom, if_pos (by simpa using hopening),
      if_pos hx, ihinner (fun z hz ↦ passes_isPlain hz depth), List.cons_append, delimiterFrom,
      if_pos (by simpa using hclosing), if_neg (by simp [hneither]),
      if_pos (by simp [hy]), Nat.add_sub_cancel, ih halone]
    simp

/-! ### Arguments -/

theorem Reads.backBlanks_eq {pad : List Char} (h : c.Reads pad d) (hpad : pad ∈ blanks)
    (hlast : ∀ x ∈ c.before.head?, isBlank x = false) : d.backBlanks = c := by
  induction pad using List.reverseRecOn generalizing d with
  | nil =>
    obtain rfl := h.unique (.refl _)
    obtain ⟨before, after⟩ := d
    cases before with
    | nil => rfl
    | cons x before => exact if_neg (by simp [hlast x rfl])
  | append_singleton pad x ih =>
    obtain ⟨mid, hmid, hx⟩ := h.exists_split
    rw [← ih hmid fun y hy ↦ hpad y (List.mem_append_left _ hy)]
    obtain ⟨before, after⟩ := d
    obtain rfl : before = x :: mid.before := hx.before_eq
    have hback : backFrom isBlank (x :: mid.before) after =
        backFrom isBlank mid.before (x :: after) :=
      if_pos (hpad x (by simp))
    rw [backBlanks, hback, backBlanks, show mid.after = x :: after from hx.after_eq]

/-- An expression that begins and ends with something else than a blank. -/
def IsTrimmed (cs : List Char) : Prop :=
  cs ≠ [] ∧ (∀ x ∈ cs.head?, isBlank x = false) ∧ ∀ x ∈ cs.getLast?, isBlank x = false

/-- Whether a span is that of an expression behind a cursor that begins and ends with something else
than a blank and which, apart from blanks on either side, a comma or a closing parenthesis
follows. -/
def HasArgument (alone : Char → Bool) (c : Cursor) (span : Span) : Prop :=
  ∃ pad argument pad' x rest, c.after = pad ++ (argument ++ (pad' ++ x :: rest)) ∧
    pad ∈ blanks ∧ pad' ∈ blanks ∧ isDelimiter x = true ∧ Expression alone argument ∧
    IsTrimmed argument ∧
    span = ⟨c.offset + byteLength pad, c.offset + byteLength (pad ++ argument)⟩

theorem HasArgument.mono {alone' : Char → Bool} {span : Span} (h : HasArgument alone c span)
    (hle : ∀ x, alone x = true → alone' x = true) : HasArgument alone' c span := by
  obtain ⟨pad, argument, pad', x, rest, hafter, hpad, hpad', hx, hargument, htrimmed, hspan⟩ := h
  exact ⟨pad, argument, pad', x, rest, hafter, hpad, hpad', hx, hargument.mono hle, htrimmed, hspan⟩

/-- The scan stops at the delimiter behind an expression, so the argument is that expression. -/
theorem argument_of_hasArgument {span : Span} (h : HasArgument isLoose c span) :
    c.argument.map Piece.span = some span := by
  obtain ⟨pad, argument, pad', x, rest, hafter, hpad, hpad', hx, hargument, ⟨hne, hhead, hlast⟩,
    rfl⟩ := h
  obtain ⟨start, hstart, hrest⟩ : ∃ start, c.Reads pad start ∧
      start.after = argument ++ (pad' ++ x :: rest) :=
    ⟨⟨pad.reverse ++ c.before, argument ++ (pad' ++ x :: rest)⟩, ⟨rfl, hafter⟩, rfl⟩
  obtain ⟨stop, hstop, hclosed⟩ : ∃ stop, start.Reads argument stop ∧
      stop.after = pad' ++ x :: rest :=
    ⟨⟨argument.reverse ++ start.before, pad' ++ x :: rest⟩, ⟨rfl, hrest⟩, rfl⟩
  obtain ⟨delimiter, hdelimiter, hend⟩ : ∃ delimiter, stop.Reads pad' delimiter ∧
      delimiter.after = x :: rest :=
    ⟨⟨pad'.reverse ++ stop.before, x :: rest⟩, ⟨rfl, hclosed⟩, rfl⟩
  have hskip : c.skipBlanks = start := by
    refine hstart.skip_eq hpad fun y hy ↦ hhead y ?_
    rwa [hrest, List.head?_append_of_ne_nil _ hne] at hy
  have hfound : delimiterFrom 0 .outside start.before start.after = some delimiter := by
    have hloose : ∀ y, isLoose y = true → Passes 0 y := fun y ↦ passes_isLoose
    rw [hrest, delimiterFrom_of_expression hargument hloose, ← hstop.before_eq,
      delimiterFrom_of_expression (expression_of_blanks hpad') hloose, ← hdelimiter.before_eq,
      ← hend]
    exact delimiterFrom_eq_self hend hx
  have hback : delimiter.backBlanks = stop := by
    refine hdelimiter.backBlanks_eq hpad' fun y hy ↦ hlast y ?_
    rwa [hstop.before_eq, List.head?_append_of_ne_nil _ (by simpa using hne),
      List.head?_reverse] at hy
  have hread := (hstop.trans hdelimiter).length_lt_iff.2 (by simp [hne])
  have hpiece : c.argument = some ⟨start, stop⟩ := by
    simp [Cursor.argument, hskip, hfound, hread, hback]
  rw [hpiece, Option.map_some, Piece.span, spanTo, (hstart.trans hstop).offset_eq, hstart.offset_eq]

/-- The text up to the delimiter at which a scan stops is an expression, and the blanks at its end
can be left out. -/
theorem hasArgument_of_argument {piece : Piece} (h : c.argument = some piece) :
    HasArgument isLoose c piece.span ∧ piece.start.text = c.text ∧ piece.stop.text = c.text := by
  obtain ⟨hstart, argument, pad', delimiter, hread, hne, hhead, hlast, hpad', hblank, hends⟩ :=
    Check.reads_argument h
  obtain ⟨pad, hpad, hskipped⟩ := c.reads_skipBlanks
  rw [← hstart] at hpad
  obtain ⟨x, hmem, hx⟩ := hends.delimiter
  obtain ⟨rest, hrest⟩ := List.head?_eq_some_iff.1 hmem
  refine ⟨⟨pad, argument, pad', x, rest, ?_, hskipped, hblank, hx,
    hends.expression.of_append_blanks hblank, ⟨hne, hhead, hlast⟩, ?_⟩, hpad.text_eq,
    (hpad.trans hread).text_eq⟩
  · rw [hpad.after_eq, hread.after_eq, hpad'.after_eq, hrest]
  · rw [Piece.span, spanTo, (hpad.trans hread).offset_eq, hpad.offset_eq]

/-- Nothing but blanks before a delimiter is no argument. -/
theorem argument_eq_none_of_blanks {pad rest : List Char} {x : Char}
    (h : c.after = pad ++ x :: rest) (hpad : pad ∈ blanks) (hx : isDelimiter x = true) :
    c.argument = none := by
  have hsolid : isBlank x = false := by
    simp only [isDelimiter, Bool.or_eq_true, beq_iff_eq] at hx
    rcases hx with rfl | rfl <;> decide
  have hstart : c.Reads pad ⟨pad.reverse ++ c.before, x :: rest⟩ := ⟨rfl, h⟩
  have hskip : c.skipBlanks = ⟨pad.reverse ++ c.before, x :: rest⟩ := by
    refine hstart.skip_eq hpad fun y hy ↦ ?_
    obtain rfl : x = y := by simpa using hy
    exact hsolid
  have hfound : delimiterFrom 0 .outside c.skipBlanks.before c.skipBlanks.after =
      some c.skipBlanks :=
    delimiterFrom_eq_self (by rw [hskip]) hx
  simp [argument, hfound]

/-- When there is no argument, no delimiter comes behind an expression, or only blanks come before
it. -/
theorem argument_eq_none_iff : c.argument = none ↔
    (∀ cs x rest, c.after = cs ++ x :: rest → Expression isLoose cs → isDelimiter x = false) ∨
      ∃ pad x rest, c.after = pad ++ x :: rest ∧ pad ∈ blanks ∧ isDelimiter x = true := by
  constructor
  · intro hnone
    rw [or_iff_not_imp_right]
    intro hsolid cs x rest hafter hcs
    by_contra hx
    have hdelimiter : isDelimiter x = true := by simpa using hx
    have hreads : c.Reads cs ⟨cs.reverse ++ c.before, x :: rest⟩ := ⟨rfl, hafter⟩
    obtain ⟨pad, hpad, hblank⟩ := c.reads_skipBlanks
    -- The expression goes on behind the first blanks, or is blank itself.
    rcases hpad.total hreads with ⟨ds, rfl, hds⟩ | ⟨ds, rfl, -⟩
    · by_cases hne : ds = []
      · subst hne
        exact hsolid ⟨pad, x, rest, by simpa using hafter, hblank, hdelimiter⟩
      · obtain ⟨as, pad', rfl, -, -, hblank', hsome, hlast⟩ :=
          Check.exists_trimmed hds hne hds.head_skipBlanks
        have hhead : ∀ y ∈ as.head?, isBlank y = false := fun y hy ↦
          hds.head_skipBlanks y (by rwa [List.head?_append_of_ne_nil _ hsome])
        have hargument : Expression isLoose as :=
          (hcs.of_blanks_append hblank).of_append_blanks hblank'
        have hsomething := argument_of_hasArgument (c := c) ⟨pad, as, pad', x, rest,
          by simpa using hafter, hblank, hblank', hdelimiter, hargument, ⟨hsome, hhead, hlast⟩, rfl⟩
        rw [hnone] at hsomething
        cases hsomething
    · exact hsolid ⟨cs, x, rest, hafter, fun y hy ↦ hblank y (List.mem_append_left _ hy),
        hdelimiter⟩
  · rintro (hloose | ⟨pad, x, rest, hafter, hpad, hx⟩)
    · by_contra hsome
      obtain ⟨piece, hpiece⟩ := Option.ne_none_iff_exists'.1 hsome
      obtain ⟨⟨pad, as, pad', x, rest, hafter, hpad, hpad', hx, has, -, -⟩, -, -⟩ :=
        hasArgument_of_argument hpiece
      have hwhole : Expression isLoose (pad ++ (as ++ pad')) :=
        (expression_of_blanks hpad).append (has.append (expression_of_blanks hpad'))
      have hnot := hloose _ x rest (by simpa using hafter) hwhole
      rw [hx] at hnot
      cases hnot
    · exact argument_eq_none_of_blanks hafter hpad hx

/-- **Arguments are scanned exactly.** Behind any place of a text, an expression in which every
literal and every bracket is closed and no comma lies outside them, with nothing but blanks around
it and a delimiter behind, is the argument. An argument is found if and only if the text there has
this form, apart from closing brackets that were never opened, and at most one span has it. There is
none if and only if no delimiter comes behind an expression, or only blanks come before one. Both
ends of an argument are boundaries of the text as a string. -/
theorem argument_exact (c : Cursor) :
    (∀ span, HasArgument isBare c span → c.argument.map Piece.span = some span) ∧
      (∀ span, c.argument.map Piece.span = some span ↔ HasArgument isLoose c span) ∧
      (c.argument = none ↔
        (∀ cs x rest, c.after = cs ++ x :: rest → Expression isLoose cs → isDelimiter x = false) ∨
          ∃ pad x rest, c.after = pad ++ x :: rest ∧ pad ∈ blanks ∧ isDelimiter x = true) ∧
      ∀ piece ∈ c.argument, piece.start.text = c.text ∧ piece.stop.text = c.text ∧
        (⟨piece.span.start⟩ : String.Pos.Raw).IsValid (String.ofList c.text) ∧
        (⟨piece.span.stop⟩ : String.Pos.Raw).IsValid (String.ofList c.text) := by
  have hiff : ∀ span, c.argument.map Piece.span = some span ↔ HasArgument isLoose c span := by
    refine fun span ↦ ⟨fun h ↦ ?_, argument_of_hasArgument⟩
    obtain ⟨piece, hpiece, rfl⟩ := Option.map_eq_some_iff.1 h
    exact (hasArgument_of_argument hpiece).1
  refine ⟨fun span h ↦ (hiff span).2 (h.mono fun _ ↦ isLoose_of_isBare), hiff, argument_eq_none_iff,
    fun piece hpiece ↦ ?_⟩
  obtain ⟨-, hstart, hstop⟩ := hasArgument_of_argument hpiece
  refine ⟨hstart, hstop, isValid_iff.2 ⟨piece.start, ?_, rfl⟩, isValid_iff.2 ⟨piece.stop, ?_, rfl⟩⟩
  · rw [String.toList_ofList, hstart]
  · rw [String.toList_ofList, hstop]

/-- A nested call whose literal holds a bracket and a comma, with a blank behind it. -/
example : ((Cursor.mk "(f".toList "a, g(h(b, \"),\")) ) and c".toList).char 'a').bind
    (fun c ↦ (c.char ',').bind fun c ↦ c.argument.map Piece.content) =
      some "g(h(b, \"),\"))".toList := by
  decide +kernel

end Cursor

end RuleLint
