import RuleLint.Proofs.Check.Arguments
import RuleLint.Proofs.Check.Directives

/-!
# What stands before a comment

A comment starts at the first `#` outside literals. Here is the grammar of what stands before it:
code (`IsCode`) is put together from closed literals, in which a backslash takes the next character
with it, and characters that are neither a quote nor a `#`. A comment starts at a `#` if and only if
code stands before it (`findComment_eq_some_iff`).

The scan is followed backwards. What it has still to read from a state until it is outside literals,
with no comment on the way, is `QuoteState.Completes`, and one character more is one step of the
scan (`QuoteState.completes_cons_iff`). The same law says that code may be cut off at any place in
it that has code before it (`IsCode.append_iff`); so a literal has no say in where a comment starts,
except that there is none behind a quote that opens a literal which is not closed.

Nothing is said here about what a comment asks for: that is up to `Directive.ofComment?`.
-/

namespace RuleLint

open Construct Cursor

/-! ### The grammar -/

/-- Texts in which literals are closed and no `#` is outside them. -/
inductive IsCode : List Char → Prop
  | nil : IsCode []
  | single {x : Char} {cs : List Char} (hquote : x ≠ '"') (hsign : x ≠ '#') (rest : IsCode cs) :
      IsCode (x :: cs)
  | literal {content cs : List Char} (hcontent : Escaped content) (rest : IsCode cs) :
      IsCode ('"' :: (content ++ '"' :: cs))

/-- Texts that close the literal that is open in a state, with code behind it. -/
def QuoteState.Completes : QuoteState → List Char → Prop
  | .outside, cs => IsCode cs
  | .inside, cs => ∃ content rest, cs = content ++ '"' :: rest ∧ Escaped content ∧ IsCode rest
  | .escaped, cs => ∃ x content rest, cs = x :: (content ++ '"' :: rest) ∧ Escaped content ∧
      IsCode rest

namespace QuoteState

variable {quotes : QuoteState} {x : Char} {cs ds : List Char}

theorem completes_outside_cons_iff :
    outside.Completes (x :: cs) ↔ x ≠ '#' ∧ (outside.step x).Completes cs := by
  constructor
  · intro h
    cases h with
    | single hquote hsign hrest =>
      rw [step, if_neg hquote]
      exact ⟨hsign, hrest⟩
    | literal hcontent hrest => exact ⟨by decide, _, _, rfl, hcontent, hrest⟩
  · rintro ⟨hsign, h⟩
    by_cases hquote : x = '"'
    · subst hquote
      obtain ⟨content, rest, rfl, hcontent, hrest⟩ := h
      exact .literal hcontent hrest
    · rw [step, if_neg hquote] at h
      exact .single hquote hsign h

theorem completes_inside_cons_iff :
    inside.Completes (x :: cs) ↔ (inside.step x).Completes cs := by
  constructor
  · rintro ⟨content, rest, hparts, hcontent, hrest⟩
    cases hcontent with
    | nil =>
      obtain ⟨rfl, rfl⟩ := List.cons.inj hparts
      exact hrest
    | plain hquote hbackslash hcontent =>
      obtain ⟨rfl, rfl⟩ := List.cons.inj hparts
      rw [step, if_neg hquote, if_neg hbackslash]
      exact ⟨_, _, rfl, hcontent, hrest⟩
    | escape hcontent =>
      obtain ⟨rfl, rfl⟩ := List.cons.inj hparts
      exact ⟨_, _, _, rfl, hcontent, hrest⟩
  · intro h
    by_cases hquote : x = '"'
    · subst hquote
      exact ⟨[], cs, rfl, .nil, h⟩
    · by_cases hbackslash : x = '\\'
      · subst hbackslash
        obtain ⟨y, content, rest, rfl, hcontent, hrest⟩ := h
        exact ⟨'\\' :: y :: content, rest, rfl, .escape hcontent, hrest⟩
      · rw [step, if_neg hquote, if_neg hbackslash] at h
        obtain ⟨content, rest, rfl, hcontent, hrest⟩ := h
        exact ⟨x :: content, rest, rfl, .plain hquote hbackslash hcontent, hrest⟩

theorem completes_escaped_cons_iff :
    escaped.Completes (x :: cs) ↔ inside.Completes cs := by
  constructor
  · rintro ⟨y, content, rest, hparts, hcontent, hrest⟩
    obtain ⟨rfl, rfl⟩ := List.cons.inj hparts
    exact ⟨content, rest, rfl, hcontent, hrest⟩
  · rintro ⟨content, rest, rfl, hcontent, hrest⟩
    exact ⟨x, content, rest, rfl, hcontent, hrest⟩

/-- **One character more is one step of the scan**, if no comment starts there. -/
theorem completes_cons_iff :
    quotes.Completes (x :: cs) ↔
      ¬(quotes = .outside ∧ x = '#') ∧ (quotes.step x).Completes cs := by
  cases quotes with
  | outside => simp [completes_outside_cons_iff]
  | inside => simp [completes_inside_cons_iff]
  | escaped => simp [completes_escaped_cons_iff, step]

theorem completes_nil_iff : quotes.Completes [] ↔ quotes = .outside := by
  constructor
  · intro h
    cases quotes with
    | outside => rfl
    | inside =>
      obtain ⟨content, rest, hparts, -⟩ := h
      simp at hparts
    | escaped =>
      obtain ⟨x, content, rest, hparts, -⟩ := h
      cases hparts
  · rintro rfl
    exact .nil

/-- A scan is inside a literal before its content and after it. -/
theorem completes_append_iff_of_escaped (h : Escaped cs) :
    inside.Completes (cs ++ ds) ↔ inside.Completes ds := by
  induction h with
  | nil => exact Iff.rfl
  | plain hquote hbackslash _ ih =>
    rw [List.cons_append, completes_inside_cons_iff, step, if_neg hquote, if_neg hbackslash, ih]
  | escape _ ih =>
    rw [List.cons_append, completes_inside_cons_iff, List.cons_append]
    exact completes_escaped_cons_iff.trans ih

end QuoteState

open QuoteState

/-- **Code is cut anywhere behind code.** -/
theorem IsCode.append_iff {cs ds : List Char} (h : IsCode cs) : IsCode (cs ++ ds) ↔ IsCode ds := by
  induction h with
  | nil => exact Iff.rfl
  | @single x cs hquote hsign _ ih =>
    have hcons := @completes_outside_cons_iff x (cs ++ ds)
    rw [step, if_neg hquote] at hcons
    exact (hcons.trans (and_iff_right hsign)).trans ih
  | @literal content cs hcontent _ ih =>
    have hopen := @completes_outside_cons_iff '"' (content ++ ('"' :: (cs ++ ds)))
    have hclose := @completes_inside_cons_iff '"' (cs ++ ds)
    rw [List.cons_append, List.append_assoc]
    exact ((hopen.trans (and_iff_right (by decide))).trans
      (completes_append_iff_of_escaped hcontent)).trans (hclose.trans ih)

theorem not_isCode_cons_sign (cs : List Char) : ¬IsCode ('#' :: cs) :=
  fun h ↦ (completes_outside_cons_iff.1 h).1 rfl

/-! ### The scan for comments -/

section Scan

variable {quotes : QuoteState} {before after : List Char} {c : Cursor}

/-- The scan stops at a `#` behind a text that completes its state. The induction is on what is
ahead, so that each step of the scan is one of the grammar. -/
theorem commentFrom_eq_some_iff :
    commentFrom quotes before after = some c ↔
      ∃ cs, Reads ⟨before, after⟩ cs c ∧ c.after.head? = some '#' ∧ quotes.Completes cs := by
  induction after generalizing quotes before with
  | nil =>
    refine iff_of_false nofun ?_
    rintro ⟨cs, hreads, hsign, -⟩
    obtain ⟨-, hafter⟩ := List.append_eq_nil_iff.1 hreads.after_eq.symm
    rw [hafter] at hsign
    cases hsign
  | cons x after ih =>
    rw [commentFrom]
    by_cases hstops : quotes = .outside ∧ x = '#'
    · rw [if_pos (by simpa using hstops)]
      obtain ⟨rfl, rfl⟩ := hstops
      constructor
      · intro h
        obtain rfl := Option.some.inj h
        exact ⟨[], .refl _, rfl, .nil⟩
      -- No code goes over a `#`, so nothing has been read.
      · rintro ⟨cs, hreads, -, hcode⟩
        cases cs with
        | nil => rw [hreads.unique (.refl _)]
        | cons y cs =>
          obtain ⟨rfl, -⟩ := hreads.of_cons
          exact absurd hcode (not_isCode_cons_sign cs)
    · rw [if_neg (by simpa using hstops), ih]
      constructor
      · rintro ⟨cs, hreads, hsign, hcompletes⟩
        exact ⟨x :: cs, hreads.cons, hsign, completes_cons_iff.2 ⟨hstops, hcompletes⟩⟩
      · rintro ⟨cs, hreads, hsign, hcompletes⟩
        cases cs with
        | nil =>
          obtain rfl := hreads.unique (.refl _)
          exact absurd ⟨completes_nil_iff.1 hcompletes, Option.some.inj hsign⟩ hstops
        | cons y cs =>
          obtain ⟨rfl, hrest⟩ := hreads.of_cons
          exact ⟨cs, hrest, hsign, (completes_cons_iff.1 hcompletes).2⟩

/-- **A comment starts at the `#` that has code before it.** -/
theorem findComment_eq_some_iff {line : List Char} :
    findComment line = some c ↔
      c.text = line ∧ c.after.head? = some '#' ∧ IsCode c.before.reverse := by
  rw [findComment, commentFrom_eq_some_iff]
  constructor
  · rintro ⟨cs, hreads, hsign, hcode⟩
    have hbefore : c.before = cs.reverse := hreads.before_eq.trans (List.append_nil _)
    refine ⟨hreads.text_eq, hsign, ?_⟩
    rw [hbefore, List.reverse_reverse]
    exact hcode
  · rintro ⟨rfl, hsign, hcode⟩
    exact ⟨_, c.reads_atStart, hsign, hcode⟩

end Scan

/-! ### Directives -/

section Directives

variable {line code comment : List Char} {directive : Directive}

theorem Directive.ofLine?_eq_some_iff :
    Directive.ofLine? line = some directive ↔ ∃ code comment, line = code ++ '#' :: comment ∧
      IsCode code ∧ Directive.ofComment? comment = some directive := by
  rw [Directive.ofLine?, Option.bind_eq_bind, Option.bind_eq_some_iff]
  constructor
  · rintro ⟨c, hcomment, hdirective⟩
    obtain ⟨rfl, hsign, hcode⟩ := findComment_eq_some_iff.1 hcomment
    obtain ⟨comment, hafter⟩ := List.head?_eq_some_iff.1 hsign
    refine ⟨c.before.reverse, comment, by rw [Cursor.text, hafter], hcode, ?_⟩
    rwa [hafter] at hdirective
  · rintro ⟨code, comment, rfl, hcode, hdirective⟩
    refine ⟨⟨code.reverse, '#' :: comment⟩, findComment_eq_some_iff.2 ⟨?_, rfl, ?_⟩, hdirective⟩
    · rw [Cursor.text, List.reverse_reverse]
    · rwa [List.reverse_reverse]

/-- **Code at the beginning of a line has no say in its directive.** -/
theorem IsCode.ofLine?_append (hcode : IsCode code) (line : List Char) :
    Directive.ofLine? (code ++ line) = Directive.ofLine? line := by
  ext directive
  rw [Directive.ofLine?_eq_some_iff, Directive.ofLine?_eq_some_iff]
  constructor
  · rintro ⟨code', comment, hparts, hcode', hdirective⟩
    rcases List.append_eq_append_iff.1 hparts with ⟨more, rfl, hline⟩ | ⟨more, rfl, hline⟩
    · exact ⟨more, comment, hline, hcode.append_iff.1 hcode', hdirective⟩
    · cases more with
      | nil => exact ⟨[], comment, hline.symm, .nil, hdirective⟩
      | cons x more =>
        obtain ⟨rfl, -⟩ := List.cons.inj hline
        exact absurd (hcode'.append_iff.1 hcode) (not_isCode_cons_sign more)
  · rintro ⟨code', comment, rfl, hcode', hdirective⟩
    exact ⟨code ++ code', comment, (List.append_assoc _ _ _).symm, hcode.append_iff.2 hcode',
      hdirective⟩

theorem ofLine?_cons_sign (comment : List Char) :
    Directive.ofLine? ('#' :: comment) = Directive.ofComment? comment := rfl

/-- A literal that is not closed goes on to the end of the line. -/
theorem ofLine?_of_unclosed {part : List Char}
    (hopen : ∀ content rest, part = content ++ '"' :: rest → ¬Escaped content) :
    Directive.ofLine? ('"' :: part) = none := by
  refine Option.eq_none_iff_forall_ne_some.2 fun directive h ↦ ?_
  obtain ⟨code, comment, hparts, hcode, -⟩ := Directive.ofLine?_eq_some_iff.1 h
  cases hcode with
  | nil => cases hparts
  | single hquote => exact hquote (List.cons.inj hparts).1.symm
  | @literal content rest hcontent =>
    refine hopen content (rest ++ '#' :: comment) ?_ hcontent
    simpa using hparts

/-- The directives of a text are where their signs have code before them on the line. -/
theorem Cursor.directs_iff {c : Cursor} :
    c.Directs directive ↔ c.after.head? = some '#' ∧ IsCode c.lineBefore.reverse ∧
      Directive.ofComment? c.lineAfter.tail = some directive := by
  have hsign : c.after.head? = some '#' → c.lineAfter.head? = some '#' := by
    intro h
    obtain ⟨rest, hafter⟩ := List.head?_eq_some_iff.1 h
    rw [lineAfter, hafter]
    rfl
  have hcomment : findComment c.wholeLine = some ⟨c.lineBefore, c.lineAfter⟩ ↔
      c.lineAfter.head? = some '#' ∧ IsCode c.lineBefore.reverse :=
    findComment_eq_some_iff.trans (and_iff_right rfl)
  constructor
  · intro h
    exact ⟨h.sign, (hcomment.1 h.comment).2, h.content⟩
  · rintro ⟨hhead, hcode, hcontent⟩
    exact ⟨hhead, hcomment.2 ⟨hsign hhead, hcode⟩, hcontent⟩

end Directives

/-- **A comment starts just where code ends in a `#`.** There is none if no `#` has code before it.
So behind code a directive is always read, what is in a closed literal has no say in the directive
of a line, and behind the opening quote of one that is not closed there is none. A finding is
silenced just if a directive silences it that has code before it on its line. -/
theorem comment_starts_behind_code (line : List Char) :
    (∀ offset, (findComment line).map Cursor.offset = some offset ↔
      ∃ code rest, line = code ++ '#' :: rest ∧ byteLength code = offset ∧ IsCode code) ∧
    (findComment line = none ↔ ∀ code rest, line = code ++ '#' :: rest → ¬IsCode code) ∧
    (∀ code, IsCode code →
      (∀ comment, Directive.ofLine? (code ++ '#' :: comment) = Directive.ofComment? comment) ∧
      (∀ content rest, Escaped content →
        Directive.ofLine? (code ++ '"' :: (content ++ '"' :: rest)) = Directive.ofLine? rest) ∧
      ∀ part, (∀ content rest, part = content ++ '"' :: rest → ¬Escaped content) →
        Directive.ofLine? (code ++ '"' :: part) = none) ∧
    ∀ (text : List Char) (d : Diagnostic), (Suppressions.ofText text).silences d = true ↔
      ∃ (c : Cursor) (directive : Directive), c.text = text ∧ c.after.head? = some '#' ∧
        IsCode c.lineBefore.reverse ∧ Directive.ofComment? c.lineAfter.tail = some directive ∧
        directive.silences c.line d = true := by
  have hsome : ∀ offset, (findComment line).map Cursor.offset = some offset ↔
      ∃ code rest, line = code ++ '#' :: rest ∧ byteLength code = offset ∧ IsCode code := by
    intro offset
    rw [Option.map_eq_some_iff]
    constructor
    · rintro ⟨c, hcomment, rfl⟩
      obtain ⟨rfl, hsign, hcode⟩ := findComment_eq_some_iff.1 hcomment
      obtain ⟨rest, hafter⟩ := List.head?_eq_some_iff.1 hsign
      exact ⟨c.before.reverse, rest, by rw [Cursor.text, hafter], byteLength_reverse _, hcode⟩
    · rintro ⟨code, rest, rfl, rfl, hcode⟩
      refine ⟨⟨code.reverse, '#' :: rest⟩, findComment_eq_some_iff.2 ⟨?_, rfl, ?_⟩,
        byteLength_reverse _⟩
      · rw [Cursor.text, List.reverse_reverse]
      · rwa [List.reverse_reverse]
  refine ⟨hsome, ?_, fun code hcode ↦ ⟨fun comment ↦ ?_, fun content rest hcontent ↦ ?_,
    fun part hopen ↦ ?_⟩, fun text d ↦ ?_⟩
  · rw [← Option.map_eq_none_iff (f := Cursor.offset), Option.eq_none_iff_forall_ne_some]
    constructor
    · intro hnone code rest hline hcode
      exact hnone _ ((hsome _).2 ⟨code, rest, hline, rfl, hcode⟩)
    · intro hnone offset h
      obtain ⟨code, rest, hline, -, hcode⟩ := (hsome offset).1 h
      exact hnone code rest hline hcode
  · rw [hcode.ofLine?_append, ofLine?_cons_sign]
  · have hliteral : IsCode ('"' :: (content ++ ['"'])) := .literal hcontent .nil
    have hdropped := hliteral.ofLine?_append rest
    rw [hcode.ofLine?_append, ← hdropped, List.cons_append, List.append_assoc]
    rfl
  · rw [hcode.ofLine?_append, ofLine?_of_unclosed hopen]
  · rw [Suppressions.silences_ofText_iff]
    simp only [Cursor.directs_iff, and_assoc]

/-- Signs in a literal behind an escaped quote, behind that literal, and in a literal that is not
closed. -/
theorem comment_starts_behind_literals :
    let sign := "# xplint-disable".toList
    let content := '\\' :: '"' :: sign
    let code := '=' :: '"' :: (content ++ ['"'])
    Escaped content ∧ IsCode code ∧
      (findComment (code ++ sign)).map Cursor.offset = some 21 ∧
      Directive.ofLine? (code ++ sign) = some (.document .all) ∧
      Directive.ofLine? ('=' :: '"' :: (content ++ '"' :: "# b".toList)) = none ∧
      Directive.ofLine? (code ++ '"' :: sign) = none := by
  intro sign content code
  have hplain : (sign.all fun x ↦ x != '"' && x != '\\') = true := by decide
  have hcontent : Escaped content := .escape <| escaped_of_forall fun x hx ↦ by
    simpa using List.all_eq_true.1 hplain x hx
  have hfirst : IsCode ['='] := .single (by decide) (by decide) .nil
  have hcode : IsCode code := hfirst.append_iff.2 (.literal hcontent .nil)
  obtain ⟨hstart, -, hlaws, -⟩ := comment_starts_behind_code (code ++ sign)
  refine ⟨hcontent, hcode, (hstart 21).2 ⟨code, sign.tail, rfl, by decide, hcode⟩, ?_, ?_, ?_⟩
  · exact ((hlaws code hcode).1 sign.tail).trans (by decide +kernel)
  · exact ((hlaws _ hfirst).2.1 content _ hcontent).trans (by decide +kernel)
  · refine (hlaws code hcode).2.2 sign fun content rest hparts _ ↦ ?_
    have hquote : '"' ∈ sign := by
      rw [hparts]
      exact List.mem_append_right content List.mem_cons_self
    exact absurd hquote (by decide)

end RuleLint
