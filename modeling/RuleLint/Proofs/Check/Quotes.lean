import RuleLint.Proofs.Check.Comments
import RuleLint.Proofs.Check.Limits
import RuleLint.Proofs.Text.Literals
import RuleLint.Proofs.Text.Surroundings

/-!
# Findings and the literals of their lines

The scan for comments knows at each place of a line whether it is in a literal (`Cursor.quotes`).
The patterns of the checks do not: they begin anywhere, and take any quote for the opening one of a
literal.

Text without quotes does not lead into a literal nor out of one, and each construct has such text
between its start, its signs and its literal. So where the literals of the line are closed and no
sign of the construct stands in a literal (`Clear`), a finding starts outside literals and its
literal begins at an opening quote (`starts_outside_literals`). A sign in a literal can be taken for
one of the code (`starts_inside_literal`).

In a line without escapes and comments this can be seen by counting: an even number of quotes in the
line, and an even number before each sign (`TidyLine`). If every line of the text is like this, no
construct has to be looked at (`HasLiteral.clear_of_tidyLines`).

A literal that comes first has no sign before it: here the quote must not be escaped, and no comment
may begin in what is read as the literal. And the word before `=` in a filter may have quotes, so
that it can begin in a literal; nothing is claimed about such words.
-/

namespace RuleLint

open Cursor Construct

/-! ### Quotes in a line -/

namespace QuoteState

theorem steps_append (quotes : QuoteState) (cs ds : List Char) :
    quotes.steps (cs ++ ds) = (quotes.steps cs).steps ds :=
  List.foldl_append

/-- Text without quotes does not lead into a literal nor out of one. -/
theorem steps_eq_outside_iff {cs : List Char} (hcs : '"' ∉ cs) (quotes : QuoteState) :
    quotes.steps cs = .outside ↔ quotes = .outside := by
  induction cs generalizing quotes with
  | nil => rfl
  | cons c cs ih =>
    obtain ⟨hc, hcs⟩ := List.ne_and_not_mem_of_not_mem_cons hcs
    rw [steps_cons, ih hcs]
    refine ⟨fun h ↦ ?_, fun h ↦ ?_⟩
    · by_contra hin
      exact hc (eq_of_step_outside hin h).2.symm
    · rw [h, step, if_neg hc.symm]

/-- Without escapes a scan is outside literals after an even number of quotes. -/
theorem steps_of_unescaped {cs : List Char} (hcs : '\\' ∉ cs) :
    outside.steps cs = if Even (cs.count '"') then .outside else .inside := by
  induction cs using List.reverseRecOn with
  | nil => rfl
  | append_singleton cs c ih =>
    obtain ⟨hcs, hback⟩ : '\\' ∉ cs ∧ c ≠ '\\' := by
      simpa [not_or, eq_comm] using hcs
    rw [steps_concat, ih hcs, List.count_append]
    by_cases hquote : c = '"'
    · subst hquote
      by_cases heven : Even (cs.count '"') <;> simp [Nat.even_add_one, heven, step]
    · by_cases heven : Even (cs.count '"') <;> simp [heven, step, hquote, hback]

end QuoteState

/-- Where the scan for comments stands behind a first part of a line. A comment ends it, and in a
comment there are no literals. -/
def lineQuotes (line : List Char) : QuoteState :=
  if (findComment line).isSome then .outside else QuoteState.outside.steps line

theorem isSome_commentFrom_append {quotes : QuoteState} {before cs : List Char}
    (h : (commentFrom quotes before cs).isSome = true) (ds : List Char) :
    (commentFrom quotes before (cs ++ ds)).isSome = true := by
  induction cs generalizing quotes before with
  | nil => cases h
  | cons c cs ih =>
    rw [commentFrom] at h
    rw [List.cons_append, commentFrom]
    split
    · rfl
    · rename_i hcode
      rw [if_neg hcode] at h
      exact ih h

theorem lineQuotes_append_iff {cs : List Char} (hcs : '"' ∉ cs) (line : List Char) :
    lineQuotes (line ++ cs) = .outside ↔ lineQuotes line = .outside := by
  cases hcomment : findComment line with
  | some comment =>
    have hsome : (findComment (line ++ cs)).isSome = true :=
      isSome_commentFrom_append (by rw [← findComment, hcomment]; rfl) cs
    rw [lineQuotes, lineQuotes, if_pos hsome, if_pos (by rw [hcomment]; rfl)]
  | none =>
    have hsteps : lineQuotes line = QuoteState.outside.steps line := if_neg (by simp [hcomment])
    have hscan : findComment (line ++ cs) =
        commentFrom (QuoteState.outside.steps line) (line.reverse ++ []) cs :=
      commentFrom_append hcomment cs
    rw [hsteps, lineQuotes]
    split
    · -- a comment can only begin outside literals
      rename_i hsome
      refine iff_of_true rfl ?_
      by_contra hin
      rw [hscan, commentFrom_of_inside hin, closingFrom_eq_none hin hcs] at hsome
      cases hsome
    · rw [QuoteState.steps_append, QuoteState.steps_eq_outside_iff hcs]

theorem lineQuotes_of_even {line : List Char} (hline : '\\' ∉ line)
    (heven : Even (line.count '"')) : lineQuotes line = .outside := by
  rw [lineQuotes, QuoteState.steps_of_unescaped hline, if_pos heven, ite_self]

theorem lineQuotes_of_unquoted {line : List Char} (hline : '"' ∉ line) :
    lineQuotes line = .outside :=
  (lineQuotes_append_iff hline []).2 rfl

namespace Construct

/-- Text without quotes. -/
def unquoted : Language Char :=
  many (· != '"')

theorem many_le_unquoted {p : Char → Bool} (hp : p '"' = false) : many p ≤ unquoted := by
  intro cs hcs x hx
  rw [bne_iff_ne]
  rintro rfl
  rw [hcs _ hx] at hp
  cases hp

theorem several_le_unquoted {p : Char → Bool} (hp : p '"' = false) : several p ≤ unquoted :=
  fun _ hcs ↦ many_le_unquoted hp hcs.2

theorem oneOf_le_unquoted {words : List String} (hwords : ∀ w ∈ words, '"' ∉ w.toList) :
    oneOf words ≤ unquoted := by
  rintro _ ⟨w, hw, rfl⟩ x hx
  rw [bne_iff_ne]
  rintro rfl
  exact hwords w hw hx

theorem said_le_unquoted {w : String} (hw : '"' ∉ w.toList) : said w ≤ unquoted := by
  rintro _ rfl x hx
  rw [bne_iff_ne]
  rintro rfl
  exact hw hx

theorem mark_le_unquoted {x : Char} (hx : x ≠ '"') : mark x ≤ unquoted := by
  rintro _ rfl y hy
  rw [List.mem_singleton.1 hy, bne_iff_ne]
  exact hx

theorem mul_le_unquoted {l m : Language Char} (hl : l ≤ unquoted) (hm : m ≤ unquoted) :
    l * m ≤ unquoted := by
  rintro _ ⟨cs, hcs, ds, hds, rfl⟩ x hx
  rcases List.mem_append.1 hx with hx | hx
  · exact hl hcs x hx
  · exact hm hds x hx

theorem blanks_le_unquoted : blanks ≤ unquoted :=
  many_le_unquoted not_isBlank_quote

theorem feed_notMem_literal {contents : Language Char} {cs : List Char}
    (h : cs ∈ literal contents) : '\n' ∉ cs := by
  obtain ⟨_, ⟨_, rfl, content, ⟨-, hcontent⟩, rfl⟩, _, rfl, rfl⟩ := h
  have hmem : '\n' ∉ content := fun hmem ↦ (hcontent _ hmem).2 rfl
  simpa using hmem

end Construct

namespace Cursor

/-- Where the scan for comments stands at a cursor. -/
def quotes (c : Cursor) : QuoteState :=
  lineQuotes c.lineBefore.reverse

/-- Whether the literals of the line of a cursor are closed. -/
def LineCloses (c : Cursor) : Prop :=
  lineQuotes (c.lineBefore.reverse ++ c.lineAfter) = .outside

instance : DecidablePred LineCloses :=
  fun _ ↦ inferInstanceAs (Decidable (_ = _))

variable {c d : Cursor}

/-- Text without quotes that starts outside literals ends there. -/
theorem Spells.quotes_of_start (h : c.Spells unquoted d) (hc : c.quotes = .outside) :
    d.quotes = .outside := by
  obtain ⟨cs, hcs, hreads⟩ := h
  have hquote : '"' ∉ cs := fun hmem ↦ by simpa using hcs _ hmem
  by_cases hfeed : '\n' ∈ cs
  · exact lineQuotes_of_unquoted fun hmem ↦
      hquote (hreads.mem_of_mem_lineBefore hfeed (List.mem_reverse.1 hmem))
  · rw [quotes, hreads.lineBefore_eq hfeed, List.reverse_append, List.reverse_reverse]
    exact (lineQuotes_append_iff hquote _).2 hc

/-- Text without quotes that ends outside literals starts there, if the literals of the line in
which it starts are closed. -/
theorem Spells.quotes_of_stop (h : c.Spells unquoted d) (hcloses : c.LineCloses)
    (hd : d.quotes = .outside) : c.quotes = .outside := by
  obtain ⟨cs, hcs, hreads⟩ := h
  have hquote : '"' ∉ cs := fun hmem ↦ by simpa using hcs _ hmem
  by_cases hfeed : '\n' ∈ cs
  · have hline : '"' ∉ c.lineAfter := fun hmem ↦ hquote (hreads.mem_of_mem_lineAfter hfeed hmem)
    exact (lineQuotes_append_iff hline _).1 hcloses
  · rw [quotes, hreads.lineBefore_eq hfeed, List.reverse_append, List.reverse_reverse] at hd
    exact (lineQuotes_append_iff hquote _).1 hd

theorem LineCloses.of_reads {cs : List Char} (h : c.LineCloses) (hreads : c.Reads cs d)
    (hfeed : '\n' ∉ cs) : d.LineCloses := by
  rw [LineCloses, hreads.lineAfter_eq hfeed] at h
  rw [LineCloses, hreads.lineBefore_eq hfeed, List.reverse_append, List.reverse_reverse,
    List.append_assoc]
  exact h

/-- A literal between two quotes behind which a scan is in code begins outside literals, if its
first quote is not escaped. -/
theorem quotes_of_literal (h : c.Spells (literal ⊤) d)
    (hunescaped : c.quotes ≠ .escaped) (hcomment : findComment d.lineBefore.reverse = none)
    (hd : d.quotes = .outside) : c.quotes = .outside := by
  obtain ⟨_, ⟨_, ⟨_, rfl, content, ⟨-, hcontent⟩, rfl⟩, _, rfl, rfl⟩, hreads⟩ := h
  have hquote : '"' ∉ content := fun hmem ↦ (hcontent _ hmem).1 rfl
  have hfeed : '\n' ∉ ['"'] ++ content ++ ['"'] :=
    @feed_notMem_literal ⊤ _ ⟨_, ⟨_, rfl, content, ⟨trivial, hcontent⟩, rfl⟩, _, rfl, rfl⟩
  have hline : d.lineBefore.reverse = c.lineBefore.reverse ++ (['"'] ++ content ++ ['"']) := by
    rw [Reads.lineBefore_eq hreads hfeed, List.reverse_append, List.reverse_reverse]
  have hbefore : findComment c.lineBefore.reverse = none := by
    rw [← Option.not_isSome_iff_eq_none]
    intro hsome
    have hlater := isSome_commentFrom_append hsome (['"'] ++ content ++ ['"'])
    rw [← findComment, ← hline, hcomment] at hlater
    cases hlater
  have hquotes : c.quotes = QuoteState.outside.steps c.lineBefore.reverse :=
    if_neg (by simp [hbefore])
  have hsteps : d.quotes = QuoteState.outside.steps d.lineBefore.reverse :=
    if_neg (by simp [hcomment])
  rw [hsteps, hline, QuoteState.steps_append, ← hquotes, QuoteState.steps_concat,
    QuoteState.steps_append] at hd
  cases hstate : c.quotes with
  | outside => rfl
  | inside =>
    -- the first quote would close a literal and the second one open another
    rw [hstate] at hd
    have hbetween : (QuoteState.inside.steps ['"']).steps content = .outside :=
      (QuoteState.steps_eq_outside_iff hquote _).2 rfl
    rw [hbetween] at hd
    cases hd
  | escaped => exact absurd hstate hunescaped

end Cursor

/-! ### Signs and literals -/

namespace Construct

/-- The signs of the constructs with a literal. -/
def signs : Rule → List Char
  | .lowerComparisonCase => ['(', ')']
  | .nestedLowerCase => ['(', ')']
  | .numberToStringConcat => ['+']
  | .filterSingleEquals => ['=']
  | _ => []

/-- Whether a construct with a literal from `opening` to `closing` is kept apart from the literals
around it. The signs that count are those with no quotes between them and the start or the
literal. -/
structure Clear (rule : Rule) (start opening closing stop : Cursor) : Prop where
  /-- The line in which it starts closes its literals. -/
  closes : start.LineCloses
  /-- No sign that follows the start stands in a literal. -/
  ahead : ∀ e, ∀ x ∈ signs rule, start.Spells unquoted e → e.Spells (mark x * ⊤) opening →
    e.quotes = .outside
  /-- No sign that the literal follows stands in a literal. -/
  behind : ∀ e, ∀ x ∈ signs rule, start.Spells ⊤ e → e.Spells (mark x * unquoted) opening →
    e.quotes = .outside
  /-- No sign that follows the literal stands in a literal. -/
  after : ∀ e, ∀ x ∈ signs rule, closing.Spells unquoted e → e.Spells (mark x * ⊤) stop →
    e.quotes = .outside
  /-- A literal at the start is not opened by an escaped quote, and no comment begins in it. -/
  first : opening = start → start.quotes ≠ .escaped ∧ findComment closing.lineBefore.reverse = none
  /-- The word in a filter has no quotes. -/
  word : rule = .filterSingleEquals → start.Spells unquoted opening

variable {rule : Rule} {start opening closing stop : Cursor}

theorem ne_quote_of_mem_signs {x : Char} (h : x ∈ signs rule) : x ≠ '"' := by
  rintro rfl
  revert h
  cases rule <;> decide

theorem ne_feed_of_mem_signs {x : Char} (h : x ∈ signs rule) : x ≠ '\n' := by
  rintro rfl
  revert h
  cases rule <;> decide

/-- A construct that starts without quotes up to a sign. -/
theorem Clear.quotes_start {l : Language Char} {e : Cursor} {x : Char}
    (h : Clear rule start opening closing stop) (hx : x ∈ signs rule)
    (hfirst : start.Spells unquoted e) (hrest : e.Spells (mark x * l) opening) :
    start.quotes = .outside :=
  hfirst.quotes_of_stop h.closes
    (h.ahead e x hx hfirst (hrest.mono (mul_le_mul_right le_top _)))

/-- A construct without quotes from a sign up to its literal. -/
theorem Clear.quotes_opening {l : Language Char} {e : Cursor} {x : Char}
    (h : Clear rule start opening closing stop) (hx : x ∈ signs rule)
    (hfirst : start.Spells ⊤ e) (hl : l ≤ unquoted) (hrest : e.Spells (mark x * l) opening) :
    opening.quotes = .outside := by
  have hsign := h.behind e x hx hfirst (hrest.mono (mul_le_mul_right hl _))
  refine (hrest.mono ?_).quotes_of_start hsign
  exact mul_le_unquoted (mark_le_unquoted (ne_quote_of_mem_signs hx)) hl

/-! ### Constructs -/

/-- The call of `lower` from its closing parenthesis on. -/
theorem exists_close {l : Language Char} (h : start.Spells (lowered * l) opening) :
    ∃ e, start.Spells ⊤ e ∧ e.Spells (mark ')' * l) opening := by
  obtain ⟨d, hlowered, hrest⟩ := h.exists_mid
  obtain ⟨e, hfirst, hclose⟩ := hlowered.exists_mid
  exact ⟨e, hfirst.mono le_top, hclose.mul hrest⟩

/-- Whether a construct has a literal between two cursors, at its start or at its end. -/
structure HasLiteral (start opening closing stop : Cursor) : Prop where
  before : start.Spells ⊤ opening
  literal : opening.Spells (literal ⊤) closing
  after : closing.Spells ⊤ stop
  atEnd : opening = start ∨ closing = stop

theorem literal_le (contents : Language Char) : literal contents ≤ literal ⊤ :=
  mul_le_mul' (mul_le_mul' le_rfl (inf_le_inf_right _ le_top)) le_rfl

theorem literal_of_comparison {contents : Language Char}
    (h : start.Spells (comparison contents) stop) :
    ∃ opening closing, HasLiteral start opening closing stop ∧
      (Clear .lowerComparisonCase start opening closing stop →
        start.quotes = .outside ∧ opening.quotes = .outside) := by
  obtain ⟨opening, h, hliteral⟩ := h.exists_mid
  refine ⟨opening, stop, ⟨h.mono le_top, hliteral.mono (literal_le _),
    (spells_refl _).mono le_top, .inr rfl⟩, fun hclear ↦ ⟨?_, ?_⟩⟩
  · simp only [lowered, mul_assoc] at h
    obtain ⟨d, hword, h⟩ := h.exists_mid
    obtain ⟨e, hpad, h⟩ := h.exists_mid
    have hfirst := (hword.mul hpad).mono
      (mul_le_unquoted (said_le_unquoted (by decide)) blanks_le_unquoted)
    exact hclear.quotes_start (by simp [signs]) hfirst h
  · rw [mul_assoc, mul_assoc] at h
    obtain ⟨e, hfirst, h⟩ := exists_close h
    refine hclear.quotes_opening (by simp [signs]) hfirst ?_ h
    exact mul_le_unquoted blanks_le_unquoted
      (mul_le_unquoted (oneOf_le_unquoted (by decide)) blanks_le_unquoted)

theorem literal_of_loweredCall {function : String} {contents : Language Char}
    (hfunction : '"' ∉ function.toList) (h : start.Spells (loweredCall function contents) stop) :
    ∃ opening closing, HasLiteral start opening closing stop ∧
      (Clear .nestedLowerCase start opening closing stop →
        start.quotes = .outside ∧ opening.quotes = .outside) := by
  obtain ⟨opening, h, hliteral⟩ := h.exists_mid
  refine ⟨opening, stop, ⟨h.mono le_top, hliteral.mono (literal_le _),
    (spells_refl _).mono le_top, .inr rfl⟩, fun hclear ↦ ?_⟩
  simp only [mul_assoc] at h
  obtain ⟨d, hword, h⟩ := h.exists_mid
  obtain ⟨e, hpad, h⟩ := h.exists_mid
  have hfirst := (hword.mul hpad).mono
    (mul_le_unquoted (said_le_unquoted hfunction) blanks_le_unquoted)
  refine ⟨hclear.quotes_start (by simp [signs]) hfirst h, ?_⟩
  obtain ⟨f, hopen, h⟩ := h.exists_mid
  obtain ⟨g, hpad', h⟩ := h.exists_mid
  obtain ⟨k, hargument, h⟩ := exists_close h
  refine hclear.quotes_opening (by simp [signs])
    ((((hfirst.mul hopen).mul hpad').mul hargument).mono le_top) ?_ h
  exact mul_le_unquoted blanks_le_unquoted
    (mul_le_unquoted (mark_le_unquoted (by decide)) blanks_le_unquoted)

/-- The word before the sign may have quotes, so the start is looked at from the literal. -/
theorem literal_of_equation (h : start.Spells (equation (mark '=')) stop) :
    ∃ opening closing, HasLiteral start opening closing stop ∧
      (Clear .filterSingleEquals start opening closing stop →
        start.quotes = .outside ∧ opening.quotes = .outside) := by
  obtain ⟨opening, h, hliteral⟩ := h.exists_mid
  refine ⟨opening, stop, ⟨h.mono le_top, hliteral, (spells_refl _).mono le_top, .inr rfl⟩,
    fun hclear ↦ ?_⟩
  rw [mul_assoc] at h
  obtain ⟨e, hword, h⟩ := h.exists_mid
  have hopening := hclear.quotes_opening (by simp [signs]) (hword.mono le_top)
    (several_le_unquoted not_isBlank_quote) h
  exact ⟨(hclear.word rfl).quotes_of_stop hclear.closes hopening, hopening⟩

theorem IsNumericField.spells (h : IsNumericField start stop) : start.Spells unquoted stop := by
  obtain ⟨c, hsigil, -, hname, -⟩ := h
  refine (hsigil.mul hname).mono (mul_le_unquoted (sup_le ?_ ?_) (sup_le ?_ ?_))
  · rintro _ rfl x hx
    cases hx
  · exact mark_le_unquoted (by decide)
  · exact oneOf_le_unquoted (by decide)
  · exact mul_le_unquoted (said_le_unquoted (by decide)) (several_le_unquoted (by decide))

theorem literal_of_fieldPlusLiteral {c : Cursor} (hfield : IsNumericField start c)
    (h : c.Spells (blanks * mark '+' * blanks * literal ⊤) stop) :
    ∃ opening closing, HasLiteral start opening closing stop ∧
      (Clear .numberToStringConcat start opening closing stop →
        start.quotes = .outside ∧ opening.quotes = .outside) := by
  obtain ⟨opening, h, hliteral⟩ := h.exists_mid
  refine ⟨opening, stop, ⟨(hfield.spells.mul h).mono le_top, hliteral, (spells_refl _).mono le_top,
    .inr rfl⟩, fun hclear ↦ ?_⟩
  rw [mul_assoc] at h
  obtain ⟨e, hpad, h⟩ := h.exists_mid
  have hfirst := (hfield.spells.mul hpad).mono (mul_le_unquoted le_rfl blanks_le_unquoted)
  exact ⟨hclear.quotes_start (by simp [signs]) hfirst h,
    hclear.quotes_opening (by simp [signs]) (hfirst.mono le_top) blanks_le_unquoted h⟩

/-- A literal at the start is looked at from the sign behind it. -/
theorem literal_of_literalPlusField {c : Cursor}
    (h : start.Spells (literal ⊤ * blanks * mark '+' * blanks) c) (hfield : IsNumericField c stop) :
    ∃ opening closing, HasLiteral start opening closing stop ∧
      (Clear .numberToStringConcat start opening closing stop →
        start.quotes = .outside ∧ opening.quotes = .outside) := by
  rw [mul_assoc, mul_assoc] at h
  obtain ⟨closing, hliteral, h⟩ := h.exists_mid
  have hafter := h.mul hfield.spells
  refine ⟨start, closing, ⟨(spells_refl _).mono le_top, hliteral, hafter.mono le_top, .inl rfl⟩,
    fun hclear ↦ ?_⟩
  rw [mul_assoc, mul_assoc] at hafter
  obtain ⟨e, hpad, hafter⟩ := hafter.exists_mid
  have hblanks := hpad.mono blanks_le_unquoted
  have hsign := hclear.after e '+' (by simp [signs]) hblanks
    (hafter.mono (mul_le_mul_right le_top _))
  obtain ⟨hunescaped, hcomment⟩ := hclear.first rfl
  obtain ⟨cs, hcs, hreads⟩ := hliteral
  have hcloses := hclear.closes.of_reads hreads (feed_notMem_literal hcs)
  have houtside := quotes_of_literal ⟨cs, hcs, hreads⟩ hunescaped hcomment
    (hblanks.quotes_of_stop hcloses hsign)
  exact ⟨houtside, houtside⟩

theorem IsInstance.hasLiteral (h : IsInstance start stop rule)
    (hrule : rule ∈ [.lowerComparisonCase, .nestedLowerCase, .numberToStringConcat,
      .filterSingleEquals]) :
    ∃ opening closing, HasLiteral start opening closing stop ∧
      (Clear rule start opening closing stop →
        start.quotes = .outside ∧ opening.quotes = .outside) := by
  cases rule with
  | lowerComparisonCase => exact literal_of_comparison h.2
  | nestedLowerCase =>
    obtain ⟨-, function, hfunction, h⟩ := h
    have hquote : ∀ function ∈ ["find_substr", "match", "regex"], '"' ∉ function.toList := by decide
    exact literal_of_loweredCall (hquote function hfunction) h
  | numberToStringConcat =>
    rcases h with ⟨c, hfield, h⟩ | ⟨c, h, hfield⟩
    · exact literal_of_fieldPlusLiteral hfield h
    · exact literal_of_literalPlusField h hfield
  | filterSingleEquals => exact literal_of_equation h.1
  | _ => simp at hrule

/-! ### Tidy lines -/

/-- Whether a line has neither escapes nor comments, and some signs in code only: the quotes of the
line are even in number, and so are those before each sign. -/
structure TidyLine (signs line : List Char) : Prop where
  unescaped : '\\' ∉ line
  uncommented : '#' ∉ line
  closed : Even (line.count '"')
  inCode : ∀ before, ∀ x ∈ signs, ∀ after, line = before ++ x :: after → Even (before.count '"')

theorem tidyLine_iff {signs line : List Char} :
    TidyLine signs line ↔ '\\' ∉ line ∧ '#' ∉ line ∧ Even (line.count '"') ∧
      ∀ k ∈ List.range line.length, (line.drop k).head?.any (signs.contains ·) = true →
        Even ((line.take k).count '"') := by
  constructor
  · rintro ⟨hunescaped, huncommented, hclosed, hcode⟩
    refine ⟨hunescaped, huncommented, hclosed, fun k _ hsign ↦ ?_⟩
    obtain ⟨x, hhead, hx⟩ := (Option.any_eq_true _ _).1 hsign
    obtain ⟨after, hafter⟩ := List.head?_eq_some_iff.1 hhead
    exact hcode _ x (List.contains_iff_mem.1 hx) after (by rw [← hafter, List.take_append_drop])
  · rintro ⟨hunescaped, huncommented, hclosed, hcode⟩
    refine ⟨hunescaped, huncommented, hclosed, ?_⟩
    rintro before x hx after rfl
    have heven := hcode before.length (by simp) (by simpa using hx)
    rwa [List.take_left] at heven

instance (signs line : List Char) : Decidable (TidyLine signs line) :=
  decidable_of_iff _ tidyLine_iff.symm

section Tidy

variable {c : Cursor} {marks : List Char}

theorem TidyLine.lineCloses (h : TidyLine marks c.wholeLine) : c.LineCloses :=
  lineQuotes_of_even h.unescaped h.closed

theorem TidyLine.findComment_eq_none (h : TidyLine marks c.wholeLine) :
    findComment c.lineBefore.reverse = none := by
  rw [Option.eq_none_iff_forall_ne_some]
  intro d hd
  obtain ⟨htext, hsign, -⟩ := findComment_eq_some_iff.1 hd
  refine h.uncommented (List.mem_append_left _ ?_)
  rw [← htext]
  exact List.mem_append_right _ (List.mem_of_head? hsign)

theorem TidyLine.quotes_ne_escaped (h : TidyLine marks c.wholeLine) : c.quotes ≠ .escaped := by
  have hbefore : '\\' ∉ c.lineBefore.reverse := fun hmem ↦
    h.unescaped (List.mem_append_left _ hmem)
  rw [quotes, lineQuotes, QuoteState.steps_of_unescaped hbefore]
  split_ifs <;> decide

/-- A sign stands outside literals. -/
theorem TidyLine.quotes_of_sign {x : Char} (h : TidyLine marks c.wholeLine)
    (hhead : c.after.head? = some x) (hx : x ∈ marks) (hfeed : x ≠ '\n') :
    c.quotes = .outside := by
  obtain ⟨after, hafter⟩ := List.head?_eq_some_iff.1 hhead
  have hline : c.wholeLine = c.lineBefore.reverse ++ x :: after.takeWhile (· != '\n') := by
    rw [wholeLine, lineAfter, hafter, List.takeWhile_cons_of_pos (by simpa using hfeed)]
  exact lineQuotes_of_even (fun hmem ↦ h.unescaped (List.mem_append_left _ hmem))
    (h.inCode _ x hx _ hline)

end Tidy

/-- **Where the lines of the text are tidy, a construct is kept apart from the literals around
it.** The word in a filter is still to be looked at. -/
theorem HasLiteral.clear_of_tidyLines (h : HasLiteral start opening closing stop)
    (hlines : ∀ line ∈ splitOnChar '\n' start.text, TidyLine (signs rule) line)
    (hword : rule = .filterSingleEquals → start.Spells unquoted opening) :
    Clear rule start opening closing stop := by
  have htidy : ∀ c : Cursor, c.text = start.text → TidyLine (signs rule) c.wholeLine := fun c hc ↦
    hlines _ (hc ▸ List.mem_of_getElem? c.getElem?_pieces_line)
  have hsign : ∀ (e f : Cursor) (l : Language Char), ∀ x ∈ signs rule, e.text = start.text →
      e.Spells (mark x * l) f → e.quotes = .outside := by
    rintro e f l x hx he ⟨_, ⟨_, rfl, _, -, rfl⟩, hreads⟩
    exact (htidy e he).quotes_of_sign hreads.head?_after hx (ne_feed_of_mem_signs hx)
  have hclosing := h.literal.text_eq.trans h.before.text_eq
  exact {
    closes := (htidy start rfl).lineCloses
    ahead := fun e x hx hbefore ↦ hsign e _ _ x hx hbefore.text_eq
    behind := fun e x hx hbefore ↦ hsign e _ _ x hx hbefore.text_eq
    after := fun e x hx hbefore ↦ hsign e _ _ x hx (hbefore.text_eq.trans hclosing)
    first := fun _ ↦ ⟨(htidy start rfl).quotes_ne_escaped,
      (htidy closing hclosing).findComment_eq_none⟩
    word := hword }

end Construct

/-- **Findings start outside literals where no sign stands in one.** A finding of the rules on
constructs with a literal has this literal at its end or at its start. If the line in which it
starts closes its literals and no sign of the construct stands in a literal, the finding starts
outside literals, and so does its literal: the quote there is an opening one. -/
theorem starts_outside_literals {document : Document} {settings : Settings} {config : Config}
    {d : Diagnostic} (hd : d ∈ (lint .standard document settings config).diagnostics)
    (hrule : d.rule ∈ [.lowerComparisonCase, .nestedLowerCase, .numberToStringConcat,
      .filterSingleEquals]) :
    ∃ start opening closing stop, start.text = document.chars ∧
      d.range = ⟨start.position, stop.position⟩ ∧ IsInstance start stop d.rule ∧
      HasLiteral start opening closing stop ∧
      (Clear d.rule start opening closing stop →
        start.quotes = .outside ∧ opening.quotes = .outside) := by
  obtain ⟨start, stop, htext, hrange, hinstance⟩ := exists_instance_of_mem_lint hd
  obtain ⟨opening, closing, hliteral, houtside⟩ := hinstance.hasLiteral hrule
  exact ⟨start, opening, closing, stop, htext, hrange, hinstance, hliteral, houtside⟩

/-- A numeric field and a literal, behind another literal of the line. -/
theorem starts_outside_literals_concatenation :
    let document : Document := ⟨"file:///a.co", "co", 1, "x == \"a\" and count + \" b\""⟩
    let d : Diagnostic :=
      ⟨.numberToStringConcat, .warning, ⟨⟨0, 13⟩, ⟨0, 25⟩⟩, Check.concatenationMessage⟩
    d ∈ (lint .standard document .standard .empty).diagnostics ∧
      d.rule ∈ [.lowerComparisonCase, .nestedLowerCase, .numberToStringConcat,
        .filterSingleEquals] ∧
      ∃ start opening closing stop, start.position = ⟨0, 13⟩ ∧
        HasLiteral start opening closing stop ∧
        Clear .numberToStringConcat start opening closing stop ∧
        start.quotes = .outside ∧ opening.quotes = .outside := by
  intro document d
  have hd : d ∈ (lint .standard document .standard .empty).diagnostics := by decide +kernel
  have hrule : d.rule ∈ [.lowerComparisonCase, .nestedLowerCase, .numberToStringConcat,
      .filterSingleEquals] := by decide
  obtain ⟨start, opening, closing, stop, htext, hrange, -, hliteral, houtside⟩ :=
    starts_outside_literals hd hrule
  have hclear : Clear .numberToStringConcat start opening closing stop :=
    hliteral.clear_of_tidyLines (by rw [htext]; decide +kernel) nofun
  exact ⟨hd, hrule, start, opening, closing, stop, (Range.mk.inj hrange).1.symm, hliteral, hclear,
    houtside hclear⟩

/-- With the sign in a literal, a finding starts in it: the text between two literals is taken for
the literal of a concatenation, which begins at a closing quote. -/
theorem starts_inside_literal :
    let document : Document := ⟨"file:///a.co", "co", 1, "\"count + \" + \"b\""⟩
    let start : Cursor := ⟨"\"".toList, "count + \" + \"b\"".toList⟩
    let closing : Cursor := ⟨" + tnuoc\"".toList, "\" + \"b\"".toList⟩
    start.text = document.chars ∧ closing.text = document.chars ∧ start.LineCloses ∧
      start.quotes = .inside ∧ closing.quotes = .inside ∧
      Check.concatenation start = some ((), ⟨"\" + \" + tnuoc\"".toList, "b\"".toList⟩) ∧
      (quoted closing).map (fun (piece, _) ↦ piece.content) = some " + ".toList ∧
      (lint .standard document .standard .empty).diagnostics.map (fun d ↦ (d.rule, d.range)) =
        [(.numberToStringConcat, ⟨⟨0, 1⟩, ⟨0, 14⟩⟩)] := by
  decide +kernel

end RuleLint
