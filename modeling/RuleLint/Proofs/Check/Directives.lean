import RuleLint.Proofs.Check.Shifted
import RuleLint.Proofs.Text.LineEnd
import RuleLint.Proofs.Text.Literals
import RuleLint.Proofs.Text.Pieces

/-!
# Lines of directives and lines of findings

Lines are counted in two ways. Directives are read from the lines that a text is cut into, where a
carriage return goes with the line feed behind it and an empty last line is left out. Findings are
on the lines of the table of lines, which counts the line feeds before an offset. For directives
the difference does not matter: a comment is the same with a carriage return behind it, and an empty
line has none. So the directives of a text are those of its pieces between line feeds
(`Suppressions.ofText_eq`), and the piece with an index is the line of the cursors with so many line
feeds before them (`Cursor.getElem?_pieces_line`, `Cursor.exists_of_getElem?_pieces`).

That gives both main results, which are put together in `directives_count_lines_alike`: what is
silenced follows from the positions of the comments (`Suppressions.silences_ofText_iff`), and a text
in two parts silences what its parts do, the second one further down (`Suppressions.ofText_append`).
-/

namespace RuleLint

open Cursor

/-! ### Comments and line endings -/

theorem trim_concat_of_isBlank {b : Char} (hb : isBlank b = true) (cs : List Char) :
    trim (cs ++ [b]) = trim cs := by
  rw [trim, trim, trimStart, trimStart, List.dropWhile_append]
  split
  · rename_i hempty
    rw [List.isEmpty_iff.1 hempty, List.dropWhile_cons_of_pos hb, List.dropWhile_nil]
  · rw [trimEnd, trimEnd, List.reverse_append, List.reverse_singleton, List.singleton_append,
      List.dropWhile_cons_of_pos hb]

section Comments

variable {quotes : QuoteState} {before cs : List Char} {c : Cursor}

/-- A comment goes on with what is behind it. -/
theorem commentFrom_append_of_some (h : commentFrom quotes before cs = some c) (ds : List Char) :
    commentFrom quotes before (cs ++ ds) = some ⟨c.before, c.after ++ ds⟩ := by
  induction cs generalizing quotes before with
  | nil => cases h
  | cons x cs ih =>
    rw [commentFrom] at h
    rw [List.cons_append, commentFrom]
    split at h
    · rename_i hsign
      obtain rfl := Option.some.inj h
      exact if_pos hsign
    · rename_i hsign
      rw [if_neg hsign]
      exact ih h

/-- A comment is a part of the line, and starts with its sign. -/
theorem text_of_commentFrom (h : commentFrom quotes before cs = some c) :
    c.text = before.reverse ++ cs ∧ c.after.head? = some '#' := by
  induction cs generalizing quotes before with
  | nil => cases h
  | cons x cs ih =>
    rw [commentFrom] at h
    split at h
    · rename_i hsign
      obtain rfl := Option.some.inj h
      rw [Bool.and_eq_true, beq_iff_eq] at hsign
      exact ⟨rfl, congrArg some hsign.2⟩
    · obtain ⟨htext, hhead⟩ := ih h
      exact ⟨by rw [htext, List.reverse_cons, List.append_assoc]; rfl, hhead⟩

/-- A directive is the same with a carriage return behind it. -/
theorem ofLine?_concat_return (line : List Char) :
    Directive.ofLine? (line ++ ['\r']) = Directive.ofLine? line := by
  rw [Directive.ofLine?, Directive.ofLine?]
  cases hcomment : findComment line with
  | none =>
    have hscan : findComment (line ++ ['\r']) = none := by
      rw [findComment, commentFrom_append hcomment, commentFrom, if_neg (by simp)]
      rfl
    rw [hscan]
  | some c =>
    obtain ⟨before, after⟩ := c
    obtain ⟨rest, rfl⟩ : ∃ rest, after = '#' :: rest :=
      List.head?_eq_some_iff.1 (text_of_commentFrom hcomment).2
    have hscan : findComment (line ++ ['\r']) = _ := commentFrom_append_of_some hcomment ['\r']
    rw [hscan]
    show Directive.ofComment? (rest ++ ['\r']) = Directive.ofComment? rest
    rw [Directive.ofComment?, Directive.ofComment?, trim_concat_of_isBlank isBlank_carriageReturn]

theorem ofLine?_dropReturn (line : List Char) :
    Directive.ofLine? (dropReturn line).reverse = Directive.ofLine? line.reverse := by
  rw [dropReturn.eq_def]
  split
  · rw [List.reverse_cons, ofLine?_concat_return]
  · rfl

end Comments

/-! ### The line of a cursor -/

namespace Cursor

variable {text : List Char} {index : Nat}

/-- The line of a cursor, without its line feed. -/
def wholeLine (c : Cursor) : List Char :=
  c.lineBefore.reverse ++ c.lineAfter

theorem feed_notMem_lineAfter (c : Cursor) : '\n' ∉ c.lineAfter := by
  intro hmem
  simpa using List.all_eq_true.1 List.all_takeWhile '\n' hmem

theorem feed_notMem_wholeLine (c : Cursor) : '\n' ∉ c.wholeLine := by
  rw [wholeLine, List.mem_append, List.mem_reverse, not_or]
  exact ⟨fun hmem ↦ c.ne_of_mem_lineBefore hmem rfl, c.feed_notMem_lineAfter⟩

/-- The characters behind the line of a cursor. -/
theorem exists_lineAfter_append (c : Cursor) :
    ∃ below, c.after = c.lineAfter ++ below ∧ ∀ x ∈ below.head?, x = '\n' := by
  refine ⟨_, List.takeWhile_append_dropWhile.symm, fun x hx ↦ ?_⟩
  have hhead := List.head?_dropWhile_not (· != '\n') c.after
  rw [Option.mem_def.1 hx] at hhead
  simpa using hhead

/-- The text above the line of a cursor, the line, and the text below. -/
theorem exists_text_eq (c : Cursor) :
    ∃ above below, c.text = above ++ (c.wholeLine ++ below) ∧
      (∀ x ∈ above.getLast?, x = '\n') ∧ (∀ x ∈ below.head?, x = '\n') ∧
      above.count '\n' = c.line := by
  obtain ⟨above, hbefore, hhead, hcount⟩ := c.exists_lineBefore_append
  obtain ⟨below, hafter, hbelow⟩ := c.exists_lineAfter_append
  refine ⟨above.reverse, below, ?_, by rwa [List.getLast?_reverse], hbelow,
    by rwa [List.count_reverse]⟩
  conv_lhs => rw [Cursor.text, hbefore, hafter]
  rw [List.reverse_append, wholeLine, List.append_assoc, List.append_assoc]

/-- **The piece with the number of a cursor's line is that line.** -/
theorem getElem?_pieces_line (c : Cursor) :
    (splitOnChar '\n' c.text)[c.line]? = some c.wholeLine := by
  obtain ⟨above, below, htext, habove, hbelow, hcount⟩ := c.exists_text_eq
  obtain ⟨pieces, hlength, hpieces⟩ := splitOnChar_append_of_ends habove (c.wholeLine ++ below)
  rw [hcount] at hlength
  rw [htext, hpieces, List.getElem?_append_right (Nat.le_of_eq hlength), hlength, Nat.sub_self,
    ← List.head?_eq_getElem?, head?_splitOnChar c.feed_notMem_wholeLine hbelow]

/-- Each place in a piece is a place in the text. -/
theorem exists_of_getElem?_pieces {before after : List Char}
    (h : (splitOnChar '\n' text)[index]? = some (before ++ after)) :
    ∃ c : Cursor, c.text = text ∧ c.line = index ∧ c.lineBefore = before.reverse ∧
      c.lineAfter = after := by
  have hindex : index < (splitOnChar '\n' text).length := (List.getElem?_eq_some_iff.1 h).1
  rw [length_splitOnChar] at hindex
  obtain ⟨above, rest, rfl, habove, hcount⟩ := exists_ends_before (Nat.le_of_lt_succ hindex)
  have hstart : (Cursor.mk above.reverse rest).lineBefore = [] :=
    lineBefore_eq_nil fun x hx ↦ habove x (by rwa [List.getLast?_eq_head?_reverse])
  have hline := getElem?_pieces_line ⟨above.reverse, rest⟩
  have hnumber : line ⟨above.reverse, rest⟩ = index := by rw [line, List.count_reverse, hcount]
  rw [hnumber, Cursor.text, List.reverse_reverse, h, wholeLine, hstart] at hline
  have hparts : (Cursor.mk above.reverse rest).lineAfter = before ++ after :=
    (Option.some.inj hline).symm
  obtain ⟨c, hreads, hafter⟩ := exists_reads_of_lineAfter hparts
  have hbefore : '\n' ∉ before := by
    intro hmem
    refine feed_notMem_lineAfter ⟨above.reverse, rest⟩ ?_
    rw [hparts]
    exact List.mem_append_left after hmem
  refine ⟨c, ?_, ?_, ?_, hafter⟩
  · rw [hreads.text_eq, Cursor.text, List.reverse_reverse]
  · rw [hreads.line_eq, hnumber, List.count_eq_zero.2 hbefore, Nat.add_zero]
  · rw [hreads.lineBefore_eq hbefore, hstart, List.append_nil]

/-! ### Lines with a directive -/

/-- The comment of a line starts at the cursor and holds a directive. -/
structure Directs (c : Cursor) (directive : Directive) : Prop where
  sign : c.after.head? = some '#'
  comment : findComment c.wholeLine = some ⟨c.lineBefore, c.lineAfter⟩
  content : Directive.ofComment? c.lineAfter.tail = some directive

variable {c d : Cursor} {directive directive' : Directive}

theorem Directs.ofLine?_eq (h : c.Directs directive) :
    Directive.ofLine? c.wholeLine = some directive := by
  rw [Directive.ofLine?, h.comment]
  exact h.content

theorem exists_directs_of_ofLine? {line : List Char}
    (hpiece : (splitOnChar '\n' text)[index]? = some line)
    (hline : Directive.ofLine? line = some directive) :
    ∃ c : Cursor, c.text = text ∧ c.line = index ∧ c.Directs directive := by
  obtain ⟨⟨before, after⟩, hcomment, hcontent⟩ := Option.bind_eq_some_iff.1 hline
  obtain ⟨htext, hsign⟩ := text_of_commentFrom hcomment
  obtain rfl : before.reverse ++ after = line := htext
  obtain ⟨c, rfl, hnumber, hbefore, hafter⟩ := exists_of_getElem?_pieces hpiece
  rw [List.reverse_reverse] at hbefore
  refine ⟨c, rfl, hnumber, ?_, ?_, by rwa [hafter]⟩
  · obtain ⟨below, hbelow, -⟩ := c.exists_lineAfter_append
    obtain ⟨rest, hrest⟩ := List.head?_eq_some_iff.1 hsign
    rw [hbelow, hafter, show after = '#' :: rest from hrest]
    rfl
  · rw [wholeLine, hbefore, hafter]
    exact hcomment

/-- A line has a single directive. -/
theorem Directs.unique (h : c.Directs directive) (h' : d.Directs directive')
    (htext : c.text = d.text) (hline : c.line = d.line) : directive = directive' := by
  have hsame : some c.wholeLine = some d.wholeLine := by
    rw [← c.getElem?_pieces_line, ← d.getElem?_pieces_line, htext, hline]
  have hdirective := h.ofLine?_eq
  rw [Option.some.inj hsame, h'.ofLine?_eq] at hdirective
  exact (Option.some.inj hdirective).symm

/-! ### Numbers of lines -/

theorem count_le_length_linesFrom (line text : List Char) :
    text.count '\n' ≤ (linesFrom line text).length := by
  induction text generalizing line with
  | nil => exact Nat.zero_le _
  | cons x text ih =>
    rw [linesFrom]
    split
    · rename_i hx
      rw [hx, List.count_cons_self, List.length_cons]
      exact Nat.succ_le_succ (ih [])
    · rename_i hx
      rw [List.count_cons_of_ne hx]
      exact ih (x :: line)

theorem linesFrom_ne_nil {line text : List Char} (h : line ≠ [] ∨ text ≠ []) :
    linesFrom line text ≠ [] := by
  induction text generalizing line with
  | nil =>
    have hline : line.isEmpty = false := by simpa using h
    simp [linesFrom, hline]
  | cons x text ih =>
    rw [linesFrom]
    split
    · exact List.cons_ne_nil _ _
    · exact ih (.inl (List.cons_ne_nil x line))

/-- A line with a directive is one of the lines of the text. -/
theorem Directs.line_lt (h : c.Directs directive) : c.line < (linesOf c.text).length := by
  obtain ⟨above, below, htext, habove, -, hcount⟩ := c.exists_text_eq
  have hrest : c.wholeLine ++ below ≠ [] := by
    intro hnil
    obtain ⟨htext, -⟩ := text_of_commentFrom h.comment
    have hline : c.wholeLine = [] := (List.append_eq_nil_iff.1 hnil).1
    have hcomment := h.comment
    rw [hline] at hcomment
    cases hcomment
  have hsplit : linesOf (above ++ (c.wholeLine ++ below)) =
      linesOf above ++ linesOf (c.wholeLine ++ below) :=
    linesFrom_append_lines [] above _ (fun _ ↦ rfl) habove
  have hlines : 0 < (linesOf (c.wholeLine ++ below)).length :=
    List.length_pos_iff.2 (linesFrom_ne_nil (.inr hrest))
  have habove := count_le_length_linesFrom [] above
  rw [htext, hsplit, List.length_append, ← hcount]
  exact Nat.lt_of_le_of_lt habove (Nat.lt_add_of_pos_right hlines)

end Cursor

/-! ### What directives silence -/

namespace Suppressions

variable {text : List Char}

/-- The directives of a text are those of its pieces between line feeds. The induction generalizes
the part of the line that has been read. -/
theorem addLines_linesFrom (suppressions : Suppressions) (index : Nat) (line text : List Char) :
    suppressions.addLines index (linesFrom line text) =
      suppressions.addLines index (splitOnFrom '\n' line text) := by
  induction text generalizing suppressions index line with
  | nil =>
    rw [linesFrom, splitOnFrom]
    split
    · rename_i hline
      have hnone : Directive.ofLine? [] = Option.none := rfl
      rw [List.isEmpty_iff.1 hline, List.reverse_nil, addLines, addLines, hnone]
      rfl
    · rfl
  | cons x text ih =>
    rw [linesFrom, splitOnFrom]
    split
    · rw [addLines, addLines, ofLine?_dropReturn]
      cases Directive.ofLine? line.reverse with
      | some directive => exact ih _ (index + 1) []
      | none => exact ih _ (index + 1) []
    · exact ih _ index (x :: line)

theorem ofText_eq (text : List Char) : ofText text = none.addLines 0 (splitOnChar '\n' text) :=
  addLines_linesFrom none 0 [] text

/-- What holds of a collection of directives if one of them brings it about. -/
theorem addLines_iff {p : Suppressions → Prop} {q : Nat → Directive → Prop}
    (hadd : ∀ suppressions index directive,
      p (suppressions.add index directive) ↔ p suppressions ∨ q index directive)
    (suppressions : Suppressions) (index : Nat) (lines : List (List Char)) :
    p (suppressions.addLines index lines) ↔ p suppressions ∨
      ∃ (i : Nat) (line : List Char) (directive : Directive), lines[i]? = some line ∧
        Directive.ofLine? line = some directive ∧ q (index + i) directive := by
  induction lines generalizing suppressions index with
  | nil => simp [addLines]
  | cons line lines ih =>
    -- a line is the first one or one of the others
    have hlines : (∃ (i : Nat) (other : List Char) (directive : Directive),
        (line :: lines)[i]? = some other ∧ Directive.ofLine? other = some directive ∧
          q (index + i) directive) ↔
        (∃ directive, Directive.ofLine? line = some directive ∧ q index directive) ∨
          ∃ (i : Nat) (other : List Char) (directive : Directive), lines[i]? = some other ∧
            Directive.ofLine? other = some directive ∧ q (index + 1 + i) directive := by
      constructor
      · rintro ⟨i, other, directive, hother, hdirective, hq⟩
        cases i with
        | zero =>
          obtain rfl := Option.some.inj hother
          exact .inl ⟨directive, hdirective, hq⟩
        | succ i =>
          refine .inr ⟨i, other, directive, hother, hdirective, ?_⟩
          rwa [Nat.add_assoc, Nat.add_comm 1]
      · rintro (⟨directive, hdirective, hq⟩ | ⟨i, other, directive, hother, hdirective, hq⟩)
        · exact ⟨0, line, directive, rfl, hdirective, hq⟩
        · refine ⟨i + 1, other, directive, hother, hdirective, ?_⟩
          rwa [Nat.add_assoc, Nat.add_comm 1] at hq
    rw [addLines, hlines]
    cases hdirective : Directive.ofLine? line with
    | some directive =>
      rw [ih, hadd, or_assoc]
      simp
    | none =>
      rw [ih]
      simp

/-- What the directives of a text bring about, by the places where they are. -/
theorem ofText_iff {p : Suppressions → Prop} {q : Nat → Directive → Prop} (hnone : ¬ p none)
    (hadd : ∀ suppressions index directive,
      p (suppressions.add index directive) ↔ p suppressions ∨ q index directive) :
    p (ofText text) ↔
      ∃ (c : Cursor) (directive : Directive), c.text = text ∧ c.Directs directive ∧
        q c.line directive := by
  rw [ofText_eq, addLines_iff hadd, or_iff_right hnone]
  constructor
  · rintro ⟨i, line, directive, hpiece, hline, hq⟩
    obtain ⟨c, htext, hnumber, hdirects⟩ := exists_directs_of_ofLine? hpiece hline
    refine ⟨c, directive, htext, hdirects, ?_⟩
    rwa [hnumber, ← Nat.zero_add i]
  · rintro ⟨c, directive, rfl, hdirects, hq⟩
    refine ⟨c.line, c.wholeLine, directive, c.getElem?_pieces_line, hdirects.ofLine?_eq, ?_⟩
    rwa [Nat.zero_add]

theorem mem_lines_ofText_iff {entry : UInt32 × Scope} :
    entry ∈ (ofText text).lines ↔
      ∃ c : Cursor, c.text = text ∧ c.Directs (.nextLine entry.2) ∧
        entry.1 = (c.line + 1).toUInt32 := by
  refine (ofText_iff (p := fun suppressions ↦ entry ∈ suppressions.lines)
    (q := fun index directive ↦
      directive = .nextLine entry.2 ∧ entry.1 = (index + 1).toUInt32)
    List.not_mem_nil ?_).trans ?_
  · intro suppressions index directive
    obtain ⟨line, scope⟩ := entry
    cases directive with
    | document scope => cases scope <;> simp [add]
    | nextLine scope' =>
      simp only [add, List.mem_append, List.mem_singleton, Prod.mk.injEq, Directive.nextLine.injEq]
      exact or_congr_right (and_comm.trans (and_congr_left fun _ ↦ eq_comm))
  · constructor
    · rintro ⟨c, directive, htext, hdirects, rfl, hline⟩
      exact ⟨c, htext, hdirects, hline⟩
    · rintro ⟨c, htext, hdirects, hline⟩
      exact ⟨c, _, htext, hdirects, rfl, hline⟩

end Suppressions

/-- Whether a directive in the line with an index silences a finding. -/
def Directive.silences (directive : Directive) (index : Nat) (d : Diagnostic) : Bool :=
  match directive with
  | .document scope => scope.covers d.rule.code
  | .nextLine scope => (index + 1).toUInt32 == d.range.start.line && scope.covers d.rule.code

namespace Suppressions

variable {text : List Char} {d : Diagnostic}

theorem silences_add (suppressions : Suppressions) (index : Nat) (directive : Directive) :
    (suppressions.add index directive).silences d =
      (suppressions.silences d || directive.silences index d) := by
  cases directive with
  | document scope =>
    cases scope with
    | all => simp [add, silences, Directive.silences, Scope.covers]
    | only codes =>
      simp only [add, silences, Directive.silences, Scope.covers, List.contains_append]
      cases suppressions.everything <;> cases suppressions.codes.contains d.rule.code <;>
        simp [Bool.or_comm]
  | nextLine scope => simp [add, silences, Directive.silences, Bool.or_assoc]

/-- **A finding is silenced if one of the directives silences it.** -/
theorem silences_ofText_iff :
    (ofText text).silences d = true ↔
      ∃ (c : Cursor) (directive : Directive), c.text = text ∧ c.Directs directive ∧
        directive.silences c.line d = true :=
  ofText_iff (p := fun suppressions ↦ suppressions.silences d = true)
    (q := fun index directive ↦ directive.silences index d = true) (by simp [silences, none])
    fun suppressions index directive ↦ by rw [silences_add, Bool.or_eq_true]

/-! ### Texts in two parts -/

/-- What one or the other of two collections of directives silences. -/
def union (first second : Suppressions) : Suppressions where
  everything := first.everything || second.everything
  codes := first.codes ++ second.codes
  lines := first.lines ++ second.lines

theorem union_none (suppressions : Suppressions) : suppressions.union none = suppressions := by
  simp [union, none]

theorem union_assoc (first second third : Suppressions) :
    (first.union second).union third = first.union (second.union third) := by
  simp [union, Bool.or_assoc]

theorem add_eq_union (suppressions : Suppressions) (index : Nat) (directive : Directive) :
    suppressions.add index directive = suppressions.union (none.add index directive) := by
  cases directive with
  | document scope => cases scope <;> simp [add, union, none]
  | nextLine scope => simp [add, union, none]

theorem addLines_eq_union (suppressions : Suppressions) (index : Nat) (lines : List (List Char)) :
    suppressions.addLines index lines = suppressions.union (none.addLines index lines) := by
  induction lines generalizing suppressions index with
  | nil => exact (union_none suppressions).symm
  | cons line lines ih =>
    rw [addLines, addLines]
    cases Directive.ofLine? line with
    | some directive =>
      dsimp only
      rw [ih, ih (none.add index directive), add_eq_union, union_assoc]
    | none => exact ih suppressions (index + 1)

/-- **A text in two parts silences what its parts do.** The directives of the second part are as
many lines further down as end in the first part, and one more. -/
theorem ofText_append (first second : List Char) :
    ofText (first ++ '\n' :: second) =
      (ofText first).union ((ofText second).down (first.count '\n' + 1)) := by
  have hdown := down_addLines (first.count '\n' + 1) none 0 (splitOnChar '\n' second)
  rw [Nat.add_zero] at hdown
  rw [ofText_eq, splitOnChar_append, addLines_append, addLines_eq_union, length_splitOnChar,
    Nat.zero_add, ← ofText_eq, ofText_eq second, ← hdown]
  rfl

end Suppressions

/-! ### Both counts of lines -/

/-- The position of the sign of a directive has the number of its line. -/
theorem Cursor.Directs.toNat_line {c : Cursor} {directive : Directive} (h : c.Directs directive)
    (hlines : (linesOf c.text).length < 2 ^ 32) :
    ((LineTable.ofText c.text).position c.offset).line.toNat = c.line := by
  have hlt := h.line_lt
  rw [position_offset]
  exact Nat.mod_eq_of_lt (by omega)

/-- The line after that of a directive, by its position and by its number. -/
theorem Cursor.Directs.next_line_iff {c : Cursor} {directive : Directive} {n : UInt32}
    (h : c.Directs directive) (hlines : (linesOf c.text).length < 2 ^ 32) :
    ((LineTable.ofText c.text).position c.offset).line.toNat + 1 = n.toNat ↔
      n = (c.line + 1).toUInt32 := by
  have hlt := h.line_lt
  have hsucc : ((c.line + 1).toUInt32).toNat = c.line + 1 := Nat.mod_eq_of_lt (by omega)
  rw [h.toNat_line hlines, ← UInt32.toNat_inj, hsucc]
  exact eq_comm

/-- **Directives and findings count lines alike.** In a text of fewer than 2 ^ 32 lines an entry for
a line stands for the one directive whose sign is on the line before, as positions count lines, and
a finding is silenced just if a directive covers its rule and is for the document, or for the next
line and on the line before the one that the finding starts on. A text in two parts, with a line
feed between them, silences what its parts do. -/
theorem directives_count_lines_alike (text : List Char) :
    ((linesOf text).length < 2 ^ 32 →
      (∀ n scope, (n, scope) ∈ (Suppressions.ofText text).lines ↔
        ∃ c : Cursor, c.text = text ∧ c.Directs (.nextLine scope) ∧
          ((LineTable.ofText text).position c.offset).line.toNat + 1 = n.toNat) ∧
      (∀ n scope scope', (n, scope) ∈ (Suppressions.ofText text).lines →
        (n, scope') ∈ (Suppressions.ofText text).lines → scope = scope') ∧
      ∀ d : Diagnostic, (Suppressions.ofText text).silences d = true ↔
        ∃ (c : Cursor) (scope : Scope), c.text = text ∧ scope.covers d.rule.code = true ∧
          (c.Directs (.document scope) ∨ c.Directs (.nextLine scope) ∧
            ((LineTable.ofText text).position c.offset).line.toNat + 1 =
              d.range.start.line.toNat)) ∧
    ∀ first second : List Char, Suppressions.ofText (first ++ '\n' :: second) =
      (Suppressions.ofText first).union
        ((Suppressions.ofText second).down (first.count '\n' + 1)) := by
  refine ⟨fun hlines ↦ ?_, Suppressions.ofText_append⟩
  have hentry : ∀ n scope, (n, scope) ∈ (Suppressions.ofText text).lines ↔
      ∃ c : Cursor, c.text = text ∧ c.Directs (.nextLine scope) ∧
        ((LineTable.ofText text).position c.offset).line.toNat + 1 = n.toNat := by
    intro n scope
    rw [Suppressions.mem_lines_ofText_iff]
    refine exists_congr fun c ↦ and_congr_right fun htext ↦ and_congr_right fun hdirects ↦ ?_
    subst htext
    exact (hdirects.next_line_iff hlines).symm
  refine ⟨hentry, fun n scope scope' h h' ↦ ?_, fun d ↦ ?_⟩
  -- Two entries for one line are of directives on the same line, which has one comment.
  · obtain ⟨c, htext, hdirects, hn⟩ := (hentry n scope).1 h
    obtain ⟨c', htext', hdirects', hn'⟩ := (hentry n scope').1 h'
    subst htext
    have hline' := hdirects'.toNat_line (htext' ▸ hlines)
    rw [htext'] at hline'
    rw [hdirects.toNat_line hlines] at hn
    rw [hline'] at hn'
    exact Directive.nextLine.inj (hdirects.unique hdirects' htext'.symm (by omega))
  · rw [Suppressions.silences_ofText_iff]
    constructor
    · rintro ⟨c, directive, rfl, hdirects, hsilences⟩
      cases directive with
      | document scope => exact ⟨c, scope, rfl, hsilences, .inl hdirects⟩
      | nextLine scope =>
        obtain ⟨hline, hcovers⟩ := Bool.and_eq_true_iff.1 hsilences
        refine ⟨c, scope, rfl, hcovers, .inr ⟨hdirects, ?_⟩⟩
        exact (hdirects.next_line_iff hlines).2 (beq_iff_eq.1 hline).symm
    · rintro ⟨c, scope, rfl, hcovers, hdirects | ⟨hdirects, hline⟩⟩
      · exact ⟨c, _, rfl, hdirects, hcovers⟩
      · refine ⟨c, _, rfl, hdirects, Bool.and_eq_true_iff.2 ⟨?_, hcovers⟩⟩
        exact beq_iff_eq.2 ((hdirects.next_line_iff hlines).1 hline).symm

/-- A text with each of the line endings, a sign in a literal, and a directive in its last line,
which has no line feed. -/
theorem directives_count_lines_alike_mixed :
    let text := ("a == \"#\" # xplint-disable-next-line\r\n\n" ++
      "\rb # xplint-disable-next-line filter_single_equals").toList
    (linesOf text).length < 2 ^ 32 ∧
      (∃ c : Cursor, c.text = text ∧ c.Directs (.nextLine .all) ∧
        ((LineTable.ofText text).position c.offset).line.toNat + 1 = 1) ∧
      ∃ c : Cursor, c.text = text ∧ c.Directs (.nextLine (.only ["filter_single_equals"])) ∧
        ((LineTable.ofText text).position c.offset).line.toNat + 1 = 3 := by
  intro text
  have hlines : (linesOf text).length < 2 ^ 32 := by decide
  obtain ⟨hentry, -, -⟩ := (directives_count_lines_alike text).1 hlines
  have hall : (1, Scope.all) ∈ (Suppressions.ofText text).lines := by decide +kernel
  have honly : (3, Scope.only ["filter_single_equals"]) ∈ (Suppressions.ofText text).lines := by
    decide +kernel
  exact ⟨hlines, (hentry _ _).1 hall, (hentry _ _).1 honly⟩

end RuleLint
