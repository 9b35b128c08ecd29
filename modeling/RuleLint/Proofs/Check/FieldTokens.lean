import RuleLint.Proofs.Check.Instances
import RuleLint.Proofs.Check.Surroundings

/-!
# Numeric fields and the tokens they stand in

Names of fields may have dots in them, so what a reader takes for a field is the longest run of
letters, digits, `_` and `.` around a place (`Cursor.token`). The search for concatenations only
asks for word boundaries around the name of a numeric field, and there is one at a dot.

So the field of a concatenation that is found is a whole token if and only if there is no dot next
to it (`operand_listed_iff`). The word boundaries see to all other characters that may stand in a
token, and since no listed name is part of another one with a dot next to it, a token that goes on
with a dot is not listed. That such a token is reported nevertheless is shown by
`part_of_dotted_name_reported`.
-/

namespace RuleLint

open Cursor Construct

/-! ### Tokens -/

/-- Whether a character may stand in the token of a field: a letter, a digit, `_` or a dot. -/
def isTokenChar (x : Char) : Bool :=
  isWord x || x == '.'

/-- The longest run of characters of a token around a cursor. -/
def Cursor.token (c : Cursor) : List Char :=
  (c.before.takeWhile isTokenChar).reverse ++ c.after.takeWhile isTokenChar

theorem isWord_of_isDecimalDigit {x : Char} (h : isDecimalDigit x = true) : isWord x = true := by
  rw [isDecimalDigit] at h
  rw [isWord]
  split
  · rename_i hascii
    rw [if_pos hascii] at h
    rw [Char.isAlphanum, h, Bool.or_true, Bool.true_or]
  · rename_i hascii
    rw [if_neg hascii] at h
    -- each interval of digits lies in one of word characters
    have hinside : digitCodePoints.all (fun i ↦ wordCodePoints.any fun j ↦
        j.1.ble i.1 && i.2.ble j.2) = true := by decide +kernel
    obtain ⟨i, hi, hlow, hhigh⟩ := CodePoints.has_iff.1 h
    obtain ⟨j, hj, hle⟩ := List.any_eq_true.1 (List.all_eq_true.1 hinside i hi)
    obtain ⟨hlow', hhigh'⟩ := Bool.and_eq_true_iff.1 hle
    exact CodePoints.has_iff.2 ⟨j, hj, (Nat.le_of_ble_eq_true hlow').trans hlow,
      hhigh.trans (Nat.le_of_ble_eq_true hhigh')⟩

/-- Past a word boundary next to a word character, a token goes on only with a dot. -/
theorem takeWhile_isTokenChar_eq_nil {cs : List Char} (hcs : cs.head?.any isWord = false)
    (hdot : cs.head? ≠ some '.') : cs.takeWhile isTokenChar = [] := by
  cases cs with
  | nil => rfl
  | cons x cs =>
    have hx : isTokenChar x = false := by
      have hword : isWord x = false := hcs
      have hne : x ≠ '.' := fun h ↦ hdot (congrArg some h)
      simp [isTokenChar, hword, hne]
    rw [List.takeWhile_cons, hx]
    rfl

theorem head?_takeWhile_isTokenChar {cs : List Char} (hdot : cs.head? = some '.') :
    (cs.takeWhile isTokenChar).head? = some '.' := by
  obtain ⟨rest, rfl⟩ := List.head?_eq_some_iff.1 hdot
  rfl

/-! ### Names of fields -/

namespace Construct

variable {name token before after : List Char}

/-- The characters of the name of a field, the first and the last of which are word characters. -/
theorem isTokenChar_of_mem_fieldName (h : name ∈ fieldName) :
    (∀ x ∈ name, isTokenChar x = true) ∧ name.head?.any isWord = true ∧
      name.getLast?.any isWord = true := by
  rcases h with ⟨w, hw, rfl⟩ | ⟨_, rfl, digits, ⟨hne, hdigits⟩, rfl⟩
  · have hall : ∀ w ∈ Check.numericFieldNames, w.toList.all isTokenChar = true := by decide
    have hends : ∀ w ∈ Check.numericFieldNames,
        w.toList.head?.any isWord = true ∧ w.toList.getLast?.any isWord = true := by decide
    exact ⟨List.all_eq_true.1 (hall w hw), hends w hw⟩
  · have hword : ∀ x ∈ digits, isWord x = true := fun x hx ↦
      isWord_of_isDecimalDigit (hdigits x hx)
    have hletters : "numfield".toList.all isTokenChar = true := by decide
    refine ⟨fun x hx ↦ ?_, rfl, ?_⟩
    · rcases List.mem_append.1 hx with hx | hx
      · exact List.all_eq_true.1 hletters x hx
      · rw [isTokenChar, hword x hx, Bool.true_or]
    · show (("numfield".toList ++ digits).getLast?).any isWord = true
      rw [List.getLast?_append_of_ne_nil _ hne, List.getLast?_eq_some_getLast hne]
      exact hword _ (List.getLast_mem hne)

/-- No name of a field is part of another one with a dot next to it. -/
theorem no_dot_next_to_fieldName (hname : name ∈ fieldName)
    (htoken : before ++ name ++ after ∈ fieldName) :
    before.getLast? ≠ some '.' ∧ after.head? ≠ some '.' := by
  have hdigit : ∀ digits : List Char, (∀ x ∈ digits, isDecimalDigit x = true) → '.' ∉ digits :=
    fun digits hdigits hmem ↦ absurd (hdigits '.' hmem) (by decide)
  rcases htoken with ⟨t, ht, heq⟩ | ⟨_, rfl, digits, ⟨-, hdigits⟩, heq⟩
  · rcases hname with ⟨w, hw, rfl⟩ | ⟨_, rfl, digits, -, rfl⟩
    · have hapart : ∀ t ∈ Check.numericFieldNames, ∀ w ∈ Check.numericFieldNames,
          ∀ rest ∈ t.toList.tails, ¬('.' :: w.toList) <+: rest ∧ ¬(w.toList ++ ['.']) <+: rest := by
        decide +kernel
      -- The dot and the name, or the name and the dot, would begin a tail of the longer name.
      constructor
      · intro hlast
        obtain ⟨front, rfl⟩ := List.getLast?_eq_some_iff.1 hlast
        have hrest : '.' :: (w.toList ++ after) ∈ t.toList.tails := by
          rw [List.mem_tails, ← heq]
          exact ⟨front, by simp⟩
        exact (hapart t ht w hw _ hrest).1 ⟨after, rfl⟩
      · intro hhead
        obtain ⟨rest, rfl⟩ := List.head?_eq_some_iff.1 hhead
        have hrest : w.toList ++ '.' :: rest ∈ t.toList.tails := by
          rw [List.mem_tails, ← heq]
          exact ⟨before, by simp⟩
        exact (hapart t ht w hw _ hrest).2 ⟨rest, by simp⟩
    · -- the fixed names have no letter f
      have hletter : ∀ t ∈ Check.numericFieldNames, 'f' ∉ t.toList := by decide
      refine absurd ?_ (hletter t ht)
      rw [← heq]
      simp
  · have hdot : '.' ∉ before ++ name ++ after := by
      rw [← heq]
      have hletters : '.' ∉ "numfield".toList := by decide
      exact fun hmem ↦ (List.mem_append.1 hmem).elim hletters (hdigit digits hdigits)
    refine ⟨fun hlast ↦ hdot ?_, fun hhead ↦ hdot ?_⟩
    · have hmem := List.mem_of_getLast? hlast
      simp [hmem]
    · have hmem := List.mem_of_mem_head? hhead
      simp [hmem]

/-! ### Operands -/

/-- Whether the name of a field, without its sigil, is the field of a concatenation between two
cursors. The other operand is a literal, which comes after it or before it. -/
structure IsOperand (start stop first last : Cursor) : Prop where
  name : first.Spells fieldName last
  opened : first.atWordBoundary = true
  closed : last.atWordBoundary = true
  place : start.Spells (1 + mark '$') first ∧
      last.Spells (blanks * mark '+' * blanks * literal ⊤) stop ∨
    start.Spells (literal ⊤ * blanks * mark '+' * blanks * (1 + mark '$')) first ∧ last = stop

variable {start stop first last : Cursor}

theorem exists_operand (h : IsInstance start stop .numberToStringConcat) :
    ∃ first last, IsOperand start stop first last := by
  rcases h with ⟨last, ⟨first, hsigil, hopened, hname, hclosed⟩, hrest⟩ |
    ⟨c, hbefore, first, hsigil, hopened, hname, hclosed⟩
  · exact ⟨first, last, hname, hopened, hclosed, .inl ⟨hsigil, hrest⟩⟩
  · exact ⟨first, stop, hname, hopened, hclosed, .inr ⟨hbefore.mul hsigil, rfl⟩⟩

/-- The token of an operand: its name, and what there is before and after it. -/
theorem IsOperand.token_eq (h : IsOperand start stop first last) :
    ∃ name ∈ fieldName, first.token = (first.before.takeWhile isTokenChar).reverse ++ name ++
      last.after.takeWhile isTokenChar := by
  obtain ⟨name, hname, hreads⟩ := h.name
  obtain ⟨hchars, -, -⟩ := isTokenChar_of_mem_fieldName hname
  refine ⟨name, hname, ?_⟩
  rw [token, hreads.after_eq, List.takeWhile_append_of_pos hchars, List.append_assoc]

/-- Next to an operand there are no word characters. -/
theorem IsOperand.not_isWord (h : IsOperand start stop first last) :
    first.before.head?.any isWord = false ∧ last.after.head?.any isWord = false := by
  obtain ⟨name, hname, hreads⟩ := h.name
  obtain ⟨-, hhead, hlast⟩ := isTokenChar_of_mem_fieldName hname
  have hne : name ≠ [] := by
    rintro rfl
    cases hhead
  have hopened := h.opened
  have hclosed := h.closed
  rw [atWordBoundary, hreads.after_eq, List.head?_append_of_ne_nil _ hne, hhead] at hopened
  rw [atWordBoundary, hreads.before_eq,
    List.head?_append_of_ne_nil _ (List.reverse_ne_nil_iff.2 hne), List.head?_reverse, hlast]
    at hclosed
  exact ⟨by simpa using hopened, by simpa using hclosed⟩

/-- The token of an operand is listed if and only if no dot is next to the operand. -/
theorem IsOperand.token_mem_iff (h : IsOperand start stop first last) :
    first.token ∈ fieldName ↔ first.before.head? ≠ some '.' ∧ last.after.head? ≠ some '.' := by
  obtain ⟨name, hname, htoken⟩ := h.token_eq
  rw [htoken]
  constructor
  · intro hmem
    obtain ⟨hbefore, hafter⟩ := no_dot_next_to_fieldName hname hmem
    rw [List.getLast?_reverse] at hbefore
    exact ⟨fun hdot ↦ hbefore (head?_takeWhile_isTokenChar hdot),
      fun hdot ↦ hafter (head?_takeWhile_isTokenChar hdot)⟩
  · rintro ⟨hbefore, hafter⟩
    obtain ⟨hword, hword'⟩ := h.not_isWord
    rw [takeWhile_isTokenChar_eq_nil hword hbefore, takeWhile_isTokenChar_eq_nil hword' hafter,
      List.reverse_nil, List.nil_append, List.append_nil]
    exact hname

end Construct

/-- **The field of a concatenation is a whole token if and only if it has no dot next to it.** A
finding on concatenations has a field with the name of a numeric field, from one word boundary to
another. The token around it, which may go on before and after it, is the name of a numeric field as
well if and only if neither the character before the name nor the one after it is a dot. -/
theorem operand_listed_iff {document : Document} {settings : Settings} {config : Config}
    {d : Diagnostic} (hd : d ∈ (lint .standard document settings config).diagnostics)
    (hrule : d.rule = .numberToStringConcat) :
    ∃ start stop, start.text = document.chars ∧ d.range = ⟨start.position, stop.position⟩ ∧
      (∃ first last, IsOperand start stop first last) ∧
      ∀ first last, IsOperand start stop first last →
        (first.token ∈ fieldName ↔
          first.before.head? ≠ some '.' ∧ last.after.head? ≠ some '.') := by
  obtain ⟨start, stop, htext, hrange, hinstance⟩ := exists_instance_of_mem_lint hd
  rw [hrule] at hinstance
  exact ⟨start, stop, htext, hrange, exists_operand hinstance, fun _ _ ↦ IsOperand.token_mem_iff⟩

/-- A literal and a numbered field with a sigil, in an enrichment document. -/
theorem operand_listed_iff_sigil :
    let document : Document := ⟨"file:///a.en", "en", 1, "$x = \"n=\" + $numfield12"⟩
    let d : Diagnostic :=
      ⟨.numberToStringConcat, .warning, ⟨⟨0, 5⟩, ⟨0, 23⟩⟩, Check.concatenationMessage⟩
    d ∈ (lint .standard document .standard .empty).diagnostics ∧ d.rule = .numberToStringConcat ∧
      ∃ start stop first last, start.position = ⟨0, 5⟩ ∧ stop.position = ⟨0, 23⟩ ∧
        IsOperand start stop first last ∧ first.token ∈ fieldName := by
  intro document d
  have hd : d ∈ (lint .standard document .standard .empty).diagnostics := by decide +kernel
  obtain ⟨start, stop, htext, hrange, ⟨first, last, hoperand⟩, hiff⟩ := operand_listed_iff hd rfl
  obtain ⟨hstart, hstop⟩ := Range.mk.inj hrange
  have hdotless : ∀ c : Cursor, c.text = document.chars →
      c.before.head? ≠ some '.' ∧ c.after.head? ≠ some '.' := forall_cursor (by decide +kernel)
  have hfirst : first.text = document.chars := by
    rcases hoperand.place with ⟨hsigil, -⟩ | ⟨hbefore, -⟩
    · exact hsigil.text_eq.trans htext
    · exact hbefore.text_eq.trans htext
  have hlast := hoperand.name.text_eq.trans hfirst
  exact ⟨hd, rfl, start, stop, first, last, hstart.symm, hstop.symm, hoperand,
    (hiff first last hoperand).2 ⟨(hdotless first hfirst).1, (hdotless last hlast).2⟩⟩

/-- A part of a dotted name is reported: the token is no name of a numeric field. -/
theorem part_of_dotted_name_reported :
    let document : Document := ⟨"file:///a.co", "co", 1, "x.count + \"s\""⟩
    let first : Cursor := ⟨".x".toList, "count + \"s\"".toList⟩
    let last : Cursor := ⟨"tnuoc.x".toList, " + \"s\"".toList⟩
    let stop : Cursor := ⟨"\"s\" + tnuoc.x".toList, []⟩
    (lint .standard document .standard .empty).diagnostics.map (fun d ↦ (d.rule, d.range)) =
        [(.numberToStringConcat, ⟨first.position, stop.position⟩)] ∧
      first.text = document.chars ∧ IsOperand first stop first last ∧
      first.token = "x.count".toList ∧ first.token ∉ fieldName := by
  intro document first last stop
  have hname : first.Spells fieldName last ∧ last.atWordBoundary = true :=
    Check.spells_numericFieldName (by decide +kernel)
  let sign : Cursor := ⟨"+ tnuoc.x".toList, " \"s\"".toList⟩
  have hsign : last.skipBlanks.char '+' = some sign := by decide +kernel
  have hnext : (quoted sign.skipBlanks).map Prod.snd = some stop := by decide +kernel
  obtain ⟨⟨piece, next⟩, hquoted, hstop⟩ := Option.map_eq_some_iff.1 hnext
  have hliteral : sign.skipBlanks.Spells (literal ⊤) stop := by
    rw [← hstop]
    exact Check.spells_quoted hquoted trivial
  have hrest := ((last.spells_skipBlanks.mul (spells_char hsign)).mul sign.spells_skipBlanks).mul
    hliteral
  have hoperand : IsOperand first stop first last :=
    ⟨hname.1, by decide, hname.2, .inl ⟨(spells_refl first).mono le_self_add, hrest⟩⟩
  refine ⟨by decide +kernel, by decide, hoperand, by decide +kernel, fun hmem ↦ ?_⟩
  exact (hoperand.token_mem_iff.1 hmem).1 rfl

end RuleLint
