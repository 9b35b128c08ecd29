import RuleLint.Proofs.Text.Places

/-!
# Texts with something around them

A text may be a part of a longer one, and every cursor of the part is one of the longer text then
(`Cursor.within`). What a reader answers there is what it answers in the part alone, moved with the
cursor, if the reader is not misled by what stands around the part: a word must not go on before it,
and after it nothing may come with which the reader could go on (`Apart`): either there is nothing,
or there is a comment.

That a reader is not misled is a property of the reader (`Cursor.Carries`) that goes through
whatever puts readers together. Blanks need care, since a reader that skips blanks at the end of the
part comes to the sign of the comment; so what is read after blanks must answer neither at the end
of a text nor at the sign (`Cursor.NeedsMore`).

A search of the longer text finds in the part what it finds there alone, and then goes on
(`findAllFrom_within`).
-/

namespace RuleLint

/-- The blank before a remark, and the characters that end a line. -/
def breaks : List Char :=
  [' ', '\r', '\n']

/-- What can follow a text without going on with a word, a run or a literal of it: nothing, or a
break and no quotes in its line. -/
structure Ends (rest : List Char) : Prop where
  begins : ∀ x ∈ rest.head?, x ∈ breaks
  unquoted : '"' ∉ rest.takeWhile (· != '\n')

/-- What can follow a text without going on with anything in it: nothing, or a blank and a comment
without quotes in its line. The comment begins with an `x`, as directives do. -/
structure Apart (rest : List Char) : Prop where
  begins : rest = [] ∨ ∃ more, rest = ' ' :: '#' :: ' ' :: 'x' :: more
  unquoted : '"' ∉ rest.takeWhile (· != '\n')

theorem apart_nil : Apart [] :=
  ⟨.inl rfl, List.not_mem_nil⟩

theorem Apart.ends {rest : List Char} (hrest : Apart rest) : Ends rest := by
  refine ⟨?_, hrest.unquoted⟩
  obtain rfl | ⟨more, rfl⟩ := hrest.begins
  · nofun
  · rintro x ⟨⟩
    decide

theorem Ends.of_head {rest : List Char} {p : Char → Bool} (hrest : Ends rest)
    (hp : breaks.any p = false) : ∀ x ∈ rest.head?, p x = false :=
  fun x hx ↦ eq_false_of_ne_true (List.any_eq_false.1 hp x (hrest.begins x hx))

/-- The image of a piece in a longer text. -/
def Piece.within (outer : Cursor) (rest : List Char) (piece : Piece) : Piece :=
  ⟨outer.within rest piece.start, outer.within rest piece.stop⟩

namespace Cursor

variable {α β : Type} {outer c d : Cursor} {rest cs : List Char} {p : Char → Bool}
  {image : α → α} {next : Cursor → Option α}

/-! ### Cursors -/

theorem upTo_within (outer : Cursor) (rest : List Char) (start stop : Cursor) :
    (outer.within rest start).upTo (outer.within rest stop) = start.upTo stop := by
  rw [upTo, upTo, within, within]
  dsimp only
  rw [List.length_append, List.length_append, Nat.add_sub_add_right,
    List.take_append_of_le_length (Nat.sub_le _ _)]

theorem content_within (piece : Piece) : (piece.within outer rest).content = piece.content :=
  upTo_within outer rest piece.start piece.stop

theorem atLineStart_within (houter : outer.atLineStart = true) :
    (outer.within rest c).atLineStart = c.atLineStart := by
  obtain ⟨before, after⟩ := c
  cases before with
  | nil => exact houter
  | cons x before => rfl

theorem atWordBoundary_within (houter : outer.before.head?.any isWord = false)
    (hrest : Ends rest) : (outer.within rest c).atWordBoundary = c.atWordBoundary := by
  obtain ⟨before, after⟩ := c
  have hbefore : (before ++ outer.before).head?.any isWord = before.head?.any isWord := by
    cases before with
    | nil => exact houter
    | cons x before => rfl
  have hafter : (after ++ rest).head?.any isWord = after.head?.any isWord := by
    cases after with
    | nil => exact (Option.any_eq_false _ _).2 (hrest.of_head (by decide))
    | cons x after => rfl
  rw [atWordBoundary, atWordBoundary, within, hbefore, hafter]

/-- The cursors of a text. -/
theorem forall_cursor {P : Cursor → Prop} {text : List Char}
    (h : ∀ k ∈ List.range (text.length + 1), P ⟨(text.take k).reverse, text.drop k⟩) :
    ∀ c : Cursor, c.text = text → P c := by
  rintro ⟨before, after⟩ rfl
  have hcursor := h before.length (by simp [Cursor.text])
  rw [Cursor.text, List.take_left' (List.length_reverse), List.drop_left' List.length_reverse,
    List.reverse_reverse] at hcursor
  exact hcursor

/-- Whether two cursors, maybe of different texts, are on lines with the same number after the same
characters of their lines. -/
structure Abreast (c d : Cursor) : Prop where
  line_eq : c.line = d.line
  lineBefore_eq : c.lineBefore = d.lineBefore

theorem Abreast.position_eq (h : c.Abreast d) : c.position = d.position := by
  rw [position, column, position, column, h.line_eq, h.lineBefore_eq]

theorem Abreast.symm (h : c.Abreast d) : d.Abreast c :=
  ⟨h.line_eq.symm, h.lineBefore_eq.symm⟩

theorem abreast_of_before (h : c.before = d.before) : c.Abreast d where
  line_eq := congrArg (List.count '\n') h
  lineBefore_eq := congrArg (List.takeWhile (· != '\n')) h

/-- Cursors of a part are abreast if the parts begin abreast. -/
theorem Abreast.within {other : Cursor} {rest' : List Char} (h : outer.Abreast other) (c : Cursor) :
    (outer.within rest c).Abreast (other.within rest' c) where
  line_eq := by
    have hline : ∀ (outer : Cursor) (rest : List Char),
        (outer.within rest c).line = c.line + outer.line := fun _ _ ↦ List.count_append
    rw [hline, hline, h.line_eq]
  lineBefore_eq := by
    have hsame : outer.before.takeWhile (· != '\n') = other.before.takeWhile (· != '\n') :=
      h.lineBefore_eq
    rw [lineBefore, lineBefore, Cursor.within, Cursor.within, List.takeWhile_append,
      List.takeWhile_append, hsame]

/-- What stands on lines above that of a cursor matters only by its number of lines. -/
theorem abreast_of_feed {line between before after after' : List Char} (hline : '\n' ∈ line)
    (hbetween : '\n' ∉ between) :
    Abreast ⟨line ++ before, after⟩ ⟨line ++ (between ++ before), after'⟩ where
  line_eq := by
    simp only [Cursor.line, List.count_append, List.count_eq_zero_of_not_mem hbetween, Nat.zero_add]
  lineBefore_eq := by
    have hlength : (line.takeWhile (· != '\n')).length ≠ line.length := by
      intro hlength
      have hall := List.takeWhile_eq_self_iff.1 ((List.takeWhile_prefix _).eq_of_length hlength)
      exact absurd (hall '\n' hline) (by decide)
    rw [lineBefore, lineBefore, List.takeWhile_append, List.takeWhile_append, if_neg hlength,
      if_neg hlength]

/-! ### Readers -/

/-- Whether a reader answers at a cursor in a longer text what it answers in the part alone, apart
from its place. -/
def Carries (outer : Cursor) (rest : List Char) (image : α → α) (next : Cursor → Option α) : Prop :=
  ∀ c, next (outer.within rest c) = (next c).map image

/-- Whether a reader answers in a text with something behind it what it answers in the text
alone. -/
def CarriesIn (above rest : List Char) (image : α → α) (next : Cursor → Option α) : Prop :=
  ∀ c : Cursor, c.text = above → next ((atStart []).within rest c) = (next c).map image

theorem Carries.carriesIn {above : List Char} (h : Carries (atStart []) rest image next) :
    CarriesIn above rest image next :=
  fun c _ ↦ h c

/-- Whether a reader answers neither at the end of a text nor at the sign of a comment. -/
structure NeedsMore (next : Cursor → Option α) : Prop where
  none_end : ∀ before, next ⟨before, []⟩ = none
  none_sign : ∀ before more, next ⟨before, '#' :: ' ' :: 'x' :: more⟩ = none

/-- What is read after a movement, in a longer text. -/
theorem bind_within {a : Option Cursor} {next next' : Cursor → Option α}
    (h : ∀ d, a = some d → next' (outer.within rest d) = (next d).map image) :
    (a.map (outer.within rest)).bind next' = (a.bind next).map image := by
  cases a with
  | none => rfl
  | some d => exact h d rfl

theorem NeedsMore.bind {first : Cursor → Option β} (h : NeedsMore first)
    (next : Cursor → β → Option α) : NeedsMore fun c ↦ (first c).bind (next c) where
  none_end before := by rw [h.none_end before, Option.bind_none]
  none_sign before more := by rw [h.none_sign before more, Option.bind_none]

theorem NeedsMore.or {next' : Cursor → Option α} (h : NeedsMore next) (h' : NeedsMore next') :
    NeedsMore fun c ↦ (next c).or (next' c) where
  none_end before := by rw [h.none_end before, h'.none_end before, Option.or_none]
  none_sign before more := by rw [h.none_sign before more, h'.none_sign before more, Option.or_none]

theorem Carries.or {next' : Cursor → Option α} (h : Carries outer rest image next)
    (h' : Carries outer rest image next') :
    Carries outer rest image fun c ↦ (next c).or (next' c) := by
  intro c
  dsimp only
  rw [h c, h' c, Option.map_or]

theorem Carries.bind {first : Cursor → Option Cursor}
    (h : Carries outer rest (outer.within rest) first) (h' : Carries outer rest image next) :
    Carries outer rest image fun c ↦ (first c).bind next := by
  intro c
  dsimp only
  rw [h c]
  exact bind_within fun d _ ↦ h' d

/-- A reader that answers only at word boundaries. -/
theorem Carries.atWordBoundary (houter : outer.before.head?.any isWord = false)
    (hrest : Ends rest) (h : Carries outer rest image next) :
    Carries outer rest image fun c ↦ if c.atWordBoundary then next c else none := by
  intro c
  dsimp only
  rw [atWordBoundary_within houter hrest]
  split
  · exact h c
  · rfl

/-! ### Single characters and words -/

theorem carries_one (hrest : ∀ x ∈ rest.head?, p x = false) :
    Carries outer rest (outer.within rest) (one p) := by
  rintro ⟨before, after⟩
  cases after with
  | nil =>
    cases rest with
    | nil => rfl
    | cons x rest =>
      have hx : p x = false := hrest x rfl
      rw [within, List.nil_append, one_cons, hx]
      rfl
  | cons x after =>
    rw [within, List.cons_append, one_cons, one_cons]
    split
    · rfl
    · rfl

theorem carries_char {x : Char} (hrest : Ends rest) (hx : x ∉ breaks) :
    Carries outer rest (outer.within rest) (char x) :=
  carries_one (hrest.of_head (List.any_eq_false.2 fun _ hy heq ↦ hx (beq_iff_eq.1 heq ▸ hy)))

theorem needsMore_one (hsign : p '#' = false) : NeedsMore (one p) where
  none_end _ := rfl
  none_sign before more := by rw [one_cons, hsign]; rfl

theorem needsMore_char {x : Char} (hx : x ≠ '#') : NeedsMore (char x) :=
  needsMore_one (beq_false_of_ne hx.symm)

theorem carries_exactly {word : List Char} (hrest : Ends rest)
    (hword : word.any breaks.contains = false) :
    Carries outer rest (outer.within rest) (exactly word) := by
  induction word with
  | nil => exact fun c ↦ rfl
  | cons x word ih =>
    obtain ⟨hx, hword⟩ := Bool.or_eq_false_iff.1 hword
    exact (carries_char hrest (by simpa using hx)).bind (ih hword)

theorem carries_word {w : String} (hrest : Ends rest) (hw : w.toList.any breaks.contains = false) :
    Carries outer rest (outer.within rest) (word w) :=
  carries_exactly hrest hw

theorem needsMore_word {w : String} (hw : ∃ x, w.toList.head? = some x ∧ x ≠ '#') :
    NeedsMore (word w) := by
  obtain ⟨x, hhead, hx⟩ := hw
  obtain ⟨word, hparts⟩ := List.head?_eq_some_iff.1 hhead
  have hword : Cursor.word w = fun c ↦ (c.char x).bind (exactly word) := by
    funext c
    rw [Cursor.word, hparts, exactly]
  rw [hword]
  exact (needsMore_char hx).bind fun _ ↦ exactly word

/-! ### Runs -/

/-- A run that ends with the part may go on after it. -/
theorem skip_within (p : Char → Bool) (outer : Cursor) (rest : List Char) (c : Cursor) :
    (outer.within rest c).skip p = (outer.within rest (c.skip p)).skip p := by
  obtain ⟨before, after⟩ := c
  show skipFrom p (before ++ outer.before) (after ++ rest) =
    skip p (outer.within rest (skipFrom p before after))
  induction after generalizing before with
  | nil => rfl
  | cons x after ih =>
    rw [List.cons_append, skipFrom, skipFrom]
    split
    · exact ih (x :: before)
    · rename_i hx
      rw [within, skip, List.cons_append, skipFrom, if_neg hx]

theorem skip_within_of_ne_nil (h : (c.skip p).after ≠ []) :
    (outer.within rest c).skip p = outer.within rest (c.skip p) := by
  obtain ⟨-, -, -, hstop⟩ := c.reads_skip p
  rw [skip_within]
  refine skip_eq_self fun x hx ↦ hstop x ?_
  obtain ⟨y, after, hafter⟩ := List.exists_cons_of_ne_nil h
  rw [within, hafter] at hx
  rw [hafter]
  exact hx

theorem skip_within_of_head (hrest : ∀ x ∈ rest.head?, p x = false) :
    (outer.within rest c).skip p = outer.within rest (c.skip p) := by
  by_cases h : (c.skip p).after = []
  · rw [skip_within]
    refine skip_eq_self ?_
    rw [within, h]
    exact hrest
  · exact skip_within_of_ne_nil h

theorem skip_within_nil (p : Char → Bool) (outer c : Cursor) :
    (outer.within [] c).skip p = outer.within [] (c.skip p) :=
  skip_within_of_head fun _ h ↦ nomatch h

theorem carries_run (hrest : ∀ x ∈ rest.head?, p x = false) :
    Carries outer rest (outer.within rest) (run p) := by
  intro c
  rw [run, run, carries_one hrest c, Option.map_map, Option.map_map]
  congr 1
  funext d
  exact skip_within_of_head hrest

theorem needsMore_run (hsign : p '#' = false) : NeedsMore (run p) where
  none_end _ := rfl
  none_sign before more := by rw [run, (needsMore_one hsign).none_sign]; rfl

/-! ### After blanks -/

theorem NeedsMore.none_trimStart (h : NeedsMore next) (hrest : Apart rest) (before : List Char) :
    next ⟨before, trimStart rest⟩ = none := by
  obtain rfl | ⟨more, rfl⟩ := hrest.begins
  · exact h.none_end before
  · exact h.none_sign before more

/-- What is read after blanks, if there is none where blanks lead out of the part. -/
theorem skipBlanks_within_of_none {next' : Cursor → Option α}
    (hend : ∀ before, next ⟨before, []⟩ = none)
    (hout : c.skipBlanks.after = [] → ∀ before, next' ⟨before, trimStart rest⟩ = none)
    (h : next' (outer.within rest c.skipBlanks) = (next c.skipBlanks).map image) :
    next' (outer.within rest c).skipBlanks = (next c.skipBlanks).map image := by
  by_cases hnil : c.skipBlanks.after = []
  · have hskip : (outer.within rest c).skipBlanks = (outer.within rest c.skipBlanks).skipBlanks :=
      skip_within isBlank outer rest c
    have hafter : (outer.within rest c).skipBlanks.after = trimStart rest := by
      rw [hskip, Cursor.skipBlanks, after_skip, within, hnil]
      rfl
    have hnone := hend c.skipBlanks.before
    have hnone' := hout hnil (outer.within rest c).skipBlanks.before
    rw [← hnil] at hnone
    rw [← hafter] at hnone'
    rw [hnone, hnone']
    rfl
  · exact (congrArg next' (skip_within_of_ne_nil hnil)).trans h

/-- What is read after blanks, which may lead out of the part to the sign of a comment. -/
theorem skipBlanks_within {next' : Cursor → Option α} (hrest : Apart rest) (hmore : NeedsMore next)
    (hmore' : NeedsMore next')
    (h : next' (outer.within rest c.skipBlanks) = (next c.skipBlanks).map image) :
    next' (outer.within rest c).skipBlanks = (next c.skipBlanks).map image :=
  skipBlanks_within_of_none hmore.none_end (fun _ ↦ hmore'.none_trimStart hrest) h

theorem Carries.skipBlanks (hrest : Apart rest) (h : Carries outer rest image next)
    (hmore : NeedsMore next) : Carries outer rest image fun c ↦ next c.skipBlanks :=
  fun c ↦ skipBlanks_within hrest hmore hmore (h c.skipBlanks)

theorem char_skipBlanks_within {x : Char} (hrest : Apart rest) (hx : x ∉ breaks) (hx' : x ≠ '#')
    (c : Cursor) :
    (outer.within rest c).skipBlanks.char x = (c.skipBlanks.char x).map (outer.within rest) :=
  (carries_char hrest.ends hx).skipBlanks hrest (needsMore_char hx') c

/-- What is read after at least one blank, if there is nothing where blanks lead out of the part. -/
theorem runBlanks_within_of_none {next' : Cursor → Option α}
    (hend : ∀ before, next ⟨before, []⟩ = none)
    (hout : c.skipBlanks.after = [] → ∀ before, next' ⟨before, trimStart rest⟩ = none)
    (h : ∀ d, c.run isBlank = some d → next' (outer.within rest d) = (next d).map image) :
    ((outer.within rest c).run isBlank).bind next' = ((c.run isBlank).bind next).map image := by
  have hrun : ∀ before after x, isBlank x = true →
      (Cursor.mk before (x :: after)).run isBlank = some (skipBlanks ⟨x :: before, after⟩) := by
    intro before after x hx
    rw [run, one_cons, if_pos hx]
    rfl
  obtain ⟨before, after⟩ := c
  cases after with
  | nil =>
    cases rest with
    | nil => rfl
    | cons x rest =>
      by_cases hx : isBlank x = true
      · have hnone := hout rfl (skipBlanks ⟨x :: (before ++ outer.before), rest⟩).before
        rw [trimStart, List.dropWhile_cons_of_pos hx,
          ← after_skip isBlank ⟨x :: (before ++ outer.before), rest⟩] at hnone
        rw [within, List.nil_append, hrun _ _ _ hx]
        exact hnone
      · rw [within, List.nil_append, run, one_cons, if_neg hx]
        rfl
  | cons x after =>
    by_cases hx : isBlank x = true
    · have hskip : (Cursor.mk before (x :: after)).skipBlanks =
          skipBlanks ⟨x :: before, after⟩ := by
        rw [skipBlanks, skip, skipFrom, if_pos hx]
        rfl
      rw [within, List.cons_append, hrun _ _ _ hx, hrun _ _ _ hx]
      rw [hskip] at hout
      exact skipBlanks_within_of_none hend hout (h _ (hrun _ _ _ hx))
    · simp only [within, run, List.cons_append, one_cons, if_neg hx]
      rfl

/-- What is read after at least one blank. -/
theorem runBlanks_within {next' : Cursor → Option α} (hrest : Apart rest) (hmore : NeedsMore next)
    (hmore' : NeedsMore next')
    (h : ∀ d, c.run isBlank = some d → next' (outer.within rest d) = (next d).map image) :
    ((outer.within rest c).run isBlank).bind next' = ((c.run isBlank).bind next).map image :=
  runBlanks_within_of_none hmore.none_end (fun _ ↦ hmore'.none_trimStart hrest) h

theorem Carries.runBlanks (hrest : Apart rest) (h : Carries outer rest image next)
    (hmore : NeedsMore next) : Carries outer rest image fun c ↦ (c.run isBlank).bind next :=
  fun _ ↦ runBlanks_within hrest hmore hmore fun d _ ↦ h d

/-- Back over blanks, as far as something else in the part. -/
theorem backBlanks_within (h : ∃ x ∈ c.before, isBlank x = false) :
    (outer.within rest c).backBlanks = outer.within rest c.backBlanks := by
  obtain ⟨before, after⟩ := c
  show backFrom isBlank (before ++ outer.before) (after ++ rest) =
    outer.within rest (backFrom isBlank before after)
  induction before generalizing after with
  | nil =>
    obtain ⟨x, hmem, -⟩ := h
    cases hmem
  | cons y before ih =>
    rw [List.cons_append, backFrom, backFrom]
    split
    · rename_i hy
      obtain ⟨x, hmem, hx⟩ := h
      rcases List.mem_cons.1 hmem with rfl | hmem
      · rw [hx] at hy
        cases hy
      · exact ih (y :: after) ⟨x, hmem, hx⟩
    · rfl

/-- A delimiter in the part, or any if there is nothing after the part. -/
theorem delimiterFrom_within (depth : Nat) (quotes : QuoteState) (before after : List Char)
    (h : rest = [] ∨ (delimiterFrom depth quotes before after).isSome = true) :
    delimiterFrom depth quotes (before ++ outer.before) (after ++ rest) =
      (delimiterFrom depth quotes before after).map (outer.within rest) := by
  induction after generalizing depth quotes before with
  | nil =>
    obtain rfl | hsome := h
    · rfl
    · cases hsome
  | cons x after ih =>
    simp only [List.cons_append, delimiterFrom] at h ⊢
    split_ifs at h ⊢
    all_goals first | exact ih _ _ (x :: before) h | rfl

/-- The shortest run after which something is read. -/
theorem shortest_within {next' : Cursor → Option α} (hrest : ∀ x ∈ rest.head?, p x = false)
    (h : ∀ d : Cursor, d.text = c.text → next' (outer.within rest d) = (next d).map image) :
    (outer.within rest c).shortest p next' = (c.shortest p next).map image := by
  obtain ⟨before, after⟩ := c
  show shortestFrom p next' (before ++ outer.before) (after ++ rest) =
    (shortestFrom p next before after).map image
  induction after generalizing before with
  | nil =>
    cases rest with
    | nil => rfl
    | cons x rest =>
      have hx : ¬p x = true := ne_true_of_eq_false (hrest x rfl)
      rw [List.nil_append, shortestFrom, shortestFrom, if_neg hx]
      rfl
  | cons x after ih =>
    rw [List.cons_append, shortestFrom, shortestFrom]
    split
    · have htext : Cursor.text ⟨x :: before, after⟩ = Cursor.text ⟨before, x :: after⟩ := by
        simp [Cursor.text]
      rw [Option.map_or, ← ih (x :: before) fun d hd ↦ h d (hd.trans htext)]
      exact congrArg (Option.or · _) (h ⟨x :: before, after⟩ htext)
    · rfl

end Cursor

open Cursor

/-! ### Literals -/

section Literals

variable {outer : Cursor} {rest : List Char}

/-- A literal that is open at the end of a part is not closed after it. -/
theorem char_skip_of_unquoted (before after : List Char)
    (h : '"' ∉ after.takeWhile (· != '\n')) :
    ((Cursor.mk before after).skip isQuotable).char '"' = none := by
  show (skipFrom isQuotable before after).char '"' = none
  induction after generalizing before with
  | nil => rfl
  | cons x after ih =>
    by_cases hx : x = '\n'
    · subst hx
      rfl
    · rw [List.takeWhile_cons_of_pos (by simpa using hx)] at h
      obtain ⟨hquote, h⟩ := List.ne_and_not_mem_of_not_mem_cons h
      have hquotable : isQuotable x = true := by simpa [isQuotable] using ⟨hquote.symm, hx⟩
      rw [skipFrom, if_pos hquotable]
      exact ih (x :: before) h

theorem carries_quoted (hrest : Ends rest) :
    Carries outer rest (Prod.map (Piece.within outer rest) (outer.within rest)) quoted := by
  intro c
  rw [quoted, quoted, carries_char hrest (by decide) c]
  refine bind_within fun start _ ↦ ?_
  dsimp only
  by_cases hend : (start.skip isQuotable).after = []
  · -- the literal is open at the end of the part
    have hnone : (start.skip isQuotable).char '"' = none := by
      rw [char, one, hend]
    rw [skip_within, hnone]
    have hunquoted := char_skip_of_unquoted ((start.skip isQuotable).before ++ outer.before) rest
      hrest.unquoted
    rw [within, hend, List.nil_append, hunquoted]
    rfl
  · rw [skip_within_of_ne_nil hend, carries_char hrest (by decide)]
    exact bind_within fun next _ ↦ rfl

theorem needsMore_quoted : NeedsMore quoted :=
  (needsMore_char (by decide)).bind _

end Literals

/-! ### Finds -/

/-- The image of a find in a longer text. -/
def Found.within {α : Type} (outer : Cursor) (rest : List Char) (image : α → α)
    (found : Found α) : Found α :=
  ⟨outer.within rest found.start, image found.value, outer.within rest found.stop⟩

section Finds

variable {α : Type} {recognise : Recogniser α} {image : α → α} {outer : Cursor} {rest : List Char}

theorem findAllFrom_nil (recognise : Recogniser α) (before : List Char) :
    findAllFrom recognise before [] = [] := by
  rw [findAllFrom]

/-- A search passes over a part in which nothing begins. -/
theorem findAllFrom_pass {before part after : List Char}
    (h : ∀ passed x rest, part = passed ++ x :: rest →
      recognise ⟨passed.reverse ++ before, x :: (rest ++ after)⟩ = none) :
    findAllFrom recognise before (part ++ after) =
      findAllFrom recognise (part.reverse ++ before) after := by
  induction part generalizing before with
  | nil => rfl
  | cons x part ih =>
    have hrest := @ih (x :: before) fun passed y rest hparts ↦ by
      have hnone := h (x :: passed) y rest (congrArg (x :: ·) hparts)
      rw [List.reverse_cons, List.append_assoc] at hnone
      exact hnone
    have hnone : recognise ⟨before, x :: (part ++ after)⟩ = none := h [] x part rfl
    rw [List.cons_append, findAllFrom_of_none hnone, hrest, List.reverse_cons, List.append_assoc]
    rfl

/-- **A search of a longer text finds in a part what it finds there alone, and then goes on.** -/
theorem findAllFrom_within (hadvances : Advances recognise) (before after : List Char)
    (hcarries : ∀ c : Cursor, c.text = before.reverse ++ after → c.after ≠ [] →
      recognise (outer.within rest c) =
        (recognise c).map (Prod.map image (outer.within rest))) :
    findAllFrom recognise (before ++ outer.before) (after ++ rest) =
      (findAllFrom recognise before after).map (Found.within outer rest image) ++
        findAllFrom recognise (after.reverse ++ before ++ outer.before) rest := by
  fun_induction findAllFrom recognise before after with
  | case1 before => rfl
  | case2 before x after hnone ih =>
    have hanswer : recognise ⟨before ++ outer.before, x :: (after ++ rest)⟩ = none := by
      have hanswer := hcarries ⟨before, x :: after⟩ rfl (List.cons_ne_nil _ _)
      rw [hnone] at hanswer
      exact hanswer
    have hrest := ih fun c hc ↦ hcarries c (hc.trans (by simp))
    rw [List.cons_append, findAllFrom_of_none hanswer, List.reverse_cons, List.append_assoc _ [x]]
    exact hrest
  | case3 before x after value stop hsome hle ih =>
    have hanswer : recognise ⟨before ++ outer.before, x :: (after ++ rest)⟩ =
        some (image value, outer.within rest stop) := by
      have hanswer := hcarries ⟨before, x :: after⟩ rfl (List.cons_ne_nil _ _)
      rw [hsome] at hanswer
      exact hanswer
    obtain ⟨cs, -, hreads⟩ := hadvances _ _ _ hsome
    have htext : stop.before.reverse ++ stop.after = before.reverse ++ (x :: after) :=
      hreads.text_eq
    have hrest := ih fun c hc ↦ hcarries c (hc.trans htext)
    have hback : stop.after.reverse ++ stop.before = (x :: after).reverse ++ before := by
      simpa using congrArg List.reverse htext
    rw [List.cons_append, findAllFrom_of_some hadvances hanswer, ← hback, List.map_cons,
      List.cons_append]
    exact congrArg (_ :: ·) hrest
  | case4 before x after value stop hsome hlt ih => exact absurd (hadvances.length_le hsome) hlt

/-- A search from a place on, as a search of what comes after it. -/
theorem findAllFrom_eq_map (hadvances : Advances recognise)
    (hcarries : Carries outer [] (Prod.map image (outer.within [])) recognise) (text : List Char) :
    findAllFrom recognise outer.before text =
      (findAll recognise text).map (Found.within outer [] image) := by
  have hwithin := findAllFrom_within hadvances [] text
    fun c _ _ ↦ hcarries c
  rw [findAllFrom_nil, List.append_nil, List.append_nil] at hwithin
  exact hwithin

/-- **A search of a text in two parts, with something between them in which nothing is found.** -/
theorem findAll_append {image' : α → α} (hadvances : Advances recognise)
    {above between below : List Char}
    (habove : ∀ c : Cursor, c.text = above → c.after ≠ [] →
      recognise ((atStart []).within (between ++ below) c) =
        (recognise c).map (Prod.map image ((atStart []).within (between ++ below))))
    (hbelow : ∀ c : Cursor, c.text = below → c.after ≠ [] →
      recognise (within ⟨(above ++ between).reverse, []⟩ [] c) =
        (recognise c).map (Prod.map image' (within ⟨(above ++ between).reverse, []⟩ [])))
    (hbetween : findAllFrom recognise above.reverse (between ++ below) =
      findAllFrom recognise (above ++ between).reverse below) :
    findAll recognise (above ++ (between ++ below)) =
      (findAll recognise above).map (Found.within (atStart []) (between ++ below) image) ++
        (findAll recognise below).map (Found.within ⟨(above ++ between).reverse, []⟩ []
          image') := by
  have hfirst := findAllFrom_within hadvances [] above habove
  have hrest := findAllFrom_within hadvances [] below
    hbelow
  rw [findAllFrom_nil, List.append_nil, List.append_nil] at hrest
  have hstart : (above.reverse ++ [] ++ (atStart []).before : List Char) = above.reverse := by
    rw [List.append_nil]
    exact List.append_nil _
  rw [hstart, hbetween] at hfirst
  exact hfirst.trans (congrArg (_ ++ ·) hrest)

end Finds

end RuleLint
