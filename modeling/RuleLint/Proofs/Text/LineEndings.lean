import RuleLint.Proofs.Text.Places
import RuleLint.Text.Lines

/-!
# Line endings

`crlf text` has a carriage return before each line feed of `text`. A cursor of the one text has an
image in the other, at the same line and column, and movements that treat a carriage return like a
line feed commute with taking images. The exception are literals, which may hold a carriage return
but no line feed: a quote that comes before the end of the line is found in both texts, and none
is found past it.

The only cursors of `crlf text` that are no images stand between the two characters of a line
ending. A recogniser that answers there no more than one place before has the same finds in both
texts (`findAll_crlf`).
-/

namespace RuleLint

/-- The text with a carriage return before each line feed. -/
def crlf (text : List Char) : List Char :=
  text.flatMap fun x ↦ if x = '\n' then ['\r', '\n'] else [x]

/-- The same for characters that are given from the last to the first. -/
def crlfBack (text : List Char) : List Char :=
  text.flatMap fun x ↦ if x = '\n' then ['\n', '\r'] else [x]

/-- Whether a text has no character of a line ending. -/
def Unbroken (text : List Char) : Prop :=
  ∀ x ∈ text, x ≠ '\r' ∧ x ≠ '\n'

-- The instance for lists is named, since one that enumerates all characters would do as well.
instance (text : List Char) : Decidable (Unbroken text) :=
  List.decidableBAll (fun x ↦ x ≠ '\r' ∧ x ≠ '\n') text

section Texts

variable {x : Char} {cs ds : List Char}

theorem crlf_feed (cs : List Char) : crlf ('\n' :: cs) = '\r' :: '\n' :: crlf cs := rfl

theorem crlf_cons (hx : x ≠ '\n') (cs : List Char) : crlf (x :: cs) = x :: crlf cs := by
  rw [crlf, List.flatMap_cons, if_neg hx]
  rfl

theorem crlf_append (cs ds : List Char) : crlf (cs ++ ds) = crlf cs ++ crlf ds :=
  List.flatMap_append

theorem crlfBack_feed (cs : List Char) : crlfBack ('\n' :: cs) = '\n' :: '\r' :: crlfBack cs := rfl

theorem crlfBack_cons (hx : x ≠ '\n') (cs : List Char) : crlfBack (x :: cs) = x :: crlfBack cs := by
  rw [crlfBack, List.flatMap_cons, if_neg hx]
  rfl

theorem crlfBack_append (cs ds : List Char) : crlfBack (cs ++ ds) = crlfBack cs ++ crlfBack ds :=
  List.flatMap_append

theorem crlf_reverse (cs : List Char) : crlf cs.reverse = (crlfBack cs).reverse := by
  induction cs with
  | nil => rfl
  | cons x cs ih =>
    rw [List.reverse_cons, crlf_append, ih]
    by_cases hx : x = '\n'
    · subst hx
      simp [crlfBack_feed, crlf]
    · simp [crlfBack_cons hx, crlf, hx]

theorem crlf_eq_self (h : '\n' ∉ cs) : crlf cs = cs := by
  induction cs with
  | nil => rfl
  | cons x cs ih =>
    obtain ⟨hx, hcs⟩ := List.ne_and_not_mem_of_not_mem_cons h
    rw [crlf_cons (Ne.symm hx), ih hcs]

theorem crlf_eq_nil_iff : crlf cs = [] ↔ cs = [] := by
  cases cs with
  | nil => exact Iff.rfl
  | cons x cs =>
    by_cases hx : x = '\n'
    · subst hx
      simp [crlf_feed]
    · simp [crlf_cons hx]

theorem mem_crlf (hx : x ∈ cs) : x ∈ crlf cs := by
  refine List.mem_flatMap.2 ⟨x, hx, ?_⟩
  split
  · rename_i hfeed
    simp [hfeed]
  · exact List.mem_singleton_self x

theorem filter_crlf {p : Char → Bool} (hp : p '\r' = false) :
    (crlf cs).filter p = cs.filter p := by
  induction cs with
  | nil => rfl
  | cons x cs ih =>
    by_cases hx : x = '\n'
    · subst hx
      rw [crlf_feed, List.filter_cons_of_neg (by simp [hp]), List.filter_cons, List.filter_cons, ih]
    · rw [crlf_cons hx, List.filter_cons, List.filter_cons, ih]

/-- The lines of a text without carriage returns do not depend on its line endings. The induction
generalizes the part of the line that has been read, which has no carriage return at its end. -/
theorem linesFrom_crlf (line text : List Char) (hline : '\r' ∉ line) (htext : '\r' ∉ text) :
    linesFrom line (crlf text) = linesFrom line text := by
  induction text generalizing line with
  | nil => rfl
  | cons x text ih =>
    obtain ⟨hx, hrest⟩ := List.ne_and_not_mem_of_not_mem_cons htext
    by_cases hfeed : x = '\n'
    · subst hfeed
      -- of the two characters in the image, the carriage return is dropped with the line feed
      have hdrop : dropReturn line = line := by
        cases line with
        | nil => rfl
        | cons y line =>
          rw [dropReturn]
          rintro rest hrest
          exact hline (hrest ▸ List.mem_cons_self)
      rw [crlf_feed, linesFrom, if_neg (by decide), linesFrom, if_pos rfl, linesFrom, if_pos rfl,
        ih [] List.not_mem_nil hrest, hdrop]
      rfl
    · rw [crlf_cons hfeed, linesFrom, if_neg hfeed, linesFrom, if_neg hfeed,
        ih (x :: line) (List.not_mem_cons_of_ne_of_not_mem hx hline) hrest]

theorem linesOf_crlf {text : List Char} (h : '\r' ∉ text) : linesOf (crlf text) = linesOf text :=
  linesFrom_crlf [] text List.not_mem_nil h

end Texts

namespace Cursor

/-- The image of a cursor in the text with carriage returns. -/
def crlf (c : Cursor) : Cursor :=
  ⟨crlfBack c.before, RuleLint.crlf c.after⟩

section Movements

variable {c d : Cursor} {cs : List Char} {p : Char → Bool}

theorem text_crlf (c : Cursor) : c.crlf.text = RuleLint.crlf c.text := by
  rw [text, text, crlf_append, crlf_reverse]
  rfl

theorem Reads.crlf (h : c.Reads cs d) : c.crlf.Reads (RuleLint.crlf cs) d.crlf where
  before_eq := by
    rw [Cursor.crlf, h.before_eq, crlfBack_append, ← List.reverse_reverse (crlfBack cs.reverse),
      ← crlf_reverse, List.reverse_reverse]
    rfl
  after_eq := by
    rw [Cursor.crlf, h.after_eq, crlf_append]
    rfl

/-- The position of a cursor does not depend on the line endings. -/
theorem position_crlf (c : Cursor) : c.crlf.position = c.position := by
  have hline : ∀ cs : List Char, (crlfBack cs).count '\n' = cs.count '\n' := by
    intro cs
    induction cs with
    | nil => rfl
    | cons x cs ih =>
      by_cases hx : x = '\n'
      · subst hx
        rw [crlfBack_feed, List.count_cons_self, List.count_cons_of_ne (by decide), ih,
          List.count_cons_self]
      · rw [crlfBack_cons hx, List.count_cons_of_ne hx, List.count_cons_of_ne hx, ih]
  have hcolumn : ∀ cs : List Char,
      (crlfBack cs).takeWhile (· != '\n') = cs.takeWhile (· != '\n') := by
    intro cs
    induction cs with
    | nil => rfl
    | cons x cs ih =>
      by_cases hx : x = '\n'
      · subst hx
        rfl
      · rw [crlfBack_cons hx, List.takeWhile_cons, List.takeWhile_cons, ih]
  rw [position, position, line, line, column, column, lineBefore, lineBefore]
  show Position.mk ((crlfBack c.before).count '\n').toUInt32
    (utf16Length ((crlfBack c.before).takeWhile (· != '\n'))).toUInt32 = _
  rw [hline, hcolumn]

theorem within_crlf (outer : Cursor) (rest : List Char) (inner : Cursor) :
    outer.crlf.within (RuleLint.crlf rest) inner.crlf = (outer.within rest inner).crlf := by
  rw [within, within, Cursor.crlf, Cursor.crlf, Cursor.crlf, crlfBack_append, crlf_append]

theorem atLineStart_crlf (c : Cursor) : c.crlf.atLineStart = c.atLineStart := by
  obtain ⟨before, after⟩ := c
  cases before with
  | nil => rfl
  | cons x before =>
    by_cases hx : x = '\n'
    · subst hx
      rfl
    · rw [crlf, crlfBack_cons hx, atLineStart, atLineStart]

theorem atWordBoundary_crlf (c : Cursor) : c.crlf.atWordBoundary = c.atWordBoundary := by
  obtain ⟨before, after⟩ := c
  have hbefore : (crlfBack before).head?.any isWord = before.head?.any isWord := by
    cases before with
    | nil => rfl
    | cons x before =>
      by_cases hx : x = '\n'
      · subst hx
        rfl
      · rw [crlfBack_cons hx, List.head?_cons, List.head?_cons]
  have hafter : (RuleLint.crlf after).head?.any isWord = after.head?.any isWord := by
    cases after with
    | nil => rfl
    | cons x after =>
      by_cases hx : x = '\n'
      · subst hx
        rfl
      · rw [crlf_cons hx, List.head?_cons, List.head?_cons]
  rw [atWordBoundary, atWordBoundary]
  show ((crlfBack before).head?.any isWord != (RuleLint.crlf after).head?.any isWord) = _
  rw [hbefore, hafter]

theorem skipFrom_crlf (hp : p '\r' = p '\n') (before after : List Char) :
    skipFrom p (crlfBack before) (RuleLint.crlf after) = (skipFrom p before after).crlf := by
  induction after generalizing before with
  | nil => rfl
  | cons x after ih =>
    by_cases hx : x = '\n'
    · subst hx
      rw [crlf_feed, skipFrom, skipFrom, skipFrom, hp]
      split
      · exact ih ('\n' :: before)
      · rfl
    · rw [crlf_cons hx, skipFrom, skipFrom]
      split
      · rw [← ih (x :: before), crlfBack_cons hx]
      · rw [Cursor.crlf, crlf_cons hx]

theorem skip_crlf (hp : p '\r' = p '\n') (c : Cursor) : c.crlf.skip p = (c.skip p).crlf :=
  skipFrom_crlf hp c.before c.after

theorem skipBlanks_crlf (c : Cursor) : c.crlf.skipBlanks = c.skipBlanks.crlf :=
  skip_crlf rfl c

theorem one_crlf (hr : p '\r' = false) (hn : p '\n' = false) (c : Cursor) :
    c.crlf.one p = (c.one p).map crlf := by
  obtain ⟨before, after⟩ := c
  cases after with
  | nil => rfl
  | cons x after =>
    rw [crlf, one_cons]
    by_cases hx : x = '\n'
    · subst hx
      rw [crlf_feed, one_cons, hr, hn]
      rfl
    · rw [crlf_cons hx, one_cons]
      split
      · rw [Option.map_some, crlf, crlfBack_cons hx]
      · rfl

theorem char_crlf {x : Char} (hr : x ≠ '\r') (hn : x ≠ '\n') (c : Cursor) :
    c.crlf.char x = (c.char x).map crlf := by
  have hr' : ('\r' == x) = false := beq_false_of_ne hr.symm
  have hn' : ('\n' == x) = false := beq_false_of_ne hn.symm
  exact one_crlf hr' hn' c

/-- A run may begin with a line feed, whose image is passed in two steps. -/
theorem run_crlf (hp : p '\r' = p '\n') (c : Cursor) : c.crlf.run p = (c.run p).map crlf := by
  obtain ⟨before, after⟩ := c
  cases after with
  | nil => rfl
  | cons x after =>
    rw [crlf, run, run, one_cons]
    by_cases hx : x = '\n'
    · subst hx
      rw [crlf_feed, one_cons, hp]
      split
      · rename_i hn
        have hskip := skipFrom_crlf hp ('\n' :: before) after
        rw [crlfBack_feed] at hskip
        rw [Option.map_some, Option.map_some, Option.map_some, skip, skipFrom, if_pos hn, hskip]
        rfl
      · rfl
    · rw [crlf_cons hx, one_cons]
      split
      · have hskip := skipFrom_crlf hp (x :: before) after
        rw [crlfBack_cons hx] at hskip
        rw [Option.map_some, Option.map_some, Option.map_some, skip, hskip]
        rfl
      · rfl

theorem exactly_crlf {word : List Char} (hword : Unbroken word) (c : Cursor) :
    c.crlf.exactly word = (c.exactly word).map crlf := by
  induction word generalizing c with
  | nil => rfl
  | cons x word ih =>
    obtain ⟨⟨hr, hn⟩, hword⟩ := List.forall_mem_cons.1 hword
    rw [exactly, exactly, char_crlf hr hn]
    cases c.char x with
    | none => rfl
    | some d => exact ih hword d

theorem word_crlf {w : String} (hw : Unbroken w.toList) (c : Cursor) :
    c.crlf.word w = (c.word w).map crlf :=
  exactly_crlf hw c

theorem backFrom_crlf (hp : p '\r' = p '\n') (before after : List Char) :
    backFrom p (crlfBack before) (RuleLint.crlf after) = (backFrom p before after).crlf := by
  induction before generalizing after with
  | nil => rfl
  | cons x before ih =>
    by_cases hx : x = '\n'
    · subst hx
      rw [crlfBack_feed, backFrom, backFrom, backFrom, hp]
      split
      · exact ih ('\n' :: after)
      · rfl
    · rw [crlfBack_cons hx, backFrom, backFrom]
      split
      · rw [← ih (x :: after), crlf_cons hx]
      · rw [Cursor.crlf, crlfBack_cons hx]

theorem backBlanks_crlf (c : Cursor) : c.crlf.backBlanks = c.backBlanks.crlf :=
  backFrom_crlf rfl c.before c.after

/-- What is read up to the image of a cursor. -/
theorem upTo_crlf (h : c.Reads cs d) : c.crlf.upTo d.crlf = RuleLint.crlf (c.upTo d) := by
  rw [h.upTo_eq, h.crlf.upTo_eq]

/-- The end of an argument. Of the states of a scan, only the one after a backslash is left by a
carriage return and then by a line feed, and it is left for the same state. -/
theorem delimiterFrom_crlf (depth : Nat) (quotes : QuoteState) (before after : List Char) :
    delimiterFrom depth quotes (crlfBack before) (RuleLint.crlf after) =
      (delimiterFrom depth quotes before after).map crlf := by
  induction after generalizing depth quotes before with
  | nil => rfl
  | cons x after ih =>
    by_cases hx : x = '\n'
    · subst hx
      have hfeed : ∀ quotes, delimiterFrom depth quotes (crlfBack ('\n' :: before))
          (RuleLint.crlf after) = (delimiterFrom depth quotes ('\n' :: before) after).map crlf :=
        fun quotes ↦ ih depth quotes ('\n' :: before)
      rw [crlfBack_feed] at hfeed
      cases quotes <;>
        simpa [crlf_feed, delimiterFrom, QuoteState.step, isOpening, isClosing, isDelimiter]
          using hfeed _
    · simp only [crlf_cons hx, delimiterFrom, ← crlfBack_cons hx, ih]
      split_ifs <;> simp [crlf, crlf_cons hx]

/-! ### Between the characters of a line ending -/

/-- The image of a cursor, past the carriage return if it stands before a line feed. -/
def pastReturn (c : Cursor) : Cursor :=
  if c.after.head? = some '\n' then ⟨'\r' :: c.crlf.before, c.crlf.after.tail⟩ else c.crlf

theorem pastReturn_feed (before after : List Char) :
    pastReturn ⟨before, '\n' :: after⟩ =
      ⟨'\r' :: crlfBack before, '\n' :: RuleLint.crlf after⟩ := rfl

theorem pastReturn_of_ne (h : c.after.head? ≠ some '\n') : c.pastReturn = c.crlf := by
  rw [pastReturn, if_neg h]

/-- Past characters that may hold a carriage return but no line feed. -/
theorem skip_crlf_pastReturn (hr : p '\r' = true) (hn : p '\n' = false) (c : Cursor) :
    c.crlf.skip p = (c.skip p).pastReturn := by
  obtain ⟨before, after⟩ := c
  show skipFrom p (crlfBack before) (RuleLint.crlf after) = (skipFrom p before after).pastReturn
  induction after generalizing before with
  | nil => rfl
  | cons x after ih =>
    by_cases hx : x = '\n'
    · subst hx
      rw [crlf_feed, skipFrom, if_pos hr, skipFrom, skipFrom, hn, if_neg Bool.false_ne_true,
        if_neg Bool.false_ne_true, pastReturn_feed]
    · rw [crlf_cons hx, skipFrom, skipFrom]
      split
      · rw [← ih (x :: before), crlfBack_cons hx]
      · rw [pastReturn_of_ne (by simpa using hx), crlf, crlf_cons hx]

theorem one_pastReturn (hr : p '\r' = false) (hn : p '\n' = false) (c : Cursor) :
    c.pastReturn.one p = (c.one p).map crlf := by
  by_cases hfeed : c.after.head? = some '\n'
  · obtain ⟨before, after⟩ := c
    obtain ⟨after, rfl⟩ := List.head?_eq_some_iff.1 hfeed
    rw [pastReturn_feed, one_cons, one_cons, hn]
    rfl
  · rw [pastReturn_of_ne hfeed, one_crlf hr hn]

theorem char_pastReturn {x : Char} (hr : x ≠ '\r') (hn : x ≠ '\n') (c : Cursor) :
    c.pastReturn.char x = (c.char x).map crlf := by
  have hr' : ('\r' == x) = false := beq_false_of_ne hr.symm
  have hn' : ('\n' == x) = false := beq_false_of_ne hn.symm
  exact one_pastReturn hr' hn' c

theorem word_pastReturn {w : String} (hw : Unbroken w.toList)
    (hne : w.toList ≠ []) (c : Cursor) : c.pastReturn.word w = c.crlf.word w := by
  rw [word, word]
  obtain ⟨x, rest, hparts⟩ := List.exists_cons_of_ne_nil hne
  rw [hparts] at hw ⊢
  obtain ⟨⟨hr, hn⟩, -⟩ := List.forall_mem_cons.1 hw
  rw [exactly, exactly, char_pastReturn hr hn, char_crlf hr hn]

theorem run_pastReturn (hr : p '\r' = true) (hn : p '\n' = true) (c : Cursor) :
    c.pastReturn.run p = c.crlf.run p := by
  by_cases hfeed : c.after.head? = some '\n'
  · obtain ⟨before, after⟩ := c
    obtain ⟨after, rfl⟩ := List.head?_eq_some_iff.1 hfeed
    rw [pastReturn_feed, crlf, crlf_feed, run, run, one_cons, one_cons, if_pos hr, if_pos hn,
      Option.map_some, Option.map_some, skip, skip, skipFrom, if_pos hn]
  · rw [pastReturn_of_ne hfeed]

theorem atLineStart_pastReturn (hfeed : c.after.head? = some '\n') :
    c.pastReturn.atLineStart = false := by
  rw [pastReturn, if_pos hfeed]
  rfl

theorem atWordBoundary_pastReturn (hfeed : c.after.head? = some '\n') :
    c.pastReturn.atWordBoundary = false := by
  obtain ⟨before, after⟩ := c
  obtain ⟨after, rfl⟩ := List.head?_eq_some_iff.1 hfeed
  rfl

theorem backBlanks_pastReturn (c : Cursor) : c.pastReturn.backBlanks = c.backBlanks.crlf := by
  by_cases hfeed : c.after.head? = some '\n'
  · obtain ⟨before, after⟩ := c
    obtain ⟨after, rfl⟩ := List.head?_eq_some_iff.1 hfeed
    rw [pastReturn_feed, backBlanks, backFrom, if_pos isBlank_carriageReturn]
    exact backBlanks_crlf ⟨before, '\n' :: after⟩
  · rw [pastReturn_of_ne hfeed, backBlanks_crlf]

end Movements

end Cursor

/-! ### Answers -/

section Answers

open Cursor

variable {α β γ δ : Type} {R : α → β → Prop} {S : γ → δ → Prop}

theorem eq_none_of_rel {b : Option β} (h : Option.Rel R none b) : b = none := by
  cases h
  rfl

theorem exists_of_rel {x : α} {b : Option β} (h : Option.Rel R (some x) b) :
    ∃ y, b = some y ∧ R x y := by
  cases h with
  | some h => exact ⟨_, rfl, h⟩

theorem map_eq_of_rel {f : α → γ} {g : β → γ} {a : Option α} {b : Option β}
    (h : Option.Rel R a b) (hfg : ∀ x y, R x y → g y = f x) : b.map g = a.map f := by
  cases h with
  | none => rfl
  | some h => exact congrArg some (hfg _ _ h)

theorem rel_head? {l : List α} {l' : List β} (h : List.Forall₂ R l l') :
    Option.Rel R l.head? l'.head? := by
  cases h with
  | nil => exact .none
  | cons h _ => exact .some h

theorem forall₂_toList {a : Option α} {b : Option β} (h : Option.Rel R a b) :
    List.Forall₂ R a.toList b.toList := by
  cases h with
  | none => exact .nil
  | some h => exact .cons h .nil

theorem rel_bind {a : Option α} {b : Option β} {f : α → Option γ} {g : β → Option δ}
    (hab : Option.Rel R a b)
    (hfg : ∀ x y, a = some x → b = some y → R x y → Option.Rel S (f x) (g y)) :
    Option.Rel S (a.bind f) (b.bind g) := by
  cases hab with
  | none => exact .none
  | some h => exact hfg _ _ rfl rfl h

/-- What is read after a movement and after its image. -/
theorem rel_bind_crlf {a : Option Cursor} {f : Cursor → Option α} {g : Cursor → Option β}
    (hfg : ∀ c, a = some c → Option.Rel R (f c) (g c.crlf)) :
    Option.Rel R (a.bind f) ((a.map Cursor.crlf).bind g) := by
  cases a with
  | none => exact .none
  | some c => exact hfg c rfl

theorem rel_or {a a' : Option α} {b b' : Option β} (h : Option.Rel R a b)
    (h' : Option.Rel R a' b') : Option.Rel R (a.or a') (b.or b') := by
  cases h with
  | none => exact h'
  | some h => exact .some h

theorem rel_shortest {p : Char → Bool} (hr : p '\r' = false) (hn : p '\n' = false)
    {next : Cursor → Option α} {next' : Cursor → Option β} (c : Cursor)
    (hnext : ∀ cs d, c.Reads cs d → (∀ x ∈ cs, p x = true) →
      Option.Rel R (next d) (next' d.crlf)) :
    Option.Rel R (c.shortest p next) (c.crlf.shortest p next') := by
  obtain ⟨before, after⟩ := c
  show Option.Rel R (shortestFrom p next before after)
    (shortestFrom p next' (crlfBack before) (RuleLint.crlf after))
  induction after generalizing before with
  | nil => exact .none
  | cons x after ih =>
    by_cases hx : x = '\n'
    · subst hx
      rw [crlf_feed, shortestFrom, shortestFrom, hr, hn]
      exact .none
    · rw [crlf_cons hx, shortestFrom, shortestFrom]
      split
      · rename_i hpx
        have hfirst : Reads ⟨before, x :: after⟩ [x] ⟨x :: before, after⟩ := ⟨rfl, rfl⟩
        have hlater := ih (x :: before) fun cs d hreads hall ↦
          hnext (x :: cs) d (hfirst.trans hreads) (List.forall_mem_cons.2 ⟨hpx, hall⟩)
        have hhere := hnext [x] _ hfirst (by simpa using hpx)
        rw [Cursor.crlf, crlfBack_cons hx] at hhere
        rw [crlfBack_cons hx] at hlater
        exact rel_or hhere hlater
      · exact .none

/-- Whether the second of two answers is the image of the first: its end is, and the values are
related. -/
def Image (V : α → β → Prop) : Option (α × Cursor) → Option (β × Cursor) → Prop :=
  Option.Rel fun x y ↦ V x.1 y.1 ∧ y.2 = x.2.crlf

/-- Whether a piece is the image of another and has the same content. -/
structure SamePiece (piece piece' : Piece) : Prop where
  start_eq : piece'.start = piece.start.crlf
  stop_eq : piece'.stop = piece.stop.crlf
  content_eq : piece'.content = piece.content

/-- A piece without a line feed has the same content in both texts. -/
theorem samePiece {start stop : Cursor} {cs : List Char} (hreads : start.Reads cs stop)
    (hcs : '\n' ∉ cs) : SamePiece ⟨start, stop⟩ ⟨start.crlf, stop.crlf⟩ where
  start_eq := rfl
  stop_eq := rfl
  content_eq := by
    rw [Piece.content, Piece.content, upTo_crlf hreads, hreads.upTo_eq, crlf_eq_self hcs]

theorem image_quoted (c : Cursor) : Image SamePiece (quoted c) (quoted c.crlf) := by
  rw [quoted, quoted, char_crlf (by decide) (by decide)]
  refine rel_bind_crlf fun start _ ↦ ?_
  obtain ⟨cs, hreads, hall, -⟩ := start.reads_skip isQuotable
  have hcs : '\n' ∉ cs := fun hmem ↦ absurd (hall _ hmem) (by decide)
  -- the content may go on past a carriage return, but then a line feed comes and not a quote
  rw [skip_crlf_pastReturn rfl rfl]
  dsimp only
  rw [char_pastReturn (by decide) (by decide)]
  refine rel_bind_crlf fun next hnext ↦ ?_
  have hfeed : (start.skip isQuotable).after.head? ≠ some '\n' := by
    rw [(reads_char hnext).after_eq]
    simp
  rw [pastReturn_of_ne hfeed]
  exact .some ⟨samePiece hreads hcs, rfl⟩

end Answers

/-! ### Finds -/

section Finds

open Cursor

variable {α : Type} {V : α → α → Prop} {recognise : Recogniser α} {text : List Char}

/-- Whether a recogniser answers between the characters of a line ending only where it answers
before them. -/
def Quiet (recognise : Recogniser α) : Prop :=
  ∀ c : Cursor, c.after.head? = some '\n' → recognise c.crlf = none → recognise c.pastReturn = none

/-- A recogniser whose answers in a text do not depend on the line endings, apart from places. -/
structure IgnoresEndings (text : List Char) (V : α → α → Prop) (recognise : Recogniser α) :
    Prop where
  image : ∀ c, c.text = text → Image V (recognise c) (recognise c.crlf)
  quiet : Quiet recognise
  advances : Advances recognise

/-- Two finds, the second of which is the image of the first, which is in the text. -/
structure SameFound (recognise : Recogniser α) (text : List Char) (V : α → α → Prop)
    (found found' : Found α) : Prop where
  text_eq : found.start.text = text
  answer : recognise found.start = some (found.value, found.stop)
  start_eq : found'.start = found.start.crlf
  value : V found.value found'.value
  stop_eq : found'.stop = found.stop.crlf

/-- Where nothing is found, nothing is found at the image, and the search goes on at the image of
the next cursor. -/
theorem findAllFrom_crlf_of_none (hquiet : Quiet recognise) (before after : List Char) (x : Char)
    (h : recognise (Cursor.crlf ⟨before, x :: after⟩) = none) :
    findAllFrom recognise (crlfBack before) (crlf (x :: after)) =
      findAllFrom recognise (crlfBack (x :: before)) (crlf after) := by
  by_cases hx : x = '\n'
  · -- the search comes to two cursors here, the image and the one after its carriage return
    subst hx
    have hpast : recognise ⟨'\r' :: crlfBack before, '\n' :: crlf after⟩ = none :=
      hquiet ⟨before, '\n' :: after⟩ rfl h
    have hfirst : recognise ⟨crlfBack before, '\r' :: '\n' :: crlf after⟩ = none := h
    rw [crlf_feed, findAllFrom_of_none hfirst, findAllFrom_of_none hpast, crlfBack_feed]
  · rw [Cursor.crlf, crlf_cons hx] at h
    rw [crlf_cons hx, findAllFrom_of_none h, crlfBack_cons hx]

theorem findAllFrom_crlf_of_some (hadvances : Advances recognise) (before after : List Char)
    (x : Char) {value : α} {stop : Cursor}
    (h : recognise (Cursor.crlf ⟨before, x :: after⟩) = some (value, stop)) :
    findAllFrom recognise (crlfBack before) (crlf (x :: after)) =
      ⟨Cursor.crlf ⟨before, x :: after⟩, value, stop⟩ ::
        findAllFrom recognise stop.before stop.after := by
  obtain ⟨y, rest, hparts⟩ : ∃ y rest, crlf (x :: after) = y :: rest :=
    List.exists_cons_of_ne_nil (mt crlf_eq_nil_iff.1 (List.cons_ne_nil _ _))
  rw [Cursor.crlf, hparts] at h ⊢
  exact findAllFrom_of_some hadvances h

/-- **The finds of a text do not depend on its line endings.** -/
theorem findAll_crlf (hrecognise : IgnoresEndings text V recognise) :
    List.Forall₂ (SameFound recognise text V) (findAll recognise text)
      (findAll recognise (crlf text)) := by
  have hfrom : ∀ before after, (Cursor.mk before after).text = text →
      List.Forall₂ (SameFound recognise text V) (findAllFrom recognise before after)
        (findAllFrom recognise (crlfBack before) (crlf after)) := by
    intro before after htext
    fun_induction findAllFrom recognise before after with
    | case1 before =>
      show List.Forall₂ _ _ (findAllFrom recognise (crlfBack before) [])
      rw [findAllFrom]
      exact .nil
    | case2 before x after hnone ih =>
      have himage := hrecognise.image _ htext
      rw [hnone] at himage
      rw [findAllFrom_crlf_of_none hrecognise.quiet before after x (eq_none_of_rel himage)]
      exact ih (by rw [← htext]; simp [Cursor.text])
    | case3 before x after value stop hsome hle ih =>
      have himage := hrecognise.image _ htext
      rw [hsome] at himage
      obtain ⟨⟨value', stop'⟩, hsome', hvalue, hstop⟩ := exists_of_rel himage
      obtain ⟨cs, -, hreads⟩ := hrecognise.advances _ _ _ hsome
      have htail := ih (hreads.text_eq.trans htext)
      obtain rfl : stop' = stop.crlf := hstop
      rw [findAllFrom_crlf_of_some hrecognise.advances before after x hsome']
      exact .cons ⟨htext, hsome, rfl, hvalue, rfl⟩ htail
    | case4 before x after value stop hsome hlt ih =>
      exact absurd (hrecognise.advances.length_le hsome) hlt
  exact hfrom [] text rfl

/-- The first find of a text does not depend on its line endings. -/
theorem rel_findFirst_crlf (hrecognise : IgnoresEndings text V recognise) :
    Option.Rel (SameFound recognise text V) (findFirst recognise text)
      (findFirst recognise (crlf text)) :=
  rel_head? (findAll_crlf hrecognise)

/-- The first find of a recogniser whose answers need not end at images. The recogniser has to
agree only at cursors from which on there is a find, or else if there is none in the whole text. -/
theorem rel_findFirst_value (hadvances : Advances recognise) (hquiet : Quiet recognise)
    (hrecognise : ∀ c, c.text = text →
      (findAllFrom recognise c.before c.after = [] → findFirst recognise text = none) →
      Option.Rel (fun x y ↦ V x.1 y.1) (recognise c) (recognise c.crlf)) :
    Option.Rel (fun found found' ↦ V found.value found'.value) (findFirst recognise text)
      (findFirst recognise (crlf text)) := by
  have hfrom : ∀ before after, (Cursor.mk before after).text = text →
      (findAllFrom recognise before after = [] → findFirst recognise text = none) →
      Option.Rel (fun found found' ↦ V found.value found'.value)
        (findAllFrom recognise before after).head?
        (findAllFrom recognise (crlfBack before) (crlf after)).head? := by
    intro before after htext hlater
    induction after generalizing before with
    | nil =>
      show Option.Rel _ _ (findAllFrom recognise (crlfBack before) []).head?
      rw [findAllFrom, findAllFrom]
      exact .none
    | cons x after ih =>
      have hrel := hrecognise _ htext hlater
      cases hanswer : recognise ⟨before, x :: after⟩ with
      | none =>
        rw [hanswer] at hrel
        rw [findAllFrom_of_none hanswer] at hlater
        rw [findAllFrom_crlf_of_none hquiet before after x (eq_none_of_rel hrel),
          findAllFrom_of_none hanswer]
        exact ih (x :: before) (by rw [← htext]; simp [Cursor.text]) hlater
      | some answer =>
        obtain ⟨value, stop⟩ := answer
        rw [hanswer] at hrel
        obtain ⟨⟨value', stop'⟩, hanswer', hvalue⟩ := exists_of_rel hrel
        rw [findAllFrom_of_some hadvances hanswer,
          findAllFrom_crlf_of_some hadvances before after x hanswer']
        exact .some hvalue
  refine hfrom [] text rfl fun hnone ↦ ?_
  rw [findFirst, findAll, hnone]
  rfl

end Finds

end RuleLint
