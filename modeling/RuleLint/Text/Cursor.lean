import RuleLint.Text.Blank
import RuleLint.Text.Position
import RuleLint.Text.Word

/-!
# Cursors

A cursor is a place in a text: the characters before it, nearest first, and the characters after
it. Everything else is derived. Its byte offset measures what lies before it, so it is a character
boundary by construction, and a word boundary or the start of a line is read off the neighbouring
characters.

Movements return cursors. Those that may fail answer `none`; all of them leave the text itself
unchanged (`text_skip`, `text_one`), and what a successful movement passed over is `Cursor.upTo`.
-/

namespace RuleLint

/-- A place in a text. -/
structure Cursor where
  /-- The characters before the place, nearest first. -/
  before : List Char
  /-- The characters after the place. -/
  after : List Char
deriving DecidableEq, Repr

namespace Cursor

/-- The start of a text. -/
def atStart (text : List Char) : Cursor :=
  ⟨[], text⟩

/-- The text in which the cursor stands. -/
def text (c : Cursor) : List Char :=
  c.before.reverse ++ c.after

/-- The byte offset of the cursor. -/
def offset (c : Cursor) : Nat :=
  byteLength c.before

/-- The span from one cursor to another. -/
def spanTo (start stop : Cursor) : Span :=
  ⟨start.offset, stop.offset⟩

/-- The characters from one cursor to a later one. -/
def upTo (start stop : Cursor) : List Char :=
  start.after.take (start.after.length - stop.after.length)

/-- Whether the cursor stands at the start of a line. -/
def atLineStart (c : Cursor) : Bool :=
  match c.before with
  | [] => true
  | previous :: _ => previous == '\n'

/-- Whether exactly one neighbour of the cursor is a word character. -/
def atWordBoundary (c : Cursor) : Bool :=
  c.before.head?.any isWord != c.after.head?.any isWord

/-! ### Movements -/

/-- Past the longest run of characters with `p`, given as the two sides of the cursor. -/
def skipFrom (p : Char → Bool) : List Char → List Char → Cursor
  | before, [] => ⟨before, []⟩
  | before, c :: after => if p c then skipFrom p (c :: before) after else ⟨before, c :: after⟩

/-- Past the longest run of characters with `p`, which may be empty. -/
def skip (p : Char → Bool) (c : Cursor) : Cursor :=
  skipFrom p c.before c.after

/-- Past all blanks. -/
def skipBlanks (c : Cursor) : Cursor :=
  c.skip isBlank

/-- Past one character with `p`. -/
def one (p : Char → Bool) (c : Cursor) : Option Cursor :=
  match c.after with
  | [] => none
  | next :: after => if p next then some ⟨next :: c.before, after⟩ else none

/-- Past a given character. -/
def char (x : Char) (c : Cursor) : Option Cursor :=
  c.one (· == x)

/-- Past the longest run of characters with `p`, of which there must be at least one. -/
def run (p : Char → Bool) (c : Cursor) : Option Cursor :=
  (c.one p).map (skip p)

/-- Past the given characters. -/
def exactly : List Char → Cursor → Option Cursor
  | [], c => some c
  | x :: word, c => (c.char x).bind (exactly word)

/-- Past the given text. -/
def word (w : String) (c : Cursor) : Option Cursor :=
  c.exactly w.toList

/-- The first success of `next` after one or more characters with `p`, the fewest first; given as
the two sides of the cursor. -/
def shortestFrom {α : Type} (p : Char → Bool) (next : Cursor → Option α) :
    List Char → List Char → Option α
  | _, [] => none
  | before, c :: after =>
    if p c then
      (next ⟨c :: before, after⟩).or (shortestFrom p next (c :: before) after)
    else
      none

/-- The first success of `next` after one or more characters with `p`, the fewest first. -/
def shortest {α : Type} (p : Char → Bool) (next : Cursor → Option α) (c : Cursor) : Option α :=
  shortestFrom p next c.before c.after

/-- Back over the longest run of characters with `p`, given as the two sides of the cursor. -/
def backFrom (p : Char → Bool) : List Char → List Char → Cursor
  | [], after => ⟨[], after⟩
  | c :: before, after => if p c then backFrom p before (c :: after) else ⟨c :: before, after⟩

/-- Back over all blanks. -/
def backBlanks (c : Cursor) : Cursor :=
  backFrom isBlank c.before c.after

/-! ### Movements leave the text unchanged -/

@[simp] theorem text_atStart (text : List Char) : (atStart text).text = text := rfl

theorem text_skipFrom (p : Char → Bool) (before after : List Char) :
    (skipFrom p before after).text = before.reverse ++ after := by
  induction after generalizing before with
  | nil => rfl
  | cons c after ih =>
    by_cases h : p c
    · simp [skipFrom, h, ih]
    · simp [skipFrom, h, text]

@[simp] theorem text_skip (p : Char → Bool) (c : Cursor) : (c.skip p).text = c.text :=
  text_skipFrom p c.before c.after

@[simp] theorem text_skipBlanks (c : Cursor) : c.skipBlanks.text = c.text :=
  text_skip isBlank c

theorem text_backFrom (p : Char → Bool) (before after : List Char) :
    (backFrom p before after).text = before.reverse ++ after := by
  induction before generalizing after with
  | nil => rfl
  | cons c before ih =>
    by_cases h : p c
    · simp [backFrom, h, ih]
    · simp [backFrom, h, text]

@[simp] theorem text_backBlanks (c : Cursor) : c.backBlanks.text = c.text :=
  text_backFrom isBlank c.before c.after

theorem text_one {p : Char → Bool} {c d : Cursor} (h : c.one p = some d) : d.text = c.text := by
  obtain ⟨before, after⟩ := c
  cases after with
  | nil => simp [one] at h
  | cons x after =>
    simp only [one, Option.ite_none_right_eq_some, Option.some.injEq] at h
    simp [← h.2, text]

end Cursor

end RuleLint
