import RuleLint.Proofs.Check.Reports

/-!
# Spellings of keys

Keys are compared without blanks and sigils. So when the expression that a document assigns to
`$alert.key`, or the key argument of a call, is written in another way that differs in blanks and
sigils only, the same calls are reported (`reportedCalls_respelled`).

That the key in question is the same is only half of it: other calls may read it, too. A call may
begin in the expression and end behind it, or end in it. Then a blank or a sigil more or less
decides whether there is a call at all, or whether it has an argument, so no call may touch the
expression. And the argument of a call before it may be read on into it. That does no harm when the
scan comes to it outside literals, since it goes over a whole expression. Inside a literal that was
not closed it takes what is inside for what is outside, and what stands behind a backslash does not
count: then no backslash may stand right before a blank or a sigil (`KeepsEscapes`). Each of these
can go wrong (`respelled_key_reported_apart`).
-/

namespace RuleLint

open Cursor Construct Check

/-- A well-formed expression on one line in which no key is assigned. -/
structure IsSpelling (key : List Char) : Prop where
  expression : Expression isBare key
  trimmed : IsTrimmed key
  unbroken : '\n' ∉ key
  assignsNothing : ∀ passed x more, key = passed ++ x :: more →
    keyOpening ⟨passed.reverse, x :: more⟩ = none

/-- Whether a part of a text is the expression of its first assignment of a key, or the key argument
of one of its calls. -/
def IsKeyText (above key below : List Char) : Prop :=
  (∃ found ∈ findFirst keyAssignment (above ++ (key ++ below)), found.value = key ∧
      ∃ sign ∈ keyOpening found.start, sign.skipBlanks = ⟨above.reverse, key ++ below⟩) ∨
    ∃ call ∈ findAll whitelistCall (above ++ (key ++ below)), ∃ argument ∈ keyArgument call,
      argument.start = ⟨above.reverse, key ++ below⟩ ∧
        argument.stop = ⟨(above ++ key).reverse, below⟩

/-- Whether a key is another spelling of one in a text. -/
structure Respells (above key key' below : List Char) : Prop where
  place : IsKeyText above key below
  spelling : IsSpelling key
  spelling' : IsSpelling key'
  same : normalKey key = normalKey key'

/-- Whether a character counts in keys: it is neither a blank nor a sigil. -/
def isKept (x : Char) : Bool :=
  !isBlank x && x != '$'

/-- Whether no backslash stands right before a blank or a sigil. -/
def KeepsEscapes (key : List Char) : Prop :=
  ∀ passed x more, key = passed ++ '\\' :: x :: more → isKept x = true

/-- Whether no key argument is read on behind a text from inside a literal. -/
def ClosesLiterals (above : List Char) : Prop :=
  ∀ call ∈ findAll whitelistCall above, ∀ c ∈ call.stop.skipBlanks.char ',',
    ArgumentEnds c ∨ (Nesting.steps .top c.after).quotes = .outside

/-- Whether the calls of a text do not depend on how a key in it is spelled: none touches it, and
none reads it from inside a literal, unless that reads both spellings alike. -/
structure KeepsCalls (above key key' below : List Char) : Prop where
  apart : LeavesOut whitelistCall above key below
  apart' : LeavesOut whitelistCall above key' below
  literals : ClosesLiterals above ∨ KeepsEscapes key ∧ KeepsEscapes key'

/-- A call of a text, in that text with something behind it. -/
def callBefore (rest : List Char) (call : Found Piece) : Found Piece :=
  call.within (atStart []) rest (Piece.within (atStart []) rest)

/-- A call of a text, in that text with something before it. -/
def callBehind (front : List Char) (call : Found Piece) : Found Piece :=
  call.within ⟨front.reverse, []⟩ [] (Piece.within ⟨front.reverse, []⟩ [])

variable {above key key' below : List Char}

/-! ### Scans -/

section Scans

variable {nesting : Nesting} {cs : List Char} {x : Char}

theorem KeepsEscapes.tail (h : KeepsEscapes (x :: key)) : KeepsEscapes key :=
  fun passed y more hparts ↦ h (x :: passed) y more (congrArg (x :: ·) hparts)

theorem normalKey_cons_of_kept (hx : isKept x = true) (key : List Char) :
    normalKey (x :: key) = x :: normalKey key :=
  List.filter_cons_of_pos hx

theorem normalKey_cons_of_not_kept (hx : ¬isKept x = true) (key : List Char) :
    normalKey (x :: key) = normalKey key :=
  List.filter_cons_of_neg hx

theorem isBare_of_not_kept (hx : ¬isKept x = true) : isBare x = true ∧ x ≠ '\\' := by
  by_cases hblank : isBlank x = true
  · refine ⟨isBare_of_isBlank hblank, ?_⟩
    rintro rfl
    exact absurd hblank (by decide)
  · obtain rfl : x = '$' := by simpa [isKept, hblank] using hx
    decide

/-- A blank or a sigil changes no nesting, but for one that a backslash takes. -/
theorem step_of_not_kept (hx : ¬isKept x = true) (hquotes : nesting.quotes ≠ .escaped) :
    nesting.step x = nesting := by
  obtain ⟨hbare, hbackslash⟩ := isBare_of_not_kept hx
  simp only [isBare, isPlain, Bool.and_eq_true, bne_iff_ne, Bool.not_eq_true'] at hbare
  obtain ⟨⟨⟨hquote, hopening⟩, hclosing⟩, -⟩ := hbare
  obtain ⟨depth, quotes⟩ := nesting
  cases quotes with
  | outside => simp [Nesting.step, hquote, hopening, hclosing]
  | inside => simp [Nesting.step, QuoteState.step, hquote, hbackslash]
  | escaped => exact absurd rfl hquotes

/-- Only behind a backslash the next character is taken with it. -/
theorem step_escaped (h : (nesting.step x).quotes = .escaped) : x = '\\' := by
  obtain ⟨depth, quotes⟩ := nesting
  by_cases houtside : quotes = .outside ∧ x ≠ '"'
  · obtain ⟨rfl, hquote⟩ := houtside
    rw [Nesting.step, if_pos ⟨rfl, hquote⟩] at h
    split_ifs at h
  · rw [Nesting.step, if_neg houtside] at h
    cases quotes with
    | outside => exact absurd h (by dsimp only; rw [QuoteState.step]; split <;> decide)
    | inside =>
      by_contra hx
      exact absurd h (by dsimp only; rw [QuoteState.step, if_neg hx]; split <;> decide)
    | escaped => cases h

/-- Where escapes are kept a scan takes up the same without blanks and sigils. -/
theorem scannedKey_normalKey (hkey : KeepsEscapes key)
    (hquotes : nesting.quotes = .escaped → ∀ x ∈ key.head?, isKept x = true) (rest : List Char) :
    scannedKey nesting (key ++ rest) = scannedKey nesting (normalKey key ++ rest) := by
  induction key generalizing nesting with
  | nil => rfl
  | cons x key ih =>
    by_cases hx : isKept x = true
    · -- a backslash that takes the next character stands before one that is kept
      have hnext : (nesting.step x).quotes = .escaped → ∀ y ∈ key.head?, isKept y = true := by
        intro hescaped y hy
        obtain ⟨more, rfl⟩ := List.head?_eq_some_iff.1 hy
        exact hkey [] y more (by rw [step_escaped hescaped]; rfl)
      rw [normalKey_cons_of_kept hx, List.cons_append, List.cons_append, scannedKey, scannedKey,
        ih hkey.tail hnext]
    · have hnot : nesting.quotes ≠ .escaped := fun hescaped ↦ hx (hquotes hescaped x rfl)
      obtain ⟨hbare, -⟩ := isBare_of_not_kept hx
      have hdelimiter : isDelimiter x = false := by
        simp only [isBare, Bool.and_eq_true, Bool.not_eq_true'] at hbare
        exact hbare.2
      rw [normalKey_cons_of_not_kept hx, ← ih hkey.tail fun h ↦ absurd h hnot, List.cons_append,
        scannedKey, if_neg (by simp [hdelimiter]), step_of_not_kept hx hnot,
        normalKey_cons_of_not_kept hx]
      exact Option.map_id'

/-- Whether an argument that starts with a text ends in it, or comes to both spellings of a key
behind it in the same way: outside literals, or inside of one in which both keep their escapes. -/
def ReadsAlike (key key' cs : List Char) : Prop :=
  (scannedKey .top cs).isSome = true ∨ (Nesting.steps .top cs).quotes = .outside ∨
    (Nesting.steps .top cs).quotes ≠ .escaped ∧ KeepsEscapes key ∧ KeepsEscapes key'

/-- Such an argument takes up the same. -/
theorem scannedKey_respelled (hkey : Expression isBare key) (hkey' : Expression isBare key')
    (hsame : normalKey key = normalKey key') (h : ReadsAlike key key' cs) (rest : List Char) :
    scannedKey .top (cs ++ (key ++ rest)) = scannedKey .top (cs ++ (key' ++ rest)) := by
  rw [scannedKey_append .top cs, scannedKey_append .top cs]
  rcases h with hends | houtside | ⟨hquotes, hescapes, hescapes'⟩
  · rw [Option.or_of_isSome hends, Option.or_of_isSome hends]
  · obtain ⟨depth, hnesting⟩ : ∃ depth, Nesting.steps .top cs = ⟨depth, .outside⟩ :=
      ⟨(Nesting.steps .top cs).depth, by rw [← houtside]⟩
    rw [hnesting, scannedKey_of_expression hkey fun _ h ↦ passes_isBare h depth,
      scannedKey_of_expression hkey' fun _ h ↦ passes_isBare h depth, hsame]
  · rw [scannedKey_normalKey hescapes fun h ↦ absurd h hquotes,
      scannedKey_normalKey hescapes' fun h ↦ absurd h hquotes, hsame]

end Scans

/-! ### Calls -/

section Calls

variable {after : List Char}

/-- The key of a call that is followed by a key, or by something before it. -/
theorem callKey_respelled (hkey : IsSpelling key) (hkey' : IsSpelling key')
    (hsame : normalKey key = normalKey key') (h : ∀ cs ∈ afterComma after, ReadsAlike key key' cs)
    (rest : List Char) :
    (afterComma (after ++ (key ++ rest))).bind argumentKey =
      (afterComma (after ++ (key' ++ rest))).bind argumentKey := by
  obtain ⟨x, more, hparts, hblank, hdelimiter⟩ := head_of_expression hkey.expression hkey.trimmed
  obtain ⟨x', more', hparts', hblank', hdelimiter'⟩ :=
    head_of_expression hkey'.expression hkey'.trimmed
  have hcons : key ++ rest = x :: (more ++ rest) := by rw [hparts, List.cons_append]
  have hcons' : key' ++ rest = x' :: (more' ++ rest) := by rw [hparts', List.cons_append]
  rw [hcons, hcons', afterComma_append hblank hdelimiter, afterComma_append hblank' hdelimiter']
  cases hafter : afterComma after with
  | none => rfl
  | some cs =>
    have hscan := scannedKey_respelled hkey.expression hkey'.expression hsame (h cs hafter) rest
    rw [hcons, hcons'] at hscan
    show argumentKey (cs ++ x :: (more ++ rest)) = argumentKey (cs ++ x' :: (more' ++ rest))
    rw [argumentKey_append hblank hdelimiter, argumentKey_append hblank' hdelimiter', hscan]

end Calls

/-! ### Keys -/

section Keys

variable {before rest : List Char} {d : Cursor}

/-- The first assignment that opens in a text, if any does. -/
theorem exists_first_opening (before text : List Char) :
    (∀ passed x more, text = passed ++ x :: more →
        keyOpening ⟨passed.reverse ++ before, x :: more⟩ = none) ∨
      ∃ above below d, text = above ++ below ∧
        keyOpening ⟨above.reverse ++ before, below⟩ = some d ∧
        ∀ passed x more, above = passed ++ x :: more →
          keyOpening ⟨passed.reverse ++ before, x :: (more ++ below)⟩ = none := by
  induction text generalizing before with
  | nil => exact .inl fun passed x more hparts ↦ absurd hparts (by simp)
  | cons y text ih =>
    cases hopening : keyOpening ⟨before, y :: text⟩ with
    | some d => exact .inr ⟨[], y :: text, d, rfl, hopening, by simp⟩
    | none =>
      have hback : ∀ passed : List Char,
          (y :: passed).reverse ++ before = passed.reverse ++ y :: before := by simp
      rcases ih (y :: before) with hnone | ⟨above, below, d, rfl, hsome, hfirst⟩
      · refine .inl fun passed x more hparts ↦ ?_
        cases passed with
        | nil =>
          obtain ⟨rfl, rfl⟩ := List.cons.inj hparts
          exact hopening
        | cons z passed =>
          obtain ⟨rfl, htext⟩ := List.cons.inj hparts
          rw [hback]
          exact hnone passed x more htext
      · refine .inr ⟨y :: above, below, d, rfl, by rw [hback, hsome], fun passed x more hparts ↦ ?_⟩
        cases passed with
        | nil =>
          obtain ⟨rfl, rfl⟩ := List.cons.inj hparts
          exact hopening
        | cons z passed =>
          obtain ⟨rfl, habove⟩ := List.cons.inj hparts
          rw [hback]
          exact hfirst passed x more habove

/-- The key of a text in which an assignment opens. -/
theorem declaredKey_of_first_opening (hopening : keyOpening ⟨above.reverse, below⟩ = some d)
    (hfirst : ∀ passed x more, above = passed ++ x :: more →
      keyOpening ⟨passed.reverse, x :: (more ++ below)⟩ = none)
    (hne : keyLine (d.after ++ rest) ≠ []) :
    declaredKey (above ++ (below ++ rest)) = some (normalKey (keyLine (d.after ++ rest))) := by
  obtain ⟨bs, hbs, hreads⟩ := keyOpening_eq_some_iff.1 hopening
  obtain ⟨more, hbelow⟩ : ∃ more, below = '$' :: more := by
    have hafter : below = "$alert.key".toList ++ bs ++ ['='] ++ d.after := hreads.after_eq
    rw [toList_alertKey] at hafter
    exact ⟨_, hafter⟩
  have hopening' : keyOpening (atStart (below ++ rest)) =
      some ⟨("$alert.key".toList ++ bs ++ ['=']).reverse, d.after ++ rest⟩ := by
    refine keyOpening_eq_some_iff.2 ⟨bs, hbs, by simp [atStart], ?_⟩
    have hafter : below = "$alert.key".toList ++ bs ++ ['='] ++ d.after := hreads.after_eq
    show below ++ rest = _
    rw [hafter, List.append_assoc _ d.after]
  rw [declaredKey_below, declaredKey_of_opening hopening' hne]
  -- the sigil stops every assignment that opens before it
  intro passed x more' hparts
  have hnone := hfirst passed x more' hparts
  rw [hbelow, keyOpening_append_eq_none_iff (.inl rfl)] at hnone
  rwa [hbelow, List.cons_append, keyOpening_append_eq_none_iff (.inl rfl)]

/-- A line that ends before a key. -/
theorem keyLine_of_feed {cs : List Char} (hfeed : '\n' ∈ cs.dropWhile isBlank) (rest : List Char) :
    keyLine (cs ++ rest) = keyLine cs ∧ keyLine cs ≠ [] := by
  obtain ⟨x, line, hline⟩ := List.exists_cons_of_ne_nil (List.ne_nil_of_mem hfeed)
  have hx : isBlank x = false := by
    have hhead := List.head?_dropWhile_not isBlank cs
    rw [hline] at hhead
    simpa using hhead
  have hcut : ((cs.dropWhile isBlank).takeWhile (· != '\n')).length ≠
      (cs.dropWhile isBlank).length := by
    intro hlength
    have hall := (List.takeWhile_prefix _).eq_of_length hlength
    rw [List.takeWhile_eq_self_iff] at hall
    exact absurd (hall _ hfeed) (by decide)
  constructor
  · rw [keyLine, keyLine, List.dropWhile_append, if_neg (by simp [hline]), List.takeWhile_append,
      if_neg hcut]
  · have hsolid : (x != '\n') = true := bne_iff_ne.2 (by rintro rfl; exact absurd hx (by decide))
    rw [keyLine, hline, List.takeWhile_cons, if_pos hsolid]
    exact List.cons_ne_nil _ _

/-- A line that goes on to a key. -/
theorem keyLine_of_unbroken (hkey : IsSpelling key) {cs : List Char}
    (hfeed : '\n' ∉ cs.dropWhile isBlank) (below : List Char) :
    keyLine (cs ++ (key ++ below)) =
      cs.dropWhile isBlank ++ (key ++ below.takeWhile (· != '\n')) := by
  have hunbroken : ∀ line : List Char, '\n' ∉ line → ∀ x ∈ line, (x != '\n') = true :=
    fun line hline x hx ↦ bne_iff_ne.2 (ne_of_mem_of_not_mem hx hline)
  have hdrop : (cs ++ (key ++ below)).dropWhile isBlank =
      cs.dropWhile isBlank ++ (key ++ below) := by
    rw [List.dropWhile_append]
    split
    · rename_i hnil
      obtain ⟨x, more, rfl, hblank, -⟩ := head_of_expression hkey.expression hkey.trimmed
      rw [List.isEmpty_iff.1 hnil, List.cons_append, List.dropWhile_cons_of_neg (by simp [hblank])]
      rfl
    · rfl
  rw [keyLine, hdrop, List.takeWhile_append_of_pos (hunbroken _ hfeed),
    List.takeWhile_append_of_pos (hunbroken _ hkey.unbroken)]

/-- The line of an assignment that goes over a key, or ends before it. -/
theorem keyLine_respelled (hkey : IsSpelling key) (hkey' : IsSpelling key')
    (hsame : normalKey key = normalKey key') (cs below : List Char) :
    normalKey (keyLine (cs ++ (key ++ below))) = normalKey (keyLine (cs ++ (key' ++ below))) ∧
      keyLine (cs ++ (key ++ below)) ≠ [] := by
  by_cases hfeed : '\n' ∈ cs.dropWhile isBlank
  · obtain ⟨hline, hne⟩ := keyLine_of_feed hfeed (key ++ below)
    rw [hline, (keyLine_of_feed hfeed (key' ++ below)).1]
    exact ⟨rfl, hne⟩
  · rw [keyLine_of_unbroken hkey hfeed, keyLine_of_unbroken hkey' hfeed, normalKey_append,
      normalKey_append, normalKey_append, normalKey_append, hsame]
    exact ⟨rfl, List.append_ne_nil_of_right_ne_nil _ (List.append_ne_nil_of_left_ne_nil
      hkey.trimmed.1 _)⟩

/-- Blanks behind a text open no assignment. -/
theorem keyOpening_append_blanks {pad more : List Char} {x : Char} (hpad : pad ∈ blanks)
    (h : keyOpening ⟨before, x :: more⟩ = none) :
    keyOpening ⟨before, x :: (more ++ pad)⟩ = none := by
  rw [Option.eq_none_iff_forall_ne_some] at h ⊢
  intro d hd
  obtain ⟨bs, hbs, hreads⟩ := keyOpening_eq_some_iff.1 hd
  have hparts : (x :: more) ++ pad = ("$alert.key".toList ++ bs ++ ['=']) ++ d.after :=
    hreads.after_eq
  rcases List.append_eq_append_iff.1 hparts with ⟨as, has, hrest⟩ | ⟨as, has, -⟩
  · rcases List.eq_nil_or_concat as with rfl | ⟨as, y, rfl⟩
    · refine h ⟨_, []⟩ (keyOpening_eq_some_iff.2 ⟨bs, hbs, rfl, ?_⟩)
      rw [List.append_nil, has, List.append_nil]
    · -- the sign would be one of the blanks
      rw [List.concat_eq_append, ← List.append_assoc] at has
      obtain ⟨-, hy⟩ := List.append_inj' has rfl
      obtain rfl : '=' = y := by simpa using hy
      exact absurd (hpad '=' (by rw [hrest]; simp)) (by decide)
  · exact h ⟨_, as⟩ (keyOpening_eq_some_iff.2 ⟨bs, hbs, rfl, has⟩)

/-- A key argument adds no assignment. -/
theorem declaredKey_behind_argument {cs pad pad' : List Char} {y : Char} (hkey : IsSpelling key)
    (hnone : ∀ passed x more, cs ++ ',' :: pad = passed ++ x :: more →
      keyOpening ⟨passed.reverse, x :: more⟩ = none)
    (hpad : pad ∈ blanks) (hpad' : pad' ∈ blanks) (hy : isDelimiter y = true) (rest : List Char) :
    declaredKey ((cs ++ ',' :: pad) ++ (key ++ (pad' ++ y :: rest))) =
      declaredKey (pad' ++ y :: rest) := by
  rw [declaredKey_below, declaredKey_below]
  · intro passed x more hparts
    have hkeyNone := keyOpening_append_blanks hpad' (hkey.assignsNothing passed x more hparts)
    rwa [← List.append_assoc, keyOpening_append_eq_none_iff (.inr hy)]
  · intro passed x more hparts
    rcases List.append_eq_append_iff.1 hparts with ⟨as, -, hbehind⟩ | ⟨as, rfl, hbehind⟩
    · -- from the comma on there is no sigil
      refine keyOpening_eq_none_of_ne fun hx ↦ ?_
      have hmem : '$' ∈ ',' :: pad := by
        rw [hbehind, hx]
        simp
      rcases List.mem_cons.1 hmem with hmem | hmem
      · exact absurd hmem (by decide)
      · exact absurd (hpad _ hmem) (by decide)
    · cases as with
      | nil =>
        obtain ⟨rfl, -⟩ := List.cons.inj hbehind
        exact keyOpening_eq_none_of_ne (by decide)
      | cons z as =>
        obtain ⟨rfl, hmore⟩ := List.cons.inj hbehind
        obtain rfl : more = as ++ ',' :: pad := hmore
        have hcut := hnone passed x (as ++ ',' :: pad) (by simp)
        rw [keyOpening_append_eq_none_iff (.inr rfl)] at hcut
        rwa [List.append_assoc, List.cons_append, keyOpening_append_eq_none_iff (.inr rfl)]

/-- Before the expression of an assignment there is a sign, and before a key argument a comma. -/
theorem IsKeyText.exists_before (h : IsKeyText above key below) :
    ∃ passed y pad, above = passed ++ y :: pad ∧ pad ∈ blanks ∧ y ≠ '\\' ∧
      ((∃ first last d, above = first ++ last ∧ keyOpening ⟨first.reverse, last⟩ = some d) ∨
        y = ',' ∧ ∃ pad' z rest, below = pad' ++ z :: rest ∧ pad' ∈ blanks ∧
          isDelimiter z = true) := by
  rcases h with ⟨found, -, -, sign, hsign, hplace⟩ | ⟨call, -, argument, hargument, hstart, hstop⟩
  · obtain ⟨bs, hbs, hreads⟩ := keyOpening_eq_some_iff.1 hsign
    obtain ⟨pad, hpad, hblank⟩ := sign.reads_skipBlanks
    have hbefore := (hreads.trans hpad).before_eq
    rw [hplace] at hbefore
    have habove : above =
        found.start.before.reverse ++ ("$alert.key".toList ++ bs ++ ['='] ++ pad) := by
      have hreverse := congrArg List.reverse hbefore
      simpa using hreverse
    refine ⟨found.start.before.reverse ++ ("$alert.key".toList ++ bs), '=', pad,
      by rw [habove]; simp, hblank, by decide, .inl ?_⟩
    exact ⟨_, _, ⟨_, pad⟩, habove, keyOpening_eq_some_iff.2 ⟨bs, hbs, rfl, rfl⟩⟩
  · obtain ⟨c, hcomma, hargument⟩ := Option.bind_eq_some_iff.1 hargument
    obtain ⟨hskip, as, pad', delimiter, -, -, -, -, hpad', hblank', hends⟩ :=
      reads_argument hargument
    obtain ⟨pad, hpad, hblank⟩ := c.reads_skipBlanks
    obtain ⟨z, hhead, hz⟩ := hends.delimiter
    obtain ⟨rest, hrest⟩ := List.head?_eq_some_iff.1 hhead
    have hbefore := ((reads_char hcomma).trans hpad).before_eq
    rw [← hskip, hstart] at hbefore
    have hbelow := hpad'.after_eq
    rw [hstop, hrest] at hbelow
    refine ⟨call.stop.skipBlanks.before.reverse, ',', pad, ?_, hblank, by decide,
      .inr ⟨rfl, pad', z, rest, hbelow, hblank', hz⟩⟩
    have hreverse := congrArg List.reverse hbefore
    simpa using hreverse

/-- The declared key is the same with another spelling of a key. -/
theorem Respells.declaredKey_eq (h : Respells above key key' below) :
    declaredKey (above ++ (key ++ below)) = declaredKey (above ++ (key' ++ below)) := by
  obtain ⟨passed, y, pad, habove, hpad, -, hplace⟩ := h.place.exists_before
  rcases exists_first_opening [] above with hnone | ⟨first, last, d, hparts, hopening, hfirst⟩
  · have hnone' : ∀ passed x more, above = passed ++ x :: more →
        keyOpening ⟨passed.reverse, x :: more⟩ = none := fun passed x more hparts ↦ by
      rw [← hnone passed x more hparts, List.append_nil]
    rcases hplace with ⟨first, last, d, hparts, hopening⟩ | ⟨rfl, pad', z, rest, rfl, hpad', hz⟩
    · obtain ⟨x, more, rfl⟩ := List.exists_cons_of_ne_nil
        (List.ne_nil_of_mem (mem_after_of_keyOpening hopening))
      rw [hnone' first x more hparts] at hopening
      cases hopening
    · subst habove
      rw [declaredKey_behind_argument h.spelling hnone' hpad hpad' hz,
        declaredKey_behind_argument h.spelling' hnone' hpad hpad' hz]
  · rw [List.append_nil] at hopening
    have hfirst' : ∀ passed x more, first = passed ++ x :: more →
        keyOpening ⟨passed.reverse, x :: (more ++ last)⟩ = none := fun passed x more hparts ↦ by
      rw [← hfirst passed x more hparts, List.append_nil]
    obtain ⟨hline, hne⟩ := keyLine_respelled h.spelling h.spelling' h.same d.after below
    obtain ⟨-, hne'⟩ := keyLine_respelled h.spelling' h.spelling h.same.symm d.after below
    rw [hparts, List.append_assoc, List.append_assoc,
      declaredKey_of_first_opening hopening hfirst' hne,
      declaredKey_of_first_opening hopening hfirst' hne', hline]

end Keys

/-! ### Reported calls -/

/-- A scan that comes to a key does so behind no backslash. -/
theorem quotes_ne_escaped {passed pad front cs : List Char} {y : Char} (hpad : pad ∈ blanks)
    (hy : y ≠ '\\') (hparts : passed ++ y :: pad = front ++ cs) :
    (Nesting.steps .top cs).quotes ≠ .escaped := by
  rcases List.eq_nil_or_concat cs with rfl | ⟨cs, x, rfl⟩
  · decide
  · intro hescaped
    rw [Nesting.steps, List.concat_eq_append, List.foldl_concat] at hescaped
    obtain rfl := step_escaped hescaped
    rw [List.concat_eq_append, ← List.append_assoc] at hparts
    have hlast := congrArg List.getLast? hparts
    rw [List.getLast?_concat, List.getLast?_append_cons] at hlast
    rcases List.mem_cons.1 (List.mem_of_getLast? hlast) with hmem | hmem
    · exact hy hmem.symm
    · exact absurd (hpad _ hmem) (by decide)

/-- The key of a call above a key is the same with another spelling of that. -/
theorem KeepsCalls.callKey_eq (h : Respells above key key' below)
    (hcalls : KeepsCalls above key key' below) {call : Found Piece}
    (hcall : call ∈ findAll whitelistCall above) :
    callKey (callBefore (key ++ below) call) = callKey (callBefore (key' ++ below) call) := by
  rw [Check.callKey_eq, Check.callKey_eq]
  refine callKey_respelled h.spelling h.spelling' h.same (fun cs hcs ↦ ?_) below
  rw [← after_comma] at hcs
  obtain ⟨c, hcomma, rfl⟩ := Option.map_eq_some_iff.1 hcs
  rcases hcalls.literals with hcloses | hescapes
  · rcases hcloses call hcall c hcomma with hends | houtside
    · refine .inl ?_
      rw [scannedKey_after, Option.isSome_map]
      exact hends
    · exact .inr (.inl houtside)
  · obtain ⟨passed, y, pad, habove, hpad, hy, -⟩ := h.place.exists_before
    obtain ⟨htext, hanswer⟩ := of_mem_findAll (fun _ _ _ ↦ text_whitelistCall) hcall
    have habove' : c.before.reverse ++ c.after = above := by
      rw [← htext, ← text_whitelistCall hanswer, ← text_skipBlanks, ← (reads_char hcomma).text_eq]
      rfl
    exact .inr (.inr ⟨quotes_ne_escaped hpad hy (habove.symm.trans habove'.symm), hescapes⟩)

theorem isReported_congr {call call' : Found Piece} (h : callKey call = callKey call')
    (declared : Option (List Char)) : isReported declared call = isReported declared call' := by
  rw [isReported, isReported, h]

/-- The reported calls of a text with a key that no call touches. -/
theorem reportedCalls_of_leavesOut (h : LeavesOut whitelistCall above key below) :
    reportedCalls (above ++ (key ++ below)) =
      ((findAll whitelistCall above).filter fun call ↦
          isReported (declaredKey (above ++ (key ++ below))) (callBefore (key ++ below) call)).map
            (callBefore (key ++ below)) ++
        ((findAll whitelistCall below).filter
            (isReported (declaredKey (above ++ (key ++ below))))).map
          (callBehind (above ++ key)) := by
  have hcalls : findAll whitelistCall (above ++ (key ++ below)) =
      (findAll whitelistCall above).map (callBefore (key ++ below)) ++
        (findAll whitelistCall below).map (callBehind (above ++ key)) :=
    h.findAll_eq local_whitelistCall (carries_whitelistCall apart_nil)
  rw [reportedCalls, hcalls, List.filter_append, List.filter_map, List.filter_map]
  refine congrArg₂ (· ++ ·) rfl (congrArg _ (List.filter_congr fun call _ ↦ ?_))
  refine isReported_congr ?_ _
  rw [Check.callKey_eq, Check.callKey_eq]
  exact congrArg (fun after ↦ (afterComma after).bind argumentKey) (List.append_nil _)

/-- **Keys count without blanks and sigils.** When the expression of the first assignment of a key,
or the key argument of a call, is spelled in another way, the calls that are reported are the same
ones at the same places, as long as calls do not depend on the spelling. In every document there is
one finding for each reported call, in order, and a call with a well-formed key argument is reported
if and only if the declared key is not that of another rule and the argument is another key than the
declared and the forwarded one. -/
theorem reportedCalls_respelled (h : Respells above key key' below)
    (hcalls : KeepsCalls above key key' below) :
    (∃ first rest : List (Found Piece),
      reportedCalls (above ++ (key ++ below)) =
          first.map (callBefore (key ++ below)) ++ rest.map (callBehind (above ++ key)) ∧
        reportedCalls (above ++ (key' ++ below)) =
          first.map (callBefore (key' ++ below)) ++ rest.map (callBehind (above ++ key'))) ∧
      (∀ document : Document, List.Forall₂ (fun call finding ↦ ∃ argument,
          keyArgument call = some argument ∧
            finding = findingAt .whitelistKeyMismatch (argument, keyMessage))
        (reportedCalls document.chars) (document.loops .whitelistKeyMismatch).flatten) ∧
      ∀ text argument, ∀ call ∈ findAll whitelistCall text, LooksUp call argument →
        (call ∈ reportedCalls text ↔ ∃ declared, declaredKey text = some declared ∧
          declared ≠ inheritedKey ∧ normalKey argument ≠ declared ∧
            normalKey argument ≠ forwardedKey) := by
  refine ⟨⟨_, _, reportedCalls_of_leavesOut hcalls.apart, ?_⟩,
    fun document ↦ findings_of_reportedCalls (.ofDocument document document.chars.length),
    fun text argument call hcall hargument ↦ mem_reportedCalls_iff hcall hargument⟩
  rw [reportedCalls_of_leavesOut hcalls.apart', h.declaredKey_eq]
  refine congrArg₂ (· ++ ·) (congrArg _ (List.filter_congr fun call hcall ↦ ?_)) rfl
  exact isReported_congr (hcalls.callKey_eq h hcall).symm _

/-- What has to be checked of an expression without signs. -/
theorem isSpelling_of_notMem (hexpression : Expression isBare key)
    (hhead : key.head?.any (!isBlank ·) = true) (hlast : key.getLast?.any (!isBlank ·) = true)
    (hunbroken : '\n' ∉ key) (hsign : '=' ∉ key) : IsSpelling key where
  expression := hexpression
  trimmed := by
    refine ⟨?_, fun x hx ↦ ?_, fun x hx ↦ ?_⟩
    · rintro rfl
      cases hhead
    · rw [Option.mem_def.1 hx] at hhead
      simpa using hhead
    · rw [Option.mem_def.1 hx] at hlast
      simpa using hlast
  unbroken := hunbroken
  assignsNothing passed x more hparts := by
    rw [Option.eq_none_iff_forall_ne_some]
    intro d hd
    refine hsign ?_
    rw [hparts]
    exact List.mem_append_right _ (mem_after_of_keyOpening hd)

/-- A nested call, spelled with a sigil and blanks and without. -/
theorem reportedCalls_respelled_nested :
    let above := "$alert.key = $user\nfilter::CheckWL_A(\"r\", ".toList
    let key := "lower( $host )".toList
    let key' := "lower(host)".toList
    let below := ")\n".toList
    Respells above key key' below ∧ KeepsCalls above key key' below ∧
      (reportedCalls (above ++ (key ++ below))).length = 1 ∧ ∃ first rest : List (Found Piece),
        reportedCalls (above ++ (key ++ below)) =
            first.map (callBefore (key ++ below)) ++ rest.map (callBehind (above ++ key)) ∧
          reportedCalls (above ++ (key' ++ below)) =
            first.map (callBefore (key' ++ below)) ++ rest.map (callBehind (above ++ key')) := by
  intro above key key' below
  have hword : ∀ {cs : List Char} {alone : Char → Bool}, cs.all alone = true →
      Expression alone cs := fun h ↦
    expression_of_forall (List.all_eq_true.1 h)
  have hkey : Expression isBare key :=
    @Expression.append isBare "lower".toList "( $host )".toList (hword (by decide))
      (@Expression.bracket isBare '(' ')' " $host ".toList [] rfl (hword (by decide)) rfl .nil)
  have hkey' : Expression isBare key' :=
    @Expression.append isBare "lower".toList "(host)".toList (hword (by decide))
      (@Expression.bracket isBare '(' ')' "host".toList [] rfl (hword (by decide)) rfl .nil)
  have hrespells : Respells above key key' below :=
    ⟨by rw [IsKeyText]; decide +kernel,
      isSpelling_of_notMem hkey (by decide) (by decide) (by decide) (by decide),
      isSpelling_of_notMem hkey' (by decide) (by decide) (by decide) (by decide),
      by decide⟩
  have hcalls : KeepsCalls above key key' below :=
    ⟨by rw [LeavesOut]; decide +kernel, by rw [LeavesOut]; decide +kernel,
      .inl (by unfold ClosesLiterals ArgumentEnds; decide +kernel)⟩
  exact ⟨hrespells, hcalls, by decide +kernel, (reportedCalls_respelled hrespells hcalls).1⟩

/-- Three keys in which no call stands and whose spelling counts all the same: behind the first
there is the rest of a call; the second is read from inside a literal, in which the backslash takes
the blank or the quote; the third ends a call and decides whether that has an argument. -/
theorem respelled_key_reported_apart :
    let findings (text : List Char) : List Diagnostic :=
      (Document.loops ⟨"file:///a.co", "co", 1, String.ofList text⟩ .whitelistKeyMismatch).flatten
    let differ (above key key' below : String) : Prop :=
      Respells above.toList key.toList key'.toList below.toList ∧
        findAll whitelistCall key.toList = [] ∧ findAll whitelistCall key'.toList = [] ∧
        (findings (above.toList ++ (key.toList ++ below.toList))).length ≠
          (findings (above.toList ++ (key'.toList ++ below.toList))).length
    differ "$alert.key = " "filter:: CheckWL_A" "filter::CheckWL_A" "\n(\"r\", $user)\n" ∧
      differ "$alert.key = k\nfilter::CheckWL_A(\"r\", \"x)\nfilter::CheckWL_B(\"s\", "
        "\\ \"a\"" "\\\"a\"" ")\n" ∧
      differ "filter::CheckWL_A(\"$alert.key = " "x\"$, \"" "x\", \"" "\nfoo\", y)\n" := by
  intro findings differ
  have hword : ∀ {key : List Char}, key.all isBare = true → Expression isBare key :=
    fun h ↦ expression_of_forall (List.all_eq_true.1 h)
  have hliteral : ∀ {cs content : List Char}, cs.all isBare = true →
      content.all (fun x ↦ x != '"' && x != '\\') = true →
      Expression isBare (cs ++ '"' :: (content ++ ['"'])) := fun hcs hcontent ↦
    (hword hcs).append <| .literal
      (escaped_of_forall fun x hx ↦ by simpa using List.all_eq_true.1 hcontent x hx) .nil
  refine ⟨⟨⟨by rw [IsKeyText]; decide +kernel, ?_, ?_, by decide⟩, by decide +kernel,
      by decide +kernel, by decide +kernel⟩,
    ⟨⟨by rw [IsKeyText]; decide +kernel, ?_, ?_, by decide⟩, by decide +kernel,
      by decide +kernel, by decide +kernel⟩,
    ⟨⟨by rw [IsKeyText]; decide +kernel, ?_, ?_, by decide⟩, by decide +kernel,
      by decide +kernel, by decide +kernel⟩⟩
  · exact isSpelling_of_notMem (hword (by decide)) (by decide) (by decide) (by decide) (by decide)
  · exact isSpelling_of_notMem (hword (by decide)) (by decide) (by decide) (by decide) (by decide)
  · exact isSpelling_of_notMem (@hliteral "\\ ".toList ['a'] (by decide) (by decide))
      (by decide) (by decide) (by decide) (by decide)
  · exact isSpelling_of_notMem (@hliteral ['\\'] ['a'] (by decide) (by decide))
      (by decide) (by decide) (by decide) (by decide)
  · exact isSpelling_of_notMem (@hliteral ['x'] "$, ".toList (by decide) (by decide))
      (by decide) (by decide) (by decide) (by decide)
  · exact isSpelling_of_notMem (@hliteral ['x'] ", ".toList (by decide) (by decide))
      (by decide) (by decide) (by decide) (by decide)

end RuleLint
