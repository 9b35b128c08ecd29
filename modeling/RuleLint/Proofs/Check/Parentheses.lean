import RuleLint.Proofs.Check.Limits
import RuleLint.Proofs.Check.Loops

/-!
# Which parenthesis closes a lowered value

The argument of `lower` is read as the shortest run without blanks after which the rest of the
construct stands: a parenthesis, an operator or a comma, and a literal. The run may hold parentheses
itself, and nothing counts them.

So what is read is the first text that fits (`FirstFit`), wherever the call is closed. It is the
argument of the call if and only if this one fits and no shorter text does
(`lowered_argument_first_fit`). A shorter one fits if a call inside the argument is compared, and a
longer one is taken if a call around `lower` is (`lowered_argument_of_outer_call`).
-/

namespace RuleLint

open Cursor Construct

namespace Construct

/-- Whether the parentheses of a text pair up: no part from its start on closes more than it opens,
and in the end as many are closed as are opened. -/
structure Balanced (cs : List Char) : Prop where
  bounded : ∀ as bs, cs = as ++ bs → as.count ')' ≤ as.count '('
  closed : cs.count '(' = cs.count ')'

/-- Whether a text behind an opening parenthesis goes on with `own` up to the parenthesis that
closes it. -/
structure Closes (text own : List Char) : Prop where
  balanced : Balanced own
  closing : ∃ rest, text = own ++ ')' :: rest

/-- What stands behind a lowered value: what `follower` says, and a literal. -/
def loweredRest (follower : Language Char) : Language Char :=
  blanks * follower * blanks * literal ⊤

/-- Whether a text goes on with an argument without blanks in it, a closing parenthesis, and what
stands behind a lowered value. -/
structure Fits (follower : Language Char) (text argument : List Char) : Prop where
  isRun : argument ∈ blanks * several Check.isSolid * blanks
  followed : ∃ rest ∈ loweredRest follower * ⊤, text = argument ++ ')' :: rest

/-- Whether an argument is the shortest that fits. -/
structure FirstFit (follower : Language Char) (text argument : List Char) : Prop where
  fits : Fits follower text argument
  least : ∀ other, Fits follower text other → argument.length ≤ other.length

section

variable {follower : Language Char} {text own own' : List Char}

/-- Only one parenthesis closes a call. -/
theorem Closes.unique (h : Closes text own) (h' : Closes text own') : own = own' := by
  have hlonger : ∀ {cs rest : List Char}, Balanced cs → ¬Balanced (cs ++ ')' :: rest) := by
    intro cs rest hcs hlong
    have hcount := hlong.bounded (cs ++ [')']) rest (by simp)
    have hclosed := hcs.closed
    simp at hcount
    omega
  obtain ⟨rest, hrest⟩ := h.closing
  obtain ⟨rest', hrest'⟩ := h'.closing
  rcases List.append_eq_append_iff.1 (hrest.symm.trans hrest') with
    ⟨more, rfl, hmore⟩ | ⟨more, rfl, hmore⟩
  · cases more with
    | nil => rw [List.append_nil]
    | cons x more =>
      obtain rfl := (List.cons.inj hmore).1
      exact absurd h'.balanced (hlonger h.balanced)
  · cases more with
    | nil => rw [List.append_nil]
    | cons x more =>
      obtain rfl := (List.cons.inj hmore).1
      exact absurd h.balanced (hlonger h'.balanced)

theorem FirstFit.unique (h : FirstFit follower text own) (h' : FirstFit follower text own') :
    own = own' := by
  have hlength := (h.least _ h'.fits).antisymm (h'.least _ h.fits)
  obtain ⟨rest, -, hrest⟩ := h.fits.followed
  obtain ⟨rest', -, hrest'⟩ := h'.fits.followed
  exact (List.append_inj (hrest.symm.trans hrest') hlength).1

/-- **The first fit is the argument of the call if and only if the argument of the call is the first
fit.** -/
theorem FirstFit.balanced_iff (h : FirstFit follower text own) :
    Balanced own ↔ ∃ argument, Closes text argument ∧ FirstFit follower text argument := by
  constructor
  · intro hbalanced
    obtain ⟨rest, -, hrest⟩ := h.fits.followed
    exact ⟨own, ⟨hbalanced, rest, hrest⟩, h⟩
  · rintro ⟨argument, hcloses, hfirst⟩
    rw [h.unique hfirst]
    exact hcloses.balanced

end

/-- `lower` and its opening parenthesis. -/
def lowerOpening : Language Char :=
  said "lower" * blanks * mark '('

/-- The constructs with a lowered value, up to the opening parenthesis of `lower`. -/
def loweredOpening : Rule → Language Char
  | .nestedLowerCase => oneOf Check.matchingFunctions * blanks * mark '(' * blanks * lowerOpening
  | _ => lowerOpening

/-- What stands between a lowered value and a literal. -/
def loweredFollower : Rule → Language Char
  | .nestedLowerCase => mark ','
  | _ => oneOf ["==", "!="]

/-- Whether a construct with a lowered value goes from `start` to `stop`, with the argument of
`lower` behind `opened`. -/
structure IsLowered (rule : Rule) (start opened stop : Cursor) (argument : List Char) : Prop where
  opening : start.Spells (loweredOpening rule) opened
  rest : ∃ closing, opened.Reads argument closing ∧
    closing.Spells (mark ')' * loweredRest (loweredFollower rule)) stop
  first : FirstFit (loweredFollower rule) opened.after argument

end Construct

namespace Check

variable {c d e : Cursor}

/-! ### Readers along what they read -/

theorem word_of_spells {w : String} (h : c.Spells (said w) d) : c.word w = some d := by
  obtain ⟨_, rfl, hreads⟩ := h
  exact hreads.exactly_eq

theorem char_skipBlanks_of_spells {x : Char} (hblanks : c.Spells blanks d) (h : d.Spells (mark x) e)
    (hx : isBlank x = false) : c.skipBlanks.char x = some e := by
  obtain ⟨_, rfl, hreads⟩ := h
  rw [skipBlanks_of_spells hblanks hreads ⟨x, rfl, hx⟩]
  exact hreads.char_eq

/-- A literal is read where there is one. -/
theorem quoted_of_spells (h : c.Spells (literal ⊤) d) : ∃ piece, quoted c = some (piece, d) := by
  obtain ⟨_, ⟨_, ⟨_, rfl, content, ⟨-, hcontent⟩, rfl⟩, _, rfl, rfl⟩, hreads⟩ := h
  obtain ⟨e, hreads, hclose⟩ := hreads.exists_split
  obtain ⟨start, hopen, hreads⟩ := hreads.exists_split
  have hskip : start.skip isQuotable = e := by
    refine hreads.skip_eq (fun x hx ↦ ?_) fun x hx ↦ ?_
    · simpa [isQuotable] using hcontent x hx
    · obtain rfl := Option.mem_unique hclose.head?_after hx
      rfl
  refine ⟨⟨start, e⟩, ?_⟩
  rw [quoted, hopen.char_eq]
  show ((start.skip isQuotable).char '"').bind _ = _
  rw [hskip, hclose.char_eq]
  rfl

/-- A reader of a language none of whose words begins with a blank. -/
structure ReadsSign (sign : Cursor → Option Cursor) (follower : Language Char) : Prop where
  eq_some_iff : ∀ c d, sign c = some d ↔ c.Spells follower d
  solid : ∀ w ∈ follower, ∃ x ∈ w.head?, isBlank x = false

theorem readsSign_comma : ReadsSign (char ',') (mark ',') where
  eq_some_iff c d := by
    refine ⟨spells_char, ?_⟩
    rintro ⟨_, rfl, hreads⟩
    exact hreads.char_eq
  solid := by
    rintro _ rfl
    exact ⟨',', rfl, by decide⟩

theorem readsSign_operator :
    ReadsSign (fun c ↦ (c.word "==").or (c.word "!=")) (oneOf ["==", "!="]) where
  eq_some_iff c d := by
    constructor
    · intro h
      rcases Option.or_eq_some_iff.1 h with hequal | ⟨-, hdiffers⟩
      · exact spells_oneOf (by simp) hequal
      · exact spells_oneOf (by simp) hdiffers
    · rintro ⟨_, ⟨w, hw, rfl⟩, hreads⟩
      have hword : c.word w = some d := hreads.exactly_eq
      rcases List.mem_pair.1 hw with rfl | rfl
      · rw [hword, Option.some_or]
      · have hnone : c.word "==" = none := by
          rw [Option.eq_none_iff_forall_ne_some]
          intro e he
          have hafter := (reads_word he).after_eq
          rw [hreads.after_eq] at hafter
          exact absurd (List.cons.inj hafter).1 (by decide)
        rw [hnone, hword, Option.none_or]
  solid := by
    rintro _ ⟨w, hw, rfl⟩
    rcases List.mem_pair.1 hw with rfl | rfl
    · exact ⟨'=', by decide, by decide⟩
    · exact ⟨'!', by decide, by decide⟩

/-! ### Lowered values -/

/-- What the checks read after the closing parenthesis of a lowered value. -/
def signedLiteral (sign : Cursor → Option Cursor) : Recogniser Piece := fun c ↦
  (sign c).bind fun c ↦ quoted c.skipBlanks

section Lowered

variable {sign : Cursor → Option Cursor} {follower : Language Char} {piece : Piece}

theorem ReadsSign.spells_rest (hsign : ReadsSign sign follower)
    (h : signedLiteral sign c.skipBlanks = some (piece, d)) :
    c.Spells (loweredRest follower) d := by
  obtain ⟨e, he, h⟩ := Option.bind_eq_some_iff.1 h
  exact ((c.spells_skipBlanks.mul ((hsign.eq_some_iff _ _).1 he)).mul e.spells_skipBlanks).mul
    (spells_quoted h trivial)

theorem ReadsSign.isSome_rest (hsign : ReadsSign sign follower)
    (h : c.after ∈ loweredRest follower * ⊤) : (signedLiteral sign c.skipBlanks).isSome = true := by
  obtain ⟨_, ⟨_, ⟨_, ⟨pad, hpad, w, hw, rfl⟩, pad', hpad', rfl⟩, text, htext, rfl⟩, more, -,
    hafter⟩ := h
  have hreads : c.Reads (pad ++ w ++ pad' ++ text) ⟨_, more⟩ := ⟨rfl, hafter.symm⟩
  obtain ⟨start, hreads, hliteral⟩ := hreads.exists_split
  obtain ⟨signEnd, hreads, hblanks⟩ := hreads.exists_split
  obtain ⟨signStart, hfirst, hsigned⟩ := hreads.exists_split
  have hquote : ∃ x ∈ text.head?, isBlank x = false := by
    obtain ⟨_, ⟨_, rfl, _, -, rfl⟩, _, -, rfl⟩ := htext
    exact ⟨'"', rfl, by decide⟩
  obtain ⟨piece, hpiece⟩ := quoted_of_spells ⟨text, htext, hliteral⟩
  rw [skipBlanks_of_spells ⟨pad, hpad, hfirst⟩ hsigned (hsign.solid w hw), signedLiteral,
    (hsign.eq_some_iff _ _).2 ⟨w, hw, hsigned⟩, Option.bind_some,
    skipBlanks_of_spells ⟨pad', hpad', hblanks⟩ hliteral hquote, hpiece]
  rfl

/-- An argument that fits, along what is read of it: blanks are skipped around a run, and behind it
stand the parenthesis and what the checks read after it. -/
theorem ReadsSign.reads_of_fits (hsign : ReadsSign sign follower) {argument : List Char}
    (h : Fits follower c.after argument) :
    ∃ run pad stop, c.skipBlanks.Reads run stop ∧ run ≠ [] ∧ (∀ x ∈ run, isSolid x = true) ∧
      stop.Reads pad stop.skipBlanks ∧ argument = c.upTo c.skipBlanks ++ run ++ pad ∧
      ((stop.skipBlanks.char ')').bind fun c ↦ signedLiteral sign c.skipBlanks).isSome = true := by
  obtain ⟨⟨_, ⟨before, hbefore, run, ⟨hne, hsolid⟩, rfl⟩, pad, hpad, rfl⟩, rest, hrest, hafter⟩ := h
  have hreads : c.Reads (before ++ run ++ pad ++ [')']) ⟨_, rest⟩ := ⟨rfl, by simpa using hafter⟩
  obtain ⟨closing, hreads, hclose⟩ := hreads.exists_split
  obtain ⟨stop, hreads, hbehind⟩ := hreads.exists_split
  obtain ⟨first, hblanks, hrun⟩ := hreads.exists_split
  have hhead : ∃ x ∈ run.head?, isBlank x = false := by
    obtain ⟨x, run, rfl⟩ := List.exists_cons_of_ne_nil hne
    exact ⟨x, rfl, by simpa [isSolid] using hsolid x List.mem_cons_self⟩
  obtain rfl := skipBlanks_of_spells ⟨before, hbefore, hblanks⟩ hrun hhead
  obtain rfl := skipBlanks_of_spells ⟨pad, hpad, hbehind⟩ hclose ⟨')', rfl, by decide⟩
  refine ⟨run, pad, stop, hrun, hne, hsolid, hbehind, by rw [hblanks.upTo_eq], ?_⟩
  rw [hclose.char_eq, Option.bind_some]
  exact hsign.isSome_rest hrest

/-- Of two runs from one place, the shorter one makes the shorter argument: blanks come behind a run
only where no longer one begins with it. -/
theorem length_argument_le {cs ds pad pad' : List Char} {stop stop' : Cursor}
    (hcs : c.Reads cs stop) (hpad : stop.Reads pad stop.skipBlanks) (hds : c.Reads ds stop')
    (hpad' : stop'.Reads pad' stop'.skipBlanks) (hsolid : ∀ x ∈ ds, isSolid x = true)
    (hle : cs.length ≤ ds.length) : cs.length + pad.length ≤ ds.length + pad'.length := by
  rcases hcs.total hds with ⟨_ | ⟨x, rest⟩, rfl, hrest⟩ | ⟨rest, rfl, hrest⟩
  · obtain rfl := hrest.unique (.refl _)
    rw [← hpad.upTo_eq, hpad'.upTo_eq, List.append_nil]
  · -- the shorter run ends before something that is no blank
    have hx : isSolid x = true := hsolid x (by simp)
    have hstay : stop.skipBlanks = stop := skip_eq_self fun y hy ↦ by
      obtain rfl := Option.mem_unique hrest.head?_after hy
      simpa [isSolid] using hx
    have hsum := hpad.length_eq
    rw [hstay] at hsum
    omega
  · rw [List.length_append] at hle
    obtain rfl : rest = [] := List.length_eq_zero_iff.1 (by omega)
    obtain rfl := hrest.unique (.refl _)
    rw [← hpad.upTo_eq, hpad'.upTo_eq, List.append_nil]

/-- The argument of a lowered value is the first that fits. -/
theorem firstFit_of_loweredThen (hsign : ReadsSign sign follower)
    (h : loweredThen (signedLiteral sign) c = some (piece, d)) :
    ∃ (opened closing : Cursor) (argument : List Char), c.Spells lowerOpening opened ∧
      opened.Reads argument closing ∧ closing.Spells (mark ')' * loweredRest follower) d ∧
      FirstFit follower opened.after argument := by
  obtain ⟨c₁, hword, h⟩ := Option.bind_eq_some_iff.1 h
  obtain ⟨opened, hopen, h⟩ := Option.bind_eq_some_iff.1 h
  obtain ⟨run, stop, hrun, hne, hsolid, hclose, hleast⟩ := reads_shortest h
  obtain ⟨closed, hclosed, hrest⟩ := Option.bind_eq_some_iff.1 hclose
  obtain ⟨before, hbefore, hblank⟩ := opened.reads_skipBlanks
  obtain ⟨pad, hpad, hblank'⟩ := stop.reads_skipBlanks
  have hargument := (hbefore.trans hrun).trans hpad
  have hopening := ((spells_word hword).mul c₁.spells_skipBlanks).mul (spells_char hopen)
  have hbehind := hsign.spells_rest hrest
  refine ⟨opened, stop.skipBlanks, _, hopening, hargument, (spells_char hclosed).mul hbehind,
    ⟨⟨_, ⟨before, hblank, run, ⟨hne, hsolid⟩, rfl⟩, pad, hblank', rfl⟩, ?_⟩, ?_⟩
  · refine ⟨closed.after, hbehind.after_mem, ?_⟩
    rw [hargument.after_eq, (reads_char hclosed).after_eq]
    rfl
  · intro other hother
    obtain ⟨run', pad', stop', hrun', hne', hsolid', hpad', rfl, hclose'⟩ :=
      hsign.reads_of_fits hother
    have hle := hleast run' stop' hrun' hne' hsolid' hclose'
    have hlength := length_argument_le hrun hpad hrun' hpad' hsolid' hle
    rw [hbefore.upTo_eq]
    simp only [List.length_append] at hlength ⊢
    omega

end Lowered

/-! ### Findings -/

theorem isLowered_of_comparison {piece : Piece} (h : comparison c = some (piece, d)) :
    ∃ opened argument, IsLowered .lowerComparisonCase c opened d argument := by
  obtain ⟨-, h⟩ := Option.ite_none_right_eq_some.1 h
  obtain ⟨opened, closing, argument, hopening, hargument, hrest, hfirst⟩ :=
    firstFit_of_loweredThen readsSign_operator h
  exact ⟨opened, argument, hopening, ⟨closing, hargument, hrest⟩, hfirst⟩

theorem isLowered_of_loweredCall {function : String} (hfunction : function ∈ matchingFunctions)
    {piece : Piece} (h : loweredCall function c = some (piece, d)) :
    ∃ opened argument, IsLowered .nestedLowerCase c opened d argument := by
  obtain ⟨-, h⟩ := Option.ite_none_right_eq_some.1 h
  obtain ⟨c₁, hword, h⟩ := Option.bind_eq_some_iff.1 h
  obtain ⟨c₂, hopen, h⟩ := Option.bind_eq_some_iff.1 h
  obtain ⟨opened, closing, argument, hopening, hargument, hrest, hfirst⟩ :=
    firstFit_of_loweredThen readsSign_comma h
  have hcall := (((spells_oneOf hfunction hword).mul c₁.spells_skipBlanks).mul
    (spells_char hopen)).mul c₂.spells_skipBlanks
  exact ⟨opened, argument, hcall.mul hopening, ⟨closing, hargument, hrest⟩, hfirst⟩

/-- The construct that a finding marks. -/
theorem isLowered_of_mem_loops {document : Document} {rule : Rule} {findings : List Diagnostic}
    {d : Diagnostic} (hrule : rule = .lowerComparisonCase ∨ rule = .nestedLowerCase)
    (hfindings : findings ∈ document.loops rule) (hd : d ∈ findings) :
    ∃ start opened stop argument, start.text = document.chars ∧
      d.range = ⟨start.position, stop.position⟩ ∧ IsLowered rule start opened stop argument := by
  rcases hrule with rfl | rfl
  · obtain rfl := List.mem_singleton.1 hfindings
    rw [lowerComparisonFindings_eq] at hd
    obtain ⟨find, m, htext, hanswer, hmark, rfl⟩ := sound_comparisonLoop.exists_of_mem_map hd
    obtain ⟨-, hmark⟩ := Option.ite_none_right_eq_some.1 hmark
    obtain rfl := Option.some.inj hmark
    obtain ⟨opened, argument, hlowered⟩ := isLowered_of_comparison hanswer
    exact ⟨_, opened, _, argument, htext, rfl, hlowered⟩
  · obtain ⟨function, hfunction, rfl⟩ := List.mem_map.1 hfindings
    rw [loweredCallFindings_eq hfunction] at hd
    obtain ⟨find, m, htext, hanswer, hmark, rfl⟩ := (sound_callLoop hfunction).exists_of_mem_map hd
    obtain ⟨-, hmark⟩ := Option.ite_none_right_eq_some.1 hmark
    obtain rfl := Option.some.inj hmark
    obtain ⟨opened, argument, hlowered⟩ := isLowered_of_loweredCall hfunction hanswer
    exact ⟨_, opened, _, argument, htext, rfl, hlowered⟩

end Check

/-- **Where the lowered value of a finding ends.** A finding of the rules on lowered values goes
from the opening of the construct over the argument of `lower` to the end of a literal, and this
argument is the first text without blanks that a parenthesis, an operator or a comma and a literal
follow. So its parentheses pair up, and the parenthesis behind it is the one that closes the call,
if and only if the argument of the call is the first such text. -/
theorem lowered_argument_first_fit {document : Document} {settings : Settings} {config : Config}
    {d : Diagnostic} (hd : d ∈ (lint .standard document settings config).diagnostics)
    (hrule : d.rule = .lowerComparisonCase ∨ d.rule = .nestedLowerCase) :
    ∃ start opened stop argument, start.text = document.chars ∧
      d.range = ⟨start.position, stop.position⟩ ∧ IsLowered d.rule start opened stop argument ∧
      (Balanced argument ↔
        ∃ own, Closes opened.after own ∧ FirstFit (loweredFollower d.rule) opened.after own) := by
  obtain ⟨findings, hfindings, found, hfound, hrange⟩ := exists_of_mem_lint hd
  obtain ⟨start, opened, stop, argument, htext, hplace, hlowered⟩ :=
    Check.isLowered_of_mem_loops hrule hfindings hfound
  exact ⟨start, opened, stop, argument, htext, hrange ▸ hplace, hlowered,
    hlowered.first.balanced_iff⟩

/-- A call inside the argument, which is read to the end. -/
theorem lowered_argument_first_fit_nested :
    let document : Document := ⟨"file:///a.co", "co", 1, "match(lower(f(x)), \"A\")"⟩
    let d : Diagnostic :=
      ⟨.nestedLowerCase, .error, ⟨⟨0, 0⟩, ⟨0, 22⟩⟩, Check.loweredCallMessage⟩
    d ∈ (lint .standard document .standard .empty).diagnostics ∧
      (d.rule = .lowerComparisonCase ∨ d.rule = .nestedLowerCase) ∧
      ∃ start opened stop argument, start.position = ⟨0, 0⟩ ∧ stop.position = ⟨0, 22⟩ ∧
        IsLowered .nestedLowerCase start opened stop argument ∧ (Balanced argument ↔
          ∃ own, Closes opened.after own ∧ FirstFit (mark ',') opened.after own) := by
  intro document d
  have hd : d ∈ (lint .standard document .standard .empty).diagnostics := by decide +kernel
  obtain ⟨start, opened, stop, argument, -, hrange, hlowered, hiff⟩ :=
    lowered_argument_first_fit hd (.inr rfl)
  obtain ⟨hstart, hstop⟩ := Range.mk.inj hrange
  exact ⟨hd, .inr rfl, start, opened, stop, argument, hstart.symm, hstop.symm, hlowered, hiff⟩

/-- A call with a lowered argument is compared: the parenthesis behind `x` closes `lower`, but what
is read goes on to the one that closes the call around it. -/
theorem lowered_argument_of_outer_call :
    let document : Document := ⟨"file:///a.co", "co", 1, "f(lower(x)) == \"A\""⟩
    let behind : List Char := "x)) == \"A\"".toList
    (lint .standard document .standard .empty).diagnostics.map (fun d ↦ (d.rule, d.range)) =
        [(.lowerComparisonCase, ⟨⟨0, 2⟩, ⟨0, 18⟩⟩)] ∧
      Closes behind ['x'] ∧
      ∀ argument, FirstFit (loweredFollower .lowerComparisonCase) behind argument →
        ¬Balanced argument := by
  intro document behind
  have hcloses : Closes behind ['x'] := by
    refine ⟨⟨fun as bs hparts ↦ ?_, by decide⟩, ") == \"A\"".toList, by decide⟩
    have hcount := congrArg (List.count ')') hparts
    rw [List.count_append] at hcount
    have hzero : List.count ')' ['x'] = 0 := by decide
    omega
  refine ⟨by decide +kernel, hcloses, fun argument hfirst hbalanced ↦ ?_⟩
  obtain ⟨own, hown, hfits⟩ := hfirst.balanced_iff.1 hbalanced
  obtain rfl := hown.unique hcloses
  obtain ⟨rest, hrest, hbehind⟩ := hfits.fits.followed
  have hparts : ['x', ')'] ++ ") == \"A\"".toList = ['x', ')'] ++ rest := hbehind
  obtain rfl := List.append_cancel_left hparts
  have hsome := Check.readsSign_operator.isSome_rest (c := ⟨[], _⟩) hrest
  exact absurd hsome (by decide)

end RuleLint
