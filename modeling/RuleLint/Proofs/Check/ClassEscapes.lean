import RuleLint.Proofs.Check.Limits
import RuleLint.Proofs.Check.Parentheses
import RuleLint.Proofs.Text.Literals

/-!
# Which uppercase letters a class escape exempts

The literal of a call with a lowered value may be a regular expression, so class escapes are taken
out before it is judged. Read from left to right, a backslash takes the next character as its escape
(`QuoteState.steps`), and an uppercase letter counts unless it is the letter of a class escape
(`Counts`).

The removal does not read from left to right: it looks at each backslash by itself, so a letter is
kept unless a backslash stands right before it and the text from it on looks like a class escape
(`Keeps`). The two agree while no backslash that is itself escaped comes before such a text
(`Counts.keeps`), and they part there: an escaped backslash takes the exemption along
(`class_escape_after_backslash`).

Whether a call is judged at all depends on the search. A call whose argument has no parenthesis,
comma or quote is read as it stands, but a search goes on behind what it has found, so no earlier
find may reach into the call.
-/

namespace RuleLint

open Cursor Construct

namespace Check

variable {cs rest : List Char} {x : Char}

/-! ### The removal -/

/-- Whether some uppercase letter of a text that comes after `previous` is not the letter of a class
escape, when each backslash is looked at by itself. -/
def KeepsAfter (previous : Option Char) (cs : List Char) : Prop :=
  ∃ as x bs, cs = as ++ x :: bs ∧ isUppercase x = true ∧
    ¬(as.getLast?.or previous = some '\\' ∧ isClassEscape (x :: bs) = true)

/-- Whether some uppercase letter of a text is not the letter of a class escape, when each backslash
is looked at by itself. -/
def Keeps (cs : List Char) : Prop :=
  KeepsAfter none cs

theorem keepsAfter_cons {previous : Option Char} :
    KeepsAfter previous (x :: rest) ↔
      (isUppercase x = true ∧ ¬(previous = some '\\' ∧ isClassEscape (x :: rest) = true)) ∨
        KeepsAfter (some x) rest := by
  constructor
  · rintro ⟨as, y, bs, hparts, hy, hkept⟩
    cases as with
    | nil =>
      obtain ⟨rfl, rfl⟩ := List.cons.inj hparts
      exact .inl ⟨hy, by simpa using hkept⟩
    | cons a as =>
      obtain ⟨rfl, rfl⟩ := List.cons.inj hparts
      refine .inr ⟨as, y, bs, rfl, hy, ?_⟩
      cases hlast : as.getLast? <;> simpa [List.getLast?_cons, hlast] using hkept
  · rintro (⟨hx, hkept⟩ | ⟨as, y, bs, rfl, hy, hkept⟩)
    · exact ⟨[], x, rest, rfl, hx, by simpa using hkept⟩
    · refine ⟨x :: as, y, bs, rfl, hy, ?_⟩
      cases hlast : as.getLast? <;> simpa [List.getLast?_cons, hlast] using hkept

/-- What comes before a text matters only when it is a backslash before a class escape. -/
theorem keepsAfter_iff {previous : Option Char}
    (h : ¬(previous = some '\\' ∧ isClassEscape cs = true)) :
    KeepsAfter previous cs ↔ Keeps cs := by
  cases cs with
  | nil => exact iff_of_false (by simp [KeepsAfter]) (by simp [Keeps, KeepsAfter])
  | cons x rest =>
    rw [Keeps, keepsAfter_cons, keepsAfter_cons]
    simp [h]

theorem keeps_nil : ¬Keeps [] := by
  simp [Keeps, KeepsAfter]

/-- A character that is no backslash before a class escape. -/
theorem keeps_cons (h : ¬(x = '\\' ∧ isClassEscape rest = true)) :
    Keeps (x :: rest) ↔ isUppercase x = true ∨ Keeps rest := by
  have hrest : KeepsAfter (some x) rest ↔ Keeps rest := keepsAfter_iff (by simpa using h)
  rw [Keeps, keepsAfter_cons, hrest]
  simp

theorem isClassLetter_of_isClassEscape (h : isClassEscape (x :: rest) = true) :
    isClassLetter x = true := by
  rw [isClassEscape, Bool.and_eq_true] at h
  exact h.1

/-- A backslash and the letter of a class escape. -/
theorem keeps_classEscape (h : isClassEscape (x :: rest) = true) :
    Keeps ('\\' :: x :: rest) ↔ Keeps rest := by
  have hx : x ≠ '\\' := by
    rintro rfl
    exact absurd (isClassLetter_of_isClassEscape h) (by decide)
  have hback : isUppercase '\\' = false := by decide
  have hrest : KeepsAfter (some x) rest ↔ Keeps rest := keepsAfter_iff (by simp [hx])
  rw [Keeps, keepsAfter_cons, keepsAfter_cons, hrest]
  simp [hback, h]

theorem not_isUppercase_of_isQuantifier (h : isQuantifier x = true) : isUppercase x = false := by
  simp only [isQuantifier, Bool.or_eq_true, beq_iff_eq] at h
  rcases h with ((rfl | rfl) | rfl) | rfl <;> decide

/-- The removal follows the text with three states. Before a letter, it stands behind a backslash
that has been taken out. -/
theorem hasUppercase_dropClassEscapes (scan : EscapeScan) (cs : List Char)
    (hscan : scan = .letter → isClassEscape cs = true) :
    hasUppercase (dropClassEscapes scan cs) = true ↔
      Keeps (if scan = .letter then '\\' :: cs else cs) := by
  fun_induction dropClassEscapes scan cs with
  | case1 scan =>
    cases scan with
    | letter => exact absurd (hscan rfl) (by decide)
    | outside => exact iff_of_false (by simp [hasUppercase]) keeps_nil
    | quantifiers => exact iff_of_false (by simp [hasUppercase]) keeps_nil
  | case2 x rest ih =>
    rw [ih nofun, if_pos rfl, keeps_classEscape (hscan rfl)]
    rfl
  | case3 x rest hx ih =>
    have hback : x ≠ '\\' := by
      rintro rfl
      exact absurd hx (by decide)
    rw [ih nofun]
    show Keeps rest ↔ Keeps (x :: rest)
    rw [keeps_cons (by simp [hback]), not_isUppercase_of_isQuantifier hx]
    simp
  | case4 x rest _ hescape ih | case6 x rest hescape ih =>
    obtain ⟨rfl, hescape⟩ : x = '\\' ∧ isClassEscape rest = true := by simpa using hescape
    exact ih fun _ ↦ hescape
  | case5 x rest _ hescape ih | case7 x rest hescape ih =>
    have hnone : ¬(x = '\\' ∧ isClassEscape rest = true) := by simpa using hescape
    show _ ↔ Keeps (x :: rest)
    rw [keeps_cons hnone, hasUppercase, List.any_cons, Bool.or_eq_true]
    exact or_congr_right (ih nofun)

theorem hasUppercase_withoutClassEscapes (cs : List Char) :
    hasUppercase (withoutClassEscapes cs) = true ↔ Keeps cs :=
  hasUppercase_dropClassEscapes .outside cs nofun

/-! ### Escapes read from left to right -/

/-- Whether some uppercase letter of a literal is not the letter of a class escape, when the literal
is read from left to right and a backslash takes the next character as its escape. -/
def Counts (cs : List Char) : Prop :=
  ∃ as x bs, cs = as ++ x :: bs ∧ isUppercase x = true ∧
    ¬(QuoteState.inside.steps as = .escaped ∧ isClassLetter x = true)

/-- Whether no backslash before something that looks like a class escape is itself escaped. -/
def EscapesApart (cs : List Char) : Prop :=
  ∀ as bs, cs = as ++ '\\' :: bs → isClassEscape bs = true → QuoteState.inside.steps as = .inside

/-- It is enough to look at the places of the text. -/
theorem escapesApart_iff : EscapesApart cs ↔ ∀ n < cs.length, ∀ bs ∈ (cs.drop n).tail?,
    (cs.drop n).head? = some '\\' → isClassEscape bs = true →
      QuoteState.inside.steps (cs.take n) = .inside := by
  constructor
  · intro h n _ bs hbs hback hescape
    refine h (cs.take n) bs ?_ hescape
    obtain ⟨rest, hrest⟩ := List.head?_eq_some_iff.1 hback
    rw [hrest] at hbs
    obtain rfl : rest = bs := Option.some.inj hbs
    rw [← hrest, List.take_append_drop]
  · rintro h as bs rfl hescape
    have hplace := h as.length (by simp) bs
    rw [List.drop_left, List.take_left] at hplace
    exact hplace rfl rfl hescape

instance : Decidable (EscapesApart cs) :=
  decidable_of_iff _ escapesApart_iff.symm

/-- Where no backslash in front of a class escape is itself escaped, a letter that counts is kept:
if it is taken out, the backslash before it is not escaped, so the letter is its escape. -/
theorem Counts.keeps (h : Counts cs) (hapart : EscapesApart cs) : Keeps cs := by
  obtain ⟨as, x, bs, rfl, hx, hcounts⟩ := h
  refine ⟨as, x, bs, rfl, hx, ?_⟩
  rintro ⟨hlast, hescape⟩
  rw [Option.or_none] at hlast
  obtain ⟨as, rfl⟩ := List.getLast?_eq_some_iff.1 hlast
  have hinside := hapart as (x :: bs) (by simp) hescape
  refine hcounts ⟨?_, isClassLetter_of_isClassEscape hescape⟩
  rw [QuoteState.steps_concat, hinside]
  rfl

/-! ### Calls as they stand -/

/-- Whether a character may stand in an argument that is read as it stands. -/
def isOperand (x : Char) : Bool :=
  isSolid x && x != '(' && x != ')' && x != ',' && x != '"'

/-- A call of a function with a lowered value that has no blanks, parentheses, commas or quotes, and
a literal. -/
def operandCall (function : String) (pattern : List Char) : Language Char :=
  said function * blanks * mark '(' * blanks * (said "lower" * blanks * mark '(' * blanks *
    several isOperand * blanks * mark ')') * blanks * mark ',' * blanks * literal {pattern}

theorem mem_operandCall {function : String} {argument pattern : List Char}
    (hargument : argument ∈ several isOperand) (hquote : '"' ∉ pattern) (hfeed : '\n' ∉ pattern) :
    function.toList ++ ['('] ++ ("lower".toList ++ ['('] ++ argument ++ [')']) ++ [','] ++ [' '] ++
      (['"'] ++ pattern ++ ['"']) ∈ operandCall function pattern := by
  have hmark : ∀ x, [x] ∈ mark x := fun _ ↦ rfl
  have hsaid : ∀ w : String, w.toList ∈ said w := fun _ ↦ rfl
  have hblank : [' '] ∈ blanks := List.forall_mem_singleton.2 (by decide)
  have hcloser : ∀ {l : Language Char} {cs : List Char}, cs ∈ l → cs ∈ l * blanks := fun hcs ↦
    ⟨_, hcs, [], nofun, List.append_nil _⟩
  have hopened := hcloser (Language.append_mem_mul (hcloser (hsaid function)) (hmark '('))
  have hlower := hcloser (Language.append_mem_mul (hcloser (hsaid "lower")) (hmark '('))
  have hlowered := Language.append_mem_mul (hcloser (Language.append_mem_mul hlower hargument))
    (hmark ')')
  have hcomma := Language.append_mem_mul
    (Language.append_mem_mul (hcloser (Language.append_mem_mul hopened hlowered)) (hmark ','))
    hblank
  have hcontent : pattern ∈ ({pattern} : Language Char) ⊓ {cs | ∀ x ∈ cs, x ≠ '"' ∧ x ≠ '\n'} :=
    ⟨rfl, fun _ hx ↦ ⟨ne_of_mem_of_not_mem hx hquote, ne_of_mem_of_not_mem hx hfeed⟩⟩
  exact Language.append_mem_mul hcomma
    (Language.append_mem_mul (Language.append_mem_mul (hmark '"') hcontent) (hmark '"'))

/-- A run is the shortest that will do when nothing is read behind a shorter one. -/
theorem shortest_eq {α : Type} {p : Char → Bool} {next : Cursor → Option α} {a : α} {c d : Cursor}
    (hreads : c.Reads cs d) (hne : cs ≠ []) (hcs : ∀ x ∈ cs, p x = true) (hnext : next d = some a)
    (hshorter : ∀ as x bs e, cs = as ++ x :: bs → c.Reads as e → next e = none) :
    c.shortest p next = some a := by
  obtain ⟨before, after⟩ := c
  induction cs generalizing before after with
  | nil => exact absurd rfl hne
  | cons x cs ih =>
    obtain ⟨hx, hcs⟩ := List.forall_mem_cons.1 hcs
    obtain rfl : after = x :: (cs ++ d.after) := hreads.after_eq
    have hfirst : Reads ⟨before, x :: (cs ++ d.after)⟩ [x] ⟨x :: before, cs ++ d.after⟩ :=
      ⟨rfl, rfl⟩
    have hrest : Reads ⟨x :: before, cs ++ d.after⟩ cs d :=
      ⟨by rw [hreads.before_eq, List.reverse_cons, List.append_assoc]; rfl, rfl⟩
    rw [shortest, shortestFrom, if_pos hx]
    cases cs with
    | nil =>
      have hd : d = ⟨x :: before, [] ++ d.after⟩ := hrest.unique (.refl _)
      show (next ⟨x :: before, [] ++ d.after⟩).or _ = _
      rw [← hd, hnext, Option.some_or]
    | cons y cs =>
      rw [hshorter [x] y cs _ rfl hfirst, Option.none_or]
      refine ih (List.cons_ne_nil _ _) hcs _ _ hrest fun as z bs e hparts has ↦ ?_
      exact hshorter (x :: as) z bs e (by rw [hparts]; rfl) (hfirst.trans has)

section Calls

variable {c d : Cursor}

/-- A literal is read with its content. -/
theorem quoted_of_spells_singleton (h : c.Spells (literal {cs}) d) :
    ∃ piece, quoted c = some (piece, d) ∧ piece.content = cs := by
  have hliteral : c.Spells (literal ⊤) d :=
    h.mono (mul_le_mul_left (mul_le_mul_right (inf_le_inf_right _ le_top) _) _)
  obtain ⟨piece, hpiece⟩ := quoted_of_spells hliteral
  refine ⟨piece, hpiece, ?_⟩
  obtain ⟨hopen, hcontent, hclose, -⟩ := reads_quoted hpiece
  obtain ⟨_, ⟨_, ⟨_, rfl, _, ⟨rfl, -⟩, rfl⟩, _, rfl, rfl⟩, hreads⟩ := h
  have hsame := ((hopen.trans hcontent).trans hclose).upTo_eq.symm.trans hreads.upTo_eq
  exact (List.cons.inj (List.append_cancel_right hsame)).2

theorem not_isBlank_of_isOperand (h : isOperand x = true) : isBlank x = false := by
  simp only [isOperand, isSolid, Bool.and_eq_true, Bool.not_eq_true'] at h
  exact h.1.1.1.1

/-- The lowered value of such a call is read as it stands: behind a shorter run comes another
character of the argument, so no parenthesis is found there. -/
theorem loweredThen_of_spells {α : Type} {next : Cursor → Option α} {a : α}
    (h : c.Spells (said "lower" * blanks * mark '(' * blanks * several isOperand * blanks *
      mark ')') d) (hnext : next d.skipBlanks = some a) : loweredThen next c = some a := by
  obtain ⟨closing, h, hclose⟩ := h.exists_mid
  obtain ⟨last, h, hbehind⟩ := h.exists_mid
  obtain ⟨first, h, hrun⟩ := h.exists_mid
  obtain ⟨opened, h, hbefore⟩ := h.exists_mid
  obtain ⟨opening, h, hopen⟩ := h.exists_mid
  obtain ⟨c₁, hlower, hblanks⟩ := h.exists_mid
  obtain ⟨run, ⟨hne, hoperand⟩, hreads⟩ := hrun
  obtain ⟨y, ys, rfl⟩ := List.exists_cons_of_ne_nil hne
  have hsolid : ∀ x ∈ y :: ys, isBlank x = false := fun x hx ↦
    not_isBlank_of_isOperand (hoperand x hx)
  have hfirst : opened.skipBlanks = first :=
    skipBlanks_of_spells hbefore hreads ⟨y, rfl, hsolid y List.mem_cons_self⟩
  have hrest : opened.skipBlanks.shortest isSolid (fun c ↦
      (c.skipBlanks.char ')').bind fun c ↦ next c.skipBlanks) = some a := by
    rw [hfirst]
    refine shortest_eq hreads hne (fun x hx ↦ by simp [isSolid, hsolid x hx]) ?_ ?_
    · rw [char_skipBlanks_of_spells hbehind hclose (by decide), Option.bind_some, hnext]
    · intro as x bs e hparts has
      have hx : x ∈ y :: ys := by simp [hparts]
      obtain ⟨e', has', hbs⟩ := (hparts ▸ hreads).exists_split
      obtain rfl := has.unique has'
      have hstay : e.skipBlanks = e := skip_eq_self fun z hz ↦ by
        obtain rfl := Option.mem_unique hbs.head?_after hz
        exact hsolid x hx
      have hnone : e.char ')' = none := by
        rw [Option.eq_none_iff_forall_ne_some]
        intro stop hstop
        obtain rfl := Option.mem_unique hbs.head?_after (reads_char hstop).head?_after
        exact absurd (hoperand _ hx) (by decide)
      rw [hstay, hnone, Option.bind_none]
  rw [loweredThen, word_of_spells hlower]
  show ((c₁.skipBlanks.char '(').bind _) = _
  rw [char_skipBlanks_of_spells hblanks hopen (by decide)]
  exact hrest

/-- Such a call is read with its literal. -/
theorem loweredCall_of_spells {function : String} (hfunction : function ∈ matchingFunctions)
    {start stop : Cursor} {pattern : List Char} (hword : start.before.head?.any isWord = false)
    (h : start.Spells (operandCall function pattern) stop) :
    ∃ piece, loweredCall function start = some (piece, stop) ∧ piece.content = pattern := by
  obtain ⟨c₈, h, hliteral⟩ := h.exists_mid
  obtain ⟨c₇, h, hblanks₄⟩ := h.exists_mid
  obtain ⟨c₆, h, hcomma⟩ := h.exists_mid
  obtain ⟨c₅, h, hblanks₃⟩ := h.exists_mid
  obtain ⟨c₄, h, hlowered⟩ := h.exists_mid
  obtain ⟨c₃, h, hblanks₂⟩ := h.exists_mid
  obtain ⟨c₂, h, hopen⟩ := h.exists_mid
  obtain ⟨c₁, hsaid, hblanks₁⟩ := h.exists_mid
  obtain ⟨piece, hpiece, hcontent⟩ := quoted_of_spells_singleton hliteral
  refine ⟨piece, ?_, hcontent⟩
  have hnext : nextLiteral c₅.skipBlanks = some (piece, stop) := by
    rw [nextLiteral, char_skipBlanks_of_spells hblanks₃ hcomma (by decide)]
    show quoted c₇.skipBlanks = _
    obtain ⟨hquote, -, -, -⟩ := reads_quoted hpiece
    rw [skipBlanks_of_spells hblanks₄ hquote ⟨'"', rfl, by decide⟩, hpiece]
  have hlower : ∃ e, c₄.Reads "lower".toList e := by
    simp only [mul_assoc] at hlowered
    obtain ⟨e, ⟨_, rfl, hlower⟩, -⟩ := hlowered.exists_mid
    exact ⟨e, hlower⟩
  obtain ⟨e, hlower⟩ := hlower
  have hboundary : start.atWordBoundary = true := by
    obtain ⟨_, rfl, hreads⟩ := hsaid
    have hfirst : ∀ f ∈ matchingFunctions, f.toList.head?.any isWord = true := by decide
    have hne : function.toList ≠ [] := by
      intro hnil
      have hany := hfirst function hfunction
      rw [hnil] at hany
      cases hany
    rw [atWordBoundary, hword, hreads.after_eq, List.head?_append_of_ne_nil _ hne,
      hfirst function hfunction]
    rfl
  rw [loweredCall, if_pos hboundary, word_of_spells hsaid]
  show (c₁.skipBlanks.char '(').bind _ = _
  rw [char_skipBlanks_of_spells hblanks₁ hopen (by decide)]
  show loweredThen nextLiteral c₃.skipBlanks = _
  rw [skipBlanks_of_spells hblanks₂ hlower ⟨'l', by decide, by decide⟩]
  exact loweredThen_of_spells hlowered hnext

/-- Where a search is answered, and no earlier find goes on there, it finds what begins there. -/
theorem exists_find_at {α : Type} {recognise : Recogniser α} (hadvances : Advances recognise)
    {text : List Char} {start stop : Cursor} {value : α} (htext : start.text = text)
    (hanswer : recognise start = some (value, stop))
    (hapart : ∀ found ∈ findAll recognise text, found.start.offset < start.offset →
      found.stop.offset ≤ start.offset) :
    ⟨start, value, stop⟩ ∈ findAll recognise text := by
  have hreads : Reads ⟨[], text⟩ start.before.reverse start := htext ▸ start.reads_atStart
  obtain ⟨found, hfound, ds, es, hds, hes, hne, hrecognised⟩ :=
    exists_find_of_answer hadvances [] text hreads (by rw [hanswer]; rfl)
  have hpos : ∀ cs : List Char, cs ≠ [] → 0 < byteLength cs := by
    intro cs hcs
    obtain ⟨x, rest, rfl⟩ := List.exists_cons_of_ne_nil hcs
    rw [byteLength_cons]
    exact Nat.add_pos_left x.utf8Size_pos _
  have hnil : ds = [] := by
    by_contra hds'
    have hbefore := hds.offset_eq
    have hafter := hes.offset_eq
    have hbytes := hpos ds hds'
    have hbytes' := hpos es hne
    have hle := hapart found hfound (by omega)
    omega
  subst hnil
  obtain ⟨start', value', stop'⟩ := found
  obtain rfl := hds.unique (.refl _)
  obtain ⟨rfl, rfl⟩ := Prod.mk.inj (Option.some.inj (hanswer.symm.trans hrecognised))
  exact hfound

end Calls

end Check

open Check

variable {document : Document} {function : String} {start stop : Cursor} {pattern : List Char}

/-- **Which calls with a lowered value are reported.** A call whose argument has no blanks,
parentheses, commas or quotes, into which no earlier find reaches, is marked from its first
character to the closing quote if and only if some uppercase letter of its literal is not taken out
as the letter of what looks like a class escape behind a backslash, be that backslash itself escaped
or not. So where no such backslash is itself escaped, an uppercase letter that is not the letter of
a class escape, read from left to right, is enough for a finding. -/
theorem lowered_call_reported (hfunction : function ∈ matchingFunctions)
    (htext : start.text = document.chars) (hword : start.before.head?.any isWord = false)
    (hcall : start.Spells (operandCall function pattern) stop)
    (hapart : ∀ found ∈ findAll (loweredCall function) document.chars,
      found.start.offset < start.offset → found.stop.offset ≤ start.offset) :
    ((⟨start, stop⟩, loweredCallMessage) ∈ (callLoop function).marks document.chars ↔
        Keeps pattern) ∧
      (EscapesApart pattern → Counts pattern →
        findingAt .nestedLowerCase (⟨start, stop⟩, loweredCallMessage) ∈
          (document.loops .nestedLowerCase).flatten) := by
  obtain ⟨piece, hpiece, hcontent⟩ := loweredCall_of_spells hfunction hword hcall
  have hsound := sound_callLoop hfunction
  have hfind := exists_find_at hsound.advances htext hpiece hapart
  have hmark : (callLoop function).mark ⟨start, piece, stop⟩ =
      if hasUppercase (withoutClassEscapes pattern) then
        some (⟨start, stop⟩, loweredCallMessage) else none := by
    rw [← hcontent]
    rfl
  have hiff : (⟨start, stop⟩, loweredCallMessage) ∈ (callLoop function).marks document.chars ↔
      Keeps pattern := by
    rw [← hasUppercase_withoutClassEscapes]
    constructor
    · intro h
      obtain ⟨found, hfound, hfoundMark⟩ := List.mem_filterMap.1 h
      obtain ⟨-, hanswer⟩ := hsound.of_mem_findAll hfound
      obtain ⟨huppercase, hsame⟩ := Option.ite_none_right_eq_some.1 hfoundMark
      obtain ⟨rfl, -⟩ := Piece.mk.inj (Prod.mk.inj (Option.some.inj hsame)).1
      obtain ⟨hvalue, -⟩ := Prod.mk.inj (Option.some.inj (hpiece.symm.trans hanswer))
      rwa [← hvalue, hcontent] at huppercase
    · intro huppercase
      refine List.mem_filterMap.2 ⟨_, hfind, ?_⟩
      rw [hmark, if_pos huppercase]
  refine ⟨hiff, fun hescapes hcounts ↦ ?_⟩
  refine List.mem_flatten.2
    ⟨loweredCallFindings (.ofDocument document document.chars.length) function,
      List.mem_map_of_mem hfunction, ?_⟩
  rw [loweredCallFindings_eq hfunction]
  exact List.mem_map_of_mem (hiff.2 (hcounts.keeps hescapes))

/-- An uppercase letter behind an escaped backslash, and a class escape. -/
theorem lowered_call_reported_path :
    let document : Document := ⟨"file:///a.co", "co", 1, "regex(lower(x), \"c:\\\\Users\\S+\")"⟩
    let pattern := "c:\\\\Users\\S+".toList
    ∃ stop, (Cursor.atStart document.chars).Spells (operandCall "regex" pattern) stop ∧
      EscapesApart pattern ∧ Counts pattern ∧
      findingAt .nestedLowerCase (⟨Cursor.atStart document.chars, stop⟩, loweredCallMessage) ∈
        (document.loops .nestedLowerCase).flatten := by
  intro document pattern
  have hmem := @mem_operandCall "regex" ['x'] pattern
    ⟨by decide, List.forall_mem_singleton.2 (by decide)⟩ (by decide) (by decide)
  have hcall : (Cursor.atStart document.chars).Spells (operandCall "regex" pattern) ⟨_, [')']⟩ :=
    ⟨_, hmem, rfl, by decide +kernel⟩
  have hescapes : EscapesApart pattern := by decide +kernel
  have hcounts : Counts pattern := ⟨"c:\\\\".toList, 'U', "sers\\S+".toList, by decide +kernel⟩
  have hreported := lowered_call_reported (by decide) rfl rfl hcall
    (by simp [Cursor.atStart, Cursor.offset])
  exact ⟨_, hcall, hescapes, hcounts, hreported.2 hescapes hcounts⟩

/-- An escaped backslash and a class letter at the end: read from left to right the letter counts,
but it is taken out, and the call is not reported. -/
theorem class_escape_after_backslash :
    let document : Document := ⟨"file:///a.co", "co", 1, "regex(lower(x), \"\\\\S\")"⟩
    let pattern := "\\\\S".toList
    (∃ stop, (Cursor.atStart document.chars).Spells (operandCall "regex" pattern) stop) ∧
      Counts pattern ∧ ¬Keeps pattern ∧ (document.loops .nestedLowerCase).flatten = [] ∧
      (lint .standard document .standard .empty).diagnostics = [] := by
  intro document pattern
  have hmem := @mem_operandCall "regex" ['x'] pattern
    ⟨by decide, List.forall_mem_singleton.2 (by decide)⟩ (by decide) (by decide)
  have hcall : (Cursor.atStart document.chars).Spells (operandCall "regex" pattern) ⟨_, [')']⟩ :=
    ⟨_, hmem, rfl, by decide +kernel⟩
  refine ⟨⟨_, hcall⟩, ⟨"\\\\".toList, 'S', [], by decide⟩, ?_, by decide +kernel, by decide +kernel⟩
  rw [← hasUppercase_withoutClassEscapes]
  decide

end RuleLint
