import RuleLint.Proofs.Check.Limits
import RuleLint.Proofs.Check.Loops

/-!
# Which lines of a block are assignments

In the body of an event block a line is an assignment if a bare field leads it, with a single sign
and a value behind it (`assigned`). The check looks for assignments with a search for a pattern
that does not know of lines: it wants blanks before the field, and it passes over line ends between
the field, the sign and the value.

So it comes to the lines that are set off (`Cursor.SetOff`): those that are indented, and those
after a blank line, as the line after the header often is. If the fields of these lines have their
signs and values in place (`InPlace`), the findings are exactly the assignments among them, in
order (`assignments_of_block`). An assignment in a line that is not set off is missed
(`unindented_assignment_missed`).

Where a sign or a value is on a later line, a find takes that line along, and nothing is claimed.
-/

namespace RuleLint

open Cursor Construct

namespace Construct

/-- What stands behind a single sign with a value: no second sign, and not only blanks. -/
def behindSign : Language Char :=
  {cs | (∀ x ∈ cs.head?, x ≠ '=') ∧ ∃ x ∈ cs, isBlank x = false}

/-- A field and a single sign with a value. -/
def assigned : Language Char :=
  several Check.isFieldChar * blanks * mark '=' * behindSign

end Construct

/-! ### Places that lead a line -/

namespace Cursor

variable {c s : Cursor}

/-- Whether nothing but blanks stands before a cursor in its line. -/
def LeadsLine (c : Cursor) : Prop :=
  ∀ x ∈ c.lineBefore, isBlank x = true

/-- Whether something stands before a cursor in its line, or else the line above has only blanks. -/
def SetOff (c : Cursor) : Prop :=
  c.lineBefore ≠ [] ∨ ∃ above, c.before = '\n' :: above ∧
    ∀ x ∈ above.takeWhile (· != '\n'), isBlank x = true

instance : DecidablePred LeadsLine :=
  fun c ↦ decidable_of_iff (c.lineBefore.all isBlank = true) List.all_eq_true

/-- The start of the line of a cursor. -/
theorem exists_lineStart (c : Cursor) :
    ∃ s : Cursor, s.atLineStart = true ∧ s.Reads c.lineBefore.reverse c := by
  obtain ⟨above, hbefore, hhead, -⟩ := c.exists_lineBefore_append
  refine ⟨⟨above, c.lineBefore.reverse ++ c.after⟩, ?_, ?_, rfl⟩
  · match above, hhead with
    | [], _ => rfl
    | x :: _, hhead => exact beq_iff_eq.2 (hhead x rfl)
  · rw [List.reverse_reverse]
    exact hbefore

theorem lineBefore_of_atLineStart (hs : s.atLineStart = true) : s.lineBefore = [] := by
  obtain ⟨before, after⟩ := s
  match before, hs with
  | [], _ => rfl
  | x :: before, hs =>
    obtain rfl : x = '\n' := beq_iff_eq.1 hs
    rfl

/-- What stands before a place in its line was read since the start of a line. -/
theorem mem_of_mem_lineBefore {cs : List Char} (hs : s.atLineStart = true) (h : s.Reads cs c)
    {x : Char} (hx : x ∈ c.lineBefore) : x ∈ cs := by
  by_cases hfeed : '\n' ∈ cs
  · exact h.mem_of_mem_lineBefore hfeed hx
  · rw [h.lineBefore_eq hfeed, lineBefore_of_atLineStart hs] at hx
    simpa using hx

/-- Blanks lead from the start of a line to a place if and only if the place leads its line and is
set off. -/
theorem leadsLine_and_setOff_iff :
    c.LeadsLine ∧ c.SetOff ↔ ∃ s : Cursor, s.atLineStart = true ∧ s.Spells (several isBlank) c := by
  constructor
  · rintro ⟨hleads, hindent | ⟨above, hbefore, habove⟩⟩
    · obtain ⟨s, hs, hreads⟩ := c.exists_lineStart
      exact ⟨s, hs, _, ⟨by simpa using hindent, fun x hx ↦ hleads x (List.mem_reverse.1 hx)⟩,
        hreads⟩
    · -- the blanks are those of the line above and the line feed
      have hfeed : Reads ⟨above, '\n' :: c.after⟩ ['\n'] c := ⟨hbefore, rfl⟩
      obtain ⟨s, hs, hreads⟩ := exists_lineStart ⟨above, '\n' :: c.after⟩
      refine ⟨s, hs, _, ⟨by simp, fun x hx ↦ ?_⟩, hreads.trans hfeed⟩
      rcases List.mem_append.1 hx with hx | hx
      · exact habove x (List.mem_reverse.1 hx)
      · rw [List.mem_singleton.1 hx]
        decide
  · rintro ⟨s, hs, cs, ⟨hne, hblank⟩, hreads⟩
    refine ⟨fun x hx ↦ hblank x (mem_of_mem_lineBefore hs hreads hx), ?_⟩
    obtain ⟨cs, x, rfl⟩ := (List.eq_nil_or_concat' cs).resolve_left hne
    have hbefore : c.before = x :: (cs.reverse ++ s.before) := by
      rw [hreads.before_eq, List.reverse_append]
      rfl
    by_cases hx : x = '\n'
    · subst hx
      have habove : s.Reads cs ⟨cs.reverse ++ s.before, '\n' :: c.after⟩ :=
        ⟨rfl, by rw [hreads.after_eq, List.append_assoc]; rfl⟩
      exact .inr ⟨_, hbefore, fun y hy ↦
        hblank y (List.mem_append_left _ (mem_of_mem_lineBefore hs habove hy))⟩
    · refine .inl ?_
      rw [lineBefore, hbefore, List.takeWhile_cons_of_pos (by simpa using hx)]
      exact List.cons_ne_nil _ _

end Cursor

namespace Check

variable {c d s : Cursor} {found : Assignment}

/-! ### Fields and their signs -/

/-- Past the field at a cursor and the sign behind it. -/
def fieldSign (c : Cursor) : Option Cursor :=
  (c.run isFieldChar).bind fun stop ↦ stop.skipBlanks.char '='

/-- Whether the field at a cursor, if there is one with a sign, has the sign on its line, and behind
the sign, or both if it is double, something more on the line. -/
def InPlace (c : Cursor) : Prop :=
  ∀ signEnd ∈ fieldSign c, '\n' ∉ c.upTo signEnd ∧
    ∃ x ∈ ((signEnd.char '=').getD signEnd).lineAfter, isBlank x = false

instance : DecidablePred InPlace := fun c ↦
  decidable_of_iff (∀ signEnd ∈ fieldSign c, '\n' ∉ c.upTo signEnd ∧
    (((signEnd.char '=').getD signEnd).lineAfter.any fun x ↦ !isBlank x) = true) (by simp [InPlace])

theorem not_isBlank_of_isFieldChar {x : Char} (h : isFieldChar x = true) : isBlank x = false := by
  have hapart : ∀ i ∈ blankCodePoints, i.2 < 46 ∨ 122 < i.1 := by decide
  have hrange : 46 ≤ x.toNat ∧ x.toNat ≤ 122 := by
    simp only [isFieldChar, Char.isDigit, Bool.or_eq_true, Bool.and_eq_true, decide_eq_true_eq,
      beq_iff_eq, Char.le_def, UInt32.le_iff_toNat_le] at h
    rcases h with ((⟨hle, hge⟩ | ⟨hle, hge⟩) | rfl) | rfl
    · exact ⟨le_trans (by decide) hle, hge⟩
    · exact ⟨le_trans (by decide) hle, le_trans hge (by decide)⟩
    · decide
    · decide
  rw [Bool.eq_false_iff, Ne, isBlank, CodePoints.has_iff]
  rintro ⟨i, hi, hlow, hhigh⟩
  have hi := hapart i hi
  omega

/-- A line that begins with a field and a sign, read along the field. -/
theorem fieldSign_of_mem {l : Language Char}
    (h : c.lineAfter ∈ several isFieldChar * blanks * mark '=' * l) :
    ∃ stop signEnd, c.run isFieldChar = some stop ∧ stop.skipBlanks.char '=' = some signEnd ∧
      signEnd.lineAfter ∈ l := by
  obtain ⟨_, ⟨_, ⟨field, ⟨hne, hfield⟩, pad, hpad, rfl⟩, _, rfl, rfl⟩, rest, hrest, hparts⟩ := h
  have hline : c.lineAfter = field ++ (pad ++ (['='] ++ rest)) := by
    rw [← hparts]
    simp only [List.append_assoc]
  obtain ⟨stop, hstop, hline⟩ := exists_reads_of_lineAfter hline
  obtain ⟨sign, hsign, hline⟩ := exists_reads_of_lineAfter hline
  obtain ⟨signEnd, hsignEnd, hline⟩ := exists_reads_of_lineAfter hline
  have hblank : stop.skipBlanks = sign :=
    skipBlanks_of_spells ⟨pad, hpad, hsign⟩ hsignEnd ⟨'=', rfl, by decide⟩
  refine ⟨stop, signEnd, hstop.run_eq hne hfield fun x hx ↦ ?_, ?_, hline ▸ hrest⟩
  · -- what follows the field is a blank or the sign
    cases pad with
    | nil =>
      obtain rfl := Option.mem_unique (hsign.trans hsignEnd).head?_after hx
      decide
    | cons y pad =>
      obtain rfl := Option.mem_unique hsign.head?_after hx
      rw [Bool.eq_false_iff]
      intro hfieldChar
      have hsolid := not_isBlank_of_isFieldChar hfieldChar
      rw [hpad y List.mem_cons_self] at hsolid
      cases hsolid
  · rw [hblank, hsignEnd.char_eq]

/-! ### Values -/

theorem skipBlanks_ne_nil {x : Char} (hx : x ∈ c.lineAfter) (hsolid : isBlank x = false) :
    c.skipBlanks.after ≠ [] := by
  intro hnil
  obtain ⟨cs, hreads, hblank⟩ := c.reads_skipBlanks
  have hafter : c.after = cs := by
    rw [hreads.after_eq, hnil, List.append_nil]
  have hmem : x ∈ cs := hafter ▸ (List.takeWhile_sublist _).mem hx
  rw [hblank x hmem] at hsolid
  cases hsolid

/-- A value begins on the line if there is something more than blanks. -/
theorem reads_value {x : Char} (hx : x ∈ c.lineAfter) (hsolid : isBlank x = false)
    (h : value c = some d) : ∃ cs, c.Reads cs d ∧ '\n' ∉ cs := by
  obtain ⟨pad, hpad, hblank⟩ := c.reads_skipBlanks
  obtain ⟨cs, hcs, -, hall, -⟩ := reads_run h
  refine ⟨_, hpad.trans hcs, List.not_mem_append (fun hfeed ↦ ?_) fun hfeed ↦ ?_⟩
  · rw [hblank x (hpad.mem_of_mem_lineAfter hfeed hx)] at hsolid
    cases hsolid
  · exact absurd (hall _ hfeed) (by decide)

/-! ### Assignments from the field on -/

theorem assignmentField_of_mem (h : c.lineAfter ∈ assigned) :
    ∃ found d, assignmentField c = some (found, d) ∧ found.isSingle = true := by
  obtain ⟨stop, signEnd, hfield, hsign, hhead, x, hx, hsolid⟩ := fieldSign_of_mem h
  have hsecond : signEnd.char '=' = none := by
    rw [Option.eq_none_iff_forall_ne_some]
    intro second hsecond
    refine hhead '=' ?_ rfl
    rw [(reads_char hsecond).lineAfter_eq (by decide)]
    rfl
  obtain ⟨d, hd⟩ := Option.isSome_iff_exists.1 (value_isSome (skipBlanks_ne_nil hx hsolid))
  refine ⟨⟨⟨c, stop⟩, true⟩, d, ?_, rfl⟩
  rw [assignmentField, hfield, Option.bind_some, hsign, Option.bind_some, assignmentValue, hsecond,
    Option.bind_none, hd]
  rfl

/-- From the sign on: a value that begins on the line ends there, and a single sign has no second
one behind it. -/
theorem reads_assignmentValue {field : Piece} {x : Char}
    (hx : x ∈ ((c.char '=').getD c).lineAfter) (hsolid : isBlank x = false)
    (h : assignmentValue field c = some (found, d)) :
    (∃ cs, c.Reads cs d ∧ '\n' ∉ cs) ∧
      (found.isSingle = true → c.lineAfter ∈ behindSign) := by
  rw [assignmentValue] at h
  cases hsecond : c.char '=' with
  | none =>
    rw [hsecond] at h hx
    obtain ⟨next, hvalue, h⟩ := Option.bind_eq_some_iff.1 h
    obtain ⟨rfl, rfl⟩ := Prod.mk.inj (Option.some.inj h)
    refine ⟨reads_value hx hsolid hvalue, fun _ ↦ ⟨fun y hy ↦ ?_, x, hx, hsolid⟩⟩
    rintro rfl
    obtain ⟨rest, hrest⟩ := List.head?_eq_some_iff.1 hy
    have hline : c.lineAfter = ['='] ++ rest := hrest
    obtain ⟨second, hreads, -⟩ := exists_reads_of_lineAfter hline
    rw [hreads.char_eq] at hsecond
    cases hsecond
  | some second =>
    rw [hsecond] at h hx
    obtain ⟨next, hvalue⟩ := Option.isSome_iff_exists.1 (value_isSome (skipBlanks_ne_nil hx hsolid))
    rw [Option.getD_some] at hx hvalue
    rw [Option.bind_some, hvalue] at h
    obtain ⟨rfl, rfl⟩ := Prod.mk.inj (Option.some.inj h)
    obtain ⟨cs, hcs, hline⟩ := reads_value hx hsolid hvalue
    refine ⟨⟨_, (reads_char hsecond).trans hcs, List.not_mem_append (by decide) hline⟩,
      fun hsingle ↦ ?_⟩
    cases hsingle

/-- What is read of a field that is in place ends on its line, and if the sign is single, the line
is an assignment. -/
theorem reads_assignmentField (hplace : InPlace c) (h : assignmentField c = some (found, d)) :
    (∃ cs, c.Reads cs d ∧ '\n' ∉ cs) ∧ (found.isSingle = true → c.lineAfter ∈ assigned) := by
  obtain ⟨stop, hfield, h⟩ := Option.bind_eq_some_iff.1 h
  obtain ⟨signEnd, hsign, h⟩ := Option.bind_eq_some_iff.1 h
  obtain ⟨hfeed, x, hx, hsolid⟩ := hplace signEnd (by rw [fieldSign, hfield]; exact hsign)
  obtain ⟨first, hfirst, hreads⟩ :=
    ((spells_run hfield).mul stop.spells_skipBlanks).mul (spells_char hsign)
  rw [hreads.upTo_eq] at hfeed
  obtain ⟨⟨cs, hcs, hline⟩, hsingle⟩ := reads_assignmentValue hx hsolid h
  refine ⟨⟨_, hreads.trans hcs, List.not_mem_append hfeed hline⟩, fun htrue ↦ ?_⟩
  rw [hreads.lineAfter_eq hfeed]
  exact Language.append_mem_mul hfirst (hsingle htrue)

/-- The field of an assignment, which does not begin with a blank. -/
theorem field_of_assignmentField (h : assignmentField c = some (found, d)) :
    found.field.start = c ∧ found.field.content = c.after.takeWhile isFieldChar ∧
      ∀ x ∈ c.after.head?, isBlank x = false := by
  obtain ⟨stop, hfield, h⟩ := Option.bind_eq_some_iff.1 h
  obtain ⟨signEnd, hsign, h⟩ := Option.bind_eq_some_iff.1 h
  obtain ⟨cs, hreads, hne, hall, hstop⟩ := reads_run hfield
  have hpiece : found.field = ⟨c, stop⟩ := by
    rw [assignmentValue] at h
    split at h
    · rw [← (Prod.mk.inj (Option.some.inj h)).1]
    · obtain ⟨next, -, h⟩ := Option.bind_eq_some_iff.1 h
      rw [← (Prod.mk.inj (Option.some.inj h)).1]
  refine ⟨by rw [hpiece], ?_, ?_⟩
  · have hrest : stop.after.takeWhile isFieldChar = [] := by
      cases hafter : stop.after with
      | nil => rfl
      | cons x rest => exact List.takeWhile_cons_of_neg (by simp [hstop x (by rw [hafter]; rfl)])
    rw [hpiece, hreads.after_eq, List.takeWhile_append_of_pos hall, hrest, List.append_nil]
    exact hreads.upTo_eq
  · obtain ⟨x, cs, rfl⟩ := List.exists_cons_of_ne_nil hne
    intro y hy
    obtain rfl := Option.mem_unique hreads.head?_after hy
    exact not_isBlank_of_isFieldChar (hall x List.mem_cons_self)

/-! ### The search of a body -/

/-- An assignment begins with blanks at the start of a line. -/
theorem assignment_eq_some (h : assignment s = some (found, d)) :
    s.atLineStart = true ∧ s.Spells (several isBlank) found.field.start ∧
      assignmentField found.field.start = some (found, d) := by
  rw [assignment_eq] at h
  obtain ⟨hs, h⟩ := Option.ite_none_right_eq_some.1 h
  obtain ⟨c, hblanks, h⟩ := Option.bind_eq_some_iff.1 h
  obtain ⟨hstart, -, -⟩ := field_of_assignmentField h
  rw [hstart]
  exact ⟨hs, spells_run hblanks, h⟩

/-- The fields that the search of a body finds with a single sign. -/
def assignmentStarts (body : List Char) : List Cursor :=
  ((findAll assignment body).filter (·.value.isSingle)).map (·.value.field.start)

variable {body : List Char}

theorem advances_assignment : Advances assignment :=
  (ignoresEndings_assignment []).advances

/-- A find in a body, from the field on. -/
theorem of_mem_findAll_assignment {find : Found Assignment} (h : find ∈ findAll assignment body) :
    find.start.Spells (several isBlank) find.value.field.start ∧
      assignmentField find.value.field.start = some (find.value, find.stop) ∧
      find.value.field.start.text = body ∧ find.value.field.start.LeadsLine ∧
      find.value.field.start.SetOff := by
  obtain ⟨htext, hanswer⟩ := of_mem_findAll (fun _ _ _ ↦ text_assignment) h
  obtain ⟨hs, hblanks, hfield⟩ := assignment_eq_some hanswer
  obtain ⟨hleads, hoff⟩ := leadsLine_and_setOff_iff.2 ⟨_, hs, hblanks⟩
  exact ⟨hblanks, hfield, hblanks.text_eq.trans htext, hleads, hoff⟩

theorem feed_mem_of_atLineStart {cs : List Char} (h : c.Reads cs s) (hne : cs ≠ [])
    (hs : s.atLineStart = true) : '\n' ∈ cs := by
  obtain ⟨cs, x, rfl⟩ := (List.eq_nil_or_concat' cs).resolve_left hne
  obtain ⟨before, after⟩ := s
  have hbefore : before = (cs ++ [x]).reverse ++ c.before := h.before_eq
  rw [List.reverse_append] at hbefore
  subst hbefore
  obtain rfl : x = '\n' := beq_iff_eq.1 hs
  exact List.mem_append_right _ (List.mem_singleton_self _)

/-- The find that goes over the blanks before a field is one of this field, if what it reads does
not go over the end of a line. -/
theorem field_eq_of_covers {find : Found Assignment} {cs ds : List Char}
    (hplace : InPlace find.value.field.start)
    (hfind : find.start.Spells (several isBlank) find.value.field.start)
    (hfield : assignmentField find.value.field.start = some (find.value, find.stop))
    (hs : s.atLineStart = true) (hblanks : s.Spells (several isBlank) c)
    (hc : ∀ x ∈ c.after.head?, isBlank x = false) (hbefore : find.start.Reads cs s)
    (hcovers : s.Reads ds find.stop) : find.value.field.start = c := by
  obtain ⟨-, -, hhead⟩ := field_of_assignmentField hfield
  obtain ⟨⟨es, hes, hfeed⟩, -⟩ := reads_assignmentField hplace hfield
  obtain ⟨as, ⟨-, has⟩, hfirst⟩ := hfind
  obtain ⟨bs, ⟨hne, hbs⟩, hreads⟩ := hblanks
  rcases hbefore.total hfirst with ⟨rest, rfl, hrest⟩ | ⟨rest, rfl, hrest⟩
  · -- both fields are what follows the blanks
    have hskip := hrest.skip_eq (fun y hy ↦ has y (List.mem_append_right _ hy)) hhead
    exact hskip.symm.trans (hreads.skip_eq hbs hc)
  · -- the start of the line is behind the field, and so is the end of the line before
    by_cases hnil : rest = []
    · subst hnil
      obtain rfl := hrest.unique (.refl _)
      obtain ⟨y, bs, rfl⟩ := List.exists_cons_of_ne_nil hne
      have hy := hhead y hreads.head?_after
      rw [hbs y List.mem_cons_self] at hy
      cases hy
    · have hsame := hes.upTo_eq.symm.trans (hrest.trans hcovers).upTo_eq
      rw [hsame, List.mem_append, not_or] at hfeed
      exact absurd (feed_mem_of_atLineStart hrest hnil hs) hfeed.1

/-- **The fields that are found in a body.** -/
theorem mem_assignmentStarts
    (hplace : ∀ c : Cursor, c.text = body → c.LeadsLine → c.SetOff → InPlace c) :
    c ∈ assignmentStarts body ↔
      c.text = body ∧ c.LeadsLine ∧ c.SetOff ∧ c.lineAfter ∈ assigned := by
  constructor
  · intro h
    obtain ⟨find, hfind, rfl⟩ := List.mem_map.1 h
    obtain ⟨hmem, hsingle⟩ := List.mem_filter.1 hfind
    obtain ⟨-, hfield, htext, hleads, hoff⟩ := of_mem_findAll_assignment hmem
    obtain ⟨-, hassigned⟩ := reads_assignmentField (hplace _ htext hleads hoff) hfield
    exact ⟨htext, hleads, hoff, hassigned hsingle⟩
  · rintro ⟨htext, hleads, hoff, hassigned⟩
    obtain ⟨s, hs, hblanks⟩ := leadsLine_and_setOff_iff.1 ⟨hleads, hoff⟩
    obtain ⟨found, d, hanswer, hsingle⟩ := assignmentField_of_mem hassigned
    obtain ⟨-, -, hhead⟩ := field_of_assignmentField hanswer
    have hsearch : assignment s = some (found, d) := by
      obtain ⟨cs, ⟨hne, hcs⟩, hreads⟩ := hblanks
      rw [assignment_eq, if_pos hs, hreads.run_eq hne hcs hhead, Option.bind_some, hanswer]
    have hstart : (atStart body).Reads s.before.reverse s := by
      rw [← htext, hblanks.text_eq]
      exact s.reads_atStart
    obtain ⟨find, hmem, cs, ds, hbefore, hcovers, -⟩ :=
      exists_find_of_answer advances_assignment [] body hstart (by rw [hsearch]; rfl)
    obtain ⟨hfind, hfield, htext, hleads, hoff⟩ := of_mem_findAll_assignment hmem
    have hsame := field_eq_of_covers (hplace _ htext hleads hoff) hfind hfield hs hblanks hhead
      hbefore hcovers
    rw [hsame, hanswer] at hfield
    obtain ⟨hvalue, -⟩ := Prod.mk.inj (Option.some.inj hfield)
    exact List.mem_map.2 ⟨find, List.mem_filter.2 ⟨hmem, hvalue ▸ hsingle⟩, hsame⟩

/-- The fields are on one line each, from the top down. -/
theorem pairwise_assignmentStarts (body : List Char) :
    (assignmentStarts body).Pairwise (·.line < ·.line) := by
  rw [assignmentStarts, List.pairwise_map]
  refine ((pairwise_findAllFrom advances_assignment [] body).filter _).imp_of_mem ?_
  intro a b ha hb ⟨cs, hcs⟩
  obtain ⟨-, hanswer⟩ := of_mem_findAll (fun _ _ _ ↦ text_assignment) (List.mem_filter.1 ha).1
  obtain ⟨-, as, -, has⟩ := spells_assignment hanswer
  obtain ⟨-, -, hhead⟩ := field_of_assignmentField (assignment_eq_some hanswer).2.2
  obtain ⟨⟨bs, ⟨hne, -⟩, hreads⟩, -, -, hleads, -⟩ :=
    of_mem_findAll_assignment (List.mem_filter.1 hb).1
  have hall := (has.trans hcs).trans hreads
  -- the first field would stand before the second if they were on one line
  have hfeed : '\n' ∈ as ++ cs ++ bs := by
    by_contra hfeed
    obtain ⟨x, rest, hparts⟩ := List.exists_cons_of_ne_nil
      (List.append_ne_nil_of_right_ne_nil (as ++ cs) hne)
    have hblank := hleads x (by
      rw [hall.lineBefore_eq hfeed]
      exact List.mem_append_left _ (List.mem_reverse.2 (hparts ▸ List.mem_cons_self)))
    have hsolid := hhead x (by rw [hall.after_eq, hparts]; rfl)
    rw [hblank] at hsolid
    cases hsolid
  have hpos := List.count_pos_iff.2 hfeed
  show a.value.field.start.line < b.value.field.start.line
  rw [hall.line_eq]
  omega

/-! ### Findings -/

/-- The findings in a block, one for each field. -/
theorem forall₂_assignmentFindings {context : Context} {block : Block} {first last : Cursor}
    (hfirst : first.text = context.chars) (hreads : first.Reads block.body last)
    (hbase : first.offset = block.base) :
    List.Forall₂ (fun d c ↦ d.rule = .fieldAssignmentInBlock ∧
        d.range.start = (first.within last.after c).position ∧
        d.message = assignmentMessage (c.after.takeWhile isFieldChar) block.header)
      (assignmentFindings context block) (assignmentStarts block.body) := by
  have hcontent : ∀ find ∈ findAll assignment block.body,
      find.value.field.content = find.value.field.start.after.takeWhile isFieldChar :=
    fun find hfind ↦ (field_of_assignmentField (of_mem_findAll_assignment hfind).2.1).2.1
  rw [searches_assignmentFindings context block first last hfirst hreads hbase, Loop.marks,
    assignmentStarts, List.forall₂_map_left_iff, List.forall₂_map_right_iff]
  show List.Forall₂ _ ((findAll assignment block.body).filterMap _)
    ((findAll assignment block.body).filter _)
  generalize findAll assignment block.body = finds at hcontent ⊢
  induction finds with
  | nil => exact .nil
  | cons find finds ih =>
    obtain ⟨hfind, hfinds⟩ := List.forall_mem_cons.1 hcontent
    by_cases hsingle : find.value.isSingle = true
    · have hmark : (assignmentLoop block.header).mark find = some
          (⟨find.value.field.start, find.stop⟩,
            assignmentMessage find.value.field.content block.header) := if_pos hsingle
      rw [List.filterMap_cons_some hmark, List.filter_cons, if_pos hsingle]
      exact .cons ⟨rfl, rfl, by rw [← hfind]; rfl⟩ (ih hfinds)
    · have hmark : (assignmentLoop block.header).mark find = none := if_neg hsingle
      rw [List.filterMap_cons_none hmark, List.filter_cons, if_neg hsingle]
      exact ih hfinds

end Check

/-- **The assignments in a block that are reported.** In a document of the correlation dialect,
under a limit that cuts nothing off, the findings of the check are those in one event block after
the other. If the signs and values of a block are in place where a line is set off, there is one
finding for each line that is set off and an assignment, from the top down: it starts at the field
and names it. -/
theorem assignments_of_block {document : Document} {limit : Nat}
    (hlanguage : document.language = "co") (hlimit : document.chars.length < limit) :
    let context : Context := .ofDocument document limit
    Check.blockAssignment.validate document limit = .ok
        ((Check.blocks Check.eventHeader context).flatMap (Check.assignmentFindings context)) ∧
      ∀ block ∈ Check.blocks Check.eventHeader context,
        (∀ c : Cursor, c.text = block.body → c.LeadsLine → c.SetOff → Check.InPlace c) →
        ∃ (first last : Cursor) (starts : List Cursor), first.text = document.chars ∧
          first.Reads block.body last ∧ IsBody eventHeader first last ∧
          (∀ c, c ∈ starts ↔
            c.text = block.body ∧ c.LeadsLine ∧ c.SetOff ∧ c.lineAfter ∈ assigned) ∧
          starts.Pairwise (·.line < ·.line) ∧
          List.Forall₂ (fun d c ↦ d.rule = .fieldAssignmentInBlock ∧
              d.range.start = (first.within last.after c).position ∧
              d.message =
                Check.assignmentMessage (c.after.takeWhile Check.isFieldChar) block.header)
            (Check.assignmentFindings context block) starts := by
  intro context
  refine ⟨?_, fun block hblock hplace ↦ ?_⟩
  · have hcheck : Check.blockAssignment ∈ Suite.standard := by simp [Suite.standard]
    have happlies : Check.blockAssignment.appliesTo document.language = true := by
      rw [hlanguage]
      decide
    rw [Check.validate_standard hcheck (Nat.one_le_of_lt hlimit), if_pos happlies,
      Document.findingsUnder_eq_flatten _ hlimit.le, ← Check.loops_eq _ document limit]
    rfl
  · obtain ⟨first, last, hfirst, hbase, hreads, hbody⟩ :=
      Check.exists_body (fun _ _ ↦ Check.spells_eventHeader) hblock
    exact ⟨first, last, Check.assignmentStarts block.body, hfirst, hreads, hbody,
      fun c ↦ Check.mem_assignmentStarts hplace, Check.pairwise_assignmentStarts block.body,
      Check.forall₂_assignmentFindings hfirst hreads hbase⟩

/-- A block with an assignment that follows a blank line, a comparison, and an assignment that is
indented. -/
theorem assignments_of_block_setOff :
    let document : Document := ⟨"file:///a.co", "co", 1,
      "on e \x7b\na = 1\n\tb == 2\n\tc =3\n\x7d"⟩
    let context : Context := .ofDocument document 100
    document.language = "co" ∧ document.chars.length < 100 ∧
      ∀ block ∈ Check.blocks Check.eventHeader context,
        (∀ c : Cursor, c.text = block.body → c.LeadsLine → c.SetOff → Check.InPlace c) ∧
        ∃ starts : List Cursor, starts.length = 2 ∧
          (∀ c, c ∈ starts ↔
            c.text = block.body ∧ c.LeadsLine ∧ c.SetOff ∧ c.lineAfter ∈ assigned) ∧
          (Check.assignmentFindings context block).map (·.range.start) = [⟨1, 0⟩, ⟨3, 1⟩] := by
  intro document context
  have hlength : document.chars.length < 100 := by decide +kernel
  obtain ⟨-, hblocks⟩ := @assignments_of_block document 100 rfl hlength
  refine ⟨rfl, hlength, fun block hblock ↦ ?_⟩
  have hbody : ∀ block ∈ Check.blocks Check.eventHeader context,
      block.body = "\na = 1\n\tb == 2\n\tc =3\n".toList ∧
        (Check.assignmentFindings context block).map (·.range.start) = [⟨1, 0⟩, ⟨3, 1⟩] := by
    decide +kernel
  obtain ⟨htext, hfindings⟩ := hbody block hblock
  have hplace : ∀ c : Cursor, c.text = block.body → c.LeadsLine → Check.InPlace c := by
    rw [htext]
    exact forall_cursor (by decide +kernel)
  obtain ⟨_, _, starts, -, -, -, hstarts, -, hfound⟩ :=
    hblocks block hblock fun c hc hleads _ ↦ hplace c hc hleads
  have hcount := congrArg List.length hfindings
  rw [List.length_map, hfound.length_eq] at hcount
  exact ⟨fun c hc hleads _ ↦ hplace c hc hleads, starts, hcount, hstarts, hfindings⟩

/-- An assignment in a line that is neither indented nor after a blank line is missed. -/
theorem unindented_assignment_missed :
    let document : Document := ⟨"file:///a.co", "co", 1, "on e \x7b\na = 1\nb = 2\n\x7d"⟩
    let missed : Cursor := ⟨"\n1 = a\n".toList, "b = 2\n".toList⟩
    (Check.blocks Check.eventHeader (.ofDocument document 100)).map Check.Block.body =
        [missed.text] ∧
      missed.LeadsLine ∧ missed.lineAfter ∈ assigned ∧ missed.line = 2 ∧
      (lint .standard document .standard .empty).diagnostics.map (fun d ↦ (d.rule, d.range)) =
        [(.fieldAssignmentInBlock, ⟨⟨1, 0⟩, ⟨1, 5⟩⟩)] := by
  intro document missed
  have hassigned : missed.lineAfter ∈ assigned :=
    ⟨_, ⟨_, ⟨['b'], ⟨by decide, List.forall_mem_singleton.2 (by decide)⟩, [' '],
      List.forall_mem_singleton.2 (by decide), rfl⟩, ['='], rfl, rfl⟩, [' ', '2'],
      ⟨by simp, '2', by decide, by decide⟩, by decide +kernel⟩
  exact ⟨by decide +kernel, by decide +kernel, hassigned, by decide +kernel, by decide +kernel⟩

end RuleLint
