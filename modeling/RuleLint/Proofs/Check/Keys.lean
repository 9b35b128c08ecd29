import RuleLint.Proofs.Check.Arguments
import RuleLint.Proofs.Check.Parentheses
import RuleLint.Proofs.Text.Parts
import RuleLint.Proofs.Text.Remarks

/-!
# Keys in texts in parts

How the check of keys reads a text in parts.

A call is read by its own characters (`local_whitelistCall`), so the calls of a text can be found
part by part. The key of a call may be read on behind the part in which the call ends, unless the
part has its end (`CallEnds`).

The key of a document is what follows the first assignment up to the end of its line
(`declaredKey_of_opening`). An assignment opens with a sigil, a word, blanks and a sign, so a sigil
or a comma stops it (`keyOpening_append`): none can be opened before one and reach behind it.
-/

namespace RuleLint

open Cursor Construct

theorem Cursor.Spells.exists_cut {before after rest : List Char} {l : Language Char} {d : Cursor}
    (h : Spells ⟨before, after ++ rest⟩ l d) (hle : rest.length ≤ d.after.length) :
    ∃ e, d = (atStart []).within rest e ∧ Spells ⟨before, after⟩ l e := by
  obtain ⟨cs, hcs, hreads⟩ := h
  obtain ⟨e, he, hcut⟩ := hreads.exists_cut hle
  exact ⟨e, he, cs, hcs, hcut⟩

theorem Cursor.Spells.length_le {c d : Cursor} {l : Language Char} (h : c.Spells l d) :
    d.after.length ≤ c.after.length := by
  obtain ⟨cs, -, hreads⟩ := h
  have hlength := hreads.length_eq
  omega

namespace Check

variable {c d start stop : Cursor} {rest : List Char}

/-! ### Calls -/

/-- A call is read where there is one. -/
theorem whitelistCall_of_spells (hopened : c.Spells openedCall start)
    (hcontent : start.Spells {cs | ∀ x ∈ cs, x ≠ '"' ∧ x ≠ '\n'} stop)
    (hclose : stop.Spells (mark '"') d) : whitelistCall c = some (⟨start, stop⟩, d) := by
  obtain ⟨c₅, h, hquote⟩ := hopened.exists_mid
  obtain ⟨c₄, h, hblanks'⟩ := h.exists_mid
  obtain ⟨c₃, h, hopen⟩ := h.exists_mid
  obtain ⟨c₂, h, hblanks⟩ := h.exists_mid
  obtain ⟨c₁, hword, name, ⟨hne, hname⟩, hreads⟩ := h.exists_mid
  have hrun : c₁.run isWord = some c₂ := by
    refine hreads.run_eq hne hname fun x hx ↦ ?_
    obtain ⟨pad, hpad, hpads⟩ := hblanks
    cases pad with
    | nil =>
      obtain rfl := hpads.unique (.refl _)
      obtain ⟨_, rfl, hopens⟩ := hopen
      obtain rfl := Option.mem_unique hopens.head?_after hx
      rfl
    | cons y pad =>
      obtain rfl := Option.mem_unique hpads.head?_after hx
      exact isWord_of_isBlank (hpad _ List.mem_cons_self)
  obtain ⟨content, hcs, hcontents⟩ := hcontent
  obtain ⟨_, rfl, hends⟩ := hclose
  have hskip : start.skip isQuotable = stop := by
    refine hcontents.skip_eq (fun x hx ↦ by simpa [isQuotable] using hcs x hx) fun x hx ↦ ?_
    obtain rfl := Option.mem_unique hends.head?_after hx
    rfl
  rw [whitelistCall, word_of_spells hword]
  show (c₁.run isWord).bind _ = _
  rw [hrun]
  show (c₂.skipBlanks.char '(').bind _ = _
  rw [char_skipBlanks_of_spells hblanks hopen (by decide)]
  show (c₄.skipBlanks.char '"').bind _ = _
  rw [char_skipBlanks_of_spells hblanks' hquote (by decide)]
  show ((start.skip isQuotable).char '"').bind _ = _
  rw [hskip, hends.char_eq]
  rfl

/-- What a call is read as rests on its own characters. -/
theorem local_whitelistCall : Local whitelistCall (Piece.within (atStart [])) where
  advances := (ignoresEndings_whitelistCall []).advances
  within c rest piece stop h := by
    obtain ⟨hopened, -, hcontent, hclose⟩ := spells_whitelistCall h
    exact whitelistCall_of_spells (hopened.within _ rest) (hcontent.within _ rest)
      (hclose.within _ rest)
  cut before after rest piece stop h hle := by
    obtain ⟨hopened, -, hcontent, hclose⟩ := spells_whitelistCall h
    have hle' := hle.trans hclose.length_le
    obtain ⟨start', hstart, hopened'⟩ := hopened.exists_cut (hle'.trans hcontent.length_le)
    rw [hstart, within_atStart] at hcontent
    obtain ⟨stop', hstop, hcontent'⟩ := hcontent.exists_cut hle'
    rw [hstop, within_atStart] at hclose
    obtain ⟨d, -, hclose'⟩ := hclose.exists_cut hle
    rw [whitelistCall_of_spells hopened' hcontent' hclose']
    rfl

/-! ### Key arguments -/

/-- Whether what follows a call is in the text: something that is no blank, and the end of the key
argument, if there is a comma. -/
structure CallEnds (call : Found Piece) : Prop where
  followed : call.stop.skipBlanks.after ≠ []
  keyEnds : KeyEnds call

section Arguments

variable {outer : Cursor} {call : Found Piece} {declared : List Char}

theorem comma_within (h : rest = [] ∨ CallEnds call) :
    (outer.within rest call.stop).skipBlanks.char ',' =
      (call.stop.skipBlanks.char ',').map (outer.within rest) := by
  obtain rfl | hends := h
  · exact char_skipBlanks_within apart_nil (by decide) (by decide) call.stop
  · have hskip : (outer.within rest call.stop).skipBlanks =
        outer.within rest call.stop.skipBlanks :=
      skip_within_of_ne_nil hends.followed
    rw [hskip]
    exact one_within_of_ne_nil hends.followed

/-- The marks on keys, with something in the middle of the text that no call touches. -/
theorem keyMarks_of_leavesOut {above between below : List Char}
    (h : LeavesOut whitelistCall above between below)
    (hends : ∀ call ∈ findAll whitelistCall above, CallEnds call) (declared : List Char) :
    (keyLoop declared).marks (above ++ (between ++ below)) =
      ((keyLoop declared).marks above).map (markWithin (atStart []) (between ++ below)) ++
        ((keyLoop declared).marks below).map (markWithin ⟨(above ++ between).reverse, []⟩ []) := by
  have hcalls := h.findAll_eq local_whitelistCall (carries_whitelistCall apart_nil)
  rw [Loop.marks, keyLoop, hcalls, List.filterMap_append]
  congr 1
  · exact @Loop.Carries.filterMap_eq _ (keyLoop declared) _ _ _ _ fun call hcall ↦
      keyMark_within declared (.inr (hends call hcall).keyEnds)
        (comma_within (.inr (hends call hcall)))
  · exact @Loop.Carries.filterMap_eq _ (keyLoop declared) _ _ _ _ fun call _ ↦
      keyMark_within declared (.inl rfl) (comma_within (.inl rfl))

end Arguments

/-! ### Keys of documents -/

section Declared

variable {key cs ds : List Char}

theorem normalKey_append (cs ds : List Char) :
    normalKey (cs ++ ds) = normalKey cs ++ normalKey ds :=
  List.filter_append cs ds

theorem normalKey_of_blanks (hcs : cs ∈ blanks) : normalKey cs = [] := by
  rw [normalKey, List.filter_eq_nil_iff]
  intro x hx
  simp [hcs x hx]

theorem keyOpening_eq_some_iff :
    keyOpening c = some d ↔ ∃ bs ∈ blanks, c.Reads ("$alert.key".toList ++ bs ++ ['=']) d := by
  constructor
  · intro h
    obtain ⟨e, hword, hsign⟩ := Option.bind_eq_some_iff.1 h
    obtain ⟨bs, hbs, hblank⟩ := e.reads_skipBlanks
    exact ⟨bs, hblank, ((reads_word hword).trans hbs).trans (reads_char hsign)⟩
  · rintro ⟨bs, hbs, hreads⟩
    obtain ⟨e, h, hsign⟩ := hreads.exists_split
    obtain ⟨f, hword, hblanks⟩ := h.exists_split
    rw [keyOpening, word_of_spells ⟨_, rfl, hword⟩, Option.bind_some]
    exact char_skipBlanks_of_spells ⟨bs, hbs, hblanks⟩ ⟨_, rfl, hsign⟩ (by decide)

/-- Only a sigil opens an assignment. -/
theorem keyOpening_eq_none_of_ne {before after : List Char} {x : Char} (hx : x ≠ '$') :
    keyOpening ⟨before, x :: after⟩ = none := by
  rw [Option.eq_none_iff_forall_ne_some]
  intro d hd
  obtain ⟨bs, -, hreads⟩ := keyOpening_eq_some_iff.1 hd
  have hafter : x :: after = "$alert.key".toList ++ bs ++ ['='] ++ d.after := hreads.after_eq
  rw [toList_alertKey] at hafter
  exact hx (List.cons.inj hafter).1

/-- No assignment of a key is opened before a sigil or a delimiter and reaches behind it. -/
theorem keyOpening_append {x y : Char} (hy : y = '$' ∨ isDelimiter y = true)
    (before more rest : List Char) :
    keyOpening ⟨before, x :: (more ++ y :: rest)⟩ =
      (keyOpening ⟨before, x :: more⟩).map ((atStart []).within (y :: rest)) := by
  cases hpart : keyOpening ⟨before, x :: more⟩ with
  | some d =>
    have hwithin := @keyOpening_within _ (y :: rest) (atStart []) (mem_after_of_keyOpening hpart)
    rw [hpart, within_atStart] at hwithin
    exact hwithin
  | none =>
    rw [Option.map_none, Option.eq_none_iff_forall_ne_some]
    intro d hd
    obtain ⟨bs, hbs, hreads⟩ := keyOpening_eq_some_iff.1 hd
    have hparts : (x :: more) ++ y :: rest = "$alert.key".toList ++ bs ++ ['='] ++ d.after :=
      hreads.after_eq
    rcases Nat.lt_or_ge d.after.length (y :: rest).length with hlt | hle
    · -- the character would be in the word, among the blanks or the sign
      have hmem : y ∈ "alert.key".toList ++ bs ++ ['='] := by
        have hrest : more ++ y :: rest = "alert.key".toList ++ bs ++ ['='] ++ d.after := by
          rw [toList_alertKey] at hparts
          exact (List.cons.inj hparts).2
        rcases List.append_eq_append_iff.1 hrest with ⟨as, has, hrest⟩ | ⟨as, -, hrest⟩
        · cases as with
          | nil =>
            rw [hrest] at hlt
            exact absurd hlt (lt_irrefl _)
          | cons z as =>
            obtain ⟨rfl, -⟩ := List.cons.inj hrest
            rw [has]
            simp
        · rw [hrest, List.length_append] at hlt
          omega
      rw [isDelimiter, Bool.or_eq_true, beq_iff_eq, beq_iff_eq] at hy
      have hblank : y ∉ bs := fun hmem ↦ by
        have hy' := hbs y hmem
        rcases hy with rfl | rfl | rfl <;> exact absurd hy' (by decide)
      rcases List.mem_append.1 hmem with hmem | hmem
      · rcases List.mem_append.1 hmem with hmem | hmem
        · rcases hy with rfl | rfl | rfl <;> exact absurd hmem (by decide)
        · exact hblank hmem
      · rcases hy with rfl | rfl | rfl <;> exact absurd hmem (by decide)
    · obtain ⟨e, -, hcut⟩ := @Reads.exists_cut before (x :: more) _ _ _ hreads hle
      rw [keyOpening_eq_some_iff.2 ⟨bs, hbs, hcut⟩] at hpart
      cases hpart

/-- Whether one is opened before a sigil or a delimiter does not depend on what comes behind it. -/
theorem keyOpening_append_eq_none_iff {before more rest : List Char} {x y : Char}
    (hy : y = '$' ∨ isDelimiter y = true) :
    keyOpening ⟨before, x :: (more ++ y :: rest)⟩ = none ↔
      keyOpening ⟨before, x :: more⟩ = none := by
  rw [keyOpening_append hy, Option.map_eq_none_iff]

/-- The key of a text in whose first part no assignment is opened. -/
theorem declaredKey_below {above below : List Char}
    (h : ∀ passed x more, above = passed ++ x :: more →
      keyOpening ⟨passed.reverse, x :: (more ++ below)⟩ = none) :
    declaredKey (above ++ below) = declaredKey below :=
  @declaredKey_of_none above [] below h (by rw [List.append_nil]; rfl)

/-- What an assignment that opens before a text assigns: the line on which something is left,
behind the blanks. -/
def keyLine (after : List Char) : List Char :=
  (after.dropWhile isBlank).takeWhile (· != '\n')

/-- The key of a text that opens with an assignment. -/
theorem declaredKey_of_opening {text : List Char} (h : keyOpening (atStart text) = some d)
    (hne : keyLine d.after ≠ []) : declaredKey text = some (normalKey (keyLine d.after)) := by
  obtain ⟨cs, hcs, hall, hstop⟩ := d.skipBlanks.reads_skip (· != '\n')
  have hline : keyLine d.after = cs := by
    have hafter : d.after.dropWhile isBlank = d.skipBlanks.after := (after_skip isBlank d).symm
    rw [keyLine, hafter, hcs.after_eq, List.takeWhile_append_of_pos hall]
    cases hrest : (d.skipBlanks.skip (· != '\n')).after with
    | nil => simp
    | cons x rest =>
      have hx := hstop x (by rw [hrest]; rfl)
      rw [List.takeWhile_cons_of_neg (by simpa using hx), List.append_nil]
  rw [hline] at hne ⊢
  obtain ⟨as, pad, rfl, has, -, hpad, -, -⟩ := exists_trimmed hcs hne hcs.head_skipBlanks
  have hvalue : keyValue d = some (as, d.skipBlanks.skip (· != '\n')) := by
    have hafter : d.skipBlanks.after ≠ [] := by
      rw [hcs.after_eq]
      exact List.append_ne_nil_of_left_ne_nil hne _
    rw [keyValue]
    dsimp only
    rw [if_neg (by simpa using hafter), has.upTo_eq]
  have hanswer : keyAssignment (atStart text) = some (as, d.skipBlanks.skip (· != '\n')) := by
    rw [keyAssignment_eq, h, Option.bind_some, hvalue]
  obtain ⟨x, rest, rfl⟩ := List.exists_cons_of_ne_nil
    (List.ne_nil_of_mem (mem_after_of_keyOpening h))
  rw [declaredKey, findFirst, findAll, findAllFrom_of_some advances_keyAssignment hanswer,
    normalKey_append, normalKey_of_blanks hpad, List.append_nil]
  rfl

end Declared

end Check

end RuleLint
