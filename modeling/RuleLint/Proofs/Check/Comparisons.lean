import RuleLint.Proofs.Check.Keys
import RuleLint.Proofs.Check.Remarked
import RuleLint.Proofs.Check.Shifted

/-!
# Comparisons of the key above its assignment

A document declares its key by the first assignment to `$alert.key`. What happens when a line with a
comparison of `$alert.key` comes before that assignment?

With `!=` nothing does, except that the findings below are one line further down
(`comparison_above_key`). With `==` the first sign of the operator is taken for the sign of an
assignment and the second for the beginning of its expression: the document declares the operand
with a sign before it, and calls with the right key are reported (`comparison_declares_key`).

Neither depends on where calls are: a line that begins with a sigil ends every call and every
assignment before it, since none of them has a sigil right after a line feed. What the line must not
be put into is a call of the document as it was, or a key argument; and its operand must not hold a
call or an assignment, alone or together with what comes after it.
-/

namespace RuleLint

open Cursor Construct Check

/-- A comparison of the key on a line of its own. -/
structure KeyComparison where
  pad : List Char
  operator : String
  operand : List Char
  blank : pad ∈ blanks
  isOperator : operator = "==" ∨ operator = "!="
  unbroken : '\n' ∉ pad ∧ '\n' ∉ operand

namespace KeyComparison

variable {k : KeyComparison} {above below : List Char}

/-- The characters of the line. -/
def line (k : KeyComparison) : List Char :=
  "$alert.key".toList ++ (k.pad ++ (k.operator.toList ++ (k.operand ++ ['\n'])))

/-- Whether a comparison can be put between two parts of a document: at the start of a line, before
the first assignment of a key, not into a call or a key argument, and so that neither a call nor an
assignment begins in the operand. -/
structure FitsBetween (k : KeyComparison) (above below : List Char) : Prop where
  lineStart : atLineStart ⟨above.reverse, []⟩ = true
  beforeKey : ∃ found, findFirst keyAssignment (above ++ below) = some found ∧
    found.start.after.length ≤ below.length
  callsApart : LeavesOut whitelistCall above [] below
  callsEnd : ∀ call ∈ findAll whitelistCall above, CallEnds call
  noCall : ∀ call ∈ findAll whitelistCall (above ++ (k.line ++ below)),
    below.length < call.start.after.length →
      (k.line ++ below).length < call.start.after.length
  noKey : ∀ passed x more before, k.operand = passed ++ x :: more →
    keyOpening ⟨before, x :: (more ++ '\n' :: below)⟩ = none

end KeyComparison

namespace Check

theorem down_down (m n : Nat) (d : Diagnostic) : (d.down m).down n = d.down (m + n) := by
  have hposition : ∀ position : Position, (position.down m).down n = position.down (m + n) := by
    intro position
    rw [Position.down, Position.down, Position.down]
    dsimp only
    rw [toUInt32_add, Nat.add_assoc]
  rw [Diagnostic.down, Diagnostic.down, Diagnostic.down, Range.down, Range.down, Range.down]
  dsimp only
  rw [hposition, hposition]

/-- The findings on keys, with something in the middle of the text that no call touches. -/
theorem keyFindings_of_leavesOut {above between below : List Char}
    (h : LeavesOut whitelistCall above between below)
    (hends : ∀ call ∈ findAll whitelistCall above, CallEnds call)
    (hstart : atLineStart ⟨(above ++ between).reverse, []⟩ = true) (context : Context)
    (declared : List Char) :
    keyFindings (context.withText (above ++ (between ++ below))) declared =
      keyFindings (context.withText above) declared ++
        (keyFindings (context.withText below) declared).map
          (Diagnostic.down ((above ++ between).count '\n')) := by
  have hline : Cursor.line ⟨(above ++ between).reverse, []⟩ = (above ++ between).count '\n' :=
    List.count_reverse
  rw [keyFindings_eq, keyFindings_eq, keyFindings_eq, Context.chars_withText,
    Context.chars_withText, Context.chars_withText, keyMarks_of_leavesOut h hends, List.map_append,
    List.map_map, List.map_map, List.map_map]
  refine congrArg₂ (· ++ ·) (List.map_congr_left fun m _ ↦ findingAt_atStart _ m)
    (List.map_congr_left fun m _ ↦ ?_)
  have hfinding := @findingAt_within .whitelistKeyMismatch _ [] hstart m
  rw [hline] at hfinding
  exact hfinding

/-! ### Sigils at line starts -/

section Sigils

variable {c d : Cursor} {piece : Piece} {as rest : List Char}

/-- The text of a call up to its literal has no sigil and ends with a quote. -/
theorem of_mem_openedCall {cs : List Char} (h : cs ∈ openedCall) :
    '$' ∉ cs ∧ cs.getLast? = some '"' := by
  obtain ⟨_, ⟨_, ⟨_, ⟨_, ⟨_, rfl, name, ⟨-, hname⟩, rfl⟩, pad, hpad, rfl⟩, _, rfl, rfl⟩,
    pad', hpad', rfl⟩, _, rfl, rfl⟩ := h
  have hblank : ∀ pad ∈ blanks, '$' ∉ pad := fun pad hpad hmem ↦
    absurd (hpad _ hmem) (by decide)
  have hword : '$' ∉ name := fun hmem ↦ absurd (hname _ hmem) (by decide)
  refine ⟨?_, List.getLast?_concat⟩
  simp only [List.mem_append, not_or]
  exact ⟨⟨⟨⟨⟨by decide, hword⟩, hblank _ hpad⟩, by decide⟩, hblank _ hpad'⟩, by decide⟩

/-- A call does not go over a line feed with a sigil behind it: before the literal there is no
sigil, and in the literal there is no line feed. -/
theorem whitelistCall_stops (h : whitelistCall c = some (piece, d))
    (hafter : c.after = as ++ '\n' :: '$' :: rest) : ('$' :: rest).length ≤ d.after.length := by
  obtain ⟨⟨cs, hcs, hopened⟩, -, ⟨ds, hds, hcontent⟩, _, rfl, hclose⟩ := spells_whitelistCall h
  obtain ⟨hsigil, hlast⟩ := of_mem_openedCall hcs
  have hparts : (as ++ ['\n']) ++ '$' :: rest = cs ++ (ds ++ '"' :: d.after) := by
    rw [List.append_assoc]
    show as ++ '\n' :: '$' :: rest = _
    rw [← hafter, hopened.after_eq, hcontent.after_eq, hclose.after_eq]
    rfl
  have hne : cs ≠ as ++ ['\n'] := by
    rintro rfl
    simp at hlast
  by_contra hlt
  rcases List.append_eq_append_iff.1 hparts with ⟨bs, hbs, hrest⟩ | ⟨bs, hbs, hrest⟩
  · cases bs with
    | nil => exact hne (by simpa using hbs)
    | cons x bs =>
      obtain ⟨rfl, -⟩ := List.cons.inj hrest
      exact hsigil (by simp [hbs])
  · -- the line feed is behind the opening, and the call goes on behind it
    have hfeed : '\n' ∈ bs := by
      rcases List.eq_nil_or_concat bs with rfl | ⟨bs, x, rfl⟩
      · exact absurd (by simpa using hbs.symm) hne
      · rw [List.concat_eq_append, ← List.append_assoc] at hbs
        obtain ⟨-, hx⟩ := List.append_inj' hbs rfl
        obtain rfl : '\n' = x := by simpa using hx
        simp
    rcases List.append_eq_append_iff.1 hrest with ⟨es, -, htail⟩ | ⟨es, rfl, -⟩
    · cases es with
      | nil => cases htail
      | cons x es =>
        have hbehind : d.after = es ++ '$' :: rest := (List.cons.inj htail).2
        refine hlt ?_
        rw [hbehind, List.length_append]
        exact Nat.le_add_left _ _
    · exact (hds '\n' (List.mem_append_left _ hfeed)).2 rfl

end Sigils

/-! ### The first assignment of a key -/

section First

variable {above below rest : List Char}

/-- Before the first assignment none is opened. -/
theorem keyOpening_eq_none_above
    (h : ∃ found, findFirst keyAssignment (above ++ below) = some found ∧
      found.start.after.length ≤ below.length) {passed more : List Char} {x : Char}
    (hparts : above = passed ++ x :: more) :
    keyOpening ⟨passed.reverse, x :: (more ++ below)⟩ = none := by
  obtain ⟨first, hfirst, hlater⟩ := h
  obtain ⟨htext, hanswer⟩ := of_mem_findAll (fun c key d hkey ↦ by
    obtain ⟨cs, -, hreads⟩ := advances_keyAssignment c key d hkey
    exact hreads.text_eq) (mem_findAll_of_findFirst hfirst)
  have hsigil : '$' ∈ more ++ below := by
    rw [keyAssignment_eq] at hanswer
    obtain ⟨d, hopening, -⟩ := Option.bind_eq_some_iff.1 hanswer
    obtain ⟨bs, -, hreads⟩ := keyOpening_eq_some_iff.1 hopening
    have hmem : '$' ∈ first.start.after := by
      rw [hreads.after_eq, toList_alertKey]
      exact List.mem_cons_self
    refine List.mem_append_right _ ?_
    rw [Cursor.text] at htext
    rcases List.append_eq_append_iff.1 htext with ⟨as, -, hafter⟩ | ⟨as, -, hbelow⟩
    · have hlength := congrArg List.length hafter
      rw [List.length_append] at hlength
      obtain rfl : as = [] := List.length_eq_zero_iff.1 (by omega)
      rwa [hafter] at hmem
    · rw [hbelow]
      exact List.mem_append_right _ hmem
  refine keyOpening_eq_none ?_ hsigil
  -- an answer there would be covered by a find that begins there or earlier
  rw [Option.eq_none_iff_forall_ne_some]
  rintro ⟨key, d⟩ hkey
  have hreads : Reads ⟨[], above ++ below⟩ passed ⟨passed.reverse, x :: (more ++ below)⟩ :=
    ⟨by simp, by rw [hparts]; simp⟩
  obtain ⟨found, hfound, ds, -, hds, -⟩ :=
    exists_find_of_answer advances_keyAssignment [] (above ++ below) hreads (by rw [hkey]; rfl)
  have hlength := hds.length_eq
  rw [List.length_cons, List.length_append] at hlength
  obtain ⟨finds, hfinds⟩ := List.head?_eq_some_iff.1 hfirst
  have hordered := pairwise_findAllFrom advances_keyAssignment [] (above ++ below)
  rw [findAll] at hfinds
  rw [hfinds] at hfound hordered
  rcases List.mem_cons.1 hfound with rfl | hfound
  · omega
  · obtain ⟨es, hes⟩ := (List.pairwise_cons.1 hordered).1 found hfound
    obtain ⟨fs, -, hfs⟩ := advances_keyAssignment _ _ _ hanswer
    have hlength' := hes.length_eq
    have hlength'' := hfs.length_eq
    omega

/-- Before the first assignment none is opened when something that begins with a sigil comes in
between. -/
theorem keyOpening_eq_none_of_sigil
    (h : ∃ found, findFirst keyAssignment (above ++ below) = some found ∧
      found.start.after.length ≤ below.length) {passed more : List Char} {x : Char}
    (hparts : above = passed ++ x :: more) :
    keyOpening ⟨passed.reverse, x :: (more ++ '$' :: rest)⟩ = none := by
  rw [keyOpening_append_eq_none_iff (.inl rfl), Option.eq_none_iff_forall_ne_some]
  intro d hd
  have hwithin := @keyOpening_within _ below (atStart []) (mem_after_of_keyOpening hd)
  rw [hd, within_atStart] at hwithin
  exact absurd ((keyOpening_eq_none_above h hparts).symm.trans hwithin) (by simp)

end First

end Check

namespace KeyComparison

variable {k : KeyComparison} {above below : List Char}

/-! ### The line -/

theorem line_eq (k : KeyComparison) :
    k.line = "$alert.key".toList ++ (k.pad ++ (k.operator.toList ++ (k.operand ++ ['\n']))) := rfl

/-- The line begins with a sigil. -/
theorem line_eq_cons (k : KeyComparison) : k.line =
    '$' :: ("alert.key".toList ++ (k.pad ++ (k.operator.toList ++ (k.operand ++ ['\n'])))) :=
  congrArg (· ++ (k.pad ++ (k.operator.toList ++ (k.operand ++ ['\n'])))) toList_alertKey

theorem feed_notMem_operator (k : KeyComparison) : '\n' ∉ k.operator.toList := by
  rcases k.isOperator with h | h <;> rw [h] <;> decide

theorem count_line (k : KeyComparison) : k.line.count '\n' = 1 := by
  obtain ⟨hpad, hoperand⟩ := k.unbroken
  rw [line_eq, List.count_append, List.count_append, List.count_append, List.count_append,
    List.count_eq_zero_of_not_mem hpad, List.count_eq_zero_of_not_mem hoperand,
    List.count_eq_zero_of_not_mem k.feed_notMem_operator]
  rfl

/-- The place behind the line. -/
theorem atLineStart_behind (k : KeyComparison) (above : List Char) :
    atLineStart ⟨(above ++ k.line).reverse, []⟩ = true := by
  rw [line_eq]
  simp [atLineStart]

/-! ### Calls -/

/-- No call touches the line: one that begins above ends there, at the latest at the line feed. -/
theorem FitsBetween.leavesOut (h : k.FitsBetween above below) :
    LeavesOut whitelistCall above k.line below := by
  intro call hcall
  rw [or_iff_not_imp_right, not_le]
  intro hbegins
  obtain ⟨htext, hanswer⟩ := of_mem_findAll (fun _ _ _ ↦ text_whitelistCall) hcall
  have habove := h.noCall call hcall hbegins
  rw [Cursor.text] at htext
  rcases List.append_eq_append_iff.1 htext with ⟨as, hparts, hafter⟩ | ⟨as, -, hline⟩
  · rcases List.eq_nil_or_concat as with rfl | ⟨as, x, rfl⟩
    · rw [hafter] at habove
      exact absurd habove (lt_irrefl _)
    · have hfeed := h.lineStart
      rw [hparts, List.concat_eq_append, ← List.append_assoc, List.reverse_append] at hfeed
      obtain rfl : x = '\n' := by simpa [atLineStart] using hfeed
      rw [line_eq_cons] at hafter ⊢
      refine @whitelistCall_stops _ _ _ as _ hanswer ?_
      rw [hafter, List.concat_eq_append, List.append_assoc]
      rfl
  · rw [hline, List.length_append] at habove
    omega

/-! ### Keys -/

/-- Above the line no assignment is opened. -/
theorem FitsBetween.declaredKey_eq (h : k.FitsBetween above below) :
    declaredKey (above ++ below) = declaredKey below ∧
      declaredKey (above ++ (k.line ++ below)) = declaredKey (k.line ++ below) :=
  ⟨declaredKey_below fun _ _ _ ↦ keyOpening_eq_none_above h.beforeKey,
    declaredKey_below fun _ _ _ hparts ↦ by
      rw [line_eq_cons]
      exact keyOpening_eq_none_of_sigil h.beforeKey hparts⟩

/-- The second sign of the operator begins the expression that is assigned. -/
theorem declaredKey_line (hoperator : k.operator = "==") (below : List Char) :
    declaredKey (k.line ++ below) = some ('=' :: normalKey k.operand) := by
  have hreads : (atStart (k.line ++ below)).Reads ("$alert.key".toList ++ k.pad ++ ['='])
      ⟨("$alert.key".toList ++ k.pad ++ ['=']).reverse, '=' :: (k.operand ++ '\n' :: below)⟩ := by
    refine ⟨by simp [atStart], ?_⟩
    rw [line_eq, hoperator]
    simp [atStart]
  have hline : keyLine ('=' :: (k.operand ++ '\n' :: below)) = '=' :: k.operand := by
    have hall : ∀ x ∈ '=' :: k.operand, (x != '\n') = true := by
      refine List.forall_mem_cons.2 ⟨by decide, fun x hx ↦ ?_⟩
      exact bne_iff_ne.2 (ne_of_mem_of_not_mem hx k.unbroken.2)
    rw [keyLine, List.dropWhile_cons_of_neg (by decide), ← List.cons_append,
      List.takeWhile_append_of_pos hall, List.takeWhile_cons_of_neg (by decide), List.append_nil]
  have hopening := keyOpening_eq_some_iff.2 ⟨k.pad, k.blank, hreads⟩
  rw [declaredKey_of_opening hopening (by rw [hline]; exact List.cons_ne_nil _ _), hline]
  rfl

/-- With the other operator no assignment is opened in the line. -/
theorem FitsBetween.keyOpening_line (h : k.FitsBetween above below)
    (hoperator : k.operator = "!=") {passed more : List Char} {x : Char}
    (hparts : k.line = passed ++ x :: more) :
    keyOpening ⟨passed.reverse, x :: (more ++ below)⟩ = none := by
  by_cases hx : x ≠ '$'
  · exact keyOpening_eq_none_of_ne hx
  obtain rfl : x = '$' := not_not.1 hx
  cases passed with
  | nil =>
    -- behind the name and the blanks the operator comes, which is not the sign of an assignment
    rw [Option.eq_none_iff_forall_ne_some]
    intro d hd
    obtain ⟨bs, hbs, hreads⟩ := keyOpening_eq_some_iff.1 hd
    have hafter : "$alert.key".toList ++ (k.pad ++ '!' :: ('=' :: k.operand ++ '\n' :: below)) =
        "$alert.key".toList ++ (bs ++ '=' :: d.after) := by
      have hsame : '$' :: more ++ below = "$alert.key".toList ++ bs ++ ['='] ++ d.after :=
        hreads.after_eq
      rw [← List.nil_append ('$' :: more), ← hparts, line_eq, hoperator] at hsame
      simpa using hsame
    have hsolid := congrArg (List.dropWhile isBlank) (List.append_cancel_left hafter)
    rw [List.dropWhile_append_of_pos k.blank, List.dropWhile_append_of_pos hbs,
      List.dropWhile_cons_of_neg (by decide), List.dropWhile_cons_of_neg (by decide)] at hsolid
    cases hsolid
  | cons y passed =>
    have htail : ("alert.key".toList ++ k.pad ++ "!=".toList) ++ (k.operand ++ ['\n']) =
        passed ++ '$' :: more := by
      rw [line_eq_cons, List.cons_append, hoperator] at hparts
      simpa using (List.cons.inj hparts).2
    have hfront : '$' ∉ "alert.key".toList ++ k.pad ++ "!=".toList := by
      have hpad : '$' ∉ k.pad := fun hmem ↦ absurd (k.blank _ hmem) (by decide)
      simp only [List.mem_append, not_or]
      exact ⟨⟨by decide, hpad⟩, by decide⟩
    obtain ⟨as, hmore⟩ : ∃ as, k.operand ++ ['\n'] = as ++ '$' :: more := by
      rcases List.append_eq_append_iff.1 htail with ⟨as, -, hmore⟩ | ⟨as, has, hmore⟩
      · exact ⟨as, hmore⟩
      · cases as with
        | nil => exact ⟨[], hmore.symm⟩
        | cons z as =>
          obtain ⟨rfl, -⟩ := List.cons.inj hmore
          exact absurd (has ▸ List.mem_append_right _ List.mem_cons_self) hfront
    rcases List.eq_nil_or_concat more with rfl | ⟨more, z, rfl⟩
    · exact absurd (List.append_inj_right' hmore rfl) (by decide)
    · rw [List.concat_eq_append, ← List.cons_append, ← List.append_assoc] at hmore
      obtain ⟨hoperand, hz⟩ := List.append_inj' hmore rfl
      obtain rfl : '\n' = z := by simpa using hz
      rw [List.concat_eq_append, List.append_assoc]
      exact h.noKey as '$' more _ hoperand

end KeyComparison

/-- **A comparison of the key above its assignment.** Whatever the key is that calls are compared
with, the findings above the line stay and those below it are one line further down. With `!=` this
key stays as well, so the findings of the rule are the same apart from that; with `==` it is the
operand with a sign before it. -/
theorem comparison_above_key {k : KeyComparison} {above below : List Char} (context : Context)
    (h : k.FitsBetween above below) :
    (∀ declared,
      keyFindings (context.withText (above ++ below)) declared =
          keyFindings (context.withText above) declared ++
            (keyFindings (context.withText below) declared).map
              (Diagnostic.down (above.count '\n')) ∧
        keyFindings (context.withText (above ++ (k.line ++ below))) declared =
          keyFindings (context.withText above) declared ++
            (keyFindings (context.withText below) declared).map
              (Diagnostic.down (above.count '\n' + 1))) ∧
      (k.operator = "!=" →
        declaredKey (above ++ (k.line ++ below)) = declaredKey (above ++ below) ∧
          ∃ first rest,
            (loops .whitelistKeyMismatch (context.withText (above ++ below))).flatten =
              first ++ rest ∧
            (loops .whitelistKeyMismatch (context.withText (above ++ (k.line ++ below)))).flatten =
              first ++ rest.map (Diagnostic.down 1)) ∧
      (k.operator = "==" →
        declaredKey (above ++ (k.line ++ below)) = some ('=' :: normalKey k.operand)) := by
  have hfindings : ∀ declared,
      keyFindings (context.withText (above ++ below)) declared =
          keyFindings (context.withText above) declared ++
            (keyFindings (context.withText below) declared).map
              (Diagnostic.down (above.count '\n')) ∧
        keyFindings (context.withText (above ++ (k.line ++ below))) declared =
          keyFindings (context.withText above) declared ++
            (keyFindings (context.withText below) declared).map
              (Diagnostic.down (above.count '\n' + 1)) := by
    intro declared
    have hstart : atLineStart ⟨(above ++ []).reverse, []⟩ = true := by
      rw [List.append_nil]
      exact h.lineStart
    have hold := keyFindings_of_leavesOut h.callsApart h.callsEnd hstart context declared
    have hnew := keyFindings_of_leavesOut h.leavesOut h.callsEnd (k.atLineStart_behind above)
      context declared
    rw [List.append_nil] at hold
    rw [List.count_append, k.count_line] at hnew
    exact ⟨hold, hnew⟩
  obtain ⟨hold, hnew⟩ := h.declaredKey_eq
  refine ⟨hfindings, fun hoperator ↦ ?_, fun hoperator ↦ ?_⟩
  · have hkey : declaredKey (above ++ (k.line ++ below)) = declaredKey (above ++ below) := by
      rw [hnew, hold]
      exact declaredKey_below fun passed x more hparts ↦ h.keyOpening_line hoperator hparts
    refine ⟨hkey, ?_⟩
    rw [loops, loops, Context.chars_withText, Context.chars_withText, hkey]
    cases (declaredKey (above ++ below)).filter (· != inheritedKey) with
    | none => exact ⟨[], [], rfl, rfl⟩
    | some declared =>
      obtain ⟨hfirst, hrest⟩ := hfindings declared
      refine ⟨keyFindings (context.withText above) declared,
        (keyFindings (context.withText below) declared).map (Diagnostic.down (above.count '\n')),
        ?_, ?_⟩
      · simpa using hfirst
      · simpa [List.map_map, Function.comp_def, down_down] using hrest
  · rw [hnew, KeyComparison.declaredKey_line hoperator]

namespace KeyComparison

instance (call : Found Piece) : Decidable (CallEnds call) :=
  decidable_of_iff (call.stop.skipBlanks.after ≠ [] ∧
      ∀ c ∈ call.stop.skipBlanks.char ',',
        (delimiterFrom 0 .outside c.skipBlanks.before c.skipBlanks.after).isSome = true)
    ⟨fun h ↦ ⟨h.1, fun c hc ↦ h.2 c hc⟩, fun h ↦ ⟨h.followed, fun c hc ↦ h.keyEnds c hc⟩⟩

/-- What has to be checked of an operand without sigils. -/
theorem fitsBetween_of_sigilless {k : KeyComparison} {above below : List Char}
    (hstart : atLineStart ⟨above.reverse, []⟩ = true)
    (hkey : ((findFirst keyAssignment (above ++ below)).any fun found ↦
      found.start.after.length ≤ below.length) = true)
    (hcalls : LeavesOut whitelistCall above [] below)
    (hends : ∀ call ∈ findAll whitelistCall above, CallEnds call)
    (hnone : ∀ call ∈ findAll whitelistCall (above ++ (k.line ++ below)),
      below.length < call.start.after.length → (k.line ++ below).length < call.start.after.length)
    (hsigil : '$' ∉ k.operand) : k.FitsBetween above below where
  lineStart := hstart
  beforeKey := by
    cases hfirst : findFirst keyAssignment (above ++ below) with
    | none => rw [hfirst] at hkey; cases hkey
    | some found =>
      rw [hfirst] at hkey
      exact ⟨found, rfl, of_decide_eq_true hkey⟩
  callsApart := hcalls
  callsEnd := hends
  noCall := hnone
  noKey passed x more before hparts := by
    refine keyOpening_eq_none_of_ne fun hx ↦ hsigil ?_
    rw [hparts, hx]
    simp

end KeyComparison

/-- A comparison between two calls, of which the one above has another key. -/
theorem comparison_above_key_unequal :
    let context : Context := { document := ⟨"file:///a.co", "co", 1, ""⟩, limit := 1000 }
    let k : KeyComparison := ⟨[' '], "!=", " host".toList,
      List.forall_mem_singleton.2 (by decide), .inr rfl, by decide⟩
    let above := "filter::CheckWL_A(\"r\", host)\n".toList
    let below := "$alert.key = $user\nfilter::CheckWL_B(\"r\", $user)\n".toList
    k.FitsBetween above below ∧
      declaredKey (above ++ (k.line ++ below)) = declaredKey (above ++ below) ∧
      ∃ first rest,
        (loops .whitelistKeyMismatch (context.withText (above ++ below))).flatten =
          first ++ rest ∧
        (loops .whitelistKeyMismatch (context.withText (above ++ (k.line ++ below)))).flatten =
          first ++ rest.map (Diagnostic.down 1) := by
  intro context k above below
  have hfits : k.FitsBetween above below :=
    KeyComparison.fitsBetween_of_sigilless (by decide) (by decide +kernel)
      (by rw [LeavesOut]; decide +kernel) (by decide +kernel) (by decide +kernel) (by decide)
  obtain ⟨hkey, hfindings⟩ := (comparison_above_key context hfits).2.1 rfl
  exact ⟨hfits, hkey, hfindings⟩

/-- The key is compared on the first line and assigned on the second. Without the first line there
is nothing to report; with it the document declares a sign and the operand. -/
theorem comparison_declares_key :
    let k : KeyComparison := ⟨[' '], "==", " user".toList,
      List.forall_mem_singleton.2 (by decide), .inl rfl, by decide⟩
    let below := "$alert.key = $user\nfilter::CheckWL_A(\"r\", $user)\n".toList
    let document : Document := ⟨"file:///a.co", "co", 1, String.ofList below⟩
    let compared : Document := ⟨"file:///a.co", "co", 1, String.ofList (k.line ++ below)⟩
    k.FitsBetween [] below ∧
      (lint .standard document .standard .empty).diagnostics = [] ∧
      declaredKey (k.line ++ below) = some "=user".toList ∧
      (lint .standard compared .standard .empty).diagnostics.map
        (fun d ↦ (d.rule, d.range.start)) = [(.whitelistKeyMismatch, ⟨2, 23⟩)] := by
  intro k below document compared
  refine ⟨?_, by decide +kernel, by decide +kernel, by decide +kernel⟩
  exact KeyComparison.fitsBetween_of_sigilless (by decide) (by decide +kernel)
    (by rw [LeavesOut]; decide +kernel) (by decide +kernel) (by decide +kernel) (by decide)

end RuleLint
