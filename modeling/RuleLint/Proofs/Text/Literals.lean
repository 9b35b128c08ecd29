import Mathlib.Algebra.Group.Nat.Even
import Mathlib.Data.List.Induction
import RuleLint.Lint
import RuleLint.Proofs.Text.Reading

/-!
# Where literals end

Comments and call arguments are found by scans that let a backslash inside a literal take the next
character with it, so a literal closes at its first quote that is not escaped (`Cursor.closing`).
Both scans close it there: they go on behind that quote just as they would have come to it outside
every literal (`findComment_of_outside`, `delimiterFrom_of_outside`).

Patterns give a backslash no meaning: they close a literal at its first quote of all
(`Cursor.quotedClosing`). The readings are the same if and only if an even number of backslashes
stands right before that quote (`literal_closes_alike_iff`).
-/

namespace RuleLint

/-- The number of backslashes that a text ends with. -/
def trailingBackslashes (cs : List Char) : Nat :=
  (cs.reverse.takeWhile (· == '\\')).length

namespace QuoteState

variable {quotes : QuoteState}

@[simp] theorem steps_cons (quotes : QuoteState) (c : Char) (cs : List Char) :
    quotes.steps (c :: cs) = (quotes.step c).steps cs := rfl

@[simp] theorem steps_concat (quotes : QuoteState) (cs : List Char) (c : Char) :
    quotes.steps (cs ++ [c]) = (quotes.steps cs).step c := by
  simp [steps]

/-- A scan leaves a literal only with a quote that is not escaped. -/
theorem eq_of_step_outside {c : Char} (hin : quotes ≠ .outside) (h : quotes.step c = .outside) :
    quotes = .inside ∧ c = '"' := by
  cases quotes with
  | outside => exact absurd rfl hin
  | escaped => cases h
  | inside =>
    refine ⟨rfl, ?_⟩
    by_contra hc
    simp only [step, hc, if_false] at h
    split at h <;> cases h

/-- In a literal without quotes a scan is right after an escaping backslash if and only if the
backslashes there are odd in number. -/
theorem steps_inside_of_unquoted {cs : List Char} (hcs : '"' ∉ cs) :
    inside.steps cs = if Even (trailingBackslashes cs) then .inside else .escaped := by
  induction cs using List.reverseRecOn with
  | nil => rfl
  | append_singleton cs c ih =>
    obtain ⟨hcs, hc⟩ : '"' ∉ cs ∧ c ≠ '"' := by
      simpa [not_or, eq_comm] using hcs
    rw [steps_concat, ih hcs]
    by_cases hback : c = '\\'
    · subst hback
      have hcount : trailingBackslashes (cs ++ ['\\']) = trailingBackslashes cs + 1 := by
        simp [trailingBackslashes]
      by_cases heven : Even (trailingBackslashes cs) <;>
        simp [hcount, Nat.even_add_one, heven, step]
    · have hcount : trailingBackslashes (cs ++ [c]) = 0 := by
        simp [trailingBackslashes, hback]
      by_cases heven : Even (trailingBackslashes cs) <;> simp [hcount, heven, step, hc, hback]

end QuoteState

namespace Cursor

/-- The closing quote of a literal, as scans find it from a place with a state of quotes on; given
as the two sides of the cursor. -/
def closingFrom (quotes : QuoteState) : List Char → List Char → Option Cursor
  | _, [] => none
  | before, c :: after =>
    if quotes.step c = .outside then some ⟨before, c :: after⟩
    else closingFrom (quotes.step c) (c :: before) after

/-- The closing quote of the literal that opens at the cursor, as scans find it. -/
def closing (c : Cursor) : Option Cursor :=
  (c.char '"').bind fun c ↦ closingFrom .inside c.before c.after

/-- The closing quote of the literal that opens at the cursor, as patterns read it. -/
def quotedClosing (c : Cursor) : Option Cursor :=
  (quoted c).map fun (piece, _) ↦ piece.stop

section Closing

variable {quotes : QuoteState} {before after : List Char}

/-! ### Scans -/

/-- A scan for a comment goes on behind the closing quote, if there is one. -/
theorem commentFrom_of_inside (hin : quotes ≠ .outside) (before after : List Char) :
    commentFrom quotes before after =
      (closingFrom quotes before after).bind fun stop ↦
        commentFrom .outside ('"' :: stop.before) stop.after.tail := by
  induction after generalizing quotes before with
  | nil => rfl
  | cons c after ih =>
    rw [commentFrom, closingFrom]
    have hcode : (quotes = .outside && c == '#') = false := by simp [hin]
    rw [hcode, if_neg Bool.false_ne_true]
    split
    · rename_i hclosed
      obtain ⟨rfl, rfl⟩ := QuoteState.eq_of_step_outside hin hclosed
      rfl
    · rename_i hopen
      exact ih hopen (c :: before)

/-- A scan for the end of an argument goes on behind the closing quote, if there is one. -/
theorem delimiterFrom_of_inside (hin : quotes ≠ .outside) (depth : Nat)
    (before after : List Char) :
    delimiterFrom depth quotes before after =
      (closingFrom quotes before after).bind fun stop ↦
        delimiterFrom depth .outside ('"' :: stop.before) stop.after.tail := by
  induction after generalizing quotes before with
  | nil => rfl
  | cons c after ih =>
    rw [delimiterFrom, closingFrom]
    have hcode : (quotes = .outside && c != '"') = false := by simp [hin]
    rw [hcode, if_neg Bool.false_ne_true]
    split
    · rename_i hclosed
      obtain ⟨rfl, rfl⟩ := QuoteState.eq_of_step_outside hin hclosed
      rfl
    · rename_i hopen
      exact ih hopen (c :: before)

/-- A scan for a comment comes to what follows a text without one in the state that the text
leads to. -/
theorem commentFrom_append {cs : List Char} (hnone : commentFrom quotes before cs = none)
    (after : List Char) :
    commentFrom quotes before (cs ++ after) =
      commentFrom (quotes.steps cs) (cs.reverse ++ before) after := by
  induction cs generalizing quotes before with
  | nil => rfl
  | cons c cs ih =>
    rw [commentFrom] at hnone
    split at hnone
    · cases hnone
    · rename_i hcode
      rw [List.cons_append, commentFrom, if_neg hcode, ih hnone, List.reverse_cons,
        List.append_assoc]
      rfl

/-- The scan for comments, at a quote that opens a literal. -/
theorem findComment_of_outside (hcode : findComment before = none)
    (hout : QuoteState.outside.steps before = .outside) (after : List Char) :
    findComment (before ++ '"' :: after) =
      (closing ⟨before.reverse, '"' :: after⟩).bind fun stop ↦
        commentFrom .outside ('"' :: stop.before) stop.after.tail := by
  have hscan := commentFrom_append hcode ('"' :: after)
  rw [hout, List.append_nil] at hscan
  have hopens : commentFrom .outside before.reverse ('"' :: after) =
      commentFrom .inside ('"' :: before.reverse) after := rfl
  rw [findComment, hscan, hopens, commentFrom_of_inside (by decide)]
  rfl

/-- The scan for the end of an argument, at a quote that opens a literal. -/
theorem delimiterFrom_of_outside (depth : Nat) (before after : List Char) :
    delimiterFrom depth .outside before ('"' :: after) =
      (closing ⟨before, '"' :: after⟩).bind fun stop ↦
        delimiterFrom depth .outside ('"' :: stop.before) stop.after.tail := by
  have hopens : delimiterFrom depth .outside before ('"' :: after) =
      delimiterFrom depth .inside ('"' :: before) after := rfl
  rw [hopens, delimiterFrom_of_inside (by decide)]
  rfl

/-! ### Patterns -/

theorem closingFrom_append {cs : List Char} (hin : quotes ≠ .outside) (hcs : '"' ∉ cs)
    (before after : List Char) :
    closingFrom quotes before (cs ++ after) =
      closingFrom (quotes.steps cs) (cs.reverse ++ before) after := by
  induction cs generalizing quotes before with
  | nil => rfl
  | cons c cs ih =>
    rw [List.mem_cons, not_or] at hcs
    have hopen : quotes.step c ≠ .outside :=
      fun hclosed ↦ hcs.1 (QuoteState.eq_of_step_outside hin hclosed).2.symm
    rw [List.cons_append, closingFrom, if_neg hopen, ih hopen hcs.2, List.reverse_cons,
      List.append_assoc]
    rfl

theorem closingFrom_eq_none {cs : List Char} (hin : quotes ≠ .outside) (hcs : '"' ∉ cs)
    (before : List Char) : closingFrom quotes before cs = none := by
  have hscan := closingFrom_append hin hcs before []
  rwa [List.append_nil] at hscan

theorem length_after_le_of_closingFrom {stop : Cursor}
    (h : closingFrom quotes before after = some stop) : stop.after.length ≤ after.length := by
  induction after generalizing quotes before with
  | nil => cases h
  | cons c after ih =>
    rw [closingFrom] at h
    split at h
    · obtain rfl := Option.some.inj h
      exact Nat.le_refl _
    · exact Nat.le_succ_of_le (ih h)

/-- A pattern closes a literal where the characters end that may stand in one, if there is a quote
there. -/
theorem quotedClosing_cons (before after : List Char) :
    quotedClosing ⟨before, '"' :: after⟩ =
      ((skip isQuotable ⟨'"' :: before, after⟩).char '"').map
        fun _ ↦ skip isQuotable ⟨'"' :: before, after⟩ := by
  have hquoted : quoted ⟨before, '"' :: after⟩ =
      ((skip isQuotable ⟨'"' :: before, after⟩).char '"').bind fun next ↦
        some (⟨⟨'"' :: before, after⟩, skip isQuotable ⟨'"' :: before, after⟩⟩, next) := rfl
  rw [quotedClosing, hquoted]
  cases (skip isQuotable ⟨'"' :: before, after⟩).char '"' <;> rfl

theorem quotedClosing_of_unquoted (hquote : '"' ∉ after) (before : List Char) :
    quotedClosing ⟨before, '"' :: after⟩ = none := by
  rw [quotedClosing_cons, Option.map_eq_none_iff, Option.eq_none_iff_forall_ne_some]
  intro next hnext
  obtain ⟨cs, hreads, -⟩ := reads_skip isQuotable ⟨'"' :: before, after⟩
  have hafter : after = cs ++ (['"'] ++ next.after) :=
    hreads.after_eq.trans (congrArg (cs ++ ·) (reads_char hnext).after_eq)
  exact hquote (by simp [hafter])

theorem quotedClosing_append {content : List Char} (hquote : '"' ∉ content)
    (hline : '\n' ∉ content) (before rest : List Char) :
    quotedClosing ⟨before, '"' :: (content ++ '"' :: rest)⟩ =
      some ⟨content.reverse ++ '"' :: before, '"' :: rest⟩ := by
  have hquotable : ∀ x ∈ content, isQuotable x = true := by
    intro x hx
    have hne : x ≠ '"' := fun h ↦ hquote (h ▸ hx)
    have hne' : x ≠ '\n' := fun h ↦ hline (h ▸ hx)
    simp [isQuotable, hne, hne']
  rw [quotedClosing_cons, skip_append hquotable]
  rfl

end Closing

end Cursor

/-- **Where the readings of a literal agree.** At a quote in a line at which the scan for comments
is outside every literal, and so at any quote at which the scan for arguments is, both go on behind
the same closing quote. Patterns close the literal there too if and only if an even number of
backslashes stands before the next quote, if there is one. -/
theorem literal_closes_alike_iff {before after : List Char} (hline : '\n' ∉ after)
    (hcode : findComment before = none) (hout : QuoteState.outside.steps before = .outside) :
    findComment (before ++ '"' :: after) =
        ((Cursor.closing ⟨before.reverse, '"' :: after⟩).bind fun stop ↦
          commentFrom .outside ('"' :: stop.before) stop.after.tail) ∧
      (∀ depth, Cursor.delimiterFrom depth .outside before.reverse ('"' :: after) =
        (Cursor.closing ⟨before.reverse, '"' :: after⟩).bind fun stop ↦
          Cursor.delimiterFrom depth .outside ('"' :: stop.before) stop.after.tail) ∧
      (Cursor.quotedClosing ⟨before.reverse, '"' :: after⟩ =
          Cursor.closing ⟨before.reverse, '"' :: after⟩ ↔
        ('"' ∈ after → Even (trailingBackslashes (after.takeWhile (· != '"'))))) := by
  refine ⟨Cursor.findComment_of_outside hcode hout after,
    fun depth ↦ Cursor.delimiterFrom_of_outside depth before.reverse after, ?_⟩
  have hclosing : Cursor.closing ⟨before.reverse, '"' :: after⟩ =
      Cursor.closingFrom .inside ('"' :: before.reverse) after := rfl
  by_cases hquote : '"' ∈ after
  · obtain ⟨content, rest, rfl, hcontent⟩ := List.eq_append_cons_of_mem hquote
    have hfirst : (content ++ '"' :: rest).takeWhile (· != '"') = content := by
      have hall : ∀ x ∈ content, (x != '"') = true := fun x hx ↦
        bne_iff_ne.2 fun h ↦ hcontent (h ▸ hx)
      rw [List.takeWhile_append_of_pos hall]
      simp
    have hquotable : '\n' ∉ content := fun h ↦ hline (List.mem_append_left _ h)
    rw [hclosing, Cursor.quotedClosing_append hcontent hquotable,
      Cursor.closingFrom_append (by decide) hcontent, hfirst,
      QuoteState.steps_inside_of_unquoted hcontent]
    by_cases heven : Even (trailingBackslashes content)
    · rw [if_pos heven]
      exact iff_of_true rfl fun _ ↦ heven
    · -- the quote is escaped, so scans go on behind it
      rw [if_neg heven]
      refine iff_of_false (fun h ↦ ?_) fun h ↦ heven (h hquote)
      have hle : ('"' :: rest).length ≤ rest.length :=
        @Cursor.length_after_le_of_closingFrom .inside _ _ _ h.symm
      exact absurd hle (by simp)
  · rw [hclosing, Cursor.quotedClosing_of_unquoted hquote,
      Cursor.closingFrom_eq_none (by decide) hquote]
    simp [hquote]

/-- A literal that ends in two backslashes, with a comment behind it. -/
theorem literal_closes_alike_backslashes :
    Cursor.quotedClosing ⟨"x == ".toList.reverse, "\"A\\\\\" # b".toList⟩ =
        Cursor.closing ⟨"x == ".toList.reverse, "\"A\\\\\" # b".toList⟩ ∧
      (Cursor.closing ⟨"x == ".toList.reverse, "\"A\\\\\" # b".toList⟩).map Cursor.offset =
        some 9 := by
  obtain ⟨-, -, hiff⟩ := @literal_closes_alike_iff "x == ".toList "A\\\\\" # b".toList
    (by decide) (by decide) (by decide)
  exact ⟨hiff.2 fun _ ↦ by decide, by decide⟩

/-- At an escaped quote the readings part: the scans close the literal at the last quote, and the
pattern, with the finding that rests on it, at the quote before. -/
theorem literal_closes_apart :
    QuoteState.outside.steps "lower($x) == ".toList = .outside ∧
      findComment "lower($x) == ".toList = none ∧
      (Cursor.closing ⟨"lower($x) == ".toList.reverse, "\"A\\\"b\"".toList⟩).map Cursor.offset =
        some 18 ∧
      (Cursor.quotedClosing ⟨"lower($x) == ".toList.reverse, "\"A\\\"b\"".toList⟩).map
        Cursor.offset = some 16 ∧
      (lint .standard ⟨"file:///t.co", "co", 1, "lower($x) == \"A\\\"b\""⟩ .standard
        .empty).diagnostics.map Diagnostic.range = [⟨⟨0, 0⟩, ⟨0, 17⟩⟩] := by
  decide +kernel

end RuleLint
