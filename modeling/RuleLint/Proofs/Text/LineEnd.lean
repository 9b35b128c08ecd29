import RuleLint.Proofs.Text.Remarks

/-!
# Ends of lines

A line of a text can be given by what comes before its end, the characters that end it and the lines
below (`LineEnd`). A remark can be put there (`LineEnd.remarked`).

Directives are read line by line. If the line has no comment yet, its directives are none, so the
remark only adds to what is silenced (`LineEnd.silences_remarked`).
-/

namespace RuleLint

open Cursor

/-- The end of a line in a text: the text above it, the characters that end the line, which are none
at the end of the text, and the lines below. -/
structure LineEnd where
  above : List Char
  ending : List Char
  below : List Char
  ends : ending = [] ∧ below = [] ∨ ending = ['\n'] ∧ above.getLast? ≠ some '\r' ∨
    ending = ['\r', '\n']

namespace LineEnd

variable (cut : LineEnd) {remark : Remark}

/-- The text. -/
def text : List Char :=
  cut.above ++ (cut.ending ++ cut.below)

/-- The text with a remark at the end of the line. -/
def remarked (remark : Remark) : List Char :=
  cut.above ++ (remark.chars ++ (cut.ending ++ cut.below))

/-- The line. -/
def line : List Char :=
  (cut.above.reverse.takeWhile (· != '\n')).reverse

/-- The number of lines from the start of the text to the end of the line. -/
def lines : Nat :=
  (cut.above ++ cut.ending).count '\n'

/-! ### The characters that end a line -/

theorem mem_ending {x : Char} (h : x ∈ cut.ending) : x = '\r' ∨ x = '\n' := by
  rcases cut.ends with ⟨hending, -⟩ | ⟨hending, -⟩ | hending <;> rw [hending] at h <;>
    simp only [List.mem_cons, List.not_mem_nil, or_false] at h
  · exact .inr h
  · exact h

theorem feed_mem_ending (h : cut.below ≠ []) : '\n' ∈ cut.ending := by
  rcases cut.ends with ⟨-, hbelow⟩ | ⟨hending, -⟩ | hending
  · exact absurd hbelow h
  · simp [hending]
  · simp [hending]

/-- What ends a line is a blank, and no word goes on with it. -/
theorem head_ending (rest : List Char) (hrest : cut.ending = [] → rest = []) :
    ∀ x ∈ (cut.ending ++ rest).head?, x = '\r' ∨ x = '\n' := by
  intro x hx
  cases hending : cut.ending with
  | nil =>
    rw [hending, hrest hending] at hx
    cases hx
  | cons y ending =>
    rw [hending] at hx
    obtain rfl : y = x := by simpa using hx
    exact cut.mem_ending (hending ▸ List.mem_cons_self)

theorem below_eq_nil (h : cut.ending = []) : cut.below = [] := by
  rcases cut.ends with ⟨-, hbelow⟩ | ⟨hending, -⟩ | hending
  · exact hbelow
  · rw [h] at hending
    cases hending
  · rw [h] at hending
    cases hending

/-- The line feed is the last of the characters that end a line. -/
theorem feed_notMem_dropLast : '\n' ∉ cut.ending.dropLast := by
  rcases cut.ends with ⟨hending, -⟩ | ⟨hending, -⟩ | hending <;> rw [hending] <;> decide

theorem getLast?_ending (h : cut.below ≠ []) : cut.ending.getLast? = some '\n' := by
  rcases cut.ends with ⟨-, hbelow⟩ | ⟨hending, -⟩ | hending
  · exact absurd hbelow h
  · rw [hending]
    rfl
  · rw [hending]
    rfl

theorem quote_notMem_takeWhile {rest : List Char} (hrest : cut.ending = [] → rest = []) :
    '"' ∉ (cut.ending ++ rest).takeWhile (· != '\n') := by
  rcases cut.ends with ⟨hending, -⟩ | ⟨hending, -⟩ | hending
  · rw [hending, hrest hending]
    decide
  · rw [hending]
    exact List.not_mem_nil
  · rw [hending]
    simp

/-- What comes after a remark does not go on with the line. -/
theorem apart (remark : Remark) {rest : List Char} (hrest : cut.ending = [] → rest = []) :
    Apart (remark.chars ++ (cut.ending ++ rest)) :=
  remark.apart (cut.quote_notMem_takeWhile hrest)

theorem atLineStart_ending (h : cut.below ≠ []) (before after : List Char) :
    (Cursor.mk (before ++ cut.ending).reverse after).atLineStart = true := by
  obtain ⟨ending, hending⟩ := List.getLast?_eq_some_iff.1 (cut.getLast?_ending h)
  rw [hending, atLineStart]
  simp

/-! ### Searches past the remark -/

variable {α : Type} {recognise : Recogniser α}

/-- A search passes over a remark and the end of its line. -/
theorem findAllFrom_mute (h : Mute recognise) (before rest : List Char)
    (hrest : cut.ending = [] → rest = []) :
    findAllFrom recognise before (remark.chars ++ (cut.ending ++ rest)) =
      findAllFrom recognise ((remark.chars ++ cut.ending).reverse ++ before) rest := by
  have hhead : (cut.ending ++ rest).head?.any isWord = false := by
    rw [Option.any_eq_false]
    intro x hx
    rcases cut.head_ending rest hrest x hx with rfl | rfl <;> decide
  rw [h.findAllFrom_remark remark before _ hhead,
    h.findAllFrom_ending (fun x hx ↦ cut.mem_ending hx), List.reverse_append, List.append_assoc]

theorem atLineStart_eq_false {x : Char} (hx : x ≠ '\n') (passed before after : List Char) :
    (Cursor.mk ((passed ++ [x]).reverse ++ before) after).atLineStart = false := by
  rw [atLineStart, List.reverse_append]
  simpa using hx

/-- A search for what begins at the start of a line passes over the end of a line that is not
empty. -/
theorem findAllFrom_ending (hstart : ∀ c : Cursor, c.atLineStart = false → recognise c = none)
    {before : List Char} (hbefore : ∀ after, (Cursor.mk before after).atLineStart = false)
    (rest : List Char) :
    findAllFrom recognise before (cut.ending ++ rest) =
      findAllFrom recognise (cut.ending.reverse ++ before) rest := by
  refine findAllFrom_pass fun passed x after hparts ↦ hstart _ ?_
  cases passed using List.reverseRecOn with
  | nil => exact hbefore _
  | append_singleton passed y =>
    -- the character before is not the last, so it is no line feed
    have hlast : y ∈ cut.ending.dropLast := by
      rw [hparts, List.append_assoc, List.dropLast_append_of_ne_nil (by simp)]
      exact List.mem_append_right _ (by simp)
    refine atLineStart_eq_false ?_ passed before _
    rintro rfl
    exact cut.feed_notMem_dropLast hlast

/-- A search for what begins at the start of a line, but not with the sign of a comment, passes over
a remark and the end of its line. -/
theorem findAllFrom_lineStart (hstart : ∀ c : Cursor, c.atLineStart = false → recognise c = none)
    (hsign : ∀ before after, recognise ⟨before, ' ' :: '#' :: after⟩ = none)
    (before rest : List Char) :
    findAllFrom recognise before (remark.chars ++ (cut.ending ++ rest)) =
      findAllFrom recognise ((remark.chars ++ cut.ending).reverse ++ before) rest := by
  have hfeedless : ∀ x ∈ remark.chars, x ≠ '\n' := fun x hx ↦
    ne_of_mem_of_not_mem hx remark.feed_notMem
  obtain ⟨more, hmore⟩ := remark.exists_chars_eq
  have hremark : findAllFrom recognise before (remark.chars ++ (cut.ending ++ rest)) =
      findAllFrom recognise (remark.chars.reverse ++ before) (cut.ending ++ rest) := by
    refine findAllFrom_pass fun passed x after hparts ↦ ?_
    cases passed using List.reverseRecOn with
    | nil =>
      rw [hmore, List.nil_append] at hparts
      rw [← List.cons_append, ← hparts]
      exact hsign _ _
    | append_singleton passed y =>
      exact hstart _ (atLineStart_eq_false (hfeedless y (by simp [hparts])) passed before _)
  have hbefore : ∀ after,
      (Cursor.mk (remark.chars.reverse ++ before) after).atLineStart = false := by
    obtain ⟨passed, y, hlast⟩ : ∃ passed y, remark.chars = passed ++ [y] :=
      (List.eq_nil_or_concat' _).resolve_left (hmore ▸ List.cons_ne_nil _ _)
    rw [hlast]
    exact atLineStart_eq_false (hfeedless y (by simp [hlast])) passed before
  rw [hremark, cut.findAllFrom_ending hstart hbefore, List.reverse_append, List.append_assoc]

end LineEnd

/-! ### Directives -/

/-- Lines that end in the text before. -/
theorem linesFrom_append_lines (line above rest : List Char) (hline : above = [] → line = [])
    (habove : ∀ x ∈ above.getLast?, x = '\n') :
    linesFrom line (above ++ rest) = linesFrom line above ++ linesOf rest := by
  induction above generalizing line with
  | nil =>
    rw [hline rfl]
    rfl
  | cons x above ih =>
    have hlast : ∀ y ∈ above.getLast?, y = '\n' := fun y hy ↦
      habove y (List.mem_getLast?_cons hy)
    rw [List.cons_append, linesFrom, linesFrom]
    split
    · rw [ih [] (fun _ ↦ rfl) hlast]
      rfl
    · rename_i hx
      refine ih (x :: line) (fun hnil ↦ absurd (habove x ?_) hx) hlast
      rw [hnil]
      rfl

/-- A line in parts. -/
theorem linesFrom_append (line : List Char) {cs : List Char} (hcs : '\n' ∉ cs) (rest : List Char) :
    linesFrom line (cs ++ rest) = linesFrom (cs.reverse ++ line) rest := by
  induction cs generalizing line with
  | nil => rfl
  | cons x cs ih =>
    obtain ⟨hx, hcs⟩ := List.ne_and_not_mem_of_not_mem_cons hcs
    rw [List.cons_append, linesFrom, if_neg hx.symm, ih (x :: line) hcs, List.reverse_cons,
      List.append_assoc]
    rfl

namespace Suppressions

variable {suppressions larger : Suppressions}

/-- Whether one collection of directives silences nothing that another one does not. -/
structure Within (suppressions larger : Suppressions) : Prop where
  everything : suppressions.everything = true → larger.everything = true
  codes : suppressions.codes ⊆ larger.codes
  lines : suppressions.lines ⊆ larger.lines

theorem within_add (index : Nat) (directive : Directive) :
    suppressions.Within (suppressions.add index directive) := by
  cases directive with
  | document scope =>
    cases scope with
    | all => exact ⟨fun _ ↦ rfl, fun _ ↦ id, fun _ ↦ id⟩
    | only codes => exact ⟨id, List.subset_append_left _ _, fun _ ↦ id⟩
  | nextLine scope => exact ⟨id, fun _ ↦ id, List.subset_append_left _ _⟩

theorem Within.add (h : suppressions.Within larger) (index : Nat) (directive : Directive) :
    (suppressions.add index directive).Within (larger.add index directive) := by
  cases directive with
  | document scope =>
    cases scope with
    | all => exact ⟨fun _ ↦ rfl, h.codes, h.lines⟩
    | only codes => exact ⟨h.everything, List.append_subset.2
        ⟨List.subset_append_of_subset_left _ h.codes, List.subset_append_right _ _⟩, h.lines⟩
  | nextLine scope => exact ⟨h.everything, h.codes, List.append_subset.2
      ⟨List.subset_append_of_subset_left _ h.lines, List.subset_append_right _ _⟩⟩

theorem Within.addLines (h : suppressions.Within larger) (index : Nat) (lines : List (List Char)) :
    (suppressions.addLines index lines).Within (larger.addLines index lines) := by
  induction lines generalizing suppressions larger index with
  | nil => exact h
  | cons line lines ih =>
    rw [Suppressions.addLines, Suppressions.addLines]
    cases Directive.ofLine? line with
    | some directive => exact ih (h.add index directive) (index + 1)
    | none => exact ih h (index + 1)

theorem Within.silences (h : suppressions.Within larger) {d : Diagnostic}
    (hd : suppressions.silences d = true) : larger.silences d = true := by
  simp only [Suppressions.silences, Bool.or_eq_true, List.contains_iff_mem, List.any_eq_true]
    at hd ⊢
  rcases hd with (heverything | hcode) | ⟨line, hline, hd⟩
  · exact .inl (.inl (h.everything heverything))
  · exact .inl (.inr (h.codes hcode))
  · exact .inr ⟨line, h.lines hline, hd⟩

theorem addLines_append (suppressions : Suppressions) (index : Nat)
    (lines lines' : List (List Char)) :
    suppressions.addLines index (lines ++ lines') =
      (suppressions.addLines index lines).addLines (index + lines.length) lines' := by
  induction lines generalizing suppressions index with
  | nil => rfl
  | cons line lines ih =>
    have hindex : index + (line :: lines).length = index + 1 + lines.length := by
      rw [List.length_cons, Nat.add_right_comm, Nat.add_assoc]
    rw [List.cons_append, addLines, addLines, hindex]
    cases Directive.ofLine? line with
    | some directive => exact ih _ (index + 1)
    | none => exact ih _ (index + 1)

/-- A line without a directive silences nothing. -/
theorem within_addLines_cons {line : List Char} (hline : Directive.ofLine? line = .none)
    (index : Nat) (line' : List Char) (lines : List (List Char)) :
    (suppressions.addLines index (line :: lines)).Within
      (suppressions.addLines index (line' :: lines)) := by
  rw [addLines, addLines, hline]
  cases Directive.ofLine? line' with
  | some directive => exact (within_add index directive).addLines (index + 1) lines
  | none => exact Within.addLines ⟨id, fun _ ↦ id, fun _ ↦ id⟩ (index + 1) lines

end Suppressions

namespace LineEnd

variable (cut : LineEnd) (remark : Remark)

theorem exists_above_eq :
    ∃ lines, cut.above = lines ++ cut.line ∧ ∀ x ∈ lines.getLast?, x = '\n' := by
  refine ⟨(cut.above.reverse.dropWhile (· != '\n')).reverse, ?_, fun x hx ↦ ?_⟩
  · rw [line, ← List.reverse_append, List.takeWhile_append_dropWhile, List.reverse_reverse]
  · rw [List.getLast?_reverse] at hx
    have hhead := List.head?_dropWhile_not (· != '\n') cut.above.reverse
    rw [Option.mem_def.1 hx] at hhead
    simpa using hhead

theorem feed_notMem_line : '\n' ∉ cut.line := by
  intro hmem
  have hall : ∀ x ∈ cut.above.reverse.takeWhile (· != '\n'), (x != '\n') = true :=
    List.all_eq_true.1 List.all_takeWhile
  exact absurd (hall _ (List.mem_reverse.1 hmem)) (by decide)

/-- The lines of a text whose line goes on with other characters before its end. -/
theorem linesOf_append {lines more : List Char} (habove : cut.above = lines ++ cut.line)
    (hlines : ∀ x ∈ lines.getLast?, x = '\n') (hmore : '\n' ∉ more)
    (hreturn : cut.ending = ['\n'] → (cut.line ++ more).getLast? ≠ some '\r')
    (hne : cut.ending = [] → cut.line ++ more ≠ []) :
    linesOf (cut.above ++ (more ++ (cut.ending ++ cut.below))) =
      linesOf lines ++ (cut.line ++ more) :: linesOf cut.below := by
  have hcs : '\n' ∉ cut.line ++ more := List.not_mem_append cut.feed_notMem_line hmore
  rw [habove, List.append_assoc, ← List.append_assoc cut.line, linesOf,
    linesFrom_append_lines _ _ _ (fun _ ↦ rfl) hlines, linesOf, linesOf, linesFrom_append _ hcs,
    List.append_nil]
  refine congrArg (_ ++ ·) ?_
  rcases cut.ends with ⟨hending, hbelow⟩ | ⟨hending, -⟩ | hending
  · have hreverse : (cut.line ++ more).reverse.isEmpty = false := by
      rw [List.isEmpty_reverse, List.isEmpty_eq_false_iff]
      exact hne hending
    rw [hending, hbelow, List.append_nil, linesFrom, hreverse, List.reverse_reverse]
    rfl
  · have hdrop : dropReturn (cut.line ++ more).reverse = (cut.line ++ more).reverse := by
      cases hlast : (cut.line ++ more).reverse with
      | nil => rfl
      | cons x cs =>
        have hx : x ≠ '\r' := by
          rintro rfl
          refine hreturn hending ?_
          rw [List.getLast?_eq_head?_reverse, hlast]
          rfl
        rw [dropReturn]
        simpa using hx
    rw [hending, List.singleton_append, linesFrom, if_pos rfl, hdrop, List.reverse_reverse]
    rfl
  · rw [hending]
    show ((dropReturn ('\r' :: (cut.line ++ more).reverse)).reverse :: linesOf cut.below) = _
    rw [dropReturn, List.reverse_reverse]

/-- **A remark only adds to what is silenced** if its line has no comment. -/
theorem within_remarked (hcomment : findComment cut.line = none) :
    (Suppressions.ofText cut.text).Within (Suppressions.ofText (cut.remarked remark)) := by
  obtain ⟨lines, habove, hlines⟩ := cut.exists_above_eq
  have hnone : Directive.ofLine? cut.line = none := by
    rw [Directive.ofLine?, hcomment]
    rfl
  have hremarked : linesOf (cut.remarked remark) =
      linesOf lines ++ (cut.line ++ remark.chars) :: linesOf cut.below := by
    obtain ⟨more, hmore⟩ := remark.exists_chars_eq
    refine cut.linesOf_append habove hlines remark.feed_notMem (fun _ ↦ ?_) fun _ ↦ ?_
    · rw [List.getLast?_append]
      cases hlast : remark.chars.getLast? with
      | none => simp [hmore] at hlast
      | some x =>
        rintro ⟨⟩
        exact Remark.not_mem_chars (x := '\r') (by decide) (List.mem_of_getLast? hlast)
    · simp [hmore]
  -- an empty line at the end of the text is none, but it would make no difference
  have htext : Suppressions.ofText cut.text =
      Suppressions.none.addLines 0 (linesOf lines ++ cut.line :: linesOf cut.below) := by
    by_cases hempty : cut.ending = [] ∧ cut.line = []
    · obtain ⟨hending, hline⟩ := hempty
      rw [Suppressions.ofText, text, hending, cut.below_eq_nil hending, habove, hline,
        Suppressions.addLines_append]
      simp only [List.append_nil]
      rfl
    · have hlines' := cut.linesOf_append habove hlines List.not_mem_nil
        (fun hending ↦ ?_) fun hending ↦ ?_
      · rw [List.append_nil] at hlines'
        exact congrArg (Suppressions.none.addLines 0) hlines'
      · rcases cut.ends with ⟨hending', -⟩ | ⟨-, hreturn⟩ | hending'
        · rw [hending] at hending'
          cases hending'
        · rw [habove, List.getLast?_append] at hreturn
          rw [List.append_nil]
          intro hlast
          rw [hlast] at hreturn
          exact hreturn rfl
        · rw [hending] at hending'
          cases hending'
      · rw [List.append_nil]
        exact fun hline ↦ hempty ⟨hending, hline⟩
  rw [htext, Suppressions.ofText, hremarked, Suppressions.addLines_append,
    Suppressions.addLines_append]
  exact Suppressions.within_addLines_cons hnone _ _ _

end LineEnd

end RuleLint
