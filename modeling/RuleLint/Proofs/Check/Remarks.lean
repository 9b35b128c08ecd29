import RuleLint.Proofs.Check.Shifted
import RuleLint.Proofs.Text.Remarks

/-!
# Remarks and checks

Nothing that a check looks for begins in a remark. What it looks for begins with a whole word that
is none of the few words of remarks (`mute_of_wordAfter`), or with a sign that stands in no remark
(`mute_of_head`), and it is enough to know that beginning.
-/

namespace RuleLint

open Cursor Construct

namespace Check

variable {c d : Cursor}

/-! ### Recognisers that find nothing in a remark -/

theorem mute_comparison : Mute comparison := by
  refine mute_of_wordAfter (fun x hx before after ↦ ?_) fun c answer _ h ↦ ?_
  · rw [comparison, loweredThen, word_eq_none (by decide) (isWord_of_separator hx)]
    split <;> rfl
  · obtain ⟨hboundary, h⟩ := Option.ite_none_right_eq_some.1 h
    obtain ⟨c₁, hlower, h⟩ := Option.bind_eq_some_iff.1 h
    obtain ⟨c₂, hopen, -⟩ := Option.bind_eq_some_iff.1 h
    refine ⟨hboundary, ?_⟩
    rw [wordAfter_of_word hlower fun _ ↦ head_of_char_skipBlanks (by decide) hopen]
    decide

theorem mute_loweredCall {function : String} (hfunction : function ∈ matchingFunctions) :
    Mute (loweredCall function) := by
  have hwords : ∀ function ∈ matchingFunctions, function.toList.head?.any isWord = true ∧
      function.toList.takeWhile isWord ∉ Remark.words := by decide
  obtain ⟨hhead, hword⟩ := hwords function hfunction
  refine mute_of_wordAfter (fun x hx before after ↦ ?_) fun c answer _ h ↦ ?_
  · rw [loweredCall, word_eq_none hhead (isWord_of_separator hx)]
    split <;> rfl
  · obtain ⟨hboundary, h⟩ := Option.ite_none_right_eq_some.1 h
    obtain ⟨c₁, hname, h⟩ := Option.bind_eq_some_iff.1 h
    obtain ⟨c₂, hopen, -⟩ := Option.bind_eq_some_iff.1 h
    refine ⟨hboundary, ?_⟩
    rw [wordAfter_of_word hname fun _ ↦ head_of_char_skipBlanks (by decide) hopen]
    exact hword

/-- A numeric field is no word of a remark. -/
theorem wordAfter_numericFieldName (h : numericFieldName c = some d) :
    c.wordAfter ∉ Remark.words := by
  rcases Option.or_eq_some_iff.1 h with h | ⟨-, h⟩
  · obtain ⟨name, hname, h⟩ := List.exists_of_findSome?_eq_some h
    obtain ⟨c₁, hword, h⟩ := Option.bind_eq_some_iff.1 h
    obtain ⟨rfl, hboundary⟩ := boundary_eq_some h
    have hnames : ∀ name ∈ numericFieldNames, name.toList ≠ [] ∧
        name.toList.takeWhile isWord ∉ Remark.words := by decide
    obtain ⟨hne, hnot⟩ := hnames name hname
    rw [wordAfter_of_word hword fun hall ↦ ?_]
    · exact hnot
    · -- the name ends at a boundary, so what follows its last character is no word character
      obtain ⟨x, name', hparts⟩ := List.exists_cons_of_ne_nil (List.reverse_ne_nil_iff.2 hne)
      have hx : isWord x = true := by
        refine List.all_eq_true.1 hall x (List.mem_reverse.1 ?_)
        rw [hparts]
        exact List.mem_cons_self
      have hbefore := (reads_word hword).before_eq
      rw [hparts] at hbefore
      rw [atWordBoundary, hbefore, List.cons_append, List.head?_cons, Option.any_some, hx]
        at hboundary
      simpa using hboundary
  · obtain ⟨c₁, hword, -⟩ := Option.bind_eq_some_iff.1 h
    have hnot : ∀ name ∈ Remark.words, ¬ "numfield".toList <+: name := by decide
    refine fun hmem ↦ hnot _ hmem ?_
    have hall : ∀ x ∈ "numfield".toList, isWord x = true :=
      List.all_eq_true.1 (by decide : "numfield".toList.all isWord = true)
    rw [wordAfter, (reads_word hword).after_eq, List.takeWhile_append_of_pos hall]
    exact List.prefix_append _ _

theorem numericFieldName_eq_none {x : Char} (hx : isWord x = false) (before after : List Char) :
    numericFieldName ⟨before, x :: after⟩ = none := by
  have hnames : ∀ name ∈ numericFieldNames, name.toList.head?.any isWord = true := by decide
  have hnone : (numericFieldNames.findSome? fun name ↦
      (word name ⟨before, x :: after⟩).bind boundary) = none := by
    rw [List.findSome?_eq_none_iff]
    intro name hname
    rw [word_eq_none (hnames name hname) hx]
    rfl
  rw [numericFieldName, hnone, numberedField, word_eq_none (by decide) hx]
  rfl

/-- A literal begins with a quote only. -/
theorem quoted_eq_none {x : Char} (hx : x ≠ '"') (before after : List Char) :
    quoted ⟨before, x :: after⟩ = none := by
  rw [quoted, char_eq_none hx]
  rfl

theorem mute_concatenation : Mute concatenation := by
  refine mute_of_wordAfter (fun x hx before after ↦ ?_) fun c answer hhead h ↦ ?_
  · have hne : ∀ y : Char, ¬(y ∈ Remark.separators ∨ y = '\r' ∨ y = '\n') → x ≠ y :=
      fun y hy heq ↦ hy (heq ▸ hx)
    rw [concatenation, fieldPlusLiteral, literalPlusField, quoted_eq_none (hne '"' (by decide)),
      numericField, char_eq_none (hne '$' (by decide)), boundary, Option.getD_none]
    split
    · show (((numericFieldName ⟨before, x :: after⟩).bind _).or none).map _ = none
      rw [numericFieldName_eq_none (isWord_of_separator hx)]
      rfl
    · rfl
  · obtain ⟨before, after⟩ := c
    obtain ⟨x, after, rfl⟩ : ∃ x rest, after = x :: rest := by
      cases after with
      | nil => cases hhead
      | cons x rest => exact ⟨x, rest, rfl⟩
    have hne : ∀ y : Char, isWord y ≠ true → x ≠ y := fun y hy heq ↦ hy (heq ▸ hhead)
    obtain ⟨next, hnext, -⟩ := Option.map_eq_some_iff.1 h
    rcases Option.or_eq_some_iff.1 hnext with hfirst | ⟨-, hsecond⟩
    · obtain ⟨c₁, hfield, -⟩ := Option.bind_eq_some_iff.1 hfirst
      obtain ⟨c₂, hboundary, hname⟩ := Option.bind_eq_some_iff.1 hfield
      rw [char_eq_none (hne '$' (by decide)), Option.getD_none] at hboundary
      obtain ⟨rfl, hat⟩ := boundary_eq_some hboundary
      exact ⟨hat, wordAfter_numericFieldName hname⟩
    · rw [literalPlusField, quoted_eq_none (hne '"' (by decide))] at hsecond
      cases hsecond

theorem mute_whitelistCall : Mute whitelistCall where
  separator x hx before after := by
    rw [whitelistCall, word_eq_none (by decide) (isWord_of_separator hx)]
    rfl
  word passed rest before after hparts _ hafter := by
    rw [Option.eq_none_iff_forall_not_mem]
    intro answer hanswer
    obtain ⟨c₁, hword, -⟩ := Option.bind_eq_some_iff.1 hanswer
    have hnot : ∀ name ∈ Remark.words, ¬ "filter".toList <:+ name := by decide
    have hfilter := wordAfter_of_word hword fun hall ↦ absurd hall (by decide)
    rw [wordAfter, List.takeWhile_append_of_pos fun x hx ↦ Remark.isWord_of_mem_words hparts x
      (List.mem_append_right _ hx), takeWhile_isWord_eq_nil hafter, List.append_nil] at hfilter
    have hprefix : "filter::CheckWL_".toList.takeWhile isWord = "filter".toList := by decide
    refine hnot _ hparts ⟨passed, ?_⟩
    rw [hfilter, hprefix]

theorem mute_gradeAssignment {name : String} (hname : name.toList.head? = some '$') :
    Mute (gradeAssignment name) := by
  refine mute_of_head '$' (by decide) (by decide) fun c answer h ↦ ?_
  obtain ⟨c₁, hword, -⟩ := Option.bind_eq_some_iff.1 h
  obtain ⟨word, hparts⟩ := List.head?_eq_some_iff.1 hname
  rw [(reads_word hword).after_eq, hparts]
  rfl

theorem mute_keyAssignment : Mute keyAssignment := by
  refine mute_of_head '$' (by decide) (by decide) fun c answer h ↦ ?_
  obtain ⟨c₁, hword, -⟩ := Option.bind_eq_some_iff.1 h
  rw [(reads_word hword).after_eq, toList_alertKey]
  rfl

/-! ### Blocks -/

theorem mute_block {header : Cursor → Option Cursor} (h : Mute (opening header)) :
    Mute (block header) where
  separator x hx before after := by
    rw [block_eq, h.separator x hx]
    rfl
  word passed rest before after hparts hne hafter := by
    rw [block_eq, h.word passed rest before after hparts hne hafter]
    rfl

theorem mute_opening_filter : Mute (opening (Cursor.word "filter")) := by
  refine mute_of_wordAfter (fun x hx before after ↦ ?_) fun c answer _ h ↦ ?_
  · rw [opening, word_eq_none (by decide) (isWord_of_separator hx)]
    split <;> rfl
  · obtain ⟨hboundary, h⟩ := Option.ite_none_right_eq_some.1 h
    obtain ⟨c₁, hname, h⟩ := Option.bind_eq_some_iff.1 h
    obtain ⟨c₂, hopen, -⟩ := Option.bind_eq_some_iff.1 h
    refine ⟨hboundary, ?_⟩
    rw [wordAfter_of_word hname fun _ ↦ head_of_char_skipBlanks (by decide) hopen]
    decide

theorem mute_opening_eventHeader : Mute (opening eventHeader) := by
  refine mute_of_wordAfter (fun x hx before after ↦ ?_) fun c answer _ h ↦ ?_
  · rw [opening, eventHeader, word_eq_none (by decide) (isWord_of_separator hx),
      word_eq_none (by decide) (isWord_of_separator hx)]
    split <;> rfl
  · obtain ⟨hboundary, h⟩ := Option.ite_none_right_eq_some.1 h
    obtain ⟨c₁, hheader, h⟩ := Option.bind_eq_some_iff.1 h
    obtain ⟨c₂, hopen, -⟩ := Option.bind_eq_some_iff.1 h
    refine ⟨hboundary, ?_⟩
    rcases Option.or_eq_some_iff.1 hheader with hon | ⟨-, hemit⟩
    · obtain ⟨c₃, hword, hon⟩ := Option.bind_eq_some_iff.1 hon
      obtain ⟨c₄, hblanks, -⟩ := Option.bind_eq_some_iff.1 hon
      obtain ⟨bs, hbs, hne, hblank, -⟩ := reads_run hblanks
      obtain ⟨b, bs, rfl⟩ := List.exists_cons_of_ne_nil hne
      rw [wordAfter_of_word hword fun _ ↦ ?_]
      · decide
      · rw [hbs.after_eq]
        exact isWord_of_isBlank (hblank b List.mem_cons_self)
    · rw [wordAfter_of_word hemit fun _ ↦ head_of_char_skipBlanks (by decide) hopen]
      decide

end Check

end RuleLint
