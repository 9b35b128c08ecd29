import Mathlib.Data.List.Basic
import RuleLint.Text.Lines

/-!
# Pieces of a text

A character cuts a text into pieces, one more than it occurs (`length_splitOnFrom`). The pieces of a
text in two parts with the character between them are those of the parts (`splitOnFrom_append`), so
the first piece ends where the character occurs first (`head?_splitOnChar`), and the piece with an
index starts behind as many occurrences (`splitOnChar_append_of_ends`, `exists_ends_before`).
-/

namespace RuleLint

variable {x : Char} {text : List Char}

theorem splitOnFrom_append (x : Char) (piece text more : List Char) :
    splitOnFrom x piece (text ++ x :: more) =
      splitOnFrom x piece text ++ splitOnChar x more := by
  induction text generalizing piece with
  | nil => simp [splitOnFrom, splitOnChar]
  | cons c text ih =>
    rw [List.cons_append, splitOnFrom, splitOnFrom]
    split
    · rw [ih, List.cons_append]
    · exact ih _

theorem splitOnFrom_of_notMem (h : x ∉ text) (piece : List Char) :
    splitOnFrom x piece text = [piece.reverse ++ text] := by
  induction text generalizing piece with
  | nil => rw [splitOnFrom, List.append_nil]
  | cons c text ih =>
    rw [List.mem_cons, not_or] at h
    rw [splitOnFrom, if_neg (Ne.symm h.1), ih h.2, List.reverse_cons, List.append_assoc,
      List.singleton_append]

theorem length_splitOnFrom (x : Char) (piece text : List Char) :
    (splitOnFrom x piece text).length = text.count x + 1 := by
  induction text generalizing piece with
  | nil => rfl
  | cons c text ih =>
    rw [splitOnFrom, List.count_cons]
    split
    · rename_i hc
      rw [List.length_cons, ih, hc, if_pos (beq_self_eq_true x)]
    · rename_i hc
      rw [ih, if_neg (by simpa using hc), Nat.add_zero]

theorem splitOnChar_append (x : Char) (text more : List Char) :
    splitOnChar x (text ++ x :: more) = splitOnChar x text ++ splitOnChar x more :=
  splitOnFrom_append x [] text more

theorem splitOnChar_of_notMem (h : x ∉ text) : splitOnChar x text = [text] :=
  splitOnFrom_of_notMem h []

theorem length_splitOnChar (x : Char) (text : List Char) :
    (splitOnChar x text).length = text.count x + 1 :=
  length_splitOnFrom x [] text

/-- A part of a text that ends with the character has a piece for each occurrence. -/
theorem splitOnChar_append_of_ends {above : List Char} (habove : ∀ c ∈ above.getLast?, c = x)
    (rest : List Char) :
    ∃ pieces, pieces.length = above.count x ∧
      splitOnChar x (above ++ rest) = pieces ++ splitOnChar x rest := by
  rcases List.eq_nil_or_concat' above with rfl | ⟨part, c, rfl⟩
  · exact ⟨[], rfl, rfl⟩
  · obtain rfl : c = x := habove c (by simp)
    refine ⟨splitOnChar c part, ?_, ?_⟩
    · rw [length_splitOnChar, List.count_append, List.count_singleton_self]
    · rw [List.append_assoc, List.singleton_append, splitOnChar_append]

theorem head?_splitOnChar {piece below : List Char} (hpiece : x ∉ piece)
    (hbelow : ∀ c ∈ below.head?, c = x) : (splitOnChar x (piece ++ below)).head? = some piece := by
  cases below with
  | nil => rw [List.append_nil, splitOnChar_of_notMem hpiece, List.head?_cons]
  | cons c below =>
    obtain rfl : c = x := hbelow c rfl
    rw [splitOnChar_append, splitOnChar_of_notMem hpiece, List.singleton_append, List.head?_cons]

/-- A piece is a part of the text. -/
theorem isInfix_of_mem_splitOnFrom {piece part : List Char} (h : part ∈ splitOnFrom x piece text) :
    part <:+: piece.reverse ++ text := by
  induction text generalizing piece with
  | nil =>
    obtain rfl := List.mem_singleton.1 h
    exact (List.prefix_append _ _).isInfix
  | cons c text ih =>
    rw [splitOnFrom] at h
    split at h
    · rcases List.mem_cons.1 h with rfl | h
      · exact (List.prefix_append _ _).isInfix
      · exact (ih h).trans ⟨piece.reverse ++ [c], [], by simp⟩
    · have hpart := ih h
      rwa [List.reverse_cons, List.append_assoc, List.singleton_append] at hpart

theorem isInfix_of_mem_splitOnChar {part : List Char} (h : part ∈ splitOnChar x text) :
    part <:+: text :=
  isInfix_of_mem_splitOnFrom h

/-- Each piece but for the first one starts behind an occurrence of the character. -/
theorem exists_ends_before {index : Nat} (h : index ≤ text.count x) :
    ∃ above rest, text = above ++ rest ∧ (∀ c ∈ above.getLast?, c = x) ∧
      above.count x = index := by
  induction index with
  | zero => exact ⟨[], text, rfl, nofun, rfl⟩
  | succ index ih =>
    obtain ⟨above, rest, rfl, -, hcount⟩ := ih (Nat.le_of_succ_le h)
    have hmem : x ∈ rest := by
      rw [List.count_append, hcount] at h
      exact List.count_pos_iff.1 (by omega)
    obtain ⟨piece, below, rfl, hpiece⟩ := List.eq_append_cons_of_mem hmem
    refine ⟨above ++ (piece ++ [x]), below, by simp, fun c hc ↦ ?_, ?_⟩
    · rw [← List.append_assoc, List.getLast?_concat] at hc
      exact (Option.some.inj hc).symm
    · rw [List.count_append, List.count_append, hcount, List.count_eq_zero.2 hpiece,
        List.count_singleton_self, Nat.zero_add]

end RuleLint
