import Mathlib
import RuleLint.Directive
import RuleLint.Proofs.Text.Surroundings

/-!
# Remarks

A remark is a directive that is put at the end of a line, after a blank (`Remark`). It is made of a
few words with blanks and marks between them (`Remark.groups`), so a search finds nothing in it if
what it looks for does not begin with one of these words or characters (`Mute`). And since it has
no quote, it does not go on with anything in the line before it (`Remark.apart`).
-/

namespace RuleLint

open Cursor

/-- A directive at the end of a line: for the document or for the next line, and for the rules that
it lists, or for every rule if it lists none. -/
structure Remark where
  forNextLine : Bool
  rules : List Rule

namespace Remark

/-- The word of a directive. -/
def word (forNextLine : Bool) : String :=
  if forNextLine then Directive.nextLineWord else Directive.documentWord

/-- The codes of rules, as a directive lists them. -/
def listing : List Rule → List Char
  | [] => []
  | rule :: rules =>
    " ".toList ++ rule.code.toList ++ rules.flatMap fun rule ↦ ", ".toList ++ rule.code.toList

/-- The text of a remark: a blank, and a comment with the directive. -/
def chars (remark : Remark) : List Char :=
  " # ".toList ++ (word remark.forNextLine).toList ++ listing remark.rules

/-! ### Words and what stands between them -/

/-- The words of remarks. -/
def words : List (List Char) :=
  ["xplint", "disable", "next", "line"].map String.toList
    ++ Rule.all.map fun rule ↦ rule.code.toList

/-- The characters between the words of a remark. -/
def separators : List Char :=
  [' ', '#', '-', ',']

/-- A word of a remark, and what stands before it. -/
structure Group where
  between : List Char
  word : List Char
deriving DecidableEq

/-- The characters of a group. -/
def Group.chars (group : Group) : List Char :=
  group.between ++ group.word

/-- The groups of the word of a directive. -/
def wordGroups (forNextLine : Bool) : List Group :=
  ⟨" # ".toList, "xplint".toList⟩ :: ⟨"-".toList, "disable".toList⟩ ::
    if forNextLine then [⟨"-".toList, "next".toList⟩, ⟨"-".toList, "line".toList⟩] else []

/-- The groups of a list of rules. -/
def listingGroups : List Rule → List Group
  | [] => []
  | rule :: rules =>
    ⟨" ".toList, rule.code.toList⟩ :: rules.map fun rule ↦ ⟨", ".toList, rule.code.toList⟩

/-- The groups of a remark. -/
def groups (remark : Remark) : List Group :=
  wordGroups remark.forNextLine ++ listingGroups remark.rules

theorem chars_eq (remark : Remark) : remark.chars = remark.groups.flatMap Group.chars := by
  have hword : ∀ forNextLine, " # ".toList ++ (word forNextLine).toList =
      (wordGroups forNextLine).flatMap Group.chars := by decide
  have hlisting : listing remark.rules = (listingGroups remark.rules).flatMap Group.chars := by
    cases remark.rules with
    | nil => rfl
    | cons rule rules =>
      rw [listing, listingGroups, List.flatMap_cons, List.flatMap_map]
      rfl
  rw [chars, groups, List.flatMap_append, hword, hlisting]

theorem code_mem_words (rule : Rule) : rule.code.toList ∈ words :=
  List.mem_append_right _ (List.mem_map.2 ⟨rule, rule.mem_all, rfl⟩)

/-- A group of a remark has something before its word. -/
structure Group.Valid (group : Group) : Prop where
  between_ne_nil : group.between ≠ []
  separator : group.between.all (· ∈ separators) = true
  word_mem : group.word ∈ words

theorem valid_of_mem_groups {remark : Remark} {group : Group} (h : group ∈ remark.groups) :
    group.Valid := by
  have hwords : ∀ forNextLine, ∀ group ∈ wordGroups forNextLine, group.between ≠ [] ∧
      group.between.all (· ∈ separators) = true ∧ group.word ∈ words := by decide
  have hblank : " ".toList ≠ [] ∧ " ".toList.all (· ∈ separators) = true := by decide
  have hcomma : ", ".toList ≠ [] ∧ ", ".toList.all (· ∈ separators) = true := by decide
  rcases List.mem_append.1 h with h | h
  · obtain ⟨hne, hseparator, hword⟩ := hwords _ group h
    exact ⟨hne, hseparator, hword⟩
  · cases hrules : remark.rules with
    | nil =>
      rw [hrules] at h
      cases h
    | cons rule rules =>
      rw [hrules] at h
      rcases List.mem_cons.1 h with rfl | h
      · exact ⟨hblank.1, hblank.2, code_mem_words rule⟩
      · obtain ⟨rule, -, rfl⟩ := List.mem_map.1 h
        exact ⟨hcomma.1, hcomma.2, code_mem_words rule⟩

theorem isWord_of_mem_words {name : List Char} (hname : name ∈ words) :
    ∀ x ∈ name, isWord x = true := by
  have hall : ∀ name ∈ words, name.all isWord = true := by decide
  exact List.all_eq_true.1 (hall name hname)

/-- A remark has no quote and stays within its line. -/
theorem not_mem_chars {remark : Remark} {x : Char}
    (hx : x ∉ separators ∧ isWord x = false) : x ∉ remark.chars := by
  intro hmem
  rw [chars_eq] at hmem
  obtain ⟨group, hgroup, hmem⟩ := List.mem_flatMap.1 hmem
  have hvalid := valid_of_mem_groups hgroup
  rcases List.mem_append.1 hmem with hmem | hmem
  · exact hx.1 (by simpa using List.all_eq_true.1 hvalid.separator x hmem)
  · rw [isWord_of_mem_words hvalid.word_mem x hmem] at hx
    exact absurd hx.2 (by decide)

theorem feed_notMem (remark : Remark) : '\n' ∉ remark.chars :=
  not_mem_chars (by decide)

theorem exists_chars_eq (remark : Remark) :
    ∃ more, remark.chars = ' ' :: '#' :: ' ' :: 'x' :: more := by
  have hword : ∀ forNextLine, (" # ".toList ++ (word forNextLine).toList).take 4 =
      [' ', '#', ' ', 'x'] := by decide
  refine ⟨(" # ".toList ++ (word remark.forNextLine).toList).drop 4 ++ listing remark.rules, ?_⟩
  have hparts := List.take_append_drop 4 (" # ".toList ++ (word remark.forNextLine).toList)
  rw [hword] at hparts
  rw [chars, ← hparts]
  rfl

/-- A remark ends with a word. -/
theorem isWord_of_getLast? (remark : Remark) {x : Char} (h : remark.chars.getLast? = some x) :
    isWord x = true := by
  have hne : ∀ name ∈ words, name ≠ [] := by decide
  rw [chars_eq] at h
  rcases List.eq_nil_or_concat' remark.groups with hnil | ⟨groups, group, hgroups⟩
  · rw [hnil] at h
    cases h
  · have hword := (valid_of_mem_groups (hgroups ▸ List.mem_append_right groups
      (List.mem_singleton.2 rfl) : group ∈ remark.groups)).word_mem
    obtain ⟨name, y, hname⟩ := (List.eq_nil_or_concat' group.word).resolve_left (hne _ hword)
    have hlast : x = y := by
      rw [hgroups, List.flatMap_append, List.flatMap_singleton, Group.chars, hname,
        ← List.append_assoc, ← List.append_assoc, List.getLast?_concat] at h
      exact (Option.some.inj h).symm
    exact isWord_of_mem_words hword x (by rw [hname, hlast]; simp)

/-- A remark does not go on with anything that is before it. -/
theorem apart (remark : Remark) {rest : List Char} (hrest : '"' ∉ rest.takeWhile (· != '\n')) :
    Apart (remark.chars ++ rest) where
  begins := by
    obtain ⟨more, hmore⟩ := remark.exists_chars_eq
    exact .inr ⟨more ++ rest, congrArg (· ++ rest) hmore⟩
  unquoted := by
    have hfeed : ∀ x ∈ remark.chars, (x != '\n') = true := by
      intro x hx
      have hne : x ≠ '\n' := by
        rintro rfl
        exact remark.feed_notMem hx
      simpa using hne
    rw [List.takeWhile_append_of_pos hfeed, List.mem_append, not_or]
    exact ⟨not_mem_chars (by decide), hrest⟩

end Remark

/-! ### Words -/

theorem isWord_of_isBlank {x : Char} (h : isBlank x = true) : isWord x = false := by
  obtain ⟨blank, hblank, hlow, hhigh⟩ := CodePoints.has_iff.1 h
  -- no interval of blanks meets one of word characters, and in ASCII blanks come before them
  have hapart : ∀ i ∈ blankCodePoints, ∀ j ∈ wordCodePoints, i.2 < j.1 ∨ j.2 < i.1 := by
    decide +kernel
  have hascii : ∀ i ∈ blankCodePoints, i.2 < 48 ∨ 128 ≤ i.1 := by decide
  rw [isWord]
  split
  · have hlt : x.toNat < 48 := by
      have hcases := hascii blank hblank
      omega
    have hne : x ≠ '_' := by
      rintro rfl
      exact absurd hlt (by decide)
    have halphanum : x.isAlphanum = false := by
      have hval : x.val.toNat < 48 := hlt
      simp [Char.isAlphanum, Char.isAlpha, Char.isUpper, Char.isLower, Char.isDigit,
        UInt32.le_iff_toNat_le]
      omega
    simp [halphanum, hne]
  · rw [← Bool.not_eq_true, CodePoints.has_iff]
    rintro ⟨j, hj, hlow', hhigh'⟩
    have hcases := hapart blank hblank j hj
    omega

/-- A remark does not end with blanks. -/
theorem Remark.eq_nil_of_blank {remark : Remark} {cs ds : List Char} (h : remark.chars = cs ++ ds)
    (hblank : ∀ x ∈ ds, isBlank x = true) : ds = [] := by
  rcases List.eq_nil_or_concat' ds with hnil | ⟨ds, x, rfl⟩
  · exact hnil
  · have hword : isWord x = true := by
      refine remark.isWord_of_getLast? ?_
      rw [h, ← List.append_assoc, List.getLast?_concat]
    rw [isWord_of_isBlank (hblank x (by simp))] at hword
    cases hword

namespace Cursor

variable {c d : Cursor}

/-- The word characters after a cursor. -/
def wordAfter (c : Cursor) : List Char :=
  c.after.takeWhile isWord

theorem takeWhile_isWord_eq_nil {after : List Char} (h : after.head?.any isWord = false) :
    after.takeWhile isWord = [] := by
  cases after with
  | nil => rfl
  | cons x after => exact List.takeWhile_cons_of_neg (by simpa using h)

theorem wordAfter_of_word {w : String} (h : c.word w = some d)
    (hd : w.toList.all isWord = true → d.after.head?.any isWord = false) :
    c.wordAfter = w.toList.takeWhile isWord := by
  rw [wordAfter, (reads_word h).after_eq]
  by_cases hw : w.toList.all isWord = true
  · rw [List.takeWhile_append_of_pos (List.all_eq_true.1 hw), takeWhile_isWord_eq_nil (hd hw),
      List.append_nil, List.takeWhile_eq_self_iff.2 (List.all_eq_true.1 hw)]
  · rw [List.takeWhile_append, if_neg]
    intro hlength
    rw [← (List.takeWhile_prefix _).eq_of_length hlength] at hw
    exact hw List.all_takeWhile

/-- What comes before a character that belongs to no word, with blanks in between, ends a word. -/
theorem head_of_char_skipBlanks {x : Char} (hx : isWord x = false)
    (h : c.skipBlanks.char x = some d) : c.after.head?.any isWord = false := by
  obtain ⟨bs, hbs, hblank⟩ := c.reads_skipBlanks
  rw [hbs.after_eq, (reads_char h).after_eq]
  cases bs with
  | nil => exact hx
  | cons b bs => exact isWord_of_isBlank (hblank b List.mem_cons_self)

end Cursor

theorem isWord_of_separator {x : Char} (hx : x ∈ Remark.separators ∨ x = '\r' ∨ x = '\n') :
    isWord x = false := by
  have hseparators : Remark.separators.all (!isWord ·) = true := by decide
  rcases hx with hx | rfl | rfl
  · simpa using List.all_eq_true.1 hseparators x hx
  · decide
  · decide

/-- A word that begins with a word character is not read before another character. -/
theorem Cursor.word_eq_none {w : String} (hw : w.toList.head?.any isWord = true) {x : Char}
    (hx : isWord x = false) (before after : List Char) :
    Cursor.word w ⟨before, x :: after⟩ = none := by
  rw [Option.eq_none_iff_forall_not_mem]
  intro d hd
  have hparts := (reads_word hd).after_eq
  cases hword : w.toList with
  | nil =>
    rw [hword] at hw
    cases hw
  | cons y word =>
    rw [hword] at hw hparts
    have hy : isWord y = true := hw
    rw [← (List.cons.inj hparts).1, hx] at hy
    cases hy

/-! ### Searches -/

section Searches

variable {α : Type} {recognise : Recogniser α}

/-- Whether nothing that is looked for begins in a remark: neither with one of its words or inside
one, nor with a character that stands between them or ends a line. -/
structure Mute (recognise : Recogniser α) : Prop where
  separator : ∀ x, x ∈ Remark.separators ∨ x = '\r' ∨ x = '\n' → ∀ before after,
    recognise ⟨before, x :: after⟩ = none
  word : ∀ passed rest before after, passed ++ rest ∈ Remark.words → rest ≠ [] →
    after.head?.any isWord = false → recognise ⟨passed.reverse ++ before, rest ++ after⟩ = none

/-- What begins with a word only at a word boundary, and with no word of a remark. -/
theorem mute_of_wordAfter
    (hseparator : ∀ x, x ∈ Remark.separators ∨ x = '\r' ∨ x = '\n' → ∀ before after,
      recognise ⟨before, x :: after⟩ = none)
    (hword : ∀ c answer, c.after.head?.any isWord = true → recognise c = some answer →
      c.atWordBoundary = true ∧ c.wordAfter ∉ Remark.words) : Mute recognise where
  separator := hseparator
  word passed _ before after hparts hne hafter := by
    rw [Option.eq_none_iff_forall_not_mem]
    intro answer hanswer
    have hall := Remark.isWord_of_mem_words hparts
    obtain ⟨x, rest, rfl⟩ := List.exists_cons_of_ne_nil hne
    have hx : isWord x = true := hall x (List.mem_append_right _ List.mem_cons_self)
    obtain ⟨hboundary, hnot⟩ :=
      hword ⟨passed.reverse ++ before, x :: rest ++ after⟩ answer hx hanswer
    cases hpassed : passed.reverse with
    | nil =>
      obtain rfl : passed = [] := by simpa using hpassed
      refine hnot ?_
      rw [Cursor.wordAfter, List.takeWhile_append_of_pos fun x hx ↦
        hall x (List.mem_append_right _ hx), takeWhile_isWord_eq_nil hafter, List.append_nil]
      exact hparts
    | cons y ys =>
      -- inside a word there is no boundary
      have hy : isWord y = true := by
        refine hall y (List.mem_append_left _ (List.mem_reverse.1 ?_))
        rw [hpassed]
        exact List.mem_cons_self
      rw [hpassed] at hboundary
      simp [Cursor.atWordBoundary, hx, hy] at hboundary

/-- What begins with a character that is not in a remark. -/
theorem mute_of_head (x : Char) (hx : isWord x = false ∧ x ∉ Remark.separators)
    (hends : x ≠ '\r' ∧ x ≠ '\n')
    (hhead : ∀ c answer, recognise c = some answer → c.after.head? = some x) : Mute recognise where
  separator y hy before after := by
    rw [Option.eq_none_iff_forall_not_mem]
    intro answer hanswer
    obtain rfl := Option.some.inj (hhead _ _ hanswer)
    rcases hy with hy | hy | hy
    · exact hx.2 hy
    · exact hends.1 hy
    · exact hends.2 hy
  word passed rest before after hparts hne _ := by
    rw [Option.eq_none_iff_forall_not_mem]
    intro answer hanswer
    obtain ⟨y, rest, rfl⟩ := List.exists_cons_of_ne_nil hne
    obtain rfl := Option.some.inj (hhead _ _ hanswer)
    have hword := Remark.isWord_of_mem_words hparts y
      (List.mem_append_right _ List.mem_cons_self)
    rw [hx.1] at hword
    cases hword

/-- A search passes over the end of a line. -/
theorem Mute.findAllFrom_ending (h : Mute recognise) {ending : List Char}
    (hending : ∀ x ∈ ending, x = '\r' ∨ x = '\n') (before after : List Char) :
    findAllFrom recognise before (ending ++ after) =
      findAllFrom recognise (ending.reverse ++ before) after :=
  findAllFrom_pass fun passed x _ hparts ↦ h.separator x
    (.inr (hending x (hparts ▸ List.mem_append_right passed List.mem_cons_self))) _ _

/-- A search passes over the groups of a remark, one after the other. -/
theorem Mute.findAllFrom_groups (h : Mute recognise) {groups : List Remark.Group}
    (hgroups : ∀ group ∈ groups, group.Valid) (before after : List Char)
    (hafter : after.head?.any isWord = false) :
    findAllFrom recognise before (groups.flatMap Remark.Group.chars ++ after) =
      findAllFrom recognise ((groups.flatMap Remark.Group.chars).reverse ++ before) after := by
  induction groups generalizing before with
  | nil => rfl
  | cons group groups ih =>
    obtain ⟨hgroup, hgroups⟩ := List.forall_mem_cons.1 hgroups
    have hseparator : ∀ x ∈ group.between, x ∈ Remark.separators := fun x hx ↦ by
      simpa using List.all_eq_true.1 hgroup.separator x hx
    -- the word ends with the group, since something stands before the next word
    have hnext : (groups.flatMap Remark.Group.chars ++ after).head?.any isWord = false := by
      cases groups with
      | nil => exact hafter
      | cons next groups =>
        have hvalid := hgroups next List.mem_cons_self
        obtain ⟨x, between, hbetween⟩ := List.exists_cons_of_ne_nil hvalid.between_ne_nil
        have hx : x ∈ Remark.separators := by
          have hall := hvalid.separator
          rw [hbetween] at hall
          simpa using List.all_eq_true.1 hall x List.mem_cons_self
        rw [List.flatMap_cons, Remark.Group.chars, hbetween]
        exact isWord_of_separator (.inl hx)
    have hbetween := @findAllFrom_pass _ recognise before group.between
      (group.word ++ (groups.flatMap Remark.Group.chars ++ after)) fun passed x rest hparts ↦
        h.separator x (.inl (hseparator x (hparts ▸ List.mem_append_right passed
          List.mem_cons_self))) _ _
    have hword := @findAllFrom_pass _ recognise (group.between.reverse ++ before) group.word
      (groups.flatMap Remark.Group.chars ++ after) fun passed x rest hparts ↦
        h.word passed (x :: rest) _ _ (hparts ▸ hgroup.word_mem) (List.cons_ne_nil _ _) hnext
    rw [List.flatMap_cons, Remark.Group.chars, List.append_assoc, List.append_assoc, hbetween,
      hword, ih hgroups]
    simp only [List.reverse_append, List.append_assoc]

/-- A search passes over a remark. -/
theorem Mute.findAllFrom_remark (h : Mute recognise) (remark : Remark) (before after : List Char)
    (hafter : after.head?.any isWord = false) :
    findAllFrom recognise before (remark.chars ++ after) =
      findAllFrom recognise (remark.chars.reverse ++ before) after := by
  rw [remark.chars_eq]
  exact h.findAllFrom_groups (fun _ hgroup ↦ Remark.valid_of_mem_groups hgroup) before after hafter

end Searches

end RuleLint
