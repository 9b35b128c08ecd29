import RuleLint.Text.Argument
import RuleLint.Text.Quoted

/-!
# What movements pass over

`Cursor.Reads c cs d` says that the text from the cursor `c` to the cursor `d` is `cs`. It is all
that a proof needs to know of two cursors of one text: the offset of the later one, the characters
between them and the text itself follow.

Each movement has one lemma that says what it passes over. A recogniser is a chain of movements, so
what it has recognised is read off the chain with `Reads.trans`. For searches, a find is what the
recogniser answered at a cursor of the text (`of_mem_findAll`).
-/

namespace RuleLint

namespace Cursor

/-- The text from one cursor to another. -/
structure Reads (c : Cursor) (cs : List Char) (d : Cursor) : Prop where
  before_eq : d.before = cs.reverse ++ c.before
  after_eq : c.after = cs ++ d.after

section Reading

variable {c d e : Cursor} {cs ds : List Char} {p : Char → Bool}

theorem Reads.refl (c : Cursor) : c.Reads [] c :=
  ⟨rfl, rfl⟩

theorem Reads.trans (first : c.Reads cs d) (rest : d.Reads ds e) : c.Reads (cs ++ ds) e where
  before_eq := by rw [rest.before_eq, first.before_eq, List.reverse_append, List.append_assoc]
  after_eq := by rw [first.after_eq, rest.after_eq, List.append_assoc]

/-- One more character before what is read. -/
theorem Reads.cons {before after : List Char} {x : Char}
    (h : Reads ⟨x :: before, after⟩ cs d) : Reads ⟨before, x :: after⟩ (x :: cs) d :=
  have hfirst : Reads ⟨before, x :: after⟩ [x] ⟨x :: before, after⟩ := ⟨rfl, rfl⟩
  hfirst.trans h

/-- A text that is read begins with the character ahead. -/
theorem Reads.of_cons {before after : List Char} {x y : Char}
    (h : Reads ⟨before, x :: after⟩ (y :: cs) d) : y = x ∧ Reads ⟨x :: before, after⟩ cs d := by
  obtain ⟨rfl, hafter⟩ := List.cons.inj h.after_eq
  refine ⟨rfl, ?_, hafter⟩
  rw [h.before_eq, List.reverse_cons, List.append_assoc]
  rfl

theorem reads_atStart (c : Cursor) : (atStart c.text).Reads c.before.reverse c where
  before_eq := by rw [List.reverse_reverse, atStart, List.append_nil]
  after_eq := rfl

theorem Reads.text_eq (h : c.Reads cs d) : d.text = c.text := by
  rw [text, text, h.before_eq, h.after_eq, List.reverse_append, List.reverse_reverse,
    List.append_assoc]

theorem Reads.offset_eq (h : c.Reads cs d) : d.offset = c.offset + byteLength cs := by
  rw [offset, offset, h.before_eq, byteLength_append, byteLength_reverse, Nat.add_comm]

theorem Reads.upTo_eq (h : c.Reads cs d) : c.upTo d = cs := by
  rw [upTo, h.after_eq, List.length_append, Nat.add_sub_cancel_right, List.take_left']
  rfl

theorem Reads.length_eq (h : c.Reads cs d) : c.after.length = cs.length + d.after.length := by
  rw [h.after_eq, List.length_append]

theorem Reads.length_lt_iff (h : c.Reads cs d) : d.after.length < c.after.length ↔ cs ≠ [] := by
  rw [h.length_eq, ← List.length_pos_iff]
  omega

theorem Reads.unique (h : c.Reads cs d) (h' : c.Reads cs e) : d = e := by
  obtain ⟨before, after⟩ := d
  obtain ⟨before', after'⟩ := e
  obtain rfl : before = before' := h.before_eq.trans h'.before_eq.symm
  obtain rfl : after = after' := List.append_cancel_left (h.after_eq.symm.trans h'.after_eq)
  rfl

theorem Reads.exists_split (h : c.Reads (cs ++ ds) e) : ∃ d, c.Reads cs d ∧ d.Reads ds e := by
  refine ⟨⟨cs.reverse ++ c.before, ds ++ e.after⟩, ⟨rfl, ?_⟩, ?_, rfl⟩
  · rw [h.after_eq, List.append_assoc]
  · rw [h.before_eq, List.reverse_append, List.append_assoc]

/-- Of two places after a cursor, one is not after the other. -/
theorem Reads.total (h : c.Reads cs d) (h' : c.Reads ds e) :
    (∃ rest, ds = cs ++ rest ∧ d.Reads rest e) ∨ ∃ rest, cs = ds ++ rest ∧ e.Reads rest d := by
  rcases List.append_eq_append_iff.1 (h.after_eq.symm.trans h'.after_eq) with
    ⟨rest, rfl, hrest⟩ | ⟨rest, rfl, hrest⟩
  · refine .inl ⟨rest, rfl, ?_, hrest⟩
    rw [h'.before_eq, h.before_eq, List.reverse_append, List.append_assoc]
  · refine .inr ⟨rest, rfl, ?_, hrest⟩
    rw [h.before_eq, h'.before_eq, List.reverse_append, List.append_assoc]

/-! ### Movements -/

theorem reads_skipFrom (p : Char → Bool) (before after : List Char) :
    ∃ cs, Reads ⟨before, after⟩ cs (skipFrom p before after) ∧ (∀ x ∈ cs, p x = true) ∧
      ∀ x ∈ (skipFrom p before after).after.head?, p x = false := by
  induction after generalizing before with
  | nil => exact ⟨[], .refl _, nofun, nofun⟩
  | cons x after ih =>
    by_cases hx : p x = true
    · obtain ⟨cs, hreads, hall, hstop⟩ := ih (x :: before)
      rw [skipFrom, if_pos hx]
      exact ⟨x :: cs, hreads.cons, List.forall_mem_cons.2 ⟨hx, hall⟩, hstop⟩
    · rw [skipFrom, if_neg hx]
      refine ⟨[], .refl _, nofun, fun y hy ↦ ?_⟩
      obtain rfl : x = y := by simpa using hy
      exact eq_false_of_ne_true hx

theorem reads_skip (p : Char → Bool) (c : Cursor) :
    ∃ cs, c.Reads cs (c.skip p) ∧ (∀ x ∈ cs, p x = true) ∧
      ∀ x ∈ (c.skip p).after.head?, p x = false :=
  reads_skipFrom p c.before c.after

theorem after_skip (p : Char → Bool) (c : Cursor) : (c.skip p).after = c.after.dropWhile p := by
  obtain ⟨cs, hreads, hall, hstop⟩ := c.reads_skip p
  rw [hreads.after_eq, List.dropWhile_append_of_pos hall]
  cases hafter : (c.skip p).after with
  | nil => rfl
  | cons x after =>
    rw [List.dropWhile_cons_of_neg]
    simpa using hstop x (by rw [hafter]; rfl)

theorem reads_skipBlanks (c : Cursor) :
    ∃ cs, c.Reads cs c.skipBlanks ∧ ∀ x ∈ cs, isBlank x = true := by
  obtain ⟨cs, hreads, hall, -⟩ := reads_skip isBlank c
  exact ⟨cs, hreads, hall⟩

/-- What is read after blanks does not begin with one. -/
theorem Reads.head_skipBlanks (h : c.skipBlanks.Reads cs d) :
    ∀ x ∈ cs.head?, isBlank x = false := by
  obtain ⟨-, -, -, hstop⟩ := c.reads_skip isBlank
  cases cs with
  | nil => nofun
  | cons x cs =>
    have hafter : (c.skip isBlank).after = x :: (cs ++ d.after) := h.after_eq
    rw [hafter] at hstop
    exact hstop

theorem Reads.head?_after {x : Char} (h : c.Reads (x :: cs) d) : c.after.head? = some x := by
  rw [h.after_eq]
  rfl

theorem reads_one (h : c.one p = some d) : ∃ x, c.Reads [x] d ∧ p x = true := by
  obtain ⟨before, after⟩ := c
  cases after with
  | nil => cases h
  | cons x after =>
    rw [one] at h
    obtain ⟨hx, hd⟩ := Option.ite_none_right_eq_some.1 h
    obtain rfl := Option.some.inj hd
    exact ⟨x, ⟨rfl, rfl⟩, hx⟩

theorem reads_char {x : Char} (h : c.char x = some d) : c.Reads [x] d := by
  obtain ⟨y, hreads, hy⟩ := reads_one h
  rw [← beq_iff_eq.1 hy]
  exact hreads

theorem reads_run (h : c.run p = some d) :
    ∃ cs, c.Reads cs d ∧ cs ≠ [] ∧ (∀ x ∈ cs, p x = true) ∧
      ∀ x ∈ d.after.head?, p x = false := by
  obtain ⟨e, he, rfl⟩ := Option.map_eq_some_iff.1 h
  obtain ⟨x, hfirst, hx⟩ := reads_one he
  obtain ⟨cs, hrest, hall, hstop⟩ := reads_skip p e
  exact ⟨x :: cs, hfirst.trans hrest, List.cons_ne_nil _ _, List.forall_mem_cons.2 ⟨hx, hall⟩,
    hstop⟩

theorem reads_exactly {word : List Char} (h : c.exactly word = some d) : c.Reads word d := by
  induction word generalizing c with
  | nil =>
    obtain rfl := Option.some.inj h
    exact .refl _
  | cons x word ih =>
    obtain ⟨e, he, hd⟩ := Option.bind_eq_some_iff.1 h
    exact (reads_char he).trans (ih hd)

theorem reads_word {w : String} (h : c.word w = some d) : c.Reads w.toList d :=
  reads_exactly h

/-- The run that is taken is the shortest after which `next` succeeds. -/
theorem reads_shortestFrom {α : Type} {next : Cursor → Option α} {a : α}
    (before after : List Char) (h : shortestFrom p next before after = some a) :
    ∃ cs d, Reads ⟨before, after⟩ cs d ∧ cs ≠ [] ∧ (∀ x ∈ cs, p x = true) ∧ next d = some a ∧
      ∀ ds e, Reads ⟨before, after⟩ ds e → ds ≠ [] → (∀ x ∈ ds, p x = true) →
        (next e).isSome = true → cs.length ≤ ds.length := by
  induction after generalizing before with
  | nil => cases h
  | cons x after ih =>
    rw [shortestFrom] at h
    obtain ⟨hx, h⟩ := Option.ite_none_right_eq_some.1 h
    have hfirst : Reads ⟨before, x :: after⟩ [x] ⟨x :: before, after⟩ := ⟨rfl, rfl⟩
    rcases Option.or_eq_some_iff.1 h with hnext | ⟨hnone, hlater⟩
    · exact ⟨[x], _, hfirst, List.cons_ne_nil _ _, by simpa using hx, hnext,
        fun ds _ _ hne _ _ ↦ List.length_pos_iff.2 hne⟩
    · obtain ⟨cs, d, hreads, -, hall, hnext, hleast⟩ := ih (x :: before) hlater
      refine ⟨x :: cs, d, hreads.cons, List.cons_ne_nil _ _,
        List.forall_mem_cons.2 ⟨hx, hall⟩, hnext, fun ds e hds hne hall hsome ↦ ?_⟩
      rcases hfirst.total hds with ⟨rest, rfl, hrest⟩ | ⟨rest, hparts, hrest⟩
      · by_cases hnil : rest = []
        · subst hnil
          obtain rfl := hrest.unique (.refl _)
          rw [hnone] at hsome
          cases hsome
        · have hle := hleast rest e hrest hnil (fun y hy ↦ hall y (List.mem_append_right _ hy))
            hsome
          rw [List.length_append, List.length_cons, List.length_singleton]
          omega
      · -- a run of one character is the first one
        obtain ⟨y, ds, rfl⟩ := List.exists_cons_of_ne_nil hne
        obtain ⟨rfl, hnil⟩ := List.cons.inj hparts
        obtain ⟨rfl, rfl⟩ := List.append_eq_nil_iff.1 hnil.symm
        obtain rfl := hrest.unique (.refl _)
        rw [hnone] at hsome
        cases hsome

theorem reads_shortest {α : Type} {next : Cursor → Option α} {a : α}
    (h : c.shortest p next = some a) :
    ∃ cs d, c.Reads cs d ∧ cs ≠ [] ∧ (∀ x ∈ cs, p x = true) ∧ next d = some a ∧
      ∀ ds e, c.Reads ds e → ds ≠ [] → (∀ x ∈ ds, p x = true) → (next e).isSome = true →
        cs.length ≤ ds.length :=
  reads_shortestFrom c.before c.after h

theorem reads_backFrom (p : Char → Bool) (before after : List Char) :
    ∃ cs, (backFrom p before after).Reads cs ⟨before, after⟩ ∧ (∀ x ∈ cs, p x = true) ∧
      ∀ x ∈ (backFrom p before after).before.head?, p x = false := by
  induction before generalizing after with
  | nil => exact ⟨[], .refl _, nofun, nofun⟩
  | cons x before ih =>
    by_cases hx : p x = true
    · obtain ⟨cs, hreads, hall, hstop⟩ := ih (x :: after)
      rw [backFrom, if_pos hx]
      have hlast : Reads ⟨before, x :: after⟩ [x] ⟨x :: before, after⟩ := ⟨rfl, rfl⟩
      refine ⟨cs ++ [x], hreads.trans hlast, fun y hy ↦ ?_, hstop⟩
      rcases List.mem_append.1 hy with hy | hy
      · exact hall y hy
      · rw [List.mem_singleton.1 hy]
        exact hx
    · rw [backFrom, if_neg hx]
      refine ⟨[], .refl _, nofun, fun y hy ↦ ?_⟩
      obtain rfl : x = y := by simpa using hy
      exact eq_false_of_ne_true hx

theorem reads_backBlanks (c : Cursor) :
    ∃ cs, c.backBlanks.Reads cs c ∧ (∀ x ∈ cs, isBlank x = true) ∧
      ∀ x ∈ c.backBlanks.before.head?, isBlank x = false :=
  reads_backFrom isBlank c.before c.after

/-! ### Movements along a known text -/

theorem one_cons (p : Char → Bool) (before : List Char) (x : Char) (after : List Char) :
    one p ⟨before, x :: after⟩ = if p x then some ⟨x :: before, after⟩ else none := rfl

theorem char_eq_none {x y : Char} (h : y ≠ x) (before after : List Char) :
    char x ⟨before, y :: after⟩ = none := by
  rw [char, one_cons, if_neg (by simpa using h)]

theorem exactly_append (word before after : List Char) :
    exactly word ⟨before, word ++ after⟩ = some ⟨word.reverse ++ before, after⟩ := by
  induction word generalizing before with
  | nil => rfl
  | cons x word ih =>
    have hchar : char x ⟨before, x :: (word ++ after)⟩ = some ⟨x :: before, word ++ after⟩ :=
      if_pos (beq_self_eq_true x)
    rw [List.cons_append, exactly, hchar, Option.bind_some, ih, List.reverse_cons,
      List.append_assoc]
    rfl

theorem skip_append (hcs : ∀ x ∈ cs, p x = true) (before after : List Char) :
    skip p ⟨before, cs ++ after⟩ = skip p ⟨cs.reverse ++ before, after⟩ := by
  induction cs generalizing before with
  | nil => rfl
  | cons x cs ih =>
    obtain ⟨hx, hcs⟩ := List.forall_mem_cons.1 hcs
    have hnext : skip p ⟨before, x :: (cs ++ after)⟩ = skip p ⟨x :: before, cs ++ after⟩ :=
      if_pos hx
    rw [List.cons_append, hnext, ih hcs, List.reverse_cons, List.append_assoc]
    rfl

theorem skip_eq_self (h : ∀ x ∈ c.after.head?, p x = false) : c.skip p = c := by
  obtain ⟨before, after⟩ := c
  cases after with
  | nil => rfl
  | cons x after =>
    have hx : p x = false := h x rfl
    rw [skip, skipFrom, hx]
    rfl

theorem Reads.skip_eq (h : c.Reads cs d) (hcs : ∀ x ∈ cs, p x = true)
    (hstop : ∀ x ∈ d.after.head?, p x = false) : c.skip p = d := by
  obtain ⟨before, after⟩ := c
  obtain rfl : after = cs ++ d.after := h.after_eq
  rw [skip_append hcs, ← h.before_eq]
  exact skip_eq_self hstop

theorem Reads.char_eq {x : Char} (h : c.Reads [x] d) : c.char x = some d := by
  obtain ⟨before, after⟩ := c
  obtain ⟨before', after'⟩ := d
  obtain rfl : before' = x :: before := h.before_eq
  obtain rfl : after = x :: after' := h.after_eq
  rw [char, one_cons, if_pos (beq_self_eq_true x)]

theorem Reads.exactly_eq (h : c.Reads cs d) : c.exactly cs = some d := by
  obtain ⟨before, after⟩ := c
  obtain rfl : after = cs ++ d.after := h.after_eq
  rw [exactly_append, ← h.before_eq]

theorem Reads.run_eq (h : c.Reads cs d) (hne : cs ≠ []) (hcs : ∀ x ∈ cs, p x = true)
    (hstop : ∀ x ∈ d.after.head?, p x = false) : c.run p = some d := by
  obtain ⟨before, after⟩ := c
  obtain ⟨x, cs, rfl⟩ := List.exists_cons_of_ne_nil hne
  obtain ⟨hx, hcs⟩ := List.forall_mem_cons.1 hcs
  obtain rfl : after = x :: (cs ++ d.after) := h.after_eq
  have hrest : Reads ⟨x :: before, cs ++ d.after⟩ cs d :=
    ⟨by rw [h.before_eq, List.reverse_cons, List.append_assoc]; rfl, rfl⟩
  rw [run, one_cons, if_pos hx, Option.map_some, hrest.skip_eq hcs hstop]

end Reading

end Cursor

/-! ### Literals -/

/-- A quoted literal is read as a quote, characters other than quotes and line feeds, and a
quote. -/
theorem reads_quoted {c d : Cursor} {piece : Piece} (h : quoted c = some (piece, d)) :
    c.Reads ['"'] piece.start ∧ piece.start.Reads piece.content piece.stop ∧
      piece.stop.Reads ['"'] d ∧ ∀ x ∈ piece.content, x ≠ '"' ∧ x ≠ '\n' := by
  obtain ⟨start, hstart, h⟩ := Option.bind_eq_some_iff.1 h
  obtain ⟨next, hnext, h⟩ := Option.bind_eq_some_iff.1 h
  obtain ⟨rfl, rfl⟩ := Prod.mk.inj (Option.some.inj h)
  obtain ⟨cs, hreads, hall, -⟩ := start.reads_skip isQuotable
  have hcontent : (Piece.mk start (start.skip isQuotable)).content = cs := hreads.upTo_eq
  rw [hcontent]
  refine ⟨Cursor.reads_char hstart, hreads, Cursor.reads_char hnext, fun x hx ↦ ?_⟩
  simpa [isQuotable] using hall x hx

/-! ### Finds -/

section Finds

variable {α : Type} {recognise : Recogniser α} {found : Found α}

/-- The induction follows the search: each find begins at a cursor of the text, since it goes on
where the find before it ended. -/
theorem of_mem_findAllFrom (text : List Char)
    (keeps : ∀ c value d, recognise c = some (value, d) → d.text = c.text)
    (before after : List Char) (htext : (Cursor.mk before after).text = text)
    (hmem : found ∈ findAllFrom recognise before after) :
    found.start.text = text ∧ recognise found.start = some (found.value, found.stop) := by
  fun_induction findAllFrom recognise before after with
  | case1 before => cases hmem
  | case2 before c rest hnone ih =>
    exact ih (by rw [← htext]; simp [Cursor.text]) hmem
  | case3 before c rest value stop hsome hle ih =>
    rcases List.mem_cons.1 hmem with rfl | hmem
    · exact ⟨htext, hsome⟩
    · exact ih (by rw [← htext]; exact keeps _ _ _ hsome) hmem
  | case4 before c rest value stop hsome hlt ih =>
    exact ih (by rw [← htext]; simp [Cursor.text]) hmem

/-- A find in a text is what the recogniser answers at a cursor of the text. -/
theorem of_mem_findAll {text : List Char}
    (keeps : ∀ c value d, recognise c = some (value, d) → d.text = c.text)
    (hmem : found ∈ findAll recognise text) :
    found.start.text = text ∧ recognise found.start = some (found.value, found.stop) :=
  of_mem_findAllFrom text keeps [] text rfl hmem

theorem mem_findAll_of_findFirst {text : List Char} (h : findFirst recognise text = some found) :
    found ∈ findAll recognise text :=
  List.mem_of_mem_head? (Option.mem_def.2 h)

/-! ### The steps of a search -/

/-- Whether a recogniser reads at least one character of what it finds. -/
def Advances (recognise : Recogniser α) : Prop :=
  ∀ c value d, recognise c = some (value, d) → ∃ cs, cs ≠ [] ∧ c.Reads cs d

/-- What is found has at least one character. -/
theorem Advances.length_le (h : Advances recognise) {before after : List Char} {x : Char}
    {value : α} {stop : Cursor} (hsome : recognise ⟨before, x :: after⟩ = some (value, stop)) :
    stop.after.length ≤ after.length := by
  obtain ⟨cs, hne, hreads⟩ := h _ _ _ hsome
  exact Nat.le_of_lt_succ (hreads.length_lt_iff.2 hne)

theorem findAllFrom_of_none {before after : List Char} {x : Char}
    (h : recognise ⟨before, x :: after⟩ = none) :
    findAllFrom recognise before (x :: after) = findAllFrom recognise (x :: before) after := by
  rw [findAllFrom, h]

theorem findAllFrom_of_some (hadvances : Advances recognise) {before after : List Char} {x : Char}
    {value : α} {stop : Cursor} (h : recognise ⟨before, x :: after⟩ = some (value, stop)) :
    findAllFrom recognise before (x :: after) =
      ⟨⟨before, x :: after⟩, value, stop⟩ :: findAllFrom recognise stop.before stop.after := by
  rw [findAllFrom, h]
  simp only [if_pos (hadvances.length_le h)]

/-- The finds of a search from a place on begin there or later. -/
theorem exists_reads_of_mem_findAllFrom (hadvances : Advances recognise) (before after : List Char)
    (hmem : found ∈ findAllFrom recognise before after) :
    ∃ cs, Cursor.Reads ⟨before, after⟩ cs found.start := by
  fun_induction findAllFrom recognise before after with
  | case1 before => cases hmem
  | case2 before x after hnone ih =>
    obtain ⟨cs, hreads⟩ := ih hmem
    exact ⟨_, hreads.cons⟩
  | case3 before x after value stop hsome hle ih =>
    rcases List.mem_cons.1 hmem with rfl | hmem
    · exact ⟨[], .refl _⟩
    · obtain ⟨cs, -, hfirst⟩ := hadvances _ _ _ hsome
      obtain ⟨ds, hreads⟩ := ih hmem
      exact ⟨_, hfirst.trans hreads⟩
  | case4 before x after value stop hsome hlt ih =>
    obtain ⟨cs, hreads⟩ := ih hmem
    exact ⟨_, hreads.cons⟩

/-- Finds come in order and do not overlap. -/
theorem pairwise_findAllFrom (hadvances : Advances recognise) (before after : List Char) :
    (findAllFrom recognise before after).Pairwise fun a b ↦ ∃ cs, a.stop.Reads cs b.start := by
  fun_induction findAllFrom recognise before after with
  | case1 before => exact .nil
  | case2 before x after hnone ih => exact ih
  | case3 before x after value stop hsome hle ih =>
    exact .cons (fun found hmem ↦ exists_reads_of_mem_findAllFrom hadvances _ _ hmem) ih
  | case4 before x after value stop hsome hlt ih => exact ih

/-- **Wherever the recogniser answers there is a find**, one that begins there or one that begins
earlier and goes on there. -/
theorem exists_find_of_answer (hadvances : Advances recognise) (before after : List Char)
    {s : Cursor} {cs : List Char} (hreads : Cursor.Reads ⟨before, after⟩ cs s)
    (hanswer : (recognise s).isSome = true) :
    ∃ found ∈ findAllFrom recognise before after, ∃ ds es, found.start.Reads ds s ∧
      s.Reads es found.stop ∧ es ≠ [] ∧ recognise found.start = some (found.value, found.stop) := by
  fun_induction findAllFrom recognise before after generalizing cs with
  | case1 before =>
    obtain ⟨⟨value, stop⟩, hvalue⟩ := Option.isSome_iff_exists.1 hanswer
    obtain ⟨es, hne, hes⟩ := hadvances _ _ _ hvalue
    have hnil := hreads.after_eq.trans (congrArg (cs ++ ·) hes.after_eq)
    simp [hne] at hnil
  | case2 before x after hnone ih =>
    cases cs with
    | nil =>
      obtain rfl := hreads.unique (.refl _)
      rw [hnone] at hanswer
      cases hanswer
    | cons y cs =>
      exact ih hreads.of_cons.2
  | case3 before x after value stop hsome hle ih =>
    obtain ⟨ds, hne, hds⟩ := hadvances _ _ _ hsome
    rcases hds.total hreads with ⟨rest, rfl, hrest⟩ | ⟨rest, rfl, hrest⟩
    · obtain ⟨found, hmem, hcovers⟩ := ih hrest
      exact ⟨found, List.mem_cons_of_mem _ hmem, hcovers⟩
    · by_cases hnil : rest = []
      · -- the find ends where the recogniser answers, so the search goes on from there
        subst hnil
        obtain rfl := hrest.unique (.refl _)
        obtain ⟨found, hmem, hcovers⟩ := ih (.refl _)
        exact ⟨found, List.mem_cons_of_mem _ hmem, hcovers⟩
      · exact ⟨_, List.mem_cons_self, cs, rest, hreads, hrest, hnil, hsome⟩
  | case4 before x after value stop hsome hlt ih => exact absurd (hadvances.length_le hsome) hlt

theorem findAllFrom_eq_nil (hadvances : Advances recognise) {before after : List Char} {x : Char}
    (h : findAllFrom recognise before (x :: after) = []) :
    recognise ⟨before, x :: after⟩ = none ∧ findAllFrom recognise (x :: before) after = [] := by
  cases hanswer : recognise ⟨before, x :: after⟩ with
  | none =>
    rw [findAllFrom_of_none hanswer] at h
    exact ⟨rfl, h⟩
  | some answer =>
    rw [findAllFrom_of_some hadvances hanswer] at h
    cases h

end Finds

end RuleLint
