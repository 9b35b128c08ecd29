import RuleLint.Proofs.Check.Surroundings

/-!
# Blocks that are open at the end of a text

If a text is a part of a longer one, at its end a block may be open, which is closed after the part.
The blocks of the longer text are then those of the part, the open one, and those after its brace;
otherwise they are those of the part and those after it (`blocksFrom_append`). What comes after the
part cannot change how a block is opened in it, since a header has no brace and so it is read in the
same way wherever a brace is ahead (`Cursor.Avoids`).

In the same way an assignment of a key whose line ends in the part is found in the longer text.
-/

namespace RuleLint

open Cursor

namespace Cursor

variable {outer c d : Cursor} {rest : List Char} {x : Char} {p : Char → Bool}
  {next next' : Cursor → Option Cursor}

/-- A reader that does not read a character, and with one of these ahead reads the same in a longer
text. -/
structure Avoids (x : Char) (next : Cursor → Option Cursor) : Prop where
  reads : ∀ c d, next c = some d → ∃ cs, c.Reads cs d ∧ x ∉ cs
  within : ∀ (outer : Cursor) (rest : List Char) (c : Cursor), x ∈ c.after →
    next (outer.within rest c) = (next c).map (outer.within rest)

theorem Avoids.mem_after (h : Avoids x next) (hd : next c = some d) (hx : x ∈ c.after) :
    x ∈ d.after := by
  obtain ⟨cs, hreads, hnot⟩ := h.reads c d hd
  rw [hreads.after_eq] at hx
  exact (List.mem_append.1 hx).resolve_left hnot

theorem one_within_of_ne_nil (hc : c.after ≠ []) :
    one p (outer.within rest c) = (one p c).map (outer.within rest) := by
  obtain ⟨before, after⟩ := c
  obtain ⟨y, after, rfl⟩ := List.exists_cons_of_ne_nil hc
  rw [within, List.cons_append, one_cons, one_cons]
  split <;> rfl

theorem avoids_one (hx : p x = false) : Avoids x (one p) where
  reads c d h := by
    obtain ⟨y, hreads, hy⟩ := reads_one h
    refine ⟨[y], hreads, fun hmem ↦ ?_⟩
    obtain rfl := List.mem_singleton.1 hmem
    rw [hx] at hy
    cases hy
  within _ _ _ hc := one_within_of_ne_nil (List.ne_nil_of_mem hc)

theorem Avoids.bind (h : Avoids x next) (h' : Avoids x next') :
    Avoids x fun c ↦ (next c).bind next' where
  reads c e he := by
    obtain ⟨d, hd, he⟩ := Option.bind_eq_some_iff.1 he
    obtain ⟨cs, hcs, hnot⟩ := h.reads c d hd
    obtain ⟨ds, hds, hnot'⟩ := h'.reads d e he
    exact ⟨cs ++ ds, hcs.trans hds, List.not_mem_append hnot hnot'⟩
  within outer rest c hc := by
    rw [h.within outer rest c hc]
    exact bind_within fun d hd ↦ h'.within outer rest d (h.mem_after hd hc)

theorem Avoids.or (h : Avoids x next) (h' : Avoids x next') :
    Avoids x fun c ↦ (next c).or (next' c) where
  reads c d hd := by
    rcases Option.or_eq_some_iff.1 hd with hd | ⟨-, hd⟩
    · exact h.reads c d hd
    · exact h'.reads c d hd
  within outer rest c hc := by
    rw [h.within outer rest c hc, h'.within outer rest c hc, Option.map_or]

theorem avoids_word {w : String} (hx : x ∉ w.toList) : Avoids x (word w) where
  reads c d h := ⟨_, reads_word h, hx⟩
  within outer rest c hc := by
    rw [word, word]
    generalize w.toList = word at hx
    induction word generalizing c with
    | nil => rfl
    | cons y word ih =>
      obtain ⟨hy, hx⟩ := List.ne_and_not_mem_of_not_mem_cons hx
      have hchar : Avoids x (char y) := avoids_one (beq_false_of_ne hy)
      rw [exactly, exactly, hchar.within outer rest c hc]
      exact bind_within fun d hd ↦ ih d (hchar.mem_after hd hc) hx

theorem avoids_skip (hx : p x = false) : Avoids x fun c ↦ some (c.skip p) where
  reads c d h := by
    obtain rfl := Option.some.inj h
    obtain ⟨cs, hreads, hall, -⟩ := c.reads_skip p
    refine ⟨cs, hreads, fun hmem ↦ ?_⟩
    rw [hall x hmem] at hx
    cases hx
  within outer rest c hc := by
    obtain ⟨cs, hreads, hall, -⟩ := c.reads_skip p
    refine congrArg some (skip_within_of_ne_nil fun hnil ↦ ?_)
    rw [hreads.after_eq, hnil, List.append_nil] at hc
    rw [hall x hc] at hx
    cases hx

theorem avoids_run (hx : p x = false) : Avoids x (run p) := by
  have hrun : run p = fun c ↦ (one p c).bind fun d ↦ some (d.skip p) := by
    funext c
    exact Option.map_eq_bind
  rw [hrun]
  exact (avoids_one hx).bind (avoids_skip hx)

/-- The character itself, after blanks. -/
theorem Avoids.char_skipBlanks_within (h : Avoids x next) (hx : isBlank x = false)
    (hc : x ∈ c.after) (hd : next c = some d) :
    (outer.within rest d).skipBlanks.char x = (d.skipBlanks.char x).map (outer.within rest) := by
  have hblanks := avoids_skip hx
  have hmem := hblanks.mem_after (c := d) rfl (h.mem_after hd hc)
  have hskip := Option.some.inj (hblanks.within outer rest d (h.mem_after hd hc))
  rw [skipBlanks, hskip]
  exact one_within_of_ne_nil (List.ne_nil_of_mem hmem)

end Cursor

namespace Check

variable {c d : Cursor} {rest : List Char} {header : Cursor → Option Cursor}
  {opened : Cursor × Cursor} {found : Block}

/-! ### Openings -/

theorem avoids_eventHeader : Avoids '\x7b' eventHeader :=
  ((avoids_word (by decide)).bind ((avoids_run (by decide)).bind (avoids_run (by decide)))).or
    (avoids_word (by decide))

/-- The opening of a block is read up to its brace. -/
theorem reads_opening (hheader : Avoids '\x7b' header) (h : opening header c = some opened) :
    ∃ cs, c.Reads (cs ++ ['\x7b']) opened.2 ∧ '\x7b' ∉ cs := by
  obtain ⟨-, h⟩ := Option.ite_none_right_eq_some.1 h
  obtain ⟨headerEnd, hend, h⟩ := Option.bind_eq_some_iff.1 h
  obtain ⟨start, hstart, h⟩ := Option.bind_eq_some_iff.1 h
  obtain rfl := Option.some.inj h
  obtain ⟨cs, hcs, hnot⟩ := hheader.reads c headerEnd hend
  obtain ⟨bs, hbs, hblank⟩ := headerEnd.reads_skipBlanks
  refine ⟨cs ++ bs, (hcs.trans hbs).trans (reads_char hstart), List.not_mem_append hnot ?_⟩
  intro hmem
  exact absurd (hblank _ hmem) (by decide)

theorem mem_after_of_opening (hheader : Avoids '\x7b' header)
    (h : opening header c = some opened) : '\x7b' ∈ c.after := by
  obtain ⟨cs, hreads, -⟩ := reads_opening hheader h
  rw [hreads.after_eq]
  simp

/-- With a brace ahead, a block is opened in a longer text as it is in a part. -/
theorem opening_within (hheader : Avoids '\x7b' header) (rest : List Char)
    (hc : '\x7b' ∈ c.after) :
    opening header ((atStart []).within rest c) = (opening header c).map
      (Prod.map ((atStart []).within rest) ((atStart []).within rest)) := by
  have hboundary : ((atStart []).within rest c).atWordBoundary = c.atWordBoundary := by
    obtain ⟨before, after⟩ := c
    obtain ⟨x, after, rfl⟩ := List.exists_cons_of_ne_nil (List.ne_nil_of_mem hc)
    rw [Cursor.within, atStart, List.append_nil]
    rfl
  rw [opening, opening, hboundary]
  split
  · rw [hheader.within _ _ _ hc]
    refine bind_within fun headerEnd hend ↦ ?_
    rw [hheader.char_skipBlanks_within (by decide) hc hend]
    exact bind_within fun start _ ↦ rfl
  · rfl

/-- A block that is closed in a part. -/
theorem blockBody_within (rest : List Char) (hclosed : '\x7d' ∈ opened.2.after) :
    blockBody ((atStart []).within rest c)
        (opened.map ((atStart []).within rest) ((atStart []).within rest)) =
      (blockBody c opened).map (Prod.map id ((atStart []).within rest)) := by
  have hbody : Avoids '\x7d' fun c ↦ some (c.skip (· != '\x7d')) := avoids_skip rfl
  have hskip := Option.some.inj (hbody.within (atStart []) rest opened.2 hclosed)
  have hmem := hbody.mem_after (c := opened.2) rfl hclosed
  have hchar : ((atStart []).within rest (opened.2.skip (· != '\x7d'))).char '\x7d' = _ :=
    one_within_of_ne_nil (List.ne_nil_of_mem hmem)
  have hbase : ((atStart []).within rest opened.2).offset = opened.2.offset := by
    rw [offset_within]
    exact Nat.zero_add _
  rw [blockBody, blockBody]
  dsimp only [Prod.map]
  rw [hskip, hchar]
  refine bind_within fun next _ ↦ ?_
  rw [upTo_within, upTo_within, hbase]
  rfl

theorem block_within (hheader : Avoids '\x7b' header) (rest : List Char)
    (hopened : opening header c = some opened) (hclosed : '\x7d' ∈ opened.2.after) :
    block header ((atStart []).within rest c) =
      (block header c).map (Prod.map id ((atStart []).within rest)) := by
  rw [block_eq, block_eq, opening_within hheader rest (mem_after_of_opening hheader hopened),
    hopened]
  exact blockBody_within rest hclosed

/-- What is found where a block begins. -/
theorem of_block_eq_some (h : block header c = some (found, d)) :
    ∃ opened body, opening header c = some opened ∧ '\x7d' ∈ opened.2.after ∧
      found = ⟨c.upTo opened.1, body, opened.2.offset⟩ ∧ opened.2.Reads (body ++ ['\x7d']) d := by
  rw [block_eq] at h
  obtain ⟨opened, hopened, h⟩ := Option.bind_eq_some_iff.1 h
  obtain ⟨next, hnext, h⟩ := Option.bind_eq_some_iff.1 h
  obtain ⟨rfl, rfl⟩ := Prod.mk.inj (Option.some.inj h)
  obtain ⟨body, hbody, -⟩ := opened.2.reads_skip (· != '\x7d')
  have hreads := hbody.trans (reads_char hnext)
  refine ⟨opened, body, hopened, ?_, by rw [hbody.upTo_eq], hreads⟩
  rw [hreads.after_eq]
  simp

theorem block_eq_none (h : opening header c = none) : block header c = none := by
  rw [block_eq, h]
  rfl

/-- A block that is opened where no block is found is not closed. -/
theorem unclosed_of_block_eq_none (hopened : opening header c = some opened)
    (h : block header c = none) : '\x7d' ∉ opened.2.after := by
  intro hclosed
  have hbody : Avoids '\x7d' fun c ↦ some (c.skip (· != '\x7d')) := avoids_skip rfl
  have hmem := hbody.mem_after (c := opened.2) rfl hclosed
  obtain ⟨x, rest, hrest⟩ := List.exists_cons_of_ne_nil (List.ne_nil_of_mem hmem)
  obtain ⟨-, -, -, hstop⟩ := opened.2.reads_skip (· != '\x7d')
  obtain rfl : x = '\x7d' := by simpa using hstop x (by rw [hrest]; rfl)
  rw [block_eq, hopened, Option.bind_some, blockBody, char, one, hrest] at h
  cases h

/-! ### Scans -/

/-- The blocks of a text from a place on. -/
def blocksFrom (header : Cursor → Option Cursor) (before after : List Char) : List Block :=
  (findAllFrom (block header) before after).map Found.value

/-- No block is open at the end of a text: its blocks stay as they are in a longer text, and the
others are found after it. -/
structure Settled (header : Cursor → Option Cursor) (before after : List Char) : Prop where
  append : ∀ rest, CarriesIn (before.reverse ++ after) rest
      (Prod.map ((atStart []).within rest) ((atStart []).within rest)) (opening header) →
    blocksFrom header before (after ++ rest) =
      blocksFrom header before after ++ blocksFrom header (after.reverse ++ before) rest
  apart : ∀ rest, ∀ found ∈ blocksFrom header before (after ++ rest),
    found.base + byteLength found.body < byteLength (before.reverse ++ after) ∨
      byteLength (before.reverse ++ after) < found.base

/-- A block is open at the end of a text: in a longer text it is found after the blocks of the
text. -/
structure OpenFrom (header : Cursor → Option Cursor) (before after : List Char) (start : Cursor)
    (opened : Cursor × Cursor) : Prop where
  reads : ∃ cs, (Cursor.mk before after).Reads cs start
  opening_eq : opening header start = some opened
  unclosed : '\x7d' ∉ opened.2.after
  append : ∀ rest, blocksFrom header before (after ++ rest) =
    blocksFrom header before after ++ blocksFrom header start.before (start.after ++ rest)

section Scan

variable {before after : List Char} {x : Char} {found : Block} {start stop : Cursor}

theorem blocksFrom_nil (before : List Char) : blocksFrom header before [] = [] := by
  rw [blocksFrom, findAllFrom_nil]
  rfl

theorem blocksFrom_of_none (h : block header ⟨before, x :: after⟩ = none) :
    blocksFrom header before (x :: after) = blocksFrom header (x :: before) after := by
  rw [blocksFrom, findAllFrom_of_none h]
  rfl

theorem blocksFrom_of_some (hadvances : Advances (block header))
    (h : block header ⟨before, x :: after⟩ = some (found, stop)) :
    blocksFrom header before (x :: after) = found :: blocksFrom header stop.before stop.after := by
  rw [blocksFrom, findAllFrom_of_some hadvances h]
  rfl

theorem within_atStart (rest : List Char) (c : Cursor) :
    (atStart []).within rest c = ⟨c.before, c.after ++ rest⟩ := by
  rw [Cursor.within, atStart, List.append_nil]

theorem byteLength_text (c : Cursor) : byteLength c.text = c.offset + byteLength c.after := by
  rw [text, byteLength_append, byteLength_reverse, offset]

/-- The body of a block begins after the place from which it is found. -/
theorem base_of_mem_blocksFrom (hheader : Avoids '\x7b' header)
    (h : found ∈ blocksFrom header before after) : byteLength before < found.base := by
  obtain ⟨f, hf, rfl⟩ := List.mem_map.1 h
  clear h
  fun_induction findAllFrom (block header) before after with
  | case1 => cases hf
  | case2 before x after hnone ih =>
    have hlater := ih hf
    rw [byteLength_cons] at hlater
    omega
  | case3 before x after value stop hsome hle ih =>
    obtain ⟨opened, body, hopened, -, rfl, hbody⟩ := of_block_eq_some hsome
    obtain ⟨cs, hcs, -⟩ := reads_opening hheader hopened
    have hbase := hcs.offset_eq
    have hstop := hbody.offset_eq
    simp only [byteLength_append, byteLength_cons, byteLength_nil, offset] at hbase hstop
    have hpos : 0 < '\x7b'.utf8Size := Char.utf8Size_pos _
    rcases List.mem_cons.1 hf with rfl | hf
    · show byteLength before < opened.2.offset
      rw [offset]
      omega
    · have hlater := ih hf
      omega
  | case4 before x after value stop hsome hlt ih =>
    have hlater := ih hf
    rw [byteLength_cons] at hlater
    omega

/-- There are no blocks where no brace is closed after the first one that is opened. -/
theorem blocksFrom_unclosed (hheader : Avoids '\x7b' header) (before : List Char)
    {cs body : List Char} (hcs : '\x7b' ∉ cs) (hbody : '\x7d' ∉ body) :
    blocksFrom header before (cs ++ '\x7b' :: body) = [] := by
  have hpass := @findAllFrom_pass _ (block header) before (cs ++ '\x7b' :: body) []
      fun passed x rest hparts ↦ by
    rw [Option.eq_none_iff_forall_not_mem]
    rintro ⟨found, stop⟩ hanswer
    obtain ⟨opened, -, hopened, hclosed, -⟩ := of_block_eq_some hanswer
    obtain ⟨ds, hds, -⟩ := reads_opening hheader hopened
    have hafter : cs ++ '\x7b' :: body = passed ++ ds ++ '\x7b' :: opened.2.after := by
      have hsame := hds.after_eq
      dsimp only at hsame
      rw [List.append_nil] at hsame
      rw [hparts, hsame]
      simp
    -- the brace that is read is the first one or comes after it
    rcases List.append_eq_append_iff.1 hafter with ⟨es, -, hes⟩ | ⟨es, hes, hrest⟩
    · cases es with
      | nil =>
        obtain rfl := (List.cons.inj hes).2
        exact hbody hclosed
      | cons y es =>
        refine hbody ?_
        rw [(List.cons.inj hes).2]
        simp [hclosed]
    · cases es with
      | nil =>
        obtain rfl := (List.cons.inj hrest).2
        exact hbody hclosed
      | cons y es =>
        obtain rfl := (List.cons.inj hrest).1
        exact hcs (hes ▸ by simp)
  rw [List.append_nil, findAllFrom_nil] at hpass
  rw [blocksFrom, hpass]
  rfl

/-- An open block that stays open hides everything that comes after it. -/
theorem blocksFrom_open_nil (hheader : Avoids '\x7b' header) {opened : Cursor × Cursor}
    (hopened : opening header start = some opened) (hunclosed : '\x7d' ∉ opened.2.after)
    {rest : List Char} (hrest : '\x7d' ∉ rest) :
    blocksFrom header start.before (start.after ++ rest) = [] := by
  obtain ⟨cs, hcs, hnot⟩ := reads_opening hheader hopened
  have hparts : start.after ++ rest = cs ++ '\x7b' :: (opened.2.after ++ rest) := by
    rw [hcs.after_eq]
    simp
  rw [hparts]
  exact blocksFrom_unclosed hheader _ hnot (List.not_mem_append hunclosed hrest)

/-- An open block that is closed after the text. -/
theorem blocksFrom_open (hadvances : Advances (block header)) (hheader : Avoids '\x7b' header)
    {opened : Cursor × Cursor} (hopened : opening header start = some opened)
    (hunclosed : '\x7d' ∉ opened.2.after) {tail : List Char} (htail : '\x7d' ∉ tail)
    (rest : List Char) :
    blocksFrom header start.before (start.after ++ (tail ++ '\x7d' :: rest)) =
      ⟨start.upTo opened.1, opened.2.after ++ tail, opened.2.offset⟩ ::
        blocksFrom header ('\x7d' :: (tail.reverse ++ start.text.reverse)) rest := by
  obtain ⟨cs, hcs, -⟩ := reads_opening hheader hopened
  have hopened' := opening_within hheader (tail ++ '\x7d' :: rest)
    (mem_after_of_opening hheader hopened)
  rw [hopened, Option.map_some] at hopened'
  have hsolid : ∀ x ∈ opened.2.after ++ tail, (x != '\x7d') = true := by
    intro x hx
    have hne : x ≠ '\x7d' := by
      rintro rfl
      exact (List.mem_append.1 hx).elim hunclosed htail
    simpa using hne
  have htext : (opened.2.after ++ tail).reverse ++ opened.2.before =
      tail.reverse ++ start.text.reverse := by
    rw [← hcs.text_eq, text]
    simp
  have hskip : ((atStart []).within (tail ++ '\x7d' :: rest) opened.2).skip (· != '\x7d') =
      ⟨tail.reverse ++ start.text.reverse, '\x7d' :: rest⟩ := by
    have hpast := skip_append hsolid opened.2.before ('\x7d' :: rest)
    rw [htext] at hpast
    rw [within_atStart, ← List.append_assoc, hpast]
    exact skip_eq_self fun y hy ↦ by
      obtain rfl : '\x7d' = y := by simpa using hy
      rfl
  have hreads : ((atStart []).within (tail ++ '\x7d' :: rest) opened.2).Reads
      (opened.2.after ++ tail) ⟨tail.reverse ++ start.text.reverse, '\x7d' :: rest⟩ := by
    rw [within_atStart]
    exact ⟨htext.symm, (List.append_assoc ..).symm⟩
  have hblock : block header ((atStart []).within (tail ++ '\x7d' :: rest) start) =
      some (⟨start.upTo opened.1, opened.2.after ++ tail, opened.2.offset⟩,
        ⟨'\x7d' :: (tail.reverse ++ start.text.reverse), rest⟩) := by
    rw [block_eq, hopened', Option.bind_some, blockBody]
    dsimp only [Prod.map]
    rw [hskip, hreads.upTo_eq, upTo_within, offset_within]
    show some _ = _
    rw [show (atStart []).offset = 0 from rfl, Nat.zero_add]
  obtain ⟨x, after, hafter⟩ := List.exists_cons_of_ne_nil
    (List.ne_nil_of_mem (mem_after_of_opening hheader hopened))
  rw [within_atStart, hafter] at hblock
  rw [hafter]
  exact blocksFrom_of_some hadvances hblock

/-- Nothing is found at a place where no block is opened, whatever comes after the text; if one is
opened there, its brace is after the text. -/
theorem base_of_block_within (hheader : Avoids '\x7b' header)
    (hopening : opening header ⟨before, x :: after⟩ = none) {rest : List Char}
    (h : block header ⟨before, x :: (after ++ rest)⟩ = some (found, stop)) :
    byteLength before + byteLength (x :: after) < found.base ∧ found.base ≤ stop.offset := by
  obtain ⟨opened, body, hopened, -, rfl, hbody⟩ := of_block_eq_some h
  obtain ⟨cs, hcs, hnot⟩ := reads_opening hheader hopened
  have hbrace : '\x7b' ∉ x :: after := by
    intro hmem
    have hwithin := opening_within (c := ⟨before, x :: after⟩) hheader rest hmem
    rw [hopening, within_atStart] at hwithin
    exact absurd (hopened.symm.trans hwithin) (by simp)
  have hparts : (x :: after) ++ rest = cs ++ ('\x7b' :: opened.2.after) := by
    have hsame := hcs.after_eq
    dsimp only at hsame
    rw [List.cons_append, hsame]
    simp
  have hlength : byteLength (x :: after) ≤ byteLength cs := by
    rcases List.append_eq_append_iff.1 hparts with ⟨es, hes, -⟩ | ⟨es, hes, hrest⟩
    · rw [hes, byteLength_append]
      exact Nat.le_add_right _ _
    · cases es with
      | nil => rw [hes, List.append_nil]
      | cons y es =>
        obtain rfl := (List.cons.inj hrest).1
        exact absurd (hes ▸ by simp) hbrace
  have hbase := hcs.offset_eq
  have hstop := hbody.offset_eq
  have hpos : 0 < '\x7b'.utf8Size := Char.utf8Size_pos _
  rw [byteLength_append, byteLength_cons] at hbase
  have hstart : (Cursor.mk before (x :: (after ++ rest))).offset = byteLength before := rfl
  constructor
  · show _ < opened.2.offset
    omega
  · show opened.2.offset ≤ _
    omega

/-! ### Settled texts and open blocks, one step of the search at a time -/

theorem settled_nil (hheader : Avoids '\x7b' header) (before : List Char) :
    Settled header before [] where
  append rest _ := by
    rw [blocksFrom_nil]
    rfl
  apart rest found hfound := by
    rw [List.append_nil, byteLength_reverse]
    exact .inr (base_of_mem_blocksFrom hheader hfound)

/-- A text is settled if it is settled behind a place at which no block is opened. -/
theorem Settled.pass (h : Settled header (x :: before) after) (hadvances : Advances (block header))
    (hheader : Avoids '\x7b' header) (hopening : opening header ⟨before, x :: after⟩ = none) :
    Settled header before (x :: after) where
  append rest hcarries := by
    have htext : (x :: before).reverse ++ after = before.reverse ++ x :: after := by simp
    have hopening' := hcarries ⟨before, x :: after⟩ rfl
    rw [hopening, within_atStart] at hopening'
    have hnone : block header ⟨before, x :: (after ++ rest)⟩ = none := block_eq_none hopening'
    rw [← htext] at hcarries
    rw [List.cons_append, blocksFrom_of_none hnone, blocksFrom_of_none (block_eq_none hopening),
      h.append rest hcarries, List.reverse_cons, List.append_assoc _ [x]]
    rfl
  apart rest found hfound := by
    have htext : (x :: before).reverse ++ after = before.reverse ++ x :: after := by simp
    rw [List.cons_append] at hfound
    cases hanswer : block header ⟨before, x :: (after ++ rest)⟩ with
    | none =>
      rw [blocksFrom_of_none hanswer] at hfound
      rw [← htext]
      exact h.apart rest found hfound
    | some answer =>
      -- the brace of a block that is found here is behind the text
      obtain ⟨found', stop⟩ := answer
      obtain ⟨hlow, hstop⟩ := base_of_block_within hheader hopening hanswer
      rw [blocksFrom_of_some hadvances hanswer] at hfound
      rw [byteLength_append, byteLength_reverse]
      rcases List.mem_cons.1 hfound with rfl | hfound
      · exact .inr hlow
      · have hlater := base_of_mem_blocksFrom hheader hfound
        have hoffset : stop.offset = byteLength stop.before := rfl
        exact .inr (by omega)

/-- A block that is found is found in a longer text, too. -/
theorem block_append_of_some (hheader : Avoids '\x7b' header)
    (hsome : block header ⟨before, x :: after⟩ = some (found, stop)) (rest : List Char) :
    block header ⟨before, x :: (after ++ rest)⟩ =
      some (found, ⟨stop.before, stop.after ++ rest⟩) := by
  obtain ⟨opened, body, hopened, hclosed, -⟩ := of_block_eq_some hsome
  have hwithin := block_within hheader rest hopened hclosed
  rw [hsome, within_atStart, Option.map_some, Prod.map, within_atStart] at hwithin
  exact hwithin

/-- A text is settled if it is settled behind a block. -/
theorem Settled.find (h : Settled header stop.before stop.after)
    (hadvances : Advances (block header)) (hheader : Avoids '\x7b' header)
    (hsome : block header ⟨before, x :: after⟩ = some (found, stop)) :
    Settled header before (x :: after) := by
  obtain ⟨opened, body, hopened, -, rfl, hbody⟩ := of_block_eq_some hsome
  obtain ⟨cs, hcs, -⟩ := reads_opening hheader hopened
  have htext : stop.before.reverse ++ stop.after = before.reverse ++ (x :: after) :=
    (hcs.trans hbody).text_eq
  have hblock := block_append_of_some hheader hsome
  refine ⟨fun rest hcarries ↦ ?_, fun rest found hfound ↦ ?_⟩
  · have hback : stop.after.reverse ++ stop.before = (x :: after).reverse ++ before := by
      simpa using congrArg List.reverse htext
    rw [← htext] at hcarries
    rw [List.cons_append, blocksFrom_of_some hadvances (hblock rest),
      blocksFrom_of_some hadvances hsome, h.append rest hcarries, hback]
    rfl
  · rw [List.cons_append, blocksFrom_of_some hadvances (hblock rest)] at hfound
    rw [← htext]
    rcases List.mem_cons.1 hfound with rfl | hfound
    · refine .inl ?_
      have hlength := byteLength_text stop
      have hoffset := hbody.offset_eq
      have hpos : 0 < '\x7d'.utf8Size := Char.utf8Size_pos _
      rw [text] at hlength
      rw [byteLength_append, byteLength_cons] at hoffset
      rw [hlength]
      show opened.2.offset + byteLength body < _
      omega
    · exact h.apart rest found hfound

/-- A block is open from a place on at which it is opened and not closed. -/
theorem openFrom_self (hheader : Avoids '\x7b' header) {opened : Cursor × Cursor}
    (hopening : opening header ⟨before, x :: after⟩ = some opened)
    (hnone : block header ⟨before, x :: after⟩ = none) :
    OpenFrom header before (x :: after) ⟨before, x :: after⟩ opened := by
  have hunclosed := unclosed_of_block_eq_none hopening hnone
  have hnil : blocksFrom header before (x :: after) = [] := by
    have hall := blocksFrom_open_nil hheader hopening hunclosed List.not_mem_nil
    rw [List.append_nil] at hall
    exact hall
  refine ⟨⟨[], .refl _⟩, hopening, hunclosed, fun rest ↦ ?_⟩
  rw [hnil]
  rfl

theorem OpenFrom.pass {opened : Cursor × Cursor}
    (h : OpenFrom header (x :: before) after start opened) (hheader : Avoids '\x7b' header)
    (hopening : opening header ⟨before, x :: after⟩ = none) :
    OpenFrom header before (x :: after) start opened := by
  obtain ⟨cs, hcs⟩ := h.reads
  have hafter : x :: after = x :: cs ++ start.after := hcs.cons.after_eq
  have hmem : '\x7b' ∈ x :: after :=
    hafter ▸ List.mem_append_right _ (mem_after_of_opening hheader h.opening_eq)
  refine ⟨⟨_, hcs.cons⟩, h.opening_eq, h.unclosed, fun rest ↦ ?_⟩
  have hopening' := opening_within (c := ⟨before, x :: after⟩) hheader rest hmem
  rw [hopening, within_atStart] at hopening'
  have hnone : block header ⟨before, x :: (after ++ rest)⟩ = none := block_eq_none hopening'
  rw [List.cons_append, blocksFrom_of_none hnone, blocksFrom_of_none (block_eq_none hopening),
    h.append]

theorem OpenFrom.find {opened : Cursor × Cursor}
    (h : OpenFrom header stop.before stop.after start opened)
    (hadvances : Advances (block header)) (hheader : Avoids '\x7b' header)
    (hsome : block header ⟨before, x :: after⟩ = some (found, stop)) :
    OpenFrom header before (x :: after) start opened := by
  obtain ⟨cs, -, hcs⟩ := hadvances _ _ _ hsome
  obtain ⟨ds, hds⟩ := h.reads
  refine ⟨⟨_, hcs.trans hds⟩, h.opening_eq, h.unclosed, fun rest ↦ ?_⟩
  rw [List.cons_append, blocksFrom_of_some hadvances (block_append_of_some hheader hsome rest),
    blocksFrom_of_some hadvances hsome, h.append]
  rfl

/-- **At the end of a text a block is open or not.** The induction follows the search; a block is
open from the first place at which one is opened and not closed in the text. -/
theorem settled_or_openFrom (hadvances : Advances (block header)) (hheader : Avoids '\x7b' header)
    (before after : List Char) :
    Settled header before after ∨ ∃ start opened, OpenFrom header before after start opened := by
  fun_induction findAllFrom (block header) before after with
  | case1 before => exact .inl (settled_nil hheader before)
  | case2 before x after hnone ih =>
    cases hopening : opening header ⟨before, x :: after⟩ with
    | some opened => exact .inr ⟨_, opened, openFrom_self hheader hopening hnone⟩
    | none =>
      rcases ih with hsettled | ⟨start, opened, hopen⟩
      · exact .inl (hsettled.pass hadvances hheader hopening)
      · exact .inr ⟨start, opened, hopen.pass hheader hopening⟩
  | case3 before x after found stop hsome hle ih =>
    rcases ih with hsettled | ⟨start, opened, hopen⟩
    · exact .inl (hsettled.find hadvances hheader hsome)
    · exact .inr ⟨start, opened, hopen.find hadvances hheader hsome⟩
  | case4 before x after found stop hsome hlt ih => exact absurd (hadvances.length_le hsome) hlt

end Scan

/-! ### Keys -/

section Keys

variable {outer : Cursor} {before after : List Char} {found : Found (List Char)}

theorem mem_after_of_keyOpening (h : keyOpening c = some d) : '=' ∈ c.after := by
  obtain ⟨e, hword, hsign⟩ := Option.bind_eq_some_iff.1 h
  obtain ⟨bs, hbs, -⟩ := e.reads_skipBlanks
  rw [((reads_word hword).trans (hbs.trans (reads_char hsign))).after_eq]
  simp

/-- With a sign ahead, the assignment of a key begins in a longer text as it does in a part. -/
theorem keyOpening_within (hc : '=' ∈ c.after) :
    keyOpening (outer.within rest c) = (keyOpening c).map (outer.within rest) := by
  have hword : Avoids '=' (Cursor.word "$alert.key") := avoids_word (by decide)
  rw [keyOpening, keyOpening, hword.within _ _ _ hc]
  exact bind_within fun e he ↦ hword.char_skipBlanks_within (by decide) hc he

/-- Without a sign there is no assignment of a key. -/
theorem findAllFrom_keyAssignment_nil (before : List Char) (h : '=' ∉ after) :
    findAllFrom keyAssignment before after = [] := by
  have hpass := @findAllFrom_pass _ keyAssignment before after [] fun passed x rest hparts ↦ by
    rw [Option.eq_none_iff_forall_not_mem]
    intro answer hanswer
    rw [keyAssignment_eq] at hanswer
    obtain ⟨d, hopening, -⟩ := Option.bind_eq_some_iff.1 hanswer
    have hmem := mem_after_of_keyOpening hopening
    rw [List.append_nil] at hmem
    exact h (hparts ▸ List.mem_append_right passed hmem)
  rw [List.append_nil, findAllFrom_nil] at hpass
  exact hpass

/-- Where no key is found but one is further on, none is opened: it would have an expression. -/
theorem keyOpening_eq_none {x : Char} (h : keyAssignment ⟨before, x :: after⟩ = none)
    (hsigil : '$' ∈ after) : keyOpening ⟨before, x :: after⟩ = none := by
  rw [Option.eq_none_iff_forall_not_mem]
  intro d hd
  obtain ⟨e, hword, hsign⟩ := Option.bind_eq_some_iff.1 hd
  obtain ⟨bs, hbs, hblank⟩ := e.reads_skipBlanks
  have hreads := (reads_word hword).trans (hbs.trans (reads_char hsign))
  have hparts : after = "alert.key".toList ++ (bs ++ ['=']) ++ d.after := by
    have hsame := hreads.after_eq
    rw [toList_alertKey] at hsame
    exact (List.cons.inj hsame).2
  -- the sigil comes after the sign, so the expression is not empty
  have hmem : '$' ∈ d.after := by
    rw [hparts] at hsigil
    rcases List.mem_append.1 hsigil with hsigil | hsigil
    · rcases List.mem_append.1 hsigil with hsigil | hsigil
      · exact absurd hsigil (by decide)
      · rcases List.mem_append.1 hsigil with hsigil | hsigil
        · exact absurd (hblank _ hsigil) (by decide)
        · exact absurd (List.mem_singleton.1 hsigil) (by decide)
    · exact hsigil
  have hblanks : Avoids '$' fun c ↦ some (c.skip isBlank) := avoids_skip (by decide)
  have hexpression : d.skipBlanks.after ≠ [] :=
    List.ne_nil_of_mem (hblanks.mem_after (c := d) rfl hmem)
  rw [keyAssignment_eq, hd, Option.bind_some, keyValue] at h
  dsimp only at h
  rw [if_neg (by simpa using hexpression)] at h
  cases h

/-- A key whose line ends in a text is there in a longer one. -/
theorem keyAssignment_append {before after : List Char} {x : Char} {value : List Char}
    {stop : Cursor} (hkey : keyAssignment ⟨before, x :: after⟩ = some (value, stop))
    (hends : stop.after ≠ []) (rest : List Char) :
    keyAssignment ⟨before, x :: (after ++ rest)⟩ =
      some (value, (atStart []).within rest stop) := by
  rw [keyAssignment_eq] at hkey
  obtain ⟨d, hopening, hvalue⟩ := Option.bind_eq_some_iff.1 hkey
  have hopening' := @keyOpening_within _ rest (atStart [])
    (mem_after_of_keyOpening hopening)
  have hline : (d.skipBlanks.skip (· != '\n')).after ≠ [] := by
    rw [keyValue] at hvalue
    dsimp only at hvalue
    split at hvalue
    · rename_i hempty
      obtain ⟨-, hvalue⟩ := Option.ite_none_right_eq_some.1 hvalue
      obtain ⟨-, rfl⟩ := Prod.mk.inj (Option.some.inj hvalue)
      exact absurd (by simpa using hempty) hends
    · obtain ⟨-, rfl⟩ := Prod.mk.inj (Option.some.inj hvalue)
      exact hends
  have hvalue' := @keyValue_within (atStart []) d rest (.inr hline)
  rw [hopening, within_atStart] at hopening'
  rw [hvalue, Option.map_some, Prod.map] at hvalue'
  rw [keyAssignment_eq]
  exact (congrArg (Option.bind · keyValue) hopening').trans hvalue'

/-- Where no key begins none begins in a longer text either, if one does further on: the sigil and
the sign of that one are there for the opening to be judged by. -/
theorem keyAssignment_append_eq_none {before after : List Char} {x : Char}
    (hnone : keyAssignment ⟨before, x :: after⟩ = none)
    (hfound : findAllFrom keyAssignment (x :: before) after ≠ []) (rest : List Char) :
    keyAssignment ⟨before, x :: (after ++ rest)⟩ = none := by
  have hsigil : '$' ∈ after := by
    by_contra hnot
    exact hfound (findAllFrom_keyAssignment _ _ hnot)
  have hsign : '=' ∈ x :: after := by
    refine List.mem_cons_of_mem _ ?_
    by_contra hnot
    exact hfound (findAllFrom_keyAssignment_nil _ hnot)
  have hopening := @keyOpening_within ⟨before, x :: after⟩ rest (atStart []) hsign
  rw [keyOpening_eq_none hnone hsigil, within_atStart] at hopening
  rw [keyAssignment_eq]
  exact congrArg (Option.bind · keyValue) hopening

/-- The first key of a text is that of a longer one if its line ends in the text. -/
theorem head?_keyAssignment_append (before after : List Char)
    (hfound : (findAllFrom keyAssignment before after).head? = some found)
    (hends : found.stop.after ≠ []) (rest : List Char) :
    (findAllFrom keyAssignment before (after ++ rest)).head?.map Found.value =
      some found.value := by
  fun_induction findAllFrom keyAssignment before after with
  | case1 => cases hfound
  | case2 before x after hnone ih =>
    have hnone' := keyAssignment_append_eq_none hnone (fun hnil ↦ by simp [hnil] at hfound) rest
    rw [List.cons_append, findAllFrom_of_none hnone']
    exact ih hfound
  | case3 before x after value stop hsome hle ih =>
    obtain rfl := Option.some.inj hfound
    have hsome' := keyAssignment_append hsome hends rest
    rw [List.cons_append, findAllFrom_of_some advances_keyAssignment hsome']
    rfl
  | case4 before x after value stop hsome hlt ih =>
    exact absurd (advances_keyAssignment.length_le hsome) hlt

theorem declaredKey_append {above : List Char} (hfound : findFirst keyAssignment above = some found)
    (hends : found.stop.after ≠ []) (rest : List Char) :
    declaredKey (above ++ rest) = some (normalKey found.value) := by
  have hfirst := head?_keyAssignment_append [] above hfound hends rest
  rw [declaredKey, findFirst, findAll, ← Function.comp_def, ← Option.map_map, hfirst]
  rfl

/-- The key of a text in whose first part no assignment of a key begins. -/
theorem declaredKey_of_none {above between below : List Char}
    (habove : ∀ passed x rest, above = passed ++ x :: rest →
      keyOpening ⟨passed.reverse, x :: (rest ++ (between ++ below))⟩ = none)
    (hbetween : findAllFrom keyAssignment above.reverse (between ++ below) =
      findAllFrom keyAssignment (above ++ between).reverse below) :
    declaredKey (above ++ (between ++ below)) = declaredKey below := by
  have hpass := @findAllFrom_pass _ keyAssignment [] above (between ++ below) fun passed x rest
      hparts ↦ by
    rw [List.append_nil, keyAssignment_eq, habove passed x rest hparts]
    rfl
  have hbelow := @findAllFrom_eq_map _ _ _ ⟨(above ++ between).reverse, []⟩
    advances_keyAssignment carries_keyAssignment below
  rw [List.append_nil, hbetween] at hpass
  rw [declaredKey, findFirst, findAll, hpass, hbelow, List.head?_map, Option.map_map]
  rfl

end Keys

end Check

end RuleLint
