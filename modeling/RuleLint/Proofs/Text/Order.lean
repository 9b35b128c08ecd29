import Mathlib
import RuleLint.Proofs.Text.Offsets

/-!
# The order of places

Of two cursors of a text, one that stands before the other has the smaller offset
(`Cursor.precedes_iff`) and, as long as lines and columns fit into their words, the smaller position
(`Cursor.Precedes.position_lt`): either a line ends between them, or the column grows with each
character. A decoder of positions answers with the cursor that has the position, if there is one
(`Cursor.ofPosition?_eq_some_iff`).

Offsets that are not boundaries have the position of the last boundary up to them. So positions keep
the order of all offsets, and tell apart just those between which there is a boundary
(`positions_embed_offsets`).
-/

namespace RuleLint

/-! ### Order of positions -/

namespace Position

theorem lt_irrefl (p : Position) : ¬p < p := by
  rintro (hlt | ⟨-, hlt⟩)
  · exact UInt32.lt_irrefl _ hlt
  · exact UInt32.lt_irrefl _ hlt

theorem le_refl (p : Position) : p ≤ p :=
  .inr ⟨rfl, UInt32.le_refl _⟩

theorem le_of_lt {p q : Position} (h : p < q) : p ≤ q :=
  h.imp_right fun ⟨hline, hcharacter⟩ ↦ ⟨hline, UInt32.le_of_lt hcharacter⟩

end Position

namespace Cursor

variable {c d e : Cursor} {cs : List Char}

/-! ### One place before another -/

/-- Whether a cursor stands before another one of the same text. -/
def Precedes (c d : Cursor) : Prop :=
  ∃ cs, cs ≠ [] ∧ c.Reads cs d

theorem Precedes.trans_reads (h : c.Precedes d) (hreads : d.Reads cs e) : c.Precedes e := by
  obtain ⟨ds, hne, hds⟩ := h
  exact ⟨ds ++ cs, List.append_ne_nil_of_left_ne_nil hne cs, hds.trans hreads⟩

theorem Reads.trans_precedes (hreads : c.Reads cs d) (h : d.Precedes e) : c.Precedes e := by
  obtain ⟨ds, hne, hds⟩ := h
  exact ⟨cs ++ ds, List.append_ne_nil_of_right_ne_nil cs hne, hreads.trans hds⟩

theorem Precedes.within (h : c.Precedes d) (outer : Cursor) (rest : List Char) :
    (outer.within rest c).Precedes (outer.within rest d) := by
  obtain ⟨cs, hne, hreads⟩ := h
  exact ⟨cs, hne, hreads.within outer rest⟩

/-- A place in a part of a text is between the ends of the part. -/
theorem Reads.around_within {first last : Cursor} (h : first.Reads c.text last) :
    first.Reads c.before.reverse (first.within last.after c) ∧
      (first.within last.after c).Reads c.after last := by
  refine ⟨⟨?_, ?_⟩, ?_, rfl⟩
  · rw [List.reverse_reverse, Cursor.within]
  · rw [h.after_eq, text, Cursor.within, List.append_assoc]
  · rw [h.before_eq, text, Cursor.within, List.reverse_append, List.reverse_reverse,
      List.append_assoc]

theorem utf16Length_pos (hne : cs ≠ []) : 0 < utf16Length cs := by
  obtain ⟨x, cs, rfl⟩ := List.exists_cons_of_ne_nil hne
  have hpos := utf16Units_pos x
  rw [utf16Length_cons]
  omega

/-- A cursor that stands before another one is in an earlier line or in an earlier column. -/
theorem Precedes.line_lt_or (h : c.Precedes d) :
    c.line < d.line ∨ c.line = d.line ∧ c.column < d.column := by
  obtain ⟨cs, hne, hreads⟩ := h
  have hline := hreads.line_eq
  by_cases hfeed : '\n' ∈ cs
  · have hpos := List.count_pos_iff.2 hfeed
    exact .inl (by omega)
  · rw [List.count_eq_zero.2 hfeed, Nat.add_zero] at hline
    refine .inr ⟨hline.symm, ?_⟩
    have hpos := utf16Length_pos hne
    rw [column, column, hreads.lineBefore_eq hfeed, utf16Length_append, utf16Length_reverse]
    omega

theorem Precedes.position_lt (h : c.Precedes d) (hfits : Fits c.text) :
    c.position < d.position := by
  have hd : d.text = c.text := by
    obtain ⟨cs, -, hreads⟩ := h
    exact hreads.text_eq
  obtain ⟨hline, hcolumn⟩ := hfits c rfl
  obtain ⟨hline', hcolumn'⟩ := hfits d hd
  have hwords : ∀ {m n : Nat}, m < n → n < 2 ^ 32 → m.toUInt32 < n.toUInt32 := by
    intro m n hlt hn
    rw [UInt32.lt_iff_toNat_lt]
    have hm : m.toUInt32.toNat = m := Nat.mod_eq_of_lt (hlt.trans hn)
    have hn' : n.toUInt32.toNat = n := Nat.mod_eq_of_lt hn
    rwa [hm, hn']
  rcases h.line_lt_or with hlt | ⟨heq, hlt⟩
  · exact .inl (hwords hlt hline')
  · exact .inr ⟨congrArg Nat.toUInt32 heq, hwords hlt hcolumn'⟩

/-! ### Order of offsets -/

theorem byteLength_pos (hne : cs ≠ []) : 0 < byteLength cs := by
  obtain ⟨x, cs, rfl⟩ := List.exists_cons_of_ne_nil hne
  have hpos : 0 < x.utf8Size := x.utf8Size_pos
  rw [byteLength_cons]
  omega

theorem Precedes.offset_lt (h : c.Precedes d) : c.offset < d.offset := by
  obtain ⟨cs, hne, hreads⟩ := h
  have hpos := byteLength_pos hne
  rw [hreads.offset_eq]
  omega

/-- Of two cursors of one text, one is not after the other. -/
theorem precedes_or_eq_or_precedes (htext : c.text = d.text) :
    c.Precedes d ∨ c = d ∨ d.Precedes c := by
  have hd := d.reads_atStart
  rw [← htext] at hd
  rcases c.reads_atStart.total hd with ⟨rest, -, hrest⟩ | ⟨rest, -, hrest⟩
  · by_cases hne : rest = []
    · subst hne
      exact .inr (.inl (hrest.unique (.refl _)).symm)
    · exact .inl ⟨rest, hne, hrest⟩
  · by_cases hne : rest = []
    · subst hne
      exact .inr (.inl (hrest.unique (.refl _)))
    · exact .inr (.inr ⟨rest, hne, hrest⟩)

theorem precedes_iff (htext : c.text = d.text) : c.Precedes d ↔ c.offset < d.offset := by
  refine ⟨Precedes.offset_lt, fun hlt ↦ ?_⟩
  rcases precedes_or_eq_or_precedes htext with h | rfl | h
  · exact h
  · exact absurd hlt (Nat.lt_irrefl _)
  · exact absurd hlt h.offset_lt.asymm

theorem eq_of_offset_eq (htext : c.text = d.text) (h : c.offset = d.offset) : c = d := by
  rcases precedes_or_eq_or_precedes htext with hlt | heq | hlt
  · exact absurd h hlt.offset_lt.ne
  · exact heq
  · exact absurd h hlt.offset_lt.ne'

/-! ### Positions of offsets -/

theorem position_eq_floor (text : List Char) (offset : Nat) :
    (LineTable.ofText text).position offset = (floor text offset).position := by
  obtain ⟨-, -, -, -, hposition⟩ := position?_eq_some text offset
  rw [LineTable.position, hposition, Option.getD_some]

theorem offset_floor_mono (text : List Char) {a b : Nat} (h : a ≤ b) :
    (floor text a).offset ≤ (floor text b).offset := by
  have hle := le_offset_floor ((offset_floor_le text a).trans h)
  rwa [text_floor] at hle

/-- **Positions keep the order of offsets.** -/
theorem position_mono {text : List Char} (hfits : Fits text) {a b : Nat} (h : a ≤ b) :
    (LineTable.ofText text).position a ≤ (LineTable.ofText text).position b := by
  have htext : (floor text a).text = (floor text b).text := by rw [text_floor, text_floor]
  rw [position_eq_floor, position_eq_floor]
  rcases (offset_floor_mono text h).lt_or_eq with hlt | heq
  · refine Position.le_of_lt (((precedes_iff htext).2 hlt).position_lt ?_)
    rwa [text_floor]
  · rw [eq_of_offset_eq htext heq]
    exact Position.le_refl _

/-- **Boundaries have positions of their own**, in the order of the boundaries. -/
theorem position_strictMono {text : List Char} (hfits : Fits text) {c d : Cursor}
    (hc : c.text = text) (hd : d.text = text) (h : c.offset < d.offset) :
    (LineTable.ofText text).position c.offset < (LineTable.ofText text).position d.offset := by
  have hlt := ((precedes_iff (hc.trans hd.symm)).2 h).position_lt (hc ▸ hfits)
  rwa [← position_offset, ← position_offset, hc, hd] at hlt

theorem offset_eq_of_position_eq {text : List Char} (hfits : Fits text) {c d : Cursor}
    (hc : c.text = text) (hd : d.text = text)
    (h : (LineTable.ofText text).position c.offset = (LineTable.ofText text).position d.offset) :
    c.offset = d.offset := by
  rcases Nat.lt_trichotomy c.offset d.offset with hlt | heq | hlt
  · have hposition := position_strictMono hfits hc hd hlt
    rw [h] at hposition
    exact absurd hposition (Position.lt_irrefl _)
  · exact heq
  · have hposition := position_strictMono hfits hd hc hlt
    rw [h] at hposition
    exact absurd hposition (Position.lt_irrefl _)

/-! ### What a decoder answers -/

theorem reads_seekLine {n : Nat} {before after : List Char} (h : seekLine n before after = some c) :
    ∃ cs, Reads ⟨before, after⟩ cs c ∧ cs.count '\n' = n ∧ ∀ x ∈ cs.getLast?, x = '\n' := by
  fun_induction seekLine n before after with
  | case1 before after =>
    obtain rfl := Option.some.inj h
    exact ⟨[], .refl _, rfl, nofun⟩
  | case2 => cases h
  | case3 n before after ih =>
    obtain ⟨cs, hreads, hcount, hlast⟩ := ih h
    refine ⟨'\n' :: cs, hreads.cons, by rw [List.count_cons_self, hcount], ?_⟩
    intro x hx
    cases cs with
    | nil => exact (Option.some.inj hx).symm
    | cons y cs => exact hlast x (by rwa [List.getLast?_cons_cons] at hx)
  | case4 n before x after hx ih =>
    obtain ⟨cs, hreads, hcount, hlast⟩ := ih h
    refine ⟨x :: cs, hreads.cons, by rw [List.count_cons_of_ne hx, hcount], ?_⟩
    intro y hy
    cases cs with
    | nil => cases hcount
    | cons z cs => exact hlast y (by rwa [List.getLast?_cons_cons] at hy)

theorem reads_seekColumn {n : Nat} {before after : List Char}
    (h : seekColumn n before after = some c) :
    ∃ cs, Reads ⟨before, after⟩ cs c ∧ '\n' ∉ cs ∧ utf16Length cs = n := by
  fun_induction seekColumn n before after with
  | case1 before after =>
    obtain rfl := Option.some.inj h
    exact ⟨[], .refl _, List.not_mem_nil, rfl⟩
  | case2 => cases h
  | case3 => cases h
  | case4 n before x after hx ih =>
    rw [not_or] at hx
    obtain ⟨cs, hreads, hfeed, hlength⟩ := ih h
    refine ⟨x :: cs, hreads.cons, ?_, ?_⟩
    · exact List.not_mem_cons_of_ne_of_not_mem (Ne.symm hx.1) hfeed
    · rw [utf16Length_cons, hlength]
      omega

/-- The cursor that a decoder answers with has the position. -/
theorem position_of_ofPosition? {text : List Char} {p : Position}
    (h : ofPosition? text p = some c) : c.text = text ∧ c.position = p := by
  obtain ⟨d, hd, hc⟩ := Option.bind_eq_some_iff.1 h
  obtain ⟨cs, habove, hcount, hlast⟩ := reads_seekLine hd
  obtain ⟨ds, hline, hfeed, hlength⟩ := reads_seekColumn hc
  have hbefore : d.before = cs.reverse := habove.before_eq.trans (List.append_nil _)
  have hnumber : c.line = p.line.toNat := by
    have hstart : line ⟨[], text⟩ = 0 := rfl
    rw [hline.line_eq, List.count_eq_zero.2 hfeed, habove.line_eq, hcount, hstart, Nat.zero_add,
      Nat.add_zero]
  have hcolumn : c.column = p.character.toNat := by
    have hstart : d.lineBefore = [] := lineBefore_eq_nil (by rwa [hbefore, List.head?_reverse])
    rw [column, hline.lineBefore_eq hfeed, hstart, List.append_nil, utf16Length_reverse, hlength]
  refine ⟨hline.text_eq.trans habove.text_eq, ?_⟩
  rw [position, hnumber, hcolumn]
  simp

/-- **A decoder finds the cursor that has a position**, and no other. -/
theorem ofPosition?_eq_some_iff {text : List Char} (hfits : Fits text) {p : Position} :
    ofPosition? text p = some c ↔ c.text = text ∧ c.position = p := by
  refine ⟨position_of_ofPosition?, ?_⟩
  rintro ⟨rfl, rfl⟩
  exact ofPosition?_position hfits

end Cursor

/-! ### The embedding -/

/-- Whether an offset is the start of a character of a text, or its end. -/
def IsBoundary (text : String) (offset : Nat) : Prop :=
  (⟨offset⟩ : String.Pos.Raw).IsValid text

theorem isBoundary_iff {text : String} {offset : Nat} :
    IsBoundary text offset ↔ ∃ c : Cursor, c.text = text.toList ∧ c.offset = offset :=
  isValid_iff

/-- A span from one boundary of a text to another. -/
structure Span.IsAligned (text : String) (span : Span) : Prop where
  start : IsBoundary text span.start
  stop : IsBoundary text span.stop

/-- **Positions embed offsets in order.** The position of a larger offset is not smaller, whatever
the offsets, and for two boundaries of the text it is larger. So ranges are not inverted, and spans
between boundaries have ranges of their own. A decoder of positions answers with the boundary that
has the position, if there is one. -/
theorem positions_embed_offsets {text : String} (hfits : Cursor.Fits text.toList) :
    let table := LineTable.ofText text.toList
    (∀ a b, a ≤ b → table.position a ≤ table.position b) ∧
    (∀ a b, IsBoundary text a → IsBoundary text b → a < b →
      table.position a < table.position b) ∧
    (∀ span : Span, span.start ≤ span.stop →
      (table.range span).start ≤ (table.range span).stop) ∧
    (∀ span span' : Span, span.IsAligned text → span'.IsAligned text →
      table.range span = table.range span' → span = span') ∧
    ∀ position offset,
      (Cursor.ofPosition? text.toList position).map Cursor.offset = some offset ↔
        IsBoundary text offset ∧ table.position offset = position := by
  intro table
  have hmono : ∀ a b, a ≤ b → table.position a ≤ table.position b :=
    fun a b ↦ Cursor.position_mono hfits
  -- Offsets inside a character share the position of the boundary before them, so only boundaries
  -- have positions of their own.
  have hboundary : ∀ a b, IsBoundary text a → IsBoundary text b →
      table.position a = table.position b → a = b := by
    intro a b ha hb h
    obtain ⟨c, hc, rfl⟩ := isBoundary_iff.1 ha
    obtain ⟨d, hd, rfl⟩ := isBoundary_iff.1 hb
    exact Cursor.offset_eq_of_position_eq hfits hc hd h
  refine ⟨hmono, ?_, fun span ↦ hmono span.start span.stop, ?_, ?_⟩
  · intro a b ha hb hlt
    obtain ⟨c, hc, rfl⟩ := isBoundary_iff.1 ha
    obtain ⟨d, hd, rfl⟩ := isBoundary_iff.1 hb
    exact Cursor.position_strictMono hfits hc hd hlt
  · intro span span' hspan hspan' h
    obtain ⟨hstarts, hstops⟩ := Range.mk.inj h
    have hstart := hboundary _ _ hspan.start hspan'.start hstarts
    have hstop := hboundary _ _ hspan.stop hspan'.stop hstops
    obtain ⟨start, stop⟩ := span
    obtain ⟨start', stop'⟩ := span'
    exact congrArg₂ Span.mk hstart hstop
  · intro position offset
    rw [Option.map_eq_some_iff]
    constructor
    · rintro ⟨c, hc, rfl⟩
      obtain ⟨htext, hposition⟩ := Cursor.position_of_ofPosition? hc
      refine ⟨isBoundary_iff.2 ⟨c, htext, rfl⟩, ?_⟩
      rw [← hposition, ← c.position_offset, htext]
    · rintro ⟨hvalid, hposition⟩
      obtain ⟨c, htext, rfl⟩ := isBoundary_iff.1 hvalid
      refine ⟨c, (Cursor.ofPosition?_eq_some_iff hfits).2 ⟨htext, ?_⟩, rfl⟩
      rw [← c.position_offset, htext]
      exact hposition

/-- A text with characters of one and two units, an empty line, and a line that ends in a carriage
return. The offset 3 is inside a character, and between its two units there is no boundary. -/
theorem positions_embed_offsets_mixed :
    let text := "я😀\r\n\nz"
    let table := LineTable.ofText text.toList
    Cursor.Fits text.toList ∧ table.position 1 ≤ table.position 3 ∧
      table.position 7 < table.position 8 ∧ IsBoundary text 7 ∧ IsBoundary text 8 ∧
      (table.range ⟨3, 100⟩).start ≤ (table.range ⟨3, 100⟩).stop ∧
      (Cursor.ofPosition? text.toList ⟨0, 4⟩).map Cursor.offset = some 7 ∧
      ¬∃ offset, IsBoundary text offset ∧ table.position offset = ⟨0, 2⟩ := by
  intro text table
  have hfits : Cursor.Fits text.toList := Cursor.fits_of_length (by decide)
  obtain ⟨hmono, hstrict, hrange, -, hdecode⟩ := positions_embed_offsets hfits
  have hboundary : IsBoundary text 7 ∧ IsBoundary text 8 :=
    ⟨isBoundary_iff.2 ⟨⟨"я😀\r".toList.reverse, "\n\nz".toList⟩, by decide, by decide⟩,
      isBoundary_iff.2 ⟨⟨"я😀\r\n".toList.reverse, "\nz".toList⟩, by decide, by decide⟩⟩
  refine ⟨hfits, hmono _ _ (by decide), hstrict _ _ hboundary.1 hboundary.2 (by decide),
    hboundary.1, hboundary.2, hrange _ (by decide),
    (hdecode _ _).2 ⟨hboundary.1, by decide +kernel⟩, ?_⟩
  rintro ⟨offset, hoffset⟩
  have hnone : (Cursor.ofPosition? text.toList ⟨0, 2⟩).map Cursor.offset = none := by decide +kernel
  rw [(hdecode _ _).2 hoffset] at hnone
  cases hnone

end RuleLint
