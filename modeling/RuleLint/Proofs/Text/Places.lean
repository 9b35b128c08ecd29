import Mathlib
import RuleLint.Proofs.Text.Reading

/-!
# Places and positions

A cursor has a line and a column: the line feeds before it, and the UTF-16 units since the last of
them. The table of lines gives just these for the offset of a cursor (`position_offset`), and as
long as both numbers fit into their words the cursor can be found again from its position
(`ofPosition?_position`).

The table is cut at the cursor: the starts of lines before it are those of the text before it, and
the search in the table ends with the last of them.
-/

namespace RuleLint

/-! ### Starts of lines -/

namespace LineTable

variable {before after : List Char} {offset : Nat} {start : LineStart}

/-- The starts of lines in a text that goes on. -/
theorem startsAfter_append (before after : List Char) (offset : Nat) :
    startsAfter (before ++ after) offset =
      (startsAfter before offset).map (fun start ↦ ⟨start.offset, start.rest ++ after⟩) ++
        startsAfter after (offset + byteLength before) := by
  induction before generalizing offset with
  | nil => rfl
  | cons c before ih =>
    rw [List.cons_append, startsAfter, startsAfter, ih, byteLength_cons, ← Nat.add_assoc]
    split <;> rfl

theorem length_startsAfter (text : List Char) (offset : Nat) :
    (startsAfter text offset).length = text.count '\n' := by
  induction text generalizing offset with
  | nil => rfl
  | cons c text ih =>
    rw [startsAfter, List.count_cons]
    by_cases hc : c = '\n'
    · simp [hc, ih]
    · simp [hc, ih]

theorem offset_le_of_mem (h : start ∈ startsAfter before offset) :
    start.offset ≤ offset + byteLength before := by
  induction before generalizing offset with
  | nil => cases h
  | cons c before ih =>
    rw [startsAfter] at h
    have hlater : start ∈ startsAfter before (offset + c.utf8Size) →
        start.offset ≤ offset + byteLength (c :: before) := by
      intro hmem
      have hle := ih hmem
      rw [byteLength_cons]
      omega
    split at h
    · rcases List.mem_cons.1 h with rfl | hmem
      · rw [byteLength_cons]
        simp only
        omega
      · exact hlater hmem
    · exact hlater h

theorem lt_offset_of_mem (h : start ∈ startsAfter after offset) : offset < start.offset := by
  induction after generalizing offset with
  | nil => cases h
  | cons c after ih =>
    have hpos : 0 < c.utf8Size := c.utf8Size_pos
    rw [startsAfter] at h
    have hlater : start ∈ startsAfter after (offset + c.utf8Size) → offset < start.offset := by
      intro hmem
      have hlt := ih hmem
      omega
    split at h
    · rcases List.mem_cons.1 h with rfl | hmem
      · simp only
        omega
      · exact hlater hmem
    · exact hlater h

end LineTable

/-! ### Characters, units and bytes -/

theorem length_le_byteLength (cs : List Char) : cs.length ≤ byteLength cs := by
  induction cs with
  | nil => exact Nat.le_refl _
  | cons c cs ih =>
    rw [byteLength_cons, List.length_cons, Nat.add_comm]
    exact Nat.add_le_add c.utf8Size_pos ih

theorem utf16Units_le_utf8Size (c : Char) : utf16Units c ≤ c.utf8Size := by
  rw [utf16Units]
  split
  · exact c.utf8Size_pos
  · rename_i hlarge
    have hvalue : ¬c.val.toNat < 0x10000 := hlarge
    have hsize : c.utf8Size = 4 := by
      rw [Char.utf8Size, if_neg, if_neg, if_neg] <;> rw [UInt32.le_iff_toNat_le] <;> simp <;> omega
    rw [hsize]
    decide

theorem utf16Length_le_byteLength (cs : List Char) : utf16Length cs ≤ byteLength cs := by
  induction cs with
  | nil => exact Nat.le_refl _
  | cons c cs ih =>
    rw [byteLength_cons, utf16Length_cons]
    exact Nat.add_le_add (utf16Units_le_utf8Size c) ih

namespace Cursor

/-! ### The position of a cursor -/

/-- The part of the line of a cursor that lies before it, nearest first. -/
def lineBefore (c : Cursor) : List Char :=
  c.before.takeWhile (· != '\n')

/-- The number of the line of a cursor. -/
def line (c : Cursor) : Nat :=
  c.before.count '\n'

/-- The column of a cursor, in UTF-16 units. -/
def column (c : Cursor) : Nat :=
  utf16Length c.lineBefore

/-- The position of a cursor. -/
def position (c : Cursor) : Position :=
  ⟨c.line.toUInt32, c.column.toUInt32⟩

/-- The part of the line of a cursor that lies after it. -/
def lineAfter (c : Cursor) : List Char :=
  c.after.takeWhile (· != '\n')

theorem line_le_offset (c : Cursor) : c.line ≤ c.offset :=
  Nat.le_trans List.count_le_length (length_le_byteLength c.before)

theorem column_le_offset (c : Cursor) : c.column ≤ c.offset := by
  have hparts : c.lineBefore ++ c.before.dropWhile (· != '\n') = c.before :=
    List.takeWhile_append_dropWhile
  rw [offset, ← hparts, byteLength_append]
  exact Nat.le_trans (utf16Length_le_byteLength c.lineBefore) (Nat.le_add_right _ _)

theorem utf16Length_reverse (cs : List Char) : utf16Length cs.reverse = utf16Length cs := by
  induction cs with
  | nil => rfl
  | cons c cs ih => simp [ih, Nat.add_comm]

theorem takeBytes_append (cs ds : List Char) : takeBytes (cs ++ ds) (byteLength cs) = cs := by
  induction cs with
  | nil =>
    cases ds with
    | nil => rfl
    | cons d ds =>
      have hpos : 0 < d.utf8Size := d.utf8Size_pos
      rw [List.nil_append, takeBytes, if_neg (by rw [byteLength_nil]; omega)]
  | cons c cs ih =>
    rw [List.cons_append, takeBytes, byteLength_cons, if_pos (Nat.le_add_right _ _),
      Nat.add_sub_cancel_left, ih]

/-- The starts of the lines up to a cursor, each with the text from there to the cursor. -/
def startsBefore (c : Cursor) : List LineStart :=
  ⟨0, c.before.reverse⟩ :: LineTable.startsAfter c.before.reverse 0

theorem starts_ofText (c : Cursor) :
    (LineTable.ofText c.text).starts.toList =
      c.startsBefore.map (fun start ↦ ⟨start.offset, start.rest ++ c.after⟩) ++
        LineTable.startsAfter c.after c.offset := by
  rw [LineTable.ofText, text, LineTable.startsAfter_append, byteLength_reverse, Nat.zero_add]
  rfl

theorem length_startsBefore (c : Cursor) : c.startsBefore.length = c.line + 1 := by
  rw [startsBefore, List.length_cons, LineTable.length_startsAfter, List.count_reverse, line]

/-- The last line that starts up to a cursor is the one that the cursor is in. The induction is on
the characters before the cursor, the nearest of which is the last of the text up to it. -/
theorem getElem?_startsBefore_line (c : Cursor) :
    ∃ offset, c.startsBefore[c.line]? = some ⟨offset, c.lineBefore.reverse⟩ ∧
      offset + byteLength c.lineBefore = c.offset := by
  obtain ⟨before, after⟩ := c
  induction before with
  | nil => exact ⟨0, rfl, rfl⟩
  | cons c before ih =>
    have hstarts : startsBefore ⟨c :: before, after⟩ =
        (startsBefore ⟨before, after⟩).map (fun start ↦ ⟨start.offset, start.rest ++ [c]⟩) ++
          LineTable.startsAfter [c] (byteLength before) := by
      rw [startsBefore, List.reverse_cons, LineTable.startsAfter_append, byteLength_reverse,
        Nat.zero_add]
      rfl
    have hlength := length_startsBefore ⟨before, after⟩
    rw [hstarts]
    by_cases hc : c = '\n'
    · subst hc
      have hline : line ⟨'\n' :: before, after⟩ = line ⟨before, after⟩ + 1 := List.count_cons_self
      refine ⟨byteLength before + 1, ?_, ?_⟩
      · rw [hline, List.getElem?_append_right (Nat.le_of_eq (by rw [List.length_map, hlength])),
          List.length_map, hlength, Nat.sub_self]
        rfl
      · rw [offset, byteLength_cons, Nat.add_comm (Char.utf8Size _)]
        rfl
    · obtain ⟨offset, hstart, hoffset⟩ := ih
      have hline : line ⟨c :: before, after⟩ = line ⟨before, after⟩ :=
        List.count_cons_of_ne hc
      have hpart : lineBefore ⟨c :: before, after⟩ = c :: lineBefore ⟨before, after⟩ :=
        List.takeWhile_cons_of_pos (by simpa using hc)
      refine ⟨offset, ?_, ?_⟩
      · rw [hline, List.getElem?_append_left (by rw [List.length_map, hlength]; omega),
          List.getElem?_map, hstart, hpart, List.reverse_cons]
        rfl
      · rw [hpart, byteLength_cons, Cursor.offset, byteLength_cons, ← Nat.add_assoc,
          Nat.add_comm offset, Nat.add_assoc, hoffset]
        rfl

/-- The lines that start up to a cursor are those that do not start after its offset. -/
theorem lineAt_offset (c : Cursor) : (LineTable.ofText c.text).lineAt c.offset = c.line := by
  have hstarts := c.starts_ofText
  have hlength : (c.startsBefore.map fun start ↦
      (⟨start.offset, start.rest ++ c.after⟩ : LineStart)).length = c.line + 1 := by
    rw [List.length_map, length_startsBefore]
  have hsize : c.line + 1 ≤ (LineTable.ofText c.text).starts.size := by
    rw [← Array.length_toList, hstarts, List.length_append, hlength]
    exact Nat.le_add_right _ _
  have hbisect : bisect (fun i ↦ ((LineTable.ofText c.text).starts[i]?).any
      (·.offset ≤ c.offset)) 0 (LineTable.ofText c.text).starts.size = c.line + 1 := by
    refine bisect_eq (Nat.zero_le _) hsize fun i _ hi ↦ ?_
    rw [← Array.getElem?_toList, hstarts, List.getElem?_append, hlength]
    split
    · rename_i hlt
      refine ⟨fun _ ↦ hlt, fun _ ↦ ?_⟩
      obtain ⟨start, hstart⟩ : ∃ start, c.startsBefore[i]? = some start :=
        ⟨_, List.getElem?_eq_getElem (by rw [length_startsBefore]; exact hlt)⟩
      have hle : start.offset ≤ c.offset := by
        rcases List.mem_cons.1 (List.mem_of_getElem? hstart) with rfl | hmem
        · exact Nat.zero_le _
        · have hle := LineTable.offset_le_of_mem hmem
          rw [byteLength_reverse, Nat.zero_add] at hle
          exact hle
      simpa [hstart] using hle
    · rename_i hge
      refine ⟨fun hany ↦ ?_, fun hlt ↦ absurd hlt hge⟩
      cases hstart : (LineTable.startsAfter c.after c.offset)[i - (c.line + 1)]? with
      | none =>
        rw [hstart] at hany
        cases hany
      | some start =>
        have hlt := LineTable.lt_offset_of_mem (List.mem_of_getElem? hstart)
        have hle : start.offset ≤ c.offset := by simpa [hstart] using hany
        omega
  rw [LineTable.lineAt, hbisect, Nat.add_sub_cancel]

/-- The start of the line of a cursor in the table of lines. -/
theorem getElem?_starts_line (c : Cursor) :
    ∃ offset, (LineTable.ofText c.text).starts[c.line]? =
        some ⟨offset, c.lineBefore.reverse ++ c.after⟩ ∧
      offset + byteLength c.lineBefore = c.offset := by
  obtain ⟨offset, hstart, hoffset⟩ := c.getElem?_startsBefore_line
  refine ⟨offset, ?_, hoffset⟩
  rw [← Array.getElem?_toList, starts_ofText, List.getElem?_append_left, List.getElem?_map,
    hstart]
  · rfl
  · rw [List.length_map, length_startsBefore]
    exact Nat.lt_succ_self _

/-- **The table of lines gives the position of a cursor.** -/
theorem position_offset (c : Cursor) :
    (LineTable.ofText c.text).position c.offset = c.position := by
  obtain ⟨offset, hline, hoffset⟩ := c.getElem?_starts_line
  have hcolumn : takeBytes (c.lineBefore.reverse ++ c.after) (c.offset - offset) =
      c.lineBefore.reverse := by
    have hbytes : c.offset - offset = byteLength c.lineBefore.reverse := by
      rw [byteLength_reverse]
      omega
    rw [hbytes, takeBytes_append]
  rw [LineTable.position, LineTable.position?, lineAt_offset, hline]
  simp only [Option.bind_eq_bind, Option.bind_some, hcolumn, utf16Length_reverse]
  rfl

/-- The range of a span between two cursors. -/
theorem range_spanTo {c d : Cursor} (h : d.text = c.text) :
    (LineTable.ofText c.text).range (c.spanTo d) = ⟨c.position, d.position⟩ := by
  rw [LineTable.range, spanTo, position_offset, ← h, position_offset]

/-! ### Lines of two cursors -/

section Lines

variable {c d : Cursor} {cs : List Char}

theorem lineBefore_eq_nil (h : ∀ x ∈ c.before.head?, x = '\n') : c.lineBefore = [] := by
  rw [lineBefore]
  cases hbefore : c.before with
  | nil => rfl
  | cons x before =>
    rw [hbefore] at h
    exact List.takeWhile_cons_of_neg (by simp [h x rfl])

theorem ne_of_mem_lineBefore {x : Char} (c : Cursor) (h : x ∈ c.lineBefore) : x ≠ '\n' := by
  simpa using List.all_eq_true.1 List.all_takeWhile x h

theorem takeWhile_append_of_feedless {cs : List Char} (hcs : '\n' ∉ cs) (ds : List Char) :
    (cs ++ ds).takeWhile (· != '\n') = cs ++ ds.takeWhile (· != '\n') :=
  List.takeWhile_append_of_pos fun _ hx ↦ bne_iff_ne.2 fun h ↦ hcs (h ▸ hx)

theorem Reads.lineBefore_eq (h : c.Reads cs d) (hcs : '\n' ∉ cs) :
    d.lineBefore = cs.reverse ++ c.lineBefore := by
  rw [lineBefore, h.before_eq, takeWhile_append_of_feedless (by simpa using hcs), lineBefore]

/-- Behind a line feed, the line has only what was read since. -/
theorem Reads.mem_of_mem_lineBefore (h : c.Reads cs d) (hcs : '\n' ∈ cs) {x : Char}
    (hx : x ∈ d.lineBefore) : x ∈ cs := by
  obtain ⟨as, bs, hparts, hbs⟩ := List.eq_append_cons_of_mem (List.mem_reverse.2 hcs)
  rw [lineBefore, h.before_eq, hparts, List.append_assoc, takeWhile_append_of_feedless hbs] at hx
  have hmem : x ∈ as := by simpa using hx
  exact List.mem_reverse.1 (hparts ▸ List.mem_append_left _ hmem)

theorem Reads.lineAfter_eq (h : c.Reads cs d) (hcs : '\n' ∉ cs) :
    c.lineAfter = cs ++ d.lineAfter := by
  rw [lineAfter, h.after_eq, takeWhile_append_of_feedless hcs, lineAfter]

/-- Before a line feed, the rest of a line has only what is read up to it. -/
theorem Reads.mem_of_mem_lineAfter (h : c.Reads cs d) (hcs : '\n' ∈ cs) {x : Char}
    (hx : x ∈ c.lineAfter) : x ∈ cs := by
  obtain ⟨as, bs, rfl, has⟩ := List.eq_append_cons_of_mem hcs
  rw [lineAfter, h.after_eq, List.append_assoc, takeWhile_append_of_feedless has] at hx
  have hmem : x ∈ as := by simpa using hx
  exact List.mem_append_left _ hmem

/-- The place behind the first characters of the rest of a line. -/
theorem exists_reads_of_lineAfter {ds : List Char} (h : c.lineAfter = cs ++ ds) :
    ∃ d, c.Reads cs d ∧ d.lineAfter = ds := by
  have hafter : c.after = cs ++ (ds ++ c.after.dropWhile (· != '\n')) := by
    rw [← List.append_assoc, ← h, lineAfter, List.takeWhile_append_dropWhile]
  have hreads : c.Reads cs ⟨cs.reverse ++ c.before, ds ++ c.after.dropWhile (· != '\n')⟩ :=
    ⟨rfl, hafter⟩
  have hcs : '\n' ∉ cs := by
    intro hmem
    have hline : '\n' ∈ c.lineAfter := h ▸ List.mem_append_left ds hmem
    simpa using List.all_eq_true.1 List.all_takeWhile '\n' hline
  exact ⟨_, hreads, List.append_cancel_left ((hreads.lineAfter_eq hcs).symm.trans h)⟩

theorem Reads.line_eq (h : c.Reads cs d) : d.line = c.line + cs.count '\n' := by
  rw [line, h.before_eq, List.count_append, List.count_reverse, line, Nat.add_comm]

end Lines

/-! ### From positions back to cursors -/

/-- Past so many lines, given as the two sides of the cursor. -/
def seekLine : Nat → List Char → List Char → Option Cursor
  | 0, before, after => some ⟨before, after⟩
  | _ + 1, _, [] => none
  | n + 1, before, c :: after =>
    if c = '\n' then seekLine n (c :: before) after else seekLine (n + 1) (c :: before) after

/-- Past so many UTF-16 units of a line, given as the two sides of the cursor. There is no cursor
between the two units of a character. -/
def seekColumn : Nat → List Char → List Char → Option Cursor
  | 0, before, after => some ⟨before, after⟩
  | _ + 1, _, [] => none
  | n + 1, before, c :: after =>
    if c = '\n' ∨ n + 1 < utf16Units c then none
    else seekColumn (n + 1 - utf16Units c) (c :: before) after

/-- The cursor at a position of a text. -/
def ofPosition? (text : List Char) (position : Position) : Option Cursor :=
  (seekLine position.line.toNat [] text).bind fun c ↦
    seekColumn position.character.toNat c.before c.after

/-- Whether the numbers of lines and columns of a text fit into words. -/
def Fits (text : List Char) : Prop :=
  ∀ c : Cursor, c.text = text → c.line < 2 ^ 32 ∧ c.column < 2 ^ 32

theorem seekLine_zero (before after : List Char) :
    seekLine 0 before after = some ⟨before, after⟩ := by
  rw [seekLine]

theorem seekColumn_zero (before after : List Char) :
    seekColumn 0 before after = some ⟨before, after⟩ := by
  rw [seekColumn]

theorem seekLine_count (before cs after : List Char) (hcs : ∀ x ∈ cs.getLast?, x = '\n') :
    seekLine (cs.count '\n') before (cs ++ after) = some ⟨cs.reverse ++ before, after⟩ := by
  induction cs generalizing before with
  | nil => exact seekLine_zero before after
  | cons c cs ih =>
    have hlater : ∀ x ∈ cs.getLast?, x = '\n' := by
      intro x hx
      refine hcs x ?_
      rw [List.getLast?_cons, Option.mem_def.1 hx]
      rfl
    have hrest := ih (c :: before) hlater
    rw [List.reverse_cons, List.append_assoc]
    by_cases hc : c = '\n'
    · subst hc
      rw [List.count_cons_self, List.cons_append, seekLine, if_pos rfl]
      exact hrest
    · -- the last character is a line feed, so there is one left
      have hmem : '\n' ∈ cs := by
        cases hlast : cs.getLast? with
        | none =>
          rw [List.getLast?_eq_none_iff] at hlast
          subst hlast
          exact absurd (hcs c rfl) hc
        | some x =>
          rw [← hlater x hlast]
          exact List.mem_of_getLast? hlast
      obtain ⟨n, hn⟩ := Nat.exists_eq_succ_of_ne_zero
        (Nat.ne_of_gt (List.count_pos_iff.2 hmem))
      rw [hn] at hrest
      rw [List.count_cons_of_ne hc, hn, List.cons_append, seekLine, if_neg hc]
      exact hrest

theorem utf16Units_pos (c : Char) : 0 < utf16Units c := by
  rw [utf16Units]
  split <;> decide

theorem seekColumn_utf16Length (before cs after : List Char) (hcs : ∀ x ∈ cs, x ≠ '\n') :
    seekColumn (utf16Length cs) before (cs ++ after) = some ⟨cs.reverse ++ before, after⟩ := by
  induction cs generalizing before with
  | nil => exact seekColumn_zero before after
  | cons c cs ih =>
    obtain ⟨hc, hlater⟩ := List.forall_mem_cons.1 hcs
    have hpos := utf16Units_pos c
    obtain ⟨n, hn⟩ := Nat.exists_eq_succ_of_ne_zero
      (Nat.ne_of_gt (Nat.add_pos_left hpos (utf16Length cs)))
    have hunits : n + 1 - utf16Units c = utf16Length cs := by omega
    rw [utf16Length_cons, hn, List.cons_append, seekColumn, if_neg, hunits, ih (c :: before) hlater,
      List.reverse_cons, List.append_assoc]
    · rfl
    · rintro (hfeed | hlt)
      · exact hc hfeed
      · omega

/-- The characters before the line of a cursor, nearest first. -/
theorem exists_lineBefore_append (c : Cursor) :
    ∃ above, c.before = c.lineBefore ++ above ∧ (∀ x ∈ above.head?, x = '\n') ∧
      above.count '\n' = c.line := by
  have hparts : c.before = c.lineBefore ++ c.before.dropWhile (· != '\n') :=
    List.takeWhile_append_dropWhile.symm
  refine ⟨_, hparts, fun x hx ↦ ?_, ?_⟩
  · have hhead := List.head?_dropWhile_not (· != '\n') c.before
    rw [Option.mem_def.1 hx] at hhead
    simpa using hhead
  · have hnone : c.lineBefore.count '\n' = 0 :=
      List.count_eq_zero.2 fun hmem ↦ c.ne_of_mem_lineBefore hmem rfl
    have hcount := congrArg (List.count '\n') hparts
    rw [List.count_append, hnone, Nat.zero_add] at hcount
    exact hcount.symm

/-- **A cursor is found again from its position.** -/
theorem ofPosition?_position {c : Cursor} (hfits : Fits c.text) :
    ofPosition? c.text c.position = some c := by
  obtain ⟨hline, hcolumn⟩ := hfits c rfl
  obtain ⟨above, hbefore, hhead, hcount⟩ := c.exists_lineBefore_append
  have hfeedless : ∀ x ∈ c.lineBefore.reverse, x ≠ '\n' :=
    fun x hx ↦ c.ne_of_mem_lineBefore (List.mem_reverse.1 hx)
  have htext : c.text = above.reverse ++ (c.lineBefore.reverse ++ c.after) := by
    rw [text, hbefore, List.reverse_append, List.append_assoc]
  have hseekLine := seekLine_count [] above.reverse (c.lineBefore.reverse ++ c.after) (by
    rw [List.getLast?_reverse]
    exact hhead)
  have hseekColumn := seekColumn_utf16Length above c.lineBefore.reverse c.after hfeedless
  rw [List.count_reverse, hcount, List.reverse_reverse, List.append_nil] at hseekLine
  rw [utf16Length_reverse, List.reverse_reverse, ← hbefore] at hseekColumn
  have hline' : c.position.line.toNat = c.line := Nat.mod_eq_of_lt hline
  have hcolumn' : c.position.character.toNat = c.column := Nat.mod_eq_of_lt hcolumn
  rw [ofPosition?, hline', hcolumn', htext, hseekLine, Option.bind_some]
  exact hseekColumn

/-- A text whose characters are few has few lines and columns. -/
theorem fits_of_length {text : List Char} (h : 2 * text.length < 2 ^ 32) : Fits text := by
  rintro c rfl
  have hunits : ∀ cs : List Char, utf16Length cs ≤ 2 * cs.length := by
    intro cs
    induction cs with
    | nil => exact Nat.le_refl _
    | cons c cs ih =>
      have hle : utf16Units c ≤ 2 := by
        rw [utf16Units]
        split <;> decide
      rw [utf16Length_cons, List.length_cons]
      omega
  have hline : c.line ≤ c.before.length := List.count_le_length
  have hpart : c.lineBefore.length ≤ c.before.length := (List.takeWhile_sublist _).length_le
  have hcolumn := hunits c.lineBefore
  rw [text, List.length_append, List.length_reverse] at h
  rw [column]
  omega

/-! ### Cursors of a part of a text -/

/-- The cursor of a text that stands where another does in a part of it, which starts at the cursor
`outer` and before the characters `rest`. -/
def within (outer : Cursor) (rest : List Char) (inner : Cursor) : Cursor :=
  ⟨inner.before ++ outer.before, inner.after ++ rest⟩

section Within

variable {outer inner other stop : Cursor} {cs : List Char} {rest : List Char}

theorem Reads.within (h : inner.Reads cs other) (outer : Cursor) (rest : List Char) :
    (outer.within rest inner).Reads cs (outer.within rest other) where
  before_eq := by
    rw [Cursor.within, Cursor.within, h.before_eq, List.append_assoc]
  after_eq := by
    rw [Cursor.within, Cursor.within, h.after_eq, List.append_assoc]

theorem text_within (h : outer.Reads inner.text stop) :
    (outer.within stop.after inner).text = outer.text := by
  rw [within, text, text, h.after_eq, text]
  simp only [List.reverse_append, List.append_assoc]

theorem offset_within : (outer.within rest inner).offset = outer.offset + inner.offset := by
  rw [within, offset, offset, offset, byteLength_append, Nat.add_comm]

theorem spanTo_within :
    (outer.within rest inner).spanTo (outer.within rest other) =
      (inner.spanTo other).shift outer.offset := by
  rw [spanTo, spanTo, Span.shift, offset_within, offset_within]

end Within

end Cursor

end RuleLint
