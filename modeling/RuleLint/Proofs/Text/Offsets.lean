import Mathlib
import RuleLint.Proofs.Text.Places

/-!
# Positions of byte offsets

An offset need not lie between two characters: it may be inside one, or beyond the end of the text.
`Cursor.floor` is the last cursor that does not lie after it, and the table of lines gives the
offset the position of that cursor (`position?_eq_some`).

The search in the table compares the offset itself with the starts of lines. These are character
boundaries, so it comes to the same line as for the offset of the cursor, and from the start of the
line the walk takes the characters that still fit.

The boundaries are those of the text as a string (`isValid_iff`), and since no byte of a longer
character is a line feed, the lines can be counted in bytes (`count_bytes`).
-/

namespace RuleLint

namespace Cursor

/-! ### The last boundary up to an offset -/

theorem takeBytes_append_of_le {cs : List Char} {n : Nat} (h : byteLength cs ≤ n)
    (ds : List Char) : takeBytes (cs ++ ds) n = cs ++ takeBytes ds (n - byteLength cs) := by
  induction cs generalizing n with
  | nil => rfl
  | cons c cs ih =>
    rw [byteLength_cons] at h
    rw [List.cons_append, takeBytes, if_pos (by omega), ih (by omega), byteLength_cons,
      ← Nat.sub_sub]
    rfl

/-- The cursor at the last character boundary that does not lie after an offset. -/
def floor (text : List Char) (offset : Nat) : Cursor :=
  ⟨(takeBytes text offset).reverse, text.drop (takeBytes text offset).length⟩

theorem text_floor (text : List Char) (offset : Nat) : (floor text offset).text = text := by
  obtain ⟨rest, hrest⟩ := exists_takeBytes_append text offset
  have hdrop := congrArg (List.drop (takeBytes text offset).length) hrest
  rw [List.drop_left] at hdrop
  rw [floor, Cursor.text, List.reverse_reverse, ← hdrop, hrest]

theorem offset_floor_le (text : List Char) (offset : Nat) :
    (floor text offset).offset ≤ offset := by
  rw [floor, Cursor.offset, byteLength_reverse]
  exact byteLength_takeBytes_le text offset

theorem le_offset_floor {c : Cursor} {offset : Nat} (h : c.offset ≤ offset) :
    c.offset ≤ (floor c.text offset).offset := by
  rw [Cursor.offset, ← byteLength_reverse] at h
  rw [floor, Cursor.offset, Cursor.offset, byteLength_reverse, Cursor.text,
    takeBytes_append_of_le h, byteLength_append, byteLength_reverse]
  exact Nat.le_add_right _ _

/-! ### The look-up of an offset -/

/-- The induction is on what lies ahead; the text so far only moves the offsets. -/
theorem exists_offset_of_mem_startsAfter {start : LineStart} (before after : List Char)
    (h : start ∈ LineTable.startsAfter after (byteLength before)) :
    ∃ c : Cursor, c.text = before ++ after ∧ c.offset = start.offset := by
  induction after generalizing before with
  | nil => cases h
  | cons x after ih =>
    have hlater : start ∈ LineTable.startsAfter after (byteLength before + x.utf8Size) →
        ∃ c : Cursor, c.text = before ++ x :: after ∧ c.offset = start.offset := by
      intro hmem
      have hbytes : byteLength before + x.utf8Size = byteLength (before ++ [x]) := by simp
      rw [hbytes] at hmem
      simpa using ih (before ++ [x]) hmem
    rw [LineTable.startsAfter] at h
    split at h
    · rcases List.mem_cons.1 h with rfl | hmem
      · refine ⟨⟨x :: before.reverse, after⟩, by simp [Cursor.text], ?_⟩
        rw [Cursor.offset, byteLength_cons, byteLength_reverse, Nat.add_comm]
      · exact hlater hmem
    · exact hlater h

/-- The start of a line is a boundary of the text. -/
theorem exists_offset_of_mem_starts {text : List Char} {start : LineStart}
    (h : start ∈ (LineTable.ofText text).starts.toList) :
    ∃ c : Cursor, c.text = text ∧ c.offset = start.offset := by
  rw [LineTable.ofText] at h
  rcases List.mem_cons.1 h with rfl | hmem
  · exact ⟨atStart text, rfl, rfl⟩
  · exact exists_offset_of_mem_startsAfter [] text hmem

/-- An offset is in the line of the last cursor up to it: no line starts between them. -/
theorem lineAt_eq (text : List Char) (offset : Nat) :
    (LineTable.ofText text).lineAt offset = (floor text offset).line := by
  have hfloor := (floor text offset).lineAt_offset
  rw [text_floor] at hfloor
  rw [← hfloor, LineTable.lineAt, LineTable.lineAt]
  congr 2
  funext i
  cases hstart : (LineTable.ofText text).starts[i]? with
  | none => rfl
  | some start =>
    obtain ⟨c, rfl, hc⟩ := exists_offset_of_mem_starts
      (List.mem_of_getElem? (by rwa [Array.getElem?_toList]))
    refine decide_eq_decide.2 ⟨fun hle ↦ ?_, fun hle ↦ hle.trans (offset_floor_le c.text offset)⟩
    rw [← hc] at hle ⊢
    exact le_offset_floor hle

/-- The look-up of an offset succeeds. It finds the start of the line of the last cursor up to it,
and the walk from there goes up to that cursor. -/
theorem position?_eq_some (text : List Char) (offset : Nat) :
    ∃ above, (floor text offset).before = (floor text offset).lineBefore ++ above ∧
      (∀ x ∈ above.head?, x = '\n') ∧
      (LineTable.ofText text).starts[(LineTable.ofText text).lineAt offset]? =
        some ⟨byteLength above, (floor text offset).lineBefore.reverse ++
          (floor text offset).after⟩ ∧
      (LineTable.ofText text).position? offset = some (floor text offset).position := by
  obtain ⟨above, hbefore, hhead, -⟩ := (floor text offset).exists_lineBefore_append
  obtain ⟨start, hstart, hoffset⟩ := (floor text offset).getElem?_starts_line
  obtain rfl : start = byteLength above := by
    rw [Cursor.offset, hbefore, byteLength_append] at hoffset
    omega
  rw [text_floor, ← lineAt_eq] at hstart
  have hle : byteLength above.reverse ≤ offset := by
    have hfloor := offset_floor_le text offset
    rw [byteLength_reverse]
    omega
  -- the text cut at the offset is what lies before the cursor, so after the line start it is the
  -- part of the line up to the cursor
  have hcut : takeBytes ((floor text offset).lineBefore.reverse ++ (floor text offset).after)
      (offset - byteLength above) = (floor text offset).lineBefore.reverse := by
    have htext : text = above.reverse ++
        ((floor text offset).lineBefore.reverse ++ (floor text offset).after) := by
      conv_lhs => rw [← text_floor text offset, Cursor.text, hbefore]
      rw [List.reverse_append, List.append_assoc]
    have htake : takeBytes text offset =
        above.reverse ++ (floor text offset).lineBefore.reverse := by
      rw [← List.reverse_append, ← hbefore, floor, List.reverse_reverse]
    conv_lhs at htake => rw [htext]
    rw [takeBytes_append_of_le hle, byteLength_reverse] at htake
    exact List.append_cancel_left htake
  refine ⟨above, hbefore, hhead, hstart, ?_⟩
  rw [LineTable.position?, hstart]
  simp only [Option.bind_eq_bind, Option.bind_some, hcut, utf16Length_reverse, lineAt_eq]
  rfl

end Cursor

/-! ### Boundaries and bytes of strings -/

theorem utf8ByteSize_ofList (cs : List Char) : (String.ofList cs).utf8ByteSize = byteLength cs := by
  induction cs with
  | nil => rfl
  | cons c cs ih => simp [String.ofList_cons, ih]

/-- The boundaries of a string are the offsets of its cursors. -/
theorem isValid_iff {text : String} {offset : Nat} :
    (⟨offset⟩ : String.Pos.Raw).IsValid text ↔
      ∃ c : Cursor, c.text = text.toList ∧ c.offset = offset := by
  rw [String.Pos.Raw.isValid_iff_exists_take_toList]
  constructor
  · rintro ⟨i, hi⟩
    refine ⟨⟨(text.toList.take i).reverse, text.toList.drop i⟩, ?_, ?_⟩
    · rw [Cursor.text, List.reverse_reverse, List.take_append_drop]
    · rw [Cursor.offset, byteLength_reverse, ← utf8ByteSize_ofList]
      exact hi.symm
  · rintro ⟨c, htext, rfl⟩
    refine ⟨c.before.length, ?_⟩
    rw [← htext, Cursor.text, List.take_left' (List.length_reverse), utf8ByteSize_ofList,
      byteLength_reverse]
    rfl

theorem Cursor.offset_le (c : Cursor) : c.offset ≤ byteLength c.text := by
  rw [Cursor.offset, Cursor.text, byteLength_append, byteLength_reverse]
  exact Nat.le_add_right _ _

/-- A line feed is one byte, and no other character has that byte: the bytes of a longer character
are at least 128. -/
theorem count_utf8EncodeChar (c : Char) :
    (String.utf8EncodeChar c).count 10 = [c].count '\n' := by
  have hfeed : c = '\n' ↔ c.val.toNat = 10 := by
    rw [← Char.val_inj, ← UInt32.toNat_inj]
    rfl
  have hbyte : ∀ n : Nat, 10 = UInt8.ofNat n ↔ n % 256 = 10 := by
    intro n
    rw [eq_comm, UInt8.ofNat_eq_iff_mod_eq_toNat]
    rfl
  by_cases hshort : c.val.toNat ≤ 127
  · have hsame : UInt8.ofNat c.val.toNat = 10 ↔ c = '\n' := by
      rw [eq_comm, hbyte, hfeed, Nat.mod_eq_of_lt (by omega)]
    simp only [String.utf8EncodeChar, if_pos hshort, List.count_singleton, beq_iff_eq, hsame]
  · have hne : c ≠ '\n' := by
      rw [Ne, hfeed]
      omega
    rw [List.count_eq_zero.2 (mt List.mem_singleton.1 hne.symm), List.count_eq_zero]
    simp only [String.utf8EncodeChar, if_neg hshort]
    split_ifs <;> simp only [List.mem_cons, List.not_mem_nil, or_false, hbyte] <;> omega

theorem count_bytes (cs : List Char) :
    (cs.flatMap String.utf8EncodeChar).count 10 = cs.count '\n' := by
  induction cs with
  | nil => rfl
  | cons c cs ih =>
    rw [List.flatMap_cons, List.count_append, count_utf8EncodeChar, ih, ← List.count_append]
    rfl

theorem length_bytes (cs : List Char) :
    (cs.flatMap String.utf8EncodeChar).length = byteLength cs := by
  induction cs with
  | nil => rfl
  | cons c cs ih =>
    rw [List.flatMap_cons, List.length_append, String.length_utf8EncodeChar, ih, byteLength_cons]

/-- The bytes of a string are those of its characters. -/
theorem toList_toByteArray (text : String) :
    text.toByteArray.data.toList = text.toList.flatMap String.utf8EncodeChar := by
  rw [← String.utf8Encode_toList, List.utf8Encode, List.data_toByteArray]

/-- The line feeds among the first bytes of a string, up to a cursor. -/
theorem count_take_bytes {text : String} {c : Cursor} (h : c.text = text.toList) :
    (text.toByteArray.data.toList.take c.offset).count 10 = c.line := by
  rw [toList_toByteArray, ← h, Cursor.text, List.flatMap_append, List.take_left', count_bytes,
    List.count_reverse, Cursor.line]
  rw [length_bytes, byteLength_reverse, Cursor.offset]

/-- **The position of any offset.** Whatever the offset, the look-up is in bounds: it finds a line
that starts at a boundary and before the last boundary that lies neither after the offset nor
beyond the end. The position is that of this boundary: the number of line feed bytes before it, and
the number of UTF-16 units from the last of them or the start of the text on, both modulo
`2 ^ 32`. -/
theorem position_of_offset (text : String) (offset : Nat) :
    ∃ (above line after : List Char) (position : Position),
      text.toList = above ++ (line ++ after) ∧ (∀ x ∈ above.getLast?, x = '\n') ∧ '\n' ∉ line ∧
      IsGreatest {b | b ≤ min offset text.utf8ByteSize ∧ (⟨b⟩ : String.Pos.Raw).IsValid text}
        (byteLength (above ++ line)) ∧
      (⟨byteLength above⟩ : String.Pos.Raw).IsValid text ∧
      (LineTable.ofText text.toList).starts[(LineTable.ofText text.toList).lineAt offset]? =
        some ⟨byteLength above, line ++ after⟩ ∧
      (LineTable.ofText text.toList).position? offset = some position ∧
      (LineTable.ofText text.toList).position offset = position ∧
      position.line.toNat =
        (text.toByteArray.data.toList.take (byteLength (above ++ line))).count 10 % 2 ^ 32 ∧
      position.character.toNat = utf16Length line % 2 ^ 32 := by
  have htext := Cursor.text_floor text.toList offset
  obtain ⟨above, hbefore, hhead, hstart, hposition⟩ := Cursor.position?_eq_some text.toList offset
  have hbytes : byteLength (above.reverse ++ (Cursor.floor text.toList offset).lineBefore.reverse) =
      (Cursor.floor text.toList offset).offset := by
    rw [← List.reverse_append, ← hbefore, byteLength_reverse, Cursor.offset]
  have hsize : text.utf8ByteSize = byteLength text.toList := by
    rw [← utf8ByteSize_ofList, String.ofList_toList]
  refine ⟨above.reverse, (Cursor.floor text.toList offset).lineBefore.reverse,
    (Cursor.floor text.toList offset).after, (Cursor.floor text.toList offset).position,
    ?_, ?_, ?_, ?_, ?_, ?_, hposition, ?_, ?_, ?_⟩
  · conv_lhs => rw [← htext, Cursor.text, hbefore]
    rw [List.reverse_append, List.append_assoc]
  · rw [List.getLast?_reverse]
    exact hhead
  · exact fun hmem ↦ Cursor.ne_of_mem_lineBefore _ (List.mem_reverse.1 hmem) rfl
  · rw [hbytes]
    refine ⟨⟨le_min (Cursor.offset_floor_le _ _) ?_, isValid_iff.2 ⟨_, htext, rfl⟩⟩, ?_⟩
    · have hle := (Cursor.floor text.toList offset).offset_le
      rwa [htext, ← hsize] at hle
    · rintro b ⟨hb, hvalid⟩
      obtain ⟨c, hc, rfl⟩ := isValid_iff.1 hvalid
      rw [← hc]
      exact Cursor.le_offset_floor (hb.trans (min_le_left _ _))
  · refine isValid_iff.2 ⟨⟨above, (Cursor.floor text.toList offset).lineBefore.reverse ++
      (Cursor.floor text.toList offset).after⟩, ?_, (byteLength_reverse _).symm⟩
    conv_rhs => rw [← htext, Cursor.text, hbefore]
    rw [Cursor.text, List.reverse_append, List.append_assoc]
  · rw [byteLength_reverse]
    exact hstart
  · rw [LineTable.position, hposition, Option.getD_some]
  · rw [hbytes, count_take_bytes htext]
    rfl
  · rw [Cursor.utf16Length_reverse]
    rfl

end RuleLint
