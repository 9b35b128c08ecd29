import RuleLint.FileTree.SystemPath
import RuleLint.Proofs.Text.Offsets

/-!
# What is shown of a path

A path of a system is shown as a text. If its bytes are those of a text, that is the text itself,
and the function that shows any other bytes has the same answer for these (`showFrom_encodeAll`). So
what is shown of a path depends on its bytes alone (`SystemPath.shown_ofBytes`).

A character has one to four bytes. The first one tells how many, and which may come second
(`exists_begin?_three`, `exists_begin?_four`); the others go on with it one after the other.
-/

namespace RuleLint

namespace Lossy

theorem toNat_ofNat_of_lt {n : Nat} (h : n < 256) : (UInt8.ofNat n).toNat = n :=
  Nat.mod_eq_of_lt h

section Bytes

variable {n codePoint : Nat} {next : UInt8 × UInt8} {begun : Begun} (bytes : List UInt8)

/-- A byte that goes on with a character. -/
theorem showFrom_next {later : UInt8 × UInt8} {more : List (UInt8 × UInt8)} (hn : n < 256)
    (hnext : next.1.toNat ≤ n ∧ n ≤ next.2.toNat) :
    showFrom (some ⟨codePoint, next, later :: more⟩) (UInt8.ofNat n :: bytes) =
      showFrom (some ⟨64 * codePoint + (n - 0x80), later, more⟩) bytes := by
  simp [showFrom, step, UInt8.le_iff_toNat_le, toNat_ofNat_of_lt hn, hnext]

/-- The last byte of a character. -/
theorem showFrom_last (hn : n < 256) (hnext : next.1.toNat ≤ n ∧ n ≤ next.2.toNat) :
    showFrom (some ⟨codePoint, next, []⟩) (UInt8.ofNat n :: bytes) =
      Char.ofNat (64 * codePoint + (n - 0x80)) :: showFrom none bytes := by
  simp [showFrom, step, UInt8.le_iff_toNat_le, toNat_ofNat_of_lt hn, hnext]

/-- The first byte of a character that has more of them. -/
theorem showFrom_first (hn : n < 256) (hlarge : 0x80 ≤ n)
    (hbegin : begin? (UInt8.ofNat n) = some begun) :
    showFrom none (UInt8.ofNat n :: bytes) = showFrom (some begun) bytes := by
  have hascii : ¬UInt8.ofNat n < 0x80 := by
    rw [UInt8.lt_iff_toNat_lt, toNat_ofNat_of_lt hn]
    exact Nat.not_lt.2 hlarge
  simp [showFrom, step, first, hascii, hbegin]

theorem begin?_ofNat (hn : n < 256) : begin? (UInt8.ofNat n) =
    if 0xc2 ≤ n ∧ n ≤ 0xdf then some ⟨n - 0xc0, tail, []⟩
    else if n = 0xe0 then some ⟨0, (0xa0, 0xbf), [tail]⟩
    else if n = 0xed then some ⟨0xd, (0x80, 0x9f), [tail]⟩
    else if 0xe1 ≤ n ∧ n ≤ 0xef then some ⟨n - 0xe0, tail, [tail]⟩
    else if n = 0xf0 then some ⟨0, (0x90, 0xbf), [tail, tail]⟩
    else if 0xf1 ≤ n ∧ n ≤ 0xf3 then some ⟨n - 0xf0, tail, [tail, tail]⟩
    else if n = 0xf4 then some ⟨4, (0x80, 0x8f), [tail, tail]⟩
    else none := by
  simp [begin?, UInt8.le_iff_toNat_le, ← UInt8.toNat_inj, toNat_ofNat_of_lt hn]

end Bytes

/-- The first two bytes of a character of three. -/
theorem exists_begin?_three {v : Nat} (hlow : 0x800 ≤ v) (hhigh : v < 0x10000)
    (hvalid : v < 0xd800 ∨ 0xdfff < v) : ∃ next : UInt8 × UInt8,
      begin? (UInt8.ofNat (v / 4096 % 16 + 224)) = some ⟨v / 4096, next, [tail]⟩ ∧
        next.1.toNat ≤ v / 64 % 64 + 128 ∧ v / 64 % 64 + 128 ≤ next.2.toNat := by
  rw [begin?_ofNat (by omega), if_neg (by omega)]
  split
  · refine ⟨(0xa0, 0xbf), by rw [show v / 4096 = 0 by omega], ?_⟩
    simp only [UInt8.toNat_ofNat]
    omega
  split
  · refine ⟨(0x80, 0x9f), by rw [show v / 4096 = 0xd by omega], ?_⟩
    simp only [UInt8.toNat_ofNat]
    omega
  · rw [if_pos (by omega)]
    refine ⟨tail, by rw [show v / 4096 % 16 + 224 - 0xe0 = v / 4096 by omega], ?_⟩
    simp only [tail, UInt8.toNat_ofNat]
    omega

/-- The first two bytes of a character of four. -/
theorem exists_begin?_four {v : Nat} (hlow : 0x10000 ≤ v) (hhigh : v < 0x110000) :
    ∃ next : UInt8 × UInt8,
      begin? (UInt8.ofNat (v / 262144 % 8 + 240)) = some ⟨v / 262144, next, [tail, tail]⟩ ∧
        next.1.toNat ≤ v / 4096 % 64 + 128 ∧ v / 4096 % 64 + 128 ≤ next.2.toNat := by
  rw [begin?_ofNat (by omega), if_neg (by omega), if_neg (by omega), if_neg (by omega),
    if_neg (by omega)]
  split
  · refine ⟨(0x90, 0xbf), by rw [show v / 262144 = 0 by omega], ?_⟩
    simp only [UInt8.toNat_ofNat]
    omega
  split
  · refine ⟨tail, by rw [show v / 262144 % 8 + 240 - 0xf0 = v / 262144 by omega], ?_⟩
    simp only [tail, UInt8.toNat_ofNat]
    omega
  · rw [if_pos (by omega)]
    refine ⟨(0x80, 0x8f), by rw [show v / 262144 = 4 by omega], ?_⟩
    simp only [UInt8.toNat_ofNat]
    omega

/-- The bytes of a character are shown as the character. -/
theorem showFrom_encode (c : Char) (bytes : List UInt8) :
    showFrom none (String.utf8EncodeChar c ++ bytes) = c :: showFrom none bytes := by
  have hvalid : c.val.toNat < 0xd800 ∨ 0xdfff < c.val.toNat ∧ c.val.toNat < 0x110000 := c.valid
  have hchar : Char.ofNat c.val.toNat = c := Char.ofNat_toNat c
  have htail (n : Nat) : tail.1.toNat ≤ n % 64 + 128 ∧ n % 64 + 128 ≤ tail.2.toNat := by
    simp only [tail, UInt8.toNat_ofNat]
    omega
  rw [String.utf8EncodeChar]
  generalize c.val.toNat = v at hvalid hchar
  subst hchar
  split
  · rename_i hascii
    have hsmall : UInt8.ofNat v < 0x80 := by
      rw [UInt8.lt_iff_toNat_lt, toNat_ofNat_of_lt (by omega)]
      exact Nat.lt_succ_of_le hascii
    simp [showFrom, step, first, hsmall, toNat_ofNat_of_lt (show v < 256 by omega)]
  split
  · have hbegin : begin? (UInt8.ofNat (v / 64 % 32 + 192)) = some ⟨v / 64, tail, []⟩ := by
      rw [begin?_ofNat (by omega), if_pos (by omega),
        show v / 64 % 32 + 192 - 0xc0 = v / 64 by omega]
    rw [List.cons_append, showFrom_first _ (by omega) (by omega) hbegin, List.cons_append,
      showFrom_last _ (by omega) (htail v), List.nil_append,
      show 64 * (v / 64) + (v % 64 + 128 - 0x80) = v by omega]
  split
  · obtain ⟨next, hbegin, hnext⟩ := exists_begin?_three (v := v) (by omega) (by omega) (by omega)
    rw [List.cons_append, showFrom_first _ (by omega) (by omega) hbegin, List.cons_append,
      showFrom_next _ (by omega) hnext, List.cons_append, showFrom_last _ (by omega) (htail v),
      List.nil_append,
      show 64 * (64 * (v / 4096) + (v / 64 % 64 + 128 - 0x80)) + (v % 64 + 128 - 0x80) = v by omega]
  · obtain ⟨next, hbegin, hnext⟩ := exists_begin?_four (v := v) (by omega) (by omega)
    rw [List.cons_append, showFrom_first _ (by omega) (by omega) hbegin, List.cons_append,
      showFrom_next _ (by omega) hnext, List.cons_append,
      showFrom_next _ (by omega) (htail (v / 64)),
      List.cons_append, showFrom_last _ (by omega) (htail v), List.nil_append,
      show 64 * (64 * (64 * (v / 262144) + (v / 4096 % 64 + 128 - 0x80)) +
        (v / 64 % 64 + 128 - 0x80)) + (v % 64 + 128 - 0x80) = v by omega]

/-- **The bytes of a text are shown as the text.** -/
theorem showFrom_encodeAll (text : List Char) :
    showFrom none (text.flatMap String.utf8EncodeChar) = text := by
  induction text with
  | nil => rfl
  | cons c text ih => rw [List.flatMap_cons, showFrom_encode, ih]

end Lossy

/-- The bytes that a text is read from are those of the text. -/
theorem toByteArray_of_fromUTF8? {bytes : ByteArray} {text : String}
    (h : String.fromUTF8? bytes = some text) : text.toByteArray = bytes := by
  rw [String.fromUTF8?] at h
  split at h
  · obtain rfl := Option.some.inj h
    rfl
  · cases h

/-- **What is shown of a path depends on its bytes alone.** -/
theorem SystemPath.shown_ofBytes (bytes : List UInt8) :
    (ofBytes bytes).shown = String.ofList (Lossy.showFrom none bytes) := by
  rw [ofBytes]
  split
  · rename_i path hpath
    have hbytes : bytes = path.toList.flatMap String.utf8EncodeChar := by
      rw [← toList_toByteArray, toByteArray_of_fromUTF8? hpath]
    rw [hbytes, Lossy.showFrom_encodeAll, String.ofList_toList]
    rfl
  · rfl

end RuleLint
