import Mathlib
import RuleLint.Proofs.FileTree.Paths
import RuleLint.Uri

/-!
# URIs of files

Editors write the URI of a file from its absolute path: the scheme of files, no host, and the names
of the path, in which some characters are left as they are and the UTF-8 bytes of all others are
escaped. Which characters are left differs from editor to editor; a `Uri.Writer` is one choice.

Reading such a URI gives back the names of the path, still escaped, but for dots that lead up
(`ofText?_uri`). An escape ends in a digit or one of the letters A to F, so no escape can look like
the end of a file name with the extension of a dialect, nor hide one: the extension of the URI is
that of the last name (`dialect_uri_iff`).
-/

namespace RuleLint

namespace Uri

/-- A choice of the characters that are left as they are in the URI of a file. Letters, digits and
dots are among them, and none that means something to the readers of URIs. -/
structure Writer where
  keeps : Char → Bool
  keeps_alphanum : ∀ c, c.isAlphanum = true → keeps c = true
  keeps_dot : keeps '.' = true
  plain : ∀ c, keeps c = true → isMargin c = false ∧ c ∉ ['%', '/', '?', '#', '\\']

theorem toNat_lt_of_isAlphanum {c : Char} (h : c.isAlphanum = true) : c.toNat < 128 := by
  have hval : c.toNat = c.val.toNat := rfl
  simp [Char.isAlphanum, Char.isAlpha, Char.isUpper, Char.isLower, Char.isDigit,
    UInt32.le_iff_toNat_le] at h
  omega

namespace Writer

/-- Only the characters that mean nothing anywhere in a URI are left. -/
def unreserved : Writer where
  keeps c := c.isAlphanum || ['-', '.', '_', '~'].contains c
  keeps_alphanum c hc := by simp [hc]
  keeps_dot := by decide
  plain := by
    have hmarks : ∀ c ∈ ['-', '.', '_', '~'],
        isMargin c = false ∧ c ∉ ['%', '/', '?', '#', '\\'] :=
      List.all_iff_forall_prop.1 (by decide)
    have hascii : ∀ n < 128, (Char.ofNat n).isAlphanum = true →
        isMargin (Char.ofNat n) = false ∧ Char.ofNat n ∉ ['%', '/', '?', '#', '\\'] := by
      decide +kernel
    intro c hc
    rw [Bool.or_eq_true, List.contains_iff_mem] at hc
    rcases hc with hc | hc
    · have h := hascii c.toNat (toNat_lt_of_isAlphanum hc)
      rw [Char.ofNat_toNat] at h
      exact h hc
    · exact hmarks c hc

variable (writer : Writer)

/-- A character as it is written. -/
def char (c : Char) : List Char :=
  if writer.keeps c then [c] else (String.utf8EncodeChar c).flatMap escape

/-- A name as it is written. -/
def name (name : List Char) : List Char :=
  name.flatMap writer.char

/-- The URI of the file at an absolute path. -/
def uri (path : Path) : String :=
  String.ofList ("file:///".toList ++ Path.joinParts (path.names.map writer.name))

end Writer

theorem concat_suffix_concat_iff {α : Type} {s t : List α} {x y : α} :
    s ++ [x] <:+ t ++ [y] ↔ x = y ∧ s <:+ t := by
  rw [← List.reverse_prefix, List.reverse_append, List.reverse_append, List.reverse_singleton,
    List.reverse_singleton, List.singleton_append, List.singleton_append, List.cons_prefix_cons,
    List.reverse_prefix]

/-! ### Escapes -/

/-- The digits of base sixteen, as escapes are written. -/
def hexDigits : List Char :=
  "0123456789ABCDEF".toList

theorem hexDigit_mem {n : Nat} (h : n < 16) : hexDigit n ∈ hexDigits := by
  decide +revert

/-- An escape is a percent sign and two digits. -/
theorem exists_escape_eq (byte : UInt8) :
    ∃ high ∈ hexDigits, ∃ low ∈ hexDigits, escape byte = ['%', high, low] :=
  ⟨_, hexDigit_mem (by have := byte.toNat_lt; omega), _, hexDigit_mem (Nat.mod_lt _ (by decide)),
    rfl⟩

/-- The escape of a byte that is no dot does not stand for a dot. -/
theorem isDot_escape {byte : UInt8} (h : byte ≠ 46) : isDot (escape byte) = false := by
  have hall : ∀ n < 256, n ≠ 46 →
      isDot ['%', hexDigit (n / 16), hexDigit (n % 16)] = false := by decide +kernel
  exact hall byte.toNat byte.toNat_lt fun hn ↦ h (UInt8.toNat_inj.1 hn)

/-- A part of a path starts with a dot or the escape of one. -/
def StartsDot (part : List Char) : Prop :=
  ∃ rest, part = '.' :: rest ∨ part = '%' :: '2' :: 'e' :: rest ∨ part = '%' :: '2' :: 'E' :: rest

theorem startsDot_of_isDot {part : List Char} (h : isDot part = true) : StartsDot part := by
  have hpart : part = ['.'] ∨ part = ['%', '2', 'e'] ∨ part = ['%', '2', 'E'] := by
    simpa [isDot, or_assoc] using h
  exact ⟨[], hpart⟩

theorem startsDot_of_isDotDot {part : List Char} (h : isDotDot part = true) : StartsDot part := by
  rw [isDotDot.eq_def] at h
  split at h
  · exact ⟨_, Or.inl rfl⟩
  · exact ⟨_, Or.inr (Or.inl rfl)⟩
  · exact ⟨_, Or.inr (Or.inr rfl)⟩
  · cases h

/-- The first byte of a character that is no dot is no dot. -/
theorem exists_utf8EncodeChar_eq {c : Char} (h : c ≠ '.') :
    ∃ byte more, String.utf8EncodeChar c = byte :: more ∧ byte ≠ 46 := by
  have hne : ∀ n : Nat, n % 256 ≠ 46 → UInt8.ofNat n ≠ 46 := by
    intro n hn heq
    exact hn (by simpa using congrArg UInt8.toNat heq)
  have hdot : c.val.toNat ≠ 46 := fun hval ↦ h (Char.toNat_inj.1 hval)
  simp only [String.utf8EncodeChar]
  split
  · exact ⟨_, _, rfl, hne _ (by omega)⟩
  split
  · exact ⟨_, _, rfl, hne _ (by omega)⟩
  split
  · exact ⟨_, _, rfl, hne _ (by omega)⟩
  · exact ⟨_, _, rfl, hne _ (by omega)⟩

namespace Writer

variable {writer : Writer} {c : Char} {n s : List Char}

/-- A character that is not left as it is is written as an escape, with more escapes after it; the
first does not stand for a dot, and the last character is a digit. -/
theorem char_of_not_keeps (hc : writer.keeps c = false) :
    ∃ high low more, writer.char c = '%' :: high :: low :: more ∧
      isDot ['%', high, low] = false ∧ ∃ init, ∃ last ∈ hexDigits,
        writer.char c = init ++ [last] := by
  have hdot : c ≠ '.' := by
    rintro rfl
    exact nomatch hc.symm.trans writer.keeps_dot
  obtain ⟨byte, more, hbytes, hbyte⟩ := exists_utf8EncodeChar_eq hdot
  have hchar : writer.char c = escape byte ++ more.flatMap escape := by
    rw [char, if_neg (by simp [hc]), hbytes, List.flatMap_cons]
  obtain ⟨high, -, low, -, hescape⟩ := exists_escape_eq byte
  refine ⟨high, low, more.flatMap escape, by rw [hchar, hescape]; rfl, ?_, ?_⟩
  · rw [← hescape]
    exact isDot_escape hbyte
  · -- the last escape is that of the last byte
    obtain ⟨init, last, hlast⟩ : ∃ init last, byte :: more = init ++ [last] :=
      ⟨_, _, (List.dropLast_concat_getLast (List.cons_ne_nil byte more)).symm⟩
    obtain ⟨high, -, low, hlow, hescape⟩ := exists_escape_eq last
    refine ⟨init.flatMap escape ++ ['%', high], low, hlow, ?_⟩
    rw [hchar, ← List.flatMap_cons, hlast, List.flatMap_append, List.flatMap_singleton, hescape]
    simp

/-- What is written means nothing to the readers of URIs but for percent signs. -/
theorem plain_of_mem_name {x : Char} (h : x ∈ writer.name n) :
    isMargin x = false ∧ x ∉ ['/', '?', '#', '\\'] := by
  obtain ⟨c, -, hx⟩ := List.mem_flatMap.1 h
  rw [char] at hx
  split at hx
  · rename_i hc
    obtain rfl := List.mem_singleton.1 hx
    obtain ⟨hmargin, hplain⟩ := writer.plain x hc
    exact ⟨hmargin, fun hmem ↦ hplain (List.mem_cons_of_mem _ hmem)⟩
  · have hdigits : ∀ x ∈ '%' :: hexDigits, isMargin x = false ∧ x ∉ ['/', '?', '#', '\\'] :=
      List.all_iff_forall_prop.1 (by decide)
    obtain ⟨byte, -, hx⟩ := List.mem_flatMap.1 hx
    obtain ⟨high, hhigh, low, hlow, hescape⟩ := exists_escape_eq byte
    rw [hescape] at hx
    refine hdigits x ?_
    simp only [List.mem_cons, List.not_mem_nil, or_false] at hx
    rcases hx with rfl | rfl | rfl
    · exact List.mem_cons_self
    · exact List.mem_cons_of_mem _ hhigh
    · exact List.mem_cons_of_mem _ hlow

theorem name_append (n m : List Char) :
    writer.name (n ++ m) = writer.name n ++ writer.name m :=
  List.flatMap_append

/-- Text without digits of escapes ends a name as it is written just if it ends the name. -/
theorem suffix_name_iff (hs : ∀ x ∈ s, writer.keeps x = true ∧ x ∉ hexDigits) :
    s <:+ writer.name n ↔ s <:+ n := by
  induction s using List.reverseRecOn generalizing n with
  | nil => simp
  | append_singleton s x ih =>
    obtain ⟨hs, hx, hdigit⟩ : (∀ x ∈ s, writer.keeps x = true ∧ x ∉ hexDigits) ∧
        writer.keeps x = true ∧ x ∉ hexDigits := by
      simpa only [List.forall_mem_append, List.forall_mem_singleton] using hs
    cases n using List.reverseRecOn with
    | nil => simp [name]
    | append_singleton n c =>
      rw [name_append]
      have hsingle : writer.name [c] = writer.char c := List.flatMap_singleton _ _
      rw [hsingle]
      cases hc : writer.keeps c with
      | true => rw [char, if_pos hc, concat_suffix_concat_iff, concat_suffix_concat_iff, ih hs]
      | false =>
        -- an escape ends in a digit, and the text does not
        obtain ⟨-, -, -, -, -, init, last, hlast, hchar⟩ := char_of_not_keeps hc
        rw [hchar, ← List.append_assoc, concat_suffix_concat_iff, concat_suffix_concat_iff]
        refine iff_of_false (fun h ↦ hdigit (h.1 ▸ hlast)) fun h ↦ ?_
        rw [h.1, hc] at hx
        cases hx

theorem name_cons_of_keeps (hc : writer.keeps c = true) (n : List Char) :
    writer.name (c :: n) = c :: writer.name n := by
  rw [name, List.flatMap_cons, char, if_pos hc]
  rfl

theorem name_eq_nil_iff : writer.name n = [] ↔ n = [] := by
  cases n with
  | nil => exact iff_of_true rfl rfl
  | cons c n =>
    refine iff_of_false (fun h ↦ ?_) (List.cons_ne_nil c n)
    obtain ⟨hchar, -⟩ := List.append_eq_nil_iff.1 h
    cases hc : writer.keeps c with
    | true => simp [char, hc] at hchar
    | false =>
      obtain ⟨high, low, more, hescape, -⟩ := char_of_not_keeps hc
      exact nomatch hescape.symm.trans hchar

/-- What is written for a name starts with a dot, or the escape of one, only if the name starts with
a dot. -/
theorem eq_dot_of_startsDot (h : StartsDot (writer.name (c :: n))) : c = '.' := by
  obtain ⟨rest, h⟩ := h
  cases hc : writer.keeps c with
  | true =>
    obtain ⟨-, hplain⟩ := writer.plain c hc
    have hpercent : c ≠ '%' := fun heq ↦ hplain (heq ▸ List.mem_cons_self)
    rw [name_cons_of_keeps hc] at h
    rcases h with h | h | h
    · exact (List.cons.inj h).1
    · exact absurd (List.cons.inj h).1 hpercent
    · exact absurd (List.cons.inj h).1 hpercent
  | false =>
    obtain ⟨high, low, more, hchar, hescape, -⟩ := char_of_not_keeps hc
    have hname : writer.name (c :: n) = '%' :: high :: low :: (more ++ writer.name n) := by
      rw [name, List.flatMap_cons, hchar]
      rfl
    rw [hname] at h
    rcases h with h | h | h
    · exact absurd (List.cons.inj h).1 (by decide)
    · simp only [List.cons.injEq, true_and] at h
      rw [h.1, h.2.1] at hescape
      exact absurd hescape (by decide)
    · simp only [List.cons.injEq, true_and] at h
      rw [h.1, h.2.1] at hescape
      exact absurd hescape (by decide)

/-- What is written for a name stands for a directory just if the name does. -/
theorem isDot_name : isDot (writer.name n) = true ↔ n = ['.'] := by
  cases n with
  | nil => exact iff_of_false nofun (by decide)
  | cons c n =>
    have hdot : isDot ('.' :: writer.name n) = true ↔ n = [] := by
      simp [isDot, name_eq_nil_iff]
    constructor
    · intro h
      obtain rfl := eq_dot_of_startsDot (startsDot_of_isDot h)
      rw [name_cons_of_keeps writer.keeps_dot, hdot] at h
      rw [h]
    · intro h
      obtain ⟨rfl, rfl⟩ := List.cons.inj h
      rw [name_cons_of_keeps writer.keeps_dot, hdot]

theorem isDotDot_name : isDotDot (writer.name n) = true ↔ n = ['.', '.'] := by
  cases n with
  | nil => exact iff_of_false nofun (by decide)
  | cons c n =>
    have hdot : isDotDot ('.' :: writer.name n) = true ↔ n = ['.'] := isDot_name
    constructor
    · intro h
      obtain rfl := eq_dot_of_startsDot (startsDot_of_isDotDot h)
      rw [name_cons_of_keeps writer.keeps_dot, hdot] at h
      rw [h]
    · intro h
      obtain ⟨rfl, rfl⟩ := List.cons.inj h
      rw [name_cons_of_keeps writer.keeps_dot, hdot]

end Writer

/-! ### Paths of URIs -/

/-- Text without slashes ends a path just if it ends its last part. -/
theorem suffix_joinParts_iff {parts : List (List Char)} {last s : List Char}
    (hlast : parts.getLast? = some last) (hs : '/' ∉ s) :
    s <:+ '/' :: Path.joinParts parts ↔ s <:+ last := by
  obtain ⟨before, hjoin⟩ : ∃ before, '/' :: Path.joinParts parts = before ++ '/' :: last := by
    induction parts with
    | nil => cases hlast
    | cons part parts ih =>
      cases parts with
      | nil =>
        obtain rfl := Option.some.inj hlast
        exact ⟨[], rfl⟩
      | cons next parts =>
        obtain ⟨before, hjoin⟩ := ih (by rwa [List.getLast?_cons_cons] at hlast)
        exact ⟨'/' :: part ++ before, by rw [Path.joinParts_cons_cons, hjoin]; simp⟩
  rw [hjoin]
  constructor
  · intro h
    rcases List.suffix_or_suffix_of_suffix h (List.suffix_append before _) with h | h
    · rcases List.suffix_cons_iff.1 h with rfl | h
      · exact absurd List.mem_cons_self hs
      · exact h
    · exact absurd (h.subset List.mem_cons_self) hs
  · intro h
    exact h.trans ((List.suffix_cons '/' last).trans (List.suffix_append before _))

/-- The last part of a path stays as it is when dots are resolved, unless it consists of dots. -/
theorem getLast?_resolveDots (done : List (List Char)) {parts : List (List Char)}
    (hne : parts ≠ []) :
    (resolveDots done parts).getLast? =
      parts.getLast?.map fun part ↦ if isDot part || isDotDot part then [] else part := by
  induction parts generalizing done with
  | nil => exact absurd rfl hne
  | cons part parts ih =>
    cases parts with
    | nil =>
      simp only [resolveDots, List.isEmpty_nil, if_true]
      cases hdot : isDot part with
      | true => simp [hdot]
      | false =>
        cases hup : isDotDot part with
        | true => simp [hdot, hup]
        | false => simp [hdot, hup]
    | cons next parts =>
      have hnext := fun done ↦ ih done (List.cons_ne_nil next parts)
      rw [resolveDots, List.getLast?_cons_cons]
      simp only [List.isEmpty_cons, Bool.false_eq_true, if_false, List.nil_append]
      split
      · exact hnext _
      split
      · exact hnext _
      · exact hnext _

/-- The dialect of a URI is told by the end of its path. -/
theorem extension?_bind_eq_some_iff {uri : Uri} {dialect : Dialect} :
    uri.extension?.bind Dialect.ofExtension? = some dialect ↔
      '.' :: dialect.id.toList <:+ uri.path := by
  have hid : '.' ∉ dialect.id.toList := by cases dialect <;> decide
  constructor
  · intro h
    obtain ⟨extension, hextension, hdialect⟩ := Option.bind_eq_some_iff.1 h
    rw [extension?] at hextension
    split at hextension
    · rename_i hdot
      obtain ⟨stem, last, hpath, hlast⟩ := Path.exists_append_dot (by simpa using hdot)
      rw [hpath, Path.takeWhile_reverse_append_dot hlast] at hextension
      have hdialect := Dialect.id_of_ofExtension? hdialect
      rw [← Option.some.inj hextension] at hdialect
      rw [hpath, hdialect, String.toList_ofList]
      exact List.suffix_append stem _
    · cases hextension
  · rintro ⟨stem, hpath⟩
    have hdot : uri.path.contains '.' = true := by simp [← hpath]
    rw [extension?, if_pos hdot, ← hpath, Path.takeWhile_reverse_append_dot hid,
      String.ofList_toList, Option.bind_some, Dialect.ofExtension?_id]

/-! ### Reading what was written -/

/-- Text without margins stays as it is. -/
theorem essence_eq {text : List Char} (h : ∀ x ∈ text, isMargin x = false) :
    essence text = text := by
  have hdrop : ∀ {text : List Char}, (∀ x ∈ text, isMargin x = false) →
      text.dropWhile isMargin = text := by
    intro text h
    cases text with
    | nil => rfl
    | cons x text => rw [List.dropWhile_cons, h x List.mem_cons_self, if_neg Bool.false_ne_true]
  have hbreaks : ∀ x ∈ text, (x != '\t' && x != '\n' && x != '\r') = true := by
    intro x hx
    have hmargin := h x hx
    have hne : ∀ y, isMargin y = true → x ≠ y := by
      rintro y hy rfl
      exact nomatch hy.symm.trans hmargin
    simp [hne '\t' (by decide), hne '\n' (by decide), hne '\r' (by decide)]
  rw [essence, hdrop h, hdrop fun x hx ↦ h x (List.mem_reverse.1 hx), List.reverse_reverse]
  exact List.filter_eq_self.2 hbreaks

/-- The URI of a file is read from what follows its scheme. -/
theorem ofText?_file {text : String} {rest : List Char}
    (htext : text.toList = "file:".toList ++ rest) (hmargin : ∀ x ∈ rest, isMargin x = false)
    (hbody : ∀ x ∈ rest, x ≠ '?' ∧ x ≠ '#') :
    ofText? text = (ofRest? .file false rest).map fun uri ↦
      { uri with path := normalPath uri.path } := by
  have hessence : essence text.toList = 'f' :: 'i' :: 'l' :: 'e' :: ':' :: rest := by
    rw [essence_eq fun x hx ↦ ?_, htext]
    · rfl
    · rw [htext, List.mem_append] at hx
      rcases hx with hx | hx
      · have hscheme : ∀ x ∈ "file:".toList, isMargin x = false :=
          List.all_iff_forall_prop.1 (by decide)
        exact hscheme x hx
      · exact hmargin x hx
  have hscheme : ('f' :: 'i' :: 'l' :: 'e' :: ':' :: rest).takeWhile (· != ':') =
      "file".toList := rfl
  have hrest : ('f' :: 'i' :: 'l' :: 'e' :: ':' :: rest).dropWhile (· != ':') =
      ':' :: rest := rfl
  have hwhole : rest.takeWhile (fun c ↦ c != '?' && c != '#') = rest :=
    List.takeWhile_eq_self_iff.2 fun x hx ↦ by simp [hbody x hx]
  have hkind : isScheme "file".toList = true ∧ Kind.ofScheme "file".toList = .file := by
    decide +kernel
  simp only [ofText?, hessence, hscheme, hrest, hwhole, hkind.1, hkind.2, Nat.lt_irrefl,
    decide_false, if_true]

variable (writer : Writer) (path : Path)

/-- The parts of the path of the URI of a file. The root has an empty part. -/
def Writer.parts : List (List Char) :=
  if path.names = [] then [[]] else path.names.map writer.name

theorem Writer.parts_joined :
    Path.parts (Path.joinParts (path.names.map writer.name)) = writer.parts path := by
  rw [Writer.parts]
  split
  · rename_i hroot
    rw [hroot]
    rfl
  · rename_i hne
    refine Path.parts_joinParts (by simpa using hne) fun part hpart hslash ↦ ?_
    obtain ⟨name, -, rfl⟩ := List.mem_map.1 hpart
    exact (Writer.plain_of_mem_name hslash).2 List.mem_cons_self

/-- The names on a path do not start with a slash. -/
theorem Writer.dropWhile_joined :
    (Path.joinParts (path.names.map writer.name)).dropWhile (· == '/') =
      Path.joinParts (path.names.map writer.name) := by
  cases hnames : path.names with
  | nil => rfl
  | cons name names =>
    have hname : name ≠ [] := by
      have hmem : name ∈ path.names := by rw [hnames]; exact List.mem_cons_self
      rintro rfl
      exact absurd (List.mem_filter.1 hmem).2 (by decide)
    obtain ⟨x, text, htext⟩ := List.exists_cons_of_ne_nil (mt Writer.name_eq_nil_iff.1 hname)
    have hslash : x ≠ '/' := by
      rintro rfl
      have hmem : '/' ∈ writer.name name := by rw [htext]; exact List.mem_cons_self
      exact (Writer.plain_of_mem_name hmem).2 List.mem_cons_self
    obtain ⟨more, hmore⟩ : ∃ more, Path.joinParts ((name :: names).map writer.name) =
        x :: more := by
      rw [List.map_cons, htext]
      cases names.map writer.name with
      | nil => exact ⟨text, rfl⟩
      | cons next parts => exact ⟨_, Path.joinParts_cons_cons _ next parts⟩
    rw [hmore, List.dropWhile_cons_of_neg (by simpa using hslash)]

theorem Writer.toList_uri : (writer.uri path).toList =
    "file:".toList ++ '/' :: '/' :: '/' :: Path.joinParts (path.names.map writer.name) := by
  have hscheme : "file:///".toList = "file:".toList ++ ['/', '/', '/'] := by decide
  have htext : (writer.uri path).toList =
      "file:///".toList ++ Path.joinParts (path.names.map writer.name) := String.toList_ofList
  rw [htext, hscheme, List.append_assoc]
  rfl

/-- **A written URI is read back.** It names no host, and its path consists of the written names. -/
theorem ofText?_uri :
    ofText? (writer.uri path) =
      some ⟨[], '/' :: Path.joinParts (resolveDots [] (writer.parts path))⟩ := by
  obtain ⟨joined, hjoined⟩ : ∃ joined, joined = Path.joinParts (path.names.map writer.name) :=
    ⟨_, rfl⟩
  have hplain : ∀ x ∈ joined, isMargin x = false ∧ x ∉ ['?', '#', '\\'] := by
    intro x hx
    rw [hjoined] at hx
    rcases Path.mem_joinParts hx with rfl | ⟨part, hpart, hx⟩
    · decide
    · obtain ⟨name, -, rfl⟩ := List.mem_map.1 hpart
      obtain ⟨hmargin, hplain⟩ := Writer.plain_of_mem_name hx
      exact ⟨hmargin, fun hmem ↦ hplain (List.mem_cons_of_mem _ hmem)⟩
  have htext : (writer.uri path).toList = "file:".toList ++ '/' :: '/' :: '/' :: joined := by
    rw [hjoined]
    exact writer.toList_uri path
  have hrest : ∀ x ∈ '/' :: '/' :: '/' :: joined, isMargin x = false ∧ x ∉ ['?', '#', '\\'] := by
    have hslash : isMargin '/' = false ∧ '/' ∉ ['?', '#', '\\'] := by decide
    simpa only [List.forall_mem_cons] using ⟨hslash, hslash, hslash, hplain⟩
  have hslashes : ('/' :: '/' :: '/' :: joined).map (fun c ↦ if c == '\\' then '/' else c) =
      '/' :: '/' :: '/' :: joined := by
    refine (List.map_congr_left fun x hx ↦ ?_).trans (List.map_id _)
    have hback : x ≠ '\\' := fun heq ↦ (hrest x hx).2 (by simp [heq])
    simp [hback]
  have habsolute : absolute ('/' :: joined) = '/' :: joined := by
    rw [absolute, List.dropWhile_cons_of_pos (by decide), hjoined]
    exact congrArg ('/' :: ·) (writer.dropWhile_joined path)
  have hfile : ofFile? ('/' :: '/' :: '/' :: joined) = some ⟨[], '/' :: joined⟩ := rfl
  rw [ofText?_file htext (fun x hx ↦ (hrest x hx).1) fun x hx ↦ ?_]
  · simp only [ofRest?, reduceCtorEq, if_false, hslashes, hfile, Option.map_some, habsolute,
      normalPath]
    rw [hjoined, writer.parts_joined path]
  · have hplain := (hrest x hx).2
    simp only [List.mem_cons, List.not_mem_nil, or_false, not_or] at hplain
    exact ⟨hplain.1, hplain.2.1⟩

/-- The dialect of the URI of a file is told by the end of the last name on the path. -/
theorem dialect_uri_iff {dialect : Dialect} :
    ((ofText? (writer.uri path)).bind fun uri ↦ uri.extension?.bind Dialect.ofExtension?) =
        some dialect ↔
      ∃ last, path.names.getLast? = some last ∧ last ≠ ['.', '.'] ∧
        '.' :: dialect.id.toList <:+ last := by
  have hslash : '/' ∉ '.' :: dialect.id.toList := by cases dialect <;> decide
  have hdigits : ∀ x ∈ '.' :: dialect.id.toList, writer.keeps x = true ∧ x ∉ hexDigits := by
    have hletters : ∀ x ∈ dialect.id.toList, x.isAlphanum = true ∧ x ∉ hexDigits :=
      List.all_iff_forall_prop.1 (by cases dialect <;> decide)
    refine List.forall_mem_cons.2 ⟨⟨writer.keeps_dot, by decide⟩, fun x hx ↦ ?_⟩
    exact ⟨writer.keeps_alphanum x (hletters x hx).1, (hletters x hx).2⟩
  have hparts : writer.parts path ≠ [] := by
    rw [Writer.parts]
    split
    · exact List.cons_ne_nil _ _
    · simpa
  rw [ofText?_uri, Option.bind_some, extension?_bind_eq_some_iff]
  cases hnames : path.names.getLast? with
  | none =>
    -- the root has no name, and its URI nothing after the slash
    have hroot : writer.parts path = [[]] := by
      rw [Writer.parts, if_pos (List.getLast?_eq_none_iff.1 hnames)]
    have hresolved := getLast?_resolveDots [] hparts
    rw [hroot] at hresolved ⊢
    rw [suffix_joinParts_iff hresolved hslash]
    exact iff_of_false (fun h ↦ nomatch List.suffix_nil.1 h) fun ⟨_, h, _⟩ ↦ nomatch h
  | some last =>
    have hmem : last ∈ path.names := List.mem_of_getLast? hnames
    have hname : (writer.parts path).getLast? = some (writer.name last) := by
      rw [Writer.parts, if_neg (List.ne_nil_of_mem hmem), List.getLast?_map, hnames,
        Option.map_some]
    have hdot : isDot (writer.name last) = false := by
      refine eq_false_of_ne_true fun h ↦ ?_
      rw [Writer.isDot_name] at h
      rw [h] at hmem
      exact absurd (List.mem_filter.1 hmem).2 (by decide)
    have hresolved := getLast?_resolveDots [] hparts
    rw [hname, Option.map_some, hdot, Bool.false_or] at hresolved
    rw [suffix_joinParts_iff hresolved hslash]
    by_cases hup : last = ['.', '.']
    · rw [if_pos (Writer.isDotDot_name.2 hup)]
      refine iff_of_false (fun h ↦ nomatch List.suffix_nil.1 h) ?_
      rintro ⟨_, heq, hne, -⟩
      exact hne ((Option.some.inj heq) ▸ hup)
    · rw [if_neg (mt Writer.isDotDot_name.1 hup), Writer.suffix_name_iff hdigits]
      constructor
      · intro h
        exact ⟨last, rfl, hup, h⟩
      · rintro ⟨_, heq, -, h⟩
        exact Option.some.inj heq ▸ h

end Uri

end RuleLint
