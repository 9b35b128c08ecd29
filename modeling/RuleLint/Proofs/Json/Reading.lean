import RuleLint.Json
import RuleLint.Proofs.Text.Digits
import RuleLint.Text.Lines
import RuleLint.Text.Number

/-!
# Reading JSON

A reader of JSON values (`Json.ofText?`), and that it reads back what `Json.pretty` writes
(`Json.ofText?_pretty`), if all numbers in the value are whole. Numbers with decimal places are not
read.

A reader takes a value from the start of a text and leaves the rest. Items and members are read by
one loop (`Json.readSeries?`), and what is between brackets is shorter than the whole, so the length
of the text is enough fuel. What a reader leaves is not what ends the value, with one exception: the
last digit of a number is known by what comes after it, so nothing that follows a value may be a
digit (`NoDigitAhead`).
-/

namespace RuleLint.Json

/-! ### Strings -/

/-- The character that is written by a backslash and a letter or sign. -/
def unescape? : Char → Option Char
  | '"' => some '"'
  | '\\' => some '\\'
  | '/' => some '/'
  | 'n' => some '\n'
  | 'r' => some '\r'
  | 't' => some '\t'
  | 'b' => some '\x08'
  | 'f' => some '\x0c'
  | _ => none

/-- The character whose number is written by hexadecimal digits. -/
def readNumbered? (digits : List Char) : Option Char := do
  let n ← digits.foldlM (fun n c ↦ (digitValue? 16 c).map (16 * n + ·)) 0
  if n.isValidChar then some (Char.ofNat n) else none

/-- A value that is read, together with one that was read before it. -/
def prepend {α : Type} (x : α) (read : Option (List α × List Char)) :
    Option (List α × List Char) :=
  read.map (Prod.map (x :: ·) id)

/-- The characters of a string up to the quote that closes it. -/
def readString? : List Char → Option (List Char × List Char)
  | [] => none
  | '"' :: rest => some ([], rest)
  | '\\' :: 'u' :: a :: b :: c :: d :: rest =>
    (readNumbered? [a, b, c, d]).bind fun x ↦ prepend x (readString? rest)
  | '\\' :: c :: rest => (unescape? c).bind fun x ↦ prepend x (readString? rest)
  | c :: rest => if c = '\\' ∨ c.toNat < 0x20 then none else prepend c (readString? rest)

theorem readNumbered?_hexDigit {n : Nat} (h : n < 0x20) :
    readNumbered? ['0', '0', hexDigit (n / 16), hexDigit (n % 16)] = some (Char.ofNat n) := by
  have hall : ∀ n < 0x20, readNumbered? ['0', '0', hexDigit (n / 16), hexDigit (n % 16)] =
      some (Char.ofNat n) := by decide
  exact hall n h

theorem readString?_escape (c : Char) (rest : List Char) :
    readString? (escape c ++ rest) = prepend c (readString? rest) := by
  fun_cases escape c with
  | case8 _ hcontrol =>
    have hnumbered := readNumbered?_hexDigit hcontrol
    rw [Char.ofNat_toNat] at hnumbered
    simp only [if_pos hcontrol, List.cons_append, List.nil_append, readString?, hnumbered,
      Option.bind_some]
  | case9 _ hcontrol hquote hbackslash =>
    have hplain : ¬(c = '\\' ∨ c.toNat < 0x20) := not_or.2 ⟨hbackslash, hcontrol⟩
    rw [if_neg hcontrol, List.singleton_append, readString?, if_neg hplain]
    · exact hquote
    · exact fun _ _ _ _ _ h _ ↦ hbackslash h
    · exact fun _ _ h _ ↦ hbackslash h
  | _ => rfl

theorem readString?_flatMap_escape (text rest : List Char) :
    readString? (text.flatMap escape ++ '"' :: rest) = some (text, rest) := by
  induction text with
  | nil => rfl
  | cons c text ih =>
    rw [List.flatMap_cons, List.append_assoc, readString?_escape, ih]
    rfl

/-! ### Signs and numbers -/

/-- Whether a character may stand between the parts of a value. -/
def isSpace (c : Char) : Bool :=
  c = ' ' || c = '\n' || c = '\r' || c = '\t'

/-- What follows a sign and the space before it. -/
def readSign? (sign : Char) (text : List Char) : Option (List Char) :=
  dropWord? [sign] (text.dropWhile isSpace)

/-- A natural number. -/
def readNatural? (text : List Char) : Option (Nat × List Char) :=
  (String.ofList (text.takeWhile Char.isDigit)).toNat?.map (·, text.dropWhile Char.isDigit)

/-- A whole number. -/
def readWhole? : List Char → Option (Int × List Char)
  | '-' :: rest => (readNatural? rest).map (Prod.map Int.negOfNat id)
  | text => (readNatural? text).map (Prod.map Int.ofNat id)

theorem isDigit_of_isSpace {c : Char} (h : isSpace c = true) : c.isDigit = false := by
  simp only [isSpace, Bool.or_eq_true, decide_eq_true_eq] at h
  rcases h with ((rfl | rfl) | rfl) | rfl <;> rfl

theorem dropWhile_isSpace {c : Char} {space : List Char} (hspace : ∀ x ∈ space, isSpace x = true)
    (hc : isSpace c = false) (rest : List Char) :
    (space ++ c :: rest).dropWhile isSpace = c :: rest := by
  rw [List.dropWhile_append_of_pos hspace, List.dropWhile_cons_of_neg (by rw [hc]; nofun)]

theorem readSign?_append {c sign : Char} {space : List Char}
    (hspace : ∀ x ∈ space, isSpace x = true) (hc : isSpace c = false) (rest : List Char) :
    readSign? sign (space ++ c :: rest) = if sign = c then some rest else none := by
  rw [readSign?, dropWhile_isSpace hspace hc]
  rfl

theorem readNatural?_toString {rest : List Char} (h : NoDigitAhead rest) (n : Nat) :
    readNatural? ((toString n).toList ++ rest) = some (n, rest) := by
  rw [readNatural?, takeWhile_isDigit_toString h, dropWhile_isDigit_toString h,
    toNat?_ofList_toString]
  rfl

/-- A whole number begins with a sign or a digit. -/
theorem exists_toString_int_eq_cons (n : Int) :
    ∃ x digits, (toString n).toList = x :: digits ∧ (x = '-' ∨ x.isDigit = true) := by
  cases n with
  | ofNat n =>
    obtain ⟨x, digits, hdigits, hx⟩ := exists_toString_eq_cons n
    exact ⟨x, digits, hdigits, .inr hx⟩
  | negSucc n =>
    have hsign : toString (Int.negSucc n) = "-" ++ toString (n + 1) := rfl
    exact ⟨'-', _, by rw [hsign, String.toList_append]; rfl, .inl rfl⟩

theorem readWhole?_toString {rest : List Char} (h : NoDigitAhead rest) (n : Int) :
    readWhole? ((toString n).toList ++ rest) = some (n, rest) := by
  cases n with
  | ofNat n =>
    have hplain : toString (Int.ofNat n) = toString n := rfl
    obtain ⟨x, digits, hdigits, hx⟩ := exists_toString_eq_cons n
    rw [hplain, hdigits, List.cons_append, readWhole?, ← List.cons_append, ← hdigits,
      readNatural?_toString h]
    · rfl
    · rintro _ hminus
      obtain ⟨rfl, -⟩ := List.cons.inj hminus
      cases hx
  | negSucc n =>
    have hsign : (toString (Int.negSucc n)).toList = '-' :: (toString (n + 1)).toList := by
      have hsign : toString (Int.negSucc n) = "-" ++ toString (n + 1) := rfl
      rw [hsign, String.toList_append]
      rfl
    rw [hsign, List.cons_append, readWhole?, readNatural?_toString h]
    rfl

/-! ### Series -/

section Series

variable {α : Type}

/-- One item or more with commas between them, up to a sign. -/
def readSeries? (read : List Char → Option (α × List Char)) (stop : Char) :
    Nat → List Char → Option (List α × List Char)
  | 0, _ => none
  | fuel + 1, text =>
    (read text).bind fun found ↦ prepend found.1 <|
      (readSign? ',' found.2).elim ((readSign? stop found.2).map ([], ·))
        (readSeries? read stop fuel)

/-- Any number of items with commas between them, up to a sign. -/
def readItems? (read : List Char → Option (α × List Char)) (stop : Char) (fuel : Nat)
    (text : List Char) : Option (List α × List Char) :=
  (readSeries? read stop fuel text).or ((readSign? stop text).map ([], ·))

/-- Whether a reader takes a text for a value, with any space before it and anything but digits
after it. -/
def Takes (read : List Char → Option (α × List Char)) (text : List Char) (value : α) : Prop :=
  ∀ ⦃space rest : List Char⦄, (∀ x ∈ space, isSpace x = true) → NoDigitAhead rest →
    read (space ++ (text ++ rest)) = some (value, rest)

/-- Texts with a comma and some space before each of them. -/
def following (space : List Char) (texts : List (List Char)) : List Char :=
  texts.flatMap fun text ↦ ',' :: (space ++ text)

@[simp]
theorem following_nil (space : List Char) : following space [] = [] := rfl

@[simp]
theorem following_cons (space text : List Char) (texts : List (List Char)) :
    following space (text :: texts) = ',' :: (space ++ (text ++ following space texts)) := by
  rw [following, List.flatMap_cons, ← following, List.cons_append, List.append_assoc]

theorem intercalate_cons_eq (space text : List Char) (texts : List (List Char)) :
    List.intercalate (',' :: space) (text :: texts) = text ++ following space texts := by
  induction texts generalizing text with
  | nil => rw [List.intercalate_singleton, following_nil, List.append_nil]
  | cons next texts ih =>
    rw [List.intercalate_cons_cons, ih, following_cons, List.append_assoc, List.cons_append]

theorem length_lt_following (space : List Char) {text : List Char} {texts : List (List Char)}
    (h : text ∈ texts) : text.length < (following space texts).length := by
  obtain ⟨before, after, rfl⟩ := List.append_of_mem h
  simp only [following, List.flatMap_append, List.flatMap_cons, List.length_append,
    List.length_cons]
  omega

theorem length_le_following (space : List Char) (texts : List (List Char)) :
    texts.length ≤ (following space texts).length := by
  induction texts with
  | nil => exact Nat.zero_le _
  | cons text texts ih =>
    simp only [following_cons, List.length_cons, List.length_append]
    omega

variable {read : List Char → Option (α × List Char)} {write : α → List Char} {stop : Char}
  {space space' : List Char}

/-- The induction is on the items that follow the first one. -/
theorem readSeries?_following (hspace : ∀ x ∈ space, isSpace x = true)
    (hspace' : ∀ x ∈ space', isSpace x = true) (hstop : stop = ']' ∨ stop = '\x7d')
    {item : α} {items : List α} {fuel : Nat} (hfuel : items.length < fuel)
    (htakes : ∀ x ∈ item :: items, Takes read (write x) x) (rest : List Char) :
    readSeries? read stop fuel (space ++ (write item ++
      (following space (items.map write) ++ (space' ++ stop :: rest)))) =
        some (item :: items, rest) := by
  have hsign : isSpace stop = false ∧ stop.isDigit = false ∧ ',' ≠ stop := by
    rcases hstop with rfl | rfl <;> decide
  obtain ⟨hstopSpace, hstopDigit, hcomma⟩ := hsign
  induction items generalizing item fuel with
  | nil =>
    obtain ⟨fuel, rfl⟩ := Nat.exists_eq_succ_of_ne_zero (Nat.ne_zero_of_lt hfuel)
    have hahead : NoDigitAhead (space' ++ stop :: rest) := by
      cases space' with
      | nil => exact noDigitAhead_cons hstopDigit rest
      | cons x space' =>
        exact noDigitAhead_cons (isDigit_of_isSpace (hspace' x List.mem_cons_self)) _
    rw [List.map_nil, following_nil, List.nil_append, readSeries?,
      htakes item List.mem_cons_self hspace hahead, Option.bind_some,
      readSign?_append hspace' hstopSpace, if_neg hcomma, readSign?_append hspace' hstopSpace,
      if_pos rfl]
    rfl
  | cons next items ih =>
    obtain ⟨fuel, rfl⟩ := Nat.exists_eq_succ_of_ne_zero (Nat.ne_zero_of_lt hfuel)
    obtain ⟨htakesItem, htakesItems⟩ := List.forall_mem_cons.1 htakes
    rw [List.map_cons, following_cons, readSeries?, List.cons_append,
      htakesItem hspace (noDigitAhead_cons rfl _), Option.bind_some,
      ← List.nil_append (',' :: _), readSign?_append (List.forall_mem_nil _) rfl, if_pos rfl,
      Option.elim_some, List.append_assoc, List.append_assoc,
      ih (Nat.lt_of_succ_lt_succ hfuel) htakesItems]
    rfl

/-! ### Brackets -/

theorem isSpace_lineBreak (depth : Nat) : ∀ x ∈ (lineBreak depth).toList, isSpace x = true := by
  intro x hx
  have hbreak : (lineBreak depth).toList = '\n' :: List.replicate (2 * depth) ' ' := by
    simp only [lineBreak, String.toList_append, String.toList_ofList]
    rfl
  rw [hbreak, List.mem_cons, List.mem_replicate] at hx
  rcases hx with rfl | ⟨-, rfl⟩ <;> rfl

/-- What is written in a bracket and behind the sign that opens it. -/
def bracketBody (stop : Char) (depth : Nat) : List (List Char) → List Char
  | [] => [stop]
  | text :: texts =>
    (lineBreak (depth + 1)).toList ++ (text ++ (following (lineBreak (depth + 1)).toList texts ++
      ((lineBreak depth).toList ++ [stop])))

theorem toList_bracket (start stop : Char) (depth : Nat) (texts : List String) :
    (bracket (.singleton start) (.singleton stop) depth texts).toList =
      start :: bracketBody stop depth (texts.map String.toList) := by
  cases texts with
  | nil => simp [bracket, bracketBody]
  | cons text texts =>
    have hcomma : ("," ++ lineBreak (depth + 1)).toList =
        ',' :: (lineBreak (depth + 1)).toList := by
      rw [String.toList_append]
      rfl
    simp only [bracket, String.toList_append, String.toList_intercalate, hcomma, List.map_cons,
      intercalate_cons_eq, bracketBody, String.toList_singleton, List.append_assoc,
      List.cons_append, List.nil_append]

theorem length_lt_bracketBody {stop : Char} {depth : Nat} {text : List Char}
    {texts : List (List Char)} (h : text ∈ texts) :
    text.length < (bracketBody stop depth texts).length := by
  cases texts with
  | nil => cases h
  | cons first texts =>
    simp only [bracketBody, List.length_append, List.length_singleton]
    rcases List.mem_cons.1 h with rfl | h
    · omega
    · have hlt := length_lt_following (lineBreak (depth + 1)).toList h
      omega

theorem length_le_bracketBody (stop : Char) (depth : Nat) (texts : List (List Char)) :
    texts.length ≤ (bracketBody stop depth texts).length := by
  cases texts with
  | nil => exact Nat.zero_le _
  | cons text texts =>
    have hle := length_le_following (lineBreak (depth + 1)).toList texts
    simp only [bracketBody, List.length_append, List.length_cons]
    omega

/-- What a bracket holds is read back. -/
theorem readItems?_bracketBody (hstop : stop = ']' ∨ stop = '\x7d')
    (hnone : ∀ rest, read (stop :: rest) = none) {depth fuel : Nat} {items : List α}
    (hfuel : (bracketBody stop depth (items.map write)).length ≤ fuel)
    (htakes : ∀ x ∈ items, (write x).length ≤ fuel → Takes read (write x) x) (rest : List Char) :
    readItems? read stop fuel (bracketBody stop depth (items.map write) ++ rest) =
      some (items, rest) := by
  have htakes : ∀ x ∈ items, Takes read (write x) x := fun x hx ↦
    htakes x hx ((length_lt_bracketBody (List.mem_map_of_mem hx)).le.trans hfuel)
  have hfuel : items.length ≤ fuel := by
    have hle := length_le_bracketBody stop depth (items.map write)
    rw [List.length_map] at hle
    exact hle.trans hfuel
  cases items with
  | nil =>
    have hseries : readSeries? read stop fuel (stop :: rest) = none := by
      cases fuel with
      | zero => rfl
      | succ fuel => rw [readSeries?, hnone, Option.bind_none]
    have hsign : readSign? stop (stop :: rest) = some rest := by
      rcases hstop with rfl | rfl <;> rfl
    rw [List.map_nil, bracketBody, List.singleton_append, readItems?, hseries, hsign]
    rfl
  | cons item items =>
    have hseries := readSeries?_following (isSpace_lineBreak (depth + 1)) (isSpace_lineBreak depth)
      hstop hfuel htakes rest
    simp only [List.map_cons, bracketBody, List.append_assoc, List.singleton_append]
    rw [readItems?, hseries]
    rfl

end Series

/-! ### Values -/

/-- A member of an object. -/
def readMember? (read : List Char → Option (Json × List Char)) (text : List Char) :
    Option ((String × Json) × List Char) := do
  let rest ← readSign? '"' text
  let (name, rest) ← readString? rest
  let rest ← readSign? ':' rest
  let (value, rest) ← read rest
  return ((String.ofList name, value), rest)

/-- A value, with brackets no deeper than the fuel. -/
def readValue? : Nat → List Char → Option (Json × List Char)
  | 0, _ => none
  | fuel + 1, text =>
    match text.dropWhile isSpace with
    | '"' :: rest => (readString? rest).map (Prod.map (.string ∘ String.ofList) id)
    | '[' :: rest => (readItems? (readValue? fuel) ']' fuel rest).map (Prod.map .array id)
    | '\x7b' :: rest =>
      (readItems? (readMember? (readValue? fuel)) '\x7d' fuel rest).map (Prod.map .object id)
    | 'n' :: rest => (dropWord? ['u', 'l', 'l'] rest).map (.null, ·)
    | 't' :: rest => (dropWord? ['r', 'u', 'e'] rest).map (.bool true, ·)
    | 'f' :: rest => (dropWord? ['a', 'l', 's', 'e'] rest).map (.bool false, ·)
    | rest => (readWhole? rest).map (Prod.map .whole id)

/-- The value that a text stands for. -/
def ofText? (text : String) : Option Json :=
  (readValue? text.toList.length text.toList).bind fun (value, rest) ↦
    if rest.all isSpace then some value else none

/-! ### Round trip -/

/-- Values in which all numbers are whole. -/
inductive IsWhole : Json → Prop
  | null : IsWhole .null
  | bool (value : Bool) : IsWhole (.bool value)
  | whole (value : Int) : IsWhole (.whole value)
  | string (value : String) : IsWhole (.string value)
  | array {items : List Json} (hitems : ∀ item ∈ items, IsWhole item) : IsWhole (.array items)
  | object {members : List (String × Json)} (hmembers : ∀ member ∈ members, IsWhole member.2) :
    IsWhole (.object members)

theorem prettyItems_eq_map (depth : Nat) (items : List Json) :
    prettyItems depth items = items.map (prettyAt depth) := by
  induction items with
  | nil => rfl
  | cons item items ih => rw [prettyItems, ih, List.map_cons]

/-- The text of a member. -/
def prettyMember (depth : Nat) (member : String × Json) : String :=
  quote member.1 ++ ": " ++ prettyAt depth member.2

theorem prettyMembers_eq_map (depth : Nat) (members : List (String × Json)) :
    prettyMembers depth members = members.map (prettyMember depth) := by
  induction members with
  | nil => rfl
  | cons member members ih => rw [prettyMembers, ih, List.map_cons, prettyMember]

theorem toList_quote (text : String) :
    (quote text).toList = '"' :: (text.toList.flatMap escape ++ ['"']) := by
  simp only [quote, String.toList_append, String.toList_ofList]
  rfl

theorem takes_member {read : List Char → Option (Json × List Char)} {depth : Nat}
    {member : String × Json} (h : Takes read (prettyAt depth member.2).toList member.2) :
    Takes (readMember? read) (prettyMember depth member).toList member := by
  intro space rest hspace hrest
  have hcolon : ": ".toList = [':', ' '] := by decide
  have hblank : ∀ x ∈ [' '], isSpace x = true := List.forall_mem_singleton.2 rfl
  have htext : (prettyMember depth member).toList ++ rest =
      '"' :: (member.1.toList.flatMap escape ++ '"' :: ([] ++ ':' ::
        ([' '] ++ ((prettyAt depth member.2).toList ++ rest)))) := by
    simp only [prettyMember, String.toList_append, toList_quote, hcolon, List.append_assoc,
      List.cons_append, List.nil_append]
  rw [htext, readMember?, readSign?_append hspace rfl, if_pos rfl]
  simp only [Option.bind_eq_bind, Option.bind_some, readString?_flatMap_escape,
    readSign?_append (List.forall_mem_nil _) (rfl : isSpace ':' = false), if_true,
    h hblank hrest, String.ofList_toList]
  rfl

/-- What a value begins with decides how it is read. -/
theorem takes_cons {value : Json} {fuel : Nat} {c : Char} {text written : List Char}
    (htext : text = c :: written) (hfuel : text.length ≤ fuel) (hc : isSpace c = false)
    (hread : ∀ fuel rest, written.length ≤ fuel → NoDigitAhead rest →
      readValue? (fuel + 1) (c :: (written ++ rest)) = some (value, rest)) :
    Takes (readValue? fuel) text value := by
  subst htext
  cases fuel with
  | zero => cases hfuel
  | succ fuel =>
    intro space rest hspace hrest
    have hskip (rest : List Char) : (c :: rest).dropWhile isSpace = c :: rest :=
      dropWhile_isSpace (List.forall_mem_nil _) hc rest
    have hvalue := hread fuel rest (Nat.le_of_succ_le_succ hfuel) hrest
    rw [readValue?, hskip] at hvalue
    rw [List.cons_append, readValue?, dropWhile_isSpace hspace hc, hvalue]

theorem isSpace_eq_false_of_number {c : Char} (hc : c = '-' ∨ c.isDigit = true) :
    isSpace c = false := by
  by_contra hspace
  have hdigit := isDigit_of_isSpace (Bool.of_not_eq_false hspace)
  rcases hc with rfl | hc
  · exact hspace rfl
  · rw [hdigit] at hc
    cases hc

theorem readValue?_number {c : Char} (hc : c = '-' ∨ c.isDigit = true) (fuel : Nat)
    (text : List Char) :
    readValue? (fuel + 1) (c :: text) = (readWhole? (c :: text)).map (Prod.map .whole id) := by
  have hskip : (c :: text).dropWhile isSpace = c :: text :=
    dropWhile_isSpace (List.forall_mem_nil _) (isSpace_eq_false_of_number hc) text
  rw [readValue?, hskip]
  split
  case h_7 => rfl
  -- the other values begin with a letter, a quote or a bracket
  all_goals
    rename_i htext
    obtain ⟨rfl, -⟩ := List.cons.inj htext
    exact absurd hc (by decide)

/-- No value begins with the sign that closes an array. -/
theorem readValue?_closed (fuel : Nat) (text : List Char) :
    readValue? fuel (']' :: text) = none := by
  cases fuel with
  | zero => rfl
  | succ fuel =>
    have hempty : (String.ofList []).toNat? = none := by
      rw [String.toNat?_eq_none_iff, Bool.eq_false_iff, Ne, String.isNat_iff]
      simp
    have hnatural : readNatural? (']' :: text) = none :=
      congrArg (Option.map (·, ']' :: text)) hempty
    exact congrArg (Option.map (Prod.map Json.whole id) ∘
      Option.map (Prod.map Int.ofNat id)) hnatural

/-- The induction is on the value; the length of its text is enough fuel. -/
theorem takes_prettyAt {value : Json} (h : IsWhole value) {depth fuel : Nat}
    (hfuel : (prettyAt depth value).toList.length ≤ fuel) :
    Takes (readValue? fuel) (prettyAt depth value).toList value := by
  induction h generalizing depth fuel with
  | null =>
    have htext : (prettyAt depth .null).toList = 'n' :: ['u', 'l', 'l'] := by
      rw [prettyAt]
      rfl
    exact takes_cons htext hfuel rfl fun _ _ _ _ ↦ rfl
  | bool value =>
    cases value with
    | false =>
      have htext : (prettyAt depth (.bool false)).toList = 'f' :: ['a', 'l', 's', 'e'] := by
        rw [prettyAt]
        rfl
      exact takes_cons htext hfuel rfl fun _ _ _ _ ↦ rfl
    | true =>
      have htext : (prettyAt depth (.bool true)).toList = 't' :: ['r', 'u', 'e'] := by
        rw [prettyAt]
        rfl
      exact takes_cons htext hfuel rfl fun _ _ _ _ ↦ rfl
  | whole value =>
    obtain ⟨c, digits, hdigits, hc⟩ := exists_toString_int_eq_cons value
    -- A number has no end of its own, so it matters that no digit comes after it.
    refine takes_cons hdigits hfuel (isSpace_eq_false_of_number hc) fun fuel rest _ hrest ↦ ?_
    rw [readValue?_number hc, ← List.cons_append, ← hdigits, readWhole?_toString hrest]
    rfl
  | string value =>
    refine takes_cons (toList_quote value) hfuel rfl fun fuel rest _ _ ↦ ?_
    have hstring := readString?_flatMap_escape value.toList rest
    rw [List.append_assoc, List.singleton_append]
    refine (congrArg (Option.map (Prod.map (Json.string ∘ String.ofList) id)) hstring).trans ?_
    rw [Option.map_some, Prod.map_apply, Function.comp_apply, String.ofList_toList]
    rfl
  | @array items _ ih =>
    have htext : (prettyAt depth (.array items)).toList =
        '[' :: bracketBody ']' depth (items.map (String.toList ∘ prettyAt (depth + 1))) := by
      rw [prettyAt, prettyItems_eq_map, ← List.map_map]
      exact toList_bracket '[' ']' depth _
    refine takes_cons htext hfuel rfl fun fuel rest hbody _ ↦ ?_
    exact congrArg (Option.map (Prod.map Json.array id)) <|
      readItems?_bracketBody (.inl rfl) (readValue?_closed fuel) hbody
        (fun item hitem ↦ ih item hitem) rest
  | @object members _ ih =>
    have htext : (prettyAt depth (.object members)).toList = '\x7b' ::
        bracketBody '\x7d' depth (members.map (String.toList ∘ prettyMember (depth + 1))) := by
      rw [prettyAt, prettyMembers_eq_map, ← List.map_map]
      exact toList_bracket '\x7b' '\x7d' depth _
    refine takes_cons htext hfuel rfl fun fuel rest hbody _ ↦ ?_
    have hmembers : ∀ member ∈ members, (prettyMember (depth + 1) member).toList.length ≤ fuel →
        Takes (readMember? (readValue? fuel)) (prettyMember (depth + 1) member).toList member := by
      intro member hmember hlength
      refine takes_member (ih member hmember (le_trans ?_ hlength))
      rw [prettyMember, String.toList_append, List.length_append]
      exact Nat.le_add_left _ _
    exact congrArg (Option.map (Prod.map Json.object id)) <|
      readItems?_bracketBody (.inr rfl) (fun _ ↦ rfl) hbody hmembers rest

/-- **What is written is read back**, with any space behind it. -/
theorem ofText?_pretty {value : Json} (h : IsWhole value) {space : String}
    (hspace : space.toList.all isSpace = true) :
    ofText? (pretty value ++ space) = some value := by
  have hahead : NoDigitAhead space.toList := fun x hx ↦
    isDigit_of_isSpace (List.all_eq_true.1 hspace x (List.mem_of_mem_head? hx))
  have hfuel : (prettyAt 0 value).toList.length ≤ (pretty value ++ space).toList.length := by
    rw [String.toList_append, List.length_append]
    exact Nat.le_add_right _ _
  have hread := takes_prettyAt h hfuel (List.forall_mem_nil _) hahead
  have htext : [] ++ ((prettyAt 0 value).toList ++ space.toList) =
      (pretty value ++ space).toList := by
    rw [List.nil_append, String.toList_append, pretty]
  rw [htext] at hread
  rw [ofText?, hread, Option.bind_some]
  exact if_pos hspace

end RuleLint.Json
