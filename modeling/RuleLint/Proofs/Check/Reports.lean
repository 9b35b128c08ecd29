import RuleLint.Proofs.Check.Arguments
import RuleLint.Proofs.Check.Keys

/-!
# Reported calls

Which calls of a document are reported for their keys (`reportedCalls`), apart from the places at
which the findings are: there is one finding for each, in order (`findings_of_reportedCalls`).

A call is reported for what its key is without blanks and sigils, and that can be read off the
characters behind the call: a comma, something other than a delimiter, and then whatever comes
before the first delimiter outside brackets and literals (`callKey_eq`). What a scan takes up on its
way (`scannedKey`) is put together part by part (`scannedKey_append`).
-/

namespace RuleLint

open Cursor Construct

namespace Check

/-- The key of a call without blanks and sigils. -/
def callKey (call : Found Piece) : Option (List Char) :=
  (keyArgument call).map fun argument ↦ normalKey argument.content

/-- Whether a call is reported in a document that declares a key. -/
def isReported (declared : Option (List Char)) (call : Found Piece) : Bool :=
  declared.any fun key ↦ key != inheritedKey &&
    (callKey call).any fun key' ↦ !(key' == forwardedKey || key' == key)

/-- The calls of a text that are reported for their keys. -/
def reportedCalls (text : List Char) : List (Found Piece) :=
  (findAll whitelistCall text).filter (isReported (declaredKey text))

theorem isReported_eq_true_iff {declared : Option (List Char)} {call : Found Piece} :
    isReported declared call = true ↔ ∃ key, declared = some key ∧ key ≠ inheritedKey ∧
      ∃ key', callKey call = some key' ∧ key' ≠ key ∧ key' ≠ forwardedKey := by
  simp only [isReported, Option.any_eq_true, Bool.and_eq_true, bne_iff_ne, Bool.not_eq_true',
    Bool.or_eq_false_iff, beq_eq_false_iff_ne]
  exact exists_congr fun key ↦ and_congr_right' <| and_congr_right' <|
    exists_congr fun key' ↦ and_congr_right' and_comm

theorem forall₂_filterMap {α β : Type} {p : α → Bool} {f : α → Option β} (as : List α)
    (h : ∀ a ∈ as, p a = (f a).isSome) :
    List.Forall₂ (fun a b ↦ f a = some b) (as.filter p) (as.filterMap f) := by
  induction as with
  | nil => exact .nil
  | cons a as ih =>
    obtain ⟨ha, hrest⟩ := List.forall_mem_cons.1 h
    cases hf : f a with
    | none =>
      rw [hf] at ha
      rw [List.filterMap_cons_none hf, List.filter_cons_of_neg (by simp [ha])]
      exact ih hrest
    | some b =>
      rw [hf] at ha
      rw [List.filterMap_cons_some hf, List.filter_cons_of_pos ha]
      exact .cons hf (ih hrest)

/-- There is one finding for each reported call, in order, at its key argument. -/
theorem findings_of_reportedCalls (context : Context) :
    List.Forall₂ (fun call finding ↦ ∃ argument, keyArgument call = some argument ∧
        finding = findingAt .whitelistKeyMismatch (argument, keyMessage))
      (reportedCalls context.chars) (loops .whitelistKeyMismatch context).flatten := by
  rw [loops, reportedCalls]
  cases hdeclared : declaredKey context.chars with
  | none =>
    rw [List.filter_eq_nil_iff.2 fun _ _ ↦ by simp [isReported]]
    exact .nil
  | some declared =>
    by_cases hinherited : declared = inheritedKey
    · rw [List.filter_eq_nil_iff.2 fun _ _ ↦ by simp [isReported, hinherited], hinherited]
      exact .nil
    · have hkey : (some declared).filter (· != inheritedKey) = some declared :=
        Option.filter_some_pos (bne_iff_ne.2 hinherited)
      rw [hkey]
      show List.Forall₂ _ _ [keyFindings context declared].flatten
      rw [List.flatten_singleton, keyFindings_eq, Loop.marks, List.map_filterMap]
      refine (forall₂_filterMap _ fun call _ ↦ ?_).imp fun call finding h ↦ ?_
      · show isReported (some declared) call =
          (Option.map _ ((keyArgument call).bind _)).isSome
        rw [isReported, Option.any_some, bne_iff_ne.2 hinherited, Bool.true_and, callKey]
        cases keyArgument call with
        | none => rfl
        | some argument =>
          rw [Option.map_some, Option.any_some, Option.bind_some, Option.isSome_map]
          by_cases hsame : (normalKey argument.content == forwardedKey ||
              normalKey argument.content == declared) = true
          · rw [if_pos hsame, hsame]
            rfl
          · rw [if_neg hsame, Bool.eq_false_iff.2 hsame]
            rfl
      · obtain ⟨mark, hmark, rfl⟩ := Option.map_eq_some_iff.1 h
        obtain ⟨argument, hargument, hmark⟩ := Option.bind_eq_some_iff.1 hmark
        obtain ⟨-, hmark⟩ := Option.ite_none_left_eq_some.1 hmark
        exact ⟨argument, hargument, by rw [← Option.some.inj hmark]⟩

/-! ### What scans take up -/

section Scans

variable {nesting : Nesting} {cs ds : List Char} {c d : Cursor}

/-- What a scan takes up before the first delimiter outside brackets and literals, without blanks
and sigils. -/
def scannedKey (nesting : Nesting) : List Char → Option (List Char)
  | [] => none
  | x :: cs =>
    if nesting = .top ∧ isDelimiter x = true then some []
    else (scannedKey (nesting.step x) cs).map (normalKey [x] ++ ·)

/-- A scan of a text goes on behind its first part unless that has a delimiter. -/
theorem scannedKey_append (nesting : Nesting) (cs ds : List Char) :
    scannedKey nesting (cs ++ ds) = (scannedKey nesting cs).or
      ((scannedKey (nesting.steps cs) ds).map (normalKey cs ++ ·)) := by
  induction cs generalizing nesting with
  | nil =>
    show scannedKey nesting ds = (scannedKey nesting ds).map ([] ++ ·)
    simp
  | cons x cs ih =>
    rw [List.cons_append, scannedKey, scannedKey]
    split
    · rfl
    · rw [ih, Option.map_or, Option.map_map]
      refine congrArg (Option.or _) (congrArg (Option.map · _) (funext fun key ↦ ?_))
      rw [Function.comp_apply, ← List.append_assoc, ← normalKey_append]
      rfl

/-- What is taken up is what the scan for a delimiter goes over. -/
theorem scannedKey_eq (nesting : Nesting) (before after : List Char) :
    scannedKey nesting after = (delimiterFrom nesting.depth nesting.quotes before after).map
      fun d ↦ normalKey ((⟨before, after⟩ : Cursor).upTo d) := by
  induction after generalizing nesting before with
  | nil => rfl
  | cons x after ih =>
    rw [scannedKey, delimiterFrom_cons]
    split
    · rw [Option.map_some, (Reads.refl _).upTo_eq]
      rfl
    · rw [ih _ (x :: before), Option.map_map]
      refine Option.map_congr fun d hd ↦ ?_
      obtain ⟨cs, hcs⟩ := reads_delimiterFrom hd
      rw [Function.comp_apply, hcs.reads.upTo_eq, hcs.reads.cons.upTo_eq]
      exact (normalKey_append [x] cs).symm

/-- A scan takes up a whole expression. -/
theorem scannedKey_of_expression {alone : Char → Bool} (hcs : Expression alone cs) {depth : Nat}
    (halone : ∀ x, alone x = true → Passes depth x) (ds : List Char) :
    scannedKey ⟨depth, .outside⟩ (cs ++ ds) =
      (scannedKey ⟨depth, .outside⟩ ds).map (normalKey cs ++ ·) := by
  rw [scannedKey_eq _ [], scannedKey_eq _ (cs.reverse ++ []) ds, Option.map_map]
  dsimp only
  rw [delimiterFrom_of_expression hcs halone]
  refine Option.map_congr fun d hd ↦ ?_
  obtain ⟨es, hes⟩ := reads_delimiterFrom hd
  have hexpression : Reads ⟨[], cs ++ ds⟩ cs ⟨cs.reverse ++ [], ds⟩ := ⟨rfl, rfl⟩
  rw [Function.comp_apply, hes.reads.upTo_eq, (hexpression.trans hes.reads).upTo_eq,
    normalKey_append]

/-- Blanks leave a scan as it is. -/
theorem scannedKey_of_blanks (hcs : cs ∈ blanks) (ds : List Char) :
    scannedKey .top (cs ++ ds) = scannedKey .top ds := by
  have hscan := scannedKey_of_expression (expression_of_blanks hcs) (fun _ ↦ passes_isLoose) ds
  rw [normalKey_of_blanks hcs] at hscan
  exact hscan.trans Option.map_id'

end Scans

/-! ### Keys of calls -/

section Calls

variable {argument : List Char} {call : Found Piece} {c : Cursor}

/-- The key of an argument that starts at a text. -/
def argumentKey (cs : List Char) : Option (List Char) :=
  if (cs.dropWhile isBlank).head?.any isDelimiter then none else scannedKey .top cs

/-- What comes after the comma that, apart from blanks, begins a text. -/
def afterComma (after : List Char) : Option (List Char) :=
  match after.dropWhile isBlank with
  | [] => none
  | x :: cs => if x == ',' then some cs else none

/-- The scan of an argument begins behind the blanks. -/
theorem scannedKey_after (c : Cursor) :
    scannedKey .top c.after = (delimiterFrom 0 .outside c.skipBlanks.before
      c.skipBlanks.after).map fun d ↦ normalKey (c.skipBlanks.upTo d) := by
  obtain ⟨pad, hpad, hblank⟩ := c.reads_skipBlanks
  rw [hpad.after_eq, scannedKey_of_blanks hblank]
  exact scannedKey_eq .top _ _

theorem argument_key (c : Cursor) :
    (c.argument.map fun argument ↦ normalKey argument.content) = argumentKey c.after := by
  obtain ⟨pad, hpad, hblank⟩ := c.reads_skipBlanks
  have hafter : c.after.dropWhile isBlank = c.skipBlanks.after := (after_skip isBlank c).symm
  rw [argumentKey, hafter]
  by_cases hends : c.skipBlanks.after.head?.any isDelimiter = true
  · obtain ⟨x, hhead, hx⟩ := (Option.any_eq_true _ _).1 hends
    obtain ⟨rest, hrest⟩ := List.head?_eq_some_iff.1 hhead
    rw [if_pos hends, argument_eq_none_of_blanks (hpad.after_eq.trans (congrArg _ hrest)) hblank hx]
    rfl
  · rw [if_neg hends, scannedKey_after, argument]
    cases hdelimiter : delimiterFrom 0 .outside c.skipBlanks.before c.skipBlanks.after with
    | none => rfl
    | some d =>
      obtain ⟨cs, hcs⟩ := reads_delimiterFrom hdelimiter
      have hreads : c.skipBlanks.Reads cs d := hcs.reads
      have hne : cs ≠ [] := by
        rintro rfl
        obtain rfl := hreads.unique (.refl _)
        obtain ⟨x, hhead, hx⟩ := hcs.delimiter
        exact hends ((Option.any_eq_true _ _).2 ⟨x, hhead, hx⟩)
      obtain ⟨as, pad', rfl, has, -, hblank', -, -⟩ :=
        exists_trimmed hreads hne hreads.head_skipBlanks
      have hread := hreads.length_lt_iff.2 hne
      simp [hread, Piece.content, hreads.upTo_eq, has.upTo_eq, normalKey_append,
        normalKey_of_blanks hblank']

theorem after_comma (c : Cursor) :
    (c.skipBlanks.char ',').map Cursor.after = afterComma c.after := by
  have hafter : c.after.dropWhile isBlank = c.skipBlanks.after := (after_skip isBlank c).symm
  rw [afterComma, hafter, char, one]
  cases c.skipBlanks.after with
  | nil => rfl
  | cons x after =>
    dsimp only
    split <;> rfl

/-- What the key of a call is depends on the characters after it alone. -/
theorem callKey_eq (call : Found Piece) :
    callKey call = (afterComma call.stop.after).bind argumentKey := by
  rw [callKey, keyArgument, ← after_comma]
  show Option.map _ ((call.stop.skipBlanks.char ',').bind _) = _
  cases call.stop.skipBlanks.char ',' with
  | none => rfl
  | some c => exact argument_key c

theorem afterComma_of_blanks {pad : List Char} (hpad : pad ∈ blanks) (cs : List Char) :
    afterComma (pad ++ ',' :: cs) = some cs := by
  rw [afterComma, List.dropWhile_append_of_pos hpad, List.dropWhile_cons_of_neg (by decide)]
  rfl

/-- Expressions do not begin with a delimiter. -/
theorem isDelimiter_head_of_expression {x : Char} {cs : List Char}
    (h : Expression isBare (x :: cs)) : isDelimiter x = false := by
  generalize htext : x :: cs = text at h
  cases h with
  | nil => cases htext
  | single hx _ =>
    obtain ⟨rfl, -⟩ := List.cons.inj htext
    simp only [isBare, Bool.and_eq_true, Bool.not_eq_true'] at hx
    exact hx.2
  | literal =>
    obtain ⟨rfl, -⟩ := List.cons.inj htext
    rfl
  | bracket hx =>
    obtain ⟨rfl, -⟩ := List.cons.inj htext
    exact isDelimiter_of_isOpening hx

/-- The first character of a key is neither a blank nor a delimiter. -/
theorem head_of_expression (h : Expression isBare argument) (htrimmed : IsTrimmed argument) :
    ∃ x rest, argument = x :: rest ∧ isBlank x = false ∧ isDelimiter x = false := by
  obtain ⟨hne, hhead, -⟩ := htrimmed
  obtain ⟨x, rest, rfl⟩ := List.exists_cons_of_ne_nil hne
  exact ⟨x, rest, rfl, hhead x rfl, isDelimiter_head_of_expression h⟩

/-- Before a key the comma of a call comes, or nothing but blanks. -/
theorem afterComma_append {x : Char} (hblank : isBlank x = false)
    (hdelimiter : isDelimiter x = false) (after rest : List Char) :
    afterComma (after ++ x :: rest) = (afterComma after).map (· ++ x :: rest) := by
  rw [afterComma, afterComma, List.dropWhile_append]
  cases after.dropWhile isBlank with
  | nil =>
    rw [List.isEmpty_nil, if_pos rfl, List.dropWhile_cons_of_neg (by simp [hblank])]
    refine if_neg fun hcomma ↦ ?_
    obtain rfl : x = ',' := by simpa using hcomma
    exact absurd hdelimiter (by decide)
  | cons y cs =>
    rw [List.isEmpty_cons, if_neg (by simp), List.cons_append]
    dsimp only
    split <;> rfl

/-- Whether an argument is empty is decided before a key. -/
theorem argumentKey_append {x : Char} (hblank : isBlank x = false)
    (hdelimiter : isDelimiter x = false) (cs rest : List Char) :
    argumentKey (cs ++ x :: rest) = if (cs.dropWhile isBlank).head?.any isDelimiter then none
      else scannedKey .top (cs ++ x :: rest) := by
  rw [argumentKey, List.dropWhile_append]
  cases cs.dropWhile isBlank with
  | nil =>
    rw [List.isEmpty_nil, if_pos rfl, List.dropWhile_cons_of_neg (by simp [hblank]),
      List.head?_cons, Option.any_some, hdelimiter]
    rfl
  | cons y cs => rfl

/-- Whether a well-formed expression is the key argument of a call: apart from blanks a comma comes
before it and a delimiter behind it. -/
def LooksUp (call : Found Piece) (argument : List Char) : Prop :=
  ∃ pad pad' pad'' x rest,
    call.stop.after = pad ++ ',' :: (pad' ++ (argument ++ (pad'' ++ x :: rest))) ∧
    pad ∈ blanks ∧ pad' ∈ blanks ∧ pad'' ∈ blanks ∧ isDelimiter x = true ∧
    Expression isBare argument ∧ IsTrimmed argument

theorem callKey_of_looksUp (h : LooksUp call argument) :
    callKey call = some (normalKey argument) := by
  obtain ⟨pad, pad', pad'', x, rest, hafter, hpad, hpad', hpad'', hx, hargument, htrimmed⟩ := h
  have hscan : scannedKey .top (argument ++ (pad'' ++ x :: rest)) = some (normalKey argument) := by
    have hends : scannedKey .top (x :: rest) = some [] := if_pos ⟨rfl, hx⟩
    refine (scannedKey_of_expression hargument (fun _ h ↦ passes_isBare h 0) _).trans ?_
    show (scannedKey .top (pad'' ++ x :: rest)).map _ = _
    rw [scannedKey_of_blanks hpad'', hends, Option.map_some, List.append_nil]
  have hnone : pad'.dropWhile isBlank = [] := List.dropWhile_eq_nil_iff.2 hpad'
  obtain ⟨y, argument, rfl, hblank, hdelimiter⟩ := head_of_expression hargument htrimmed
  rw [callKey_eq, hafter, afterComma_of_blanks hpad, Option.bind_some, List.cons_append,
    argumentKey_append hblank hdelimiter, hnone, List.head?_nil, Option.any_none, if_neg (by simp),
    scannedKey_of_blanks hpad', ← List.cons_append, hscan]

/-- A call with a well-formed key argument is reported if and only if the declared key is not that
of another rule and the argument is another key than the declared and the forwarded one. -/
theorem mem_reportedCalls_iff {text : List Char} (hcall : call ∈ findAll whitelistCall text)
    (h : LooksUp call argument) :
    call ∈ reportedCalls text ↔ ∃ declared, declaredKey text = some declared ∧
      declared ≠ inheritedKey ∧ normalKey argument ≠ declared ∧
        normalKey argument ≠ forwardedKey := by
  rw [reportedCalls, List.mem_filter, isReported_eq_true_iff, callKey_of_looksUp h]
  simp [hcall]

end Calls

end Check

end RuleLint
