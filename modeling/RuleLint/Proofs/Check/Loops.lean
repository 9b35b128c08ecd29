import RuleLint.Proofs.Check.Instances
import RuleLint.Proofs.Check.Surroundings

/-!
# Loops

A loop of a check searches a text for one thing and marks a part of each find, or nothing of it
(`Loop`). It does not look at the context: its findings are the marks, each at the positions of its
ends (`findingAt`), and where the text is the body of a block, these are positions in the document.

So to know the findings of a longer text it is enough to know the marks. If a text is a part of the
longer one and the loop is not misled by what stands around it (`Loop.Carries`), the marks in the
part are those of the part alone (`Loop.marks_append`).
-/

namespace RuleLint

open Cursor Construct

namespace Check

/-- A loop of a check: what it looks for, and which part of a find it marks with which message. -/
structure Loop (α : Type) where
  recognise : Recogniser α
  mark : Found α → Option (Piece × String)

/-- The finding for a marked part of a text. -/
def findingAt (rule : Rule) (mark : Piece × String) : Diagnostic :=
  ⟨rule, rule.severity, ⟨mark.1.start.position, mark.1.stop.position⟩, mark.2⟩

theorem findingAt_congr {m m' : Piece × String} (rule : Rule)
    (hstart : m.1.start.Abreast m'.1.start) (hstop : m.1.stop.Abreast m'.1.stop) (h : m.2 = m'.2) :
    findingAt rule m = findingAt rule m' := by
  rw [findingAt, findingAt, hstart.position_eq, hstop.position_eq, h]

theorem finding_eq {context : Context} {piece : Piece} (rule : Rule) (message : String)
    (hstart : piece.start.text = context.chars) (hstop : piece.stop.text = context.chars) :
    context.finding rule piece.span message = findingAt rule (piece, message) := by
  have hrange := range_spanTo hstart (hstop.trans hstart.symm)
  rw [Context.finding, Context.diagnostic, Piece.span, hrange]
  rfl

/-- The image of a mark in a longer text. -/
def markWithin (outer : Cursor) (rest : List Char) (m : Piece × String) : Piece × String :=
  (m.1.within outer rest, m.2)

namespace Loop

variable {α : Type} {loop : Loop α}

/-- The parts of a text that a loop marks, with their messages. -/
def marks (loop : Loop α) (text : List Char) : List (Piece × String) :=
  (findAll loop.recognise text).filterMap loop.mark

/-- A loop whose finds are not empty and whose marks are in the text that is searched. -/
structure Sound (loop : Loop α) : Prop where
  advances : Advances loop.recognise
  inside : ∀ found : Found α, loop.recognise found.start = some (found.value, found.stop) →
    ∀ m, loop.mark found = some m →
      m.1.start.text = found.start.text ∧ m.1.stop.text = found.start.text

theorem Sound.of_mem_findAll (hloop : loop.Sound) {text : List Char} {found : Found α}
    (hfound : found ∈ findAll loop.recognise text) :
    found.start.text = text ∧ loop.recognise found.start = some (found.value, found.stop) :=
  RuleLint.of_mem_findAll (fun c value d h ↦ by
    obtain ⟨cs, -, hreads⟩ := hloop.advances c value d h
    exact hreads.text_eq) hfound

theorem Sound.text_eq (hloop : loop.Sound) {text : List Char} {found : Found α}
    (hfound : found ∈ findAll loop.recognise text) {m : Piece × String}
    (hm : loop.mark found = some m) : m.1.start.text = text ∧ m.1.stop.text = text := by
  obtain ⟨htext, hanswer⟩ := hloop.of_mem_findAll hfound
  obtain ⟨hstart, hstop⟩ := hloop.inside found hanswer m hm
  exact ⟨hstart.trans htext, hstop.trans htext⟩

/-- A finding of a loop comes from an answer of its recogniser. -/
theorem Sound.exists_of_mem_map (hloop : loop.Sound) {text : List Char} {rule : Rule}
    {d : Diagnostic} (hd : d ∈ (loop.marks text).map (findingAt rule)) :
    ∃ (found : Found α) (m : Piece × String), found.start.text = text ∧
      loop.recognise found.start = some (found.value, found.stop) ∧ loop.mark found = some m ∧
      d = findingAt rule m := by
  obtain ⟨m, hm, rfl⟩ := List.mem_map.1 hd
  obtain ⟨found, hfound, hmark⟩ := List.mem_filterMap.1 hm
  obtain ⟨htext, hanswer⟩ := hloop.of_mem_findAll hfound
  exact ⟨found, m, htext, hanswer, hmark, rfl⟩

/-- The findings of a loop over a document. -/
theorem Sound.findings_eq (hloop : loop.Sound) (context : Context) (rule : Rule) :
    ((findAll loop.recognise context.chars).filterMap fun found ↦
      (loop.mark found).map fun m ↦ context.finding rule m.1.span m.2) =
      (loop.marks context.chars).map (findingAt rule) := by
  rw [marks, List.map_filterMap]
  refine List.filterMap_congr fun found hfound ↦ ?_
  cases hm : loop.mark found with
  | none => rfl
  | some m =>
    obtain ⟨hstart, hstop⟩ := hloop.text_eq hfound hm
    exact congrArg some (finding_eq rule m.2 hstart hstop)

/-- The findings of a loop over the body of a block. -/
theorem Sound.findings_within (hloop : loop.Sound) {context : Context} {first last : Cursor}
    {body : List Char} (hfirst : first.text = context.chars) (hreads : first.Reads body last)
    (rule : Rule) :
    ((findAll loop.recognise body).filterMap fun found ↦
      (loop.mark found).map fun m ↦ context.finding rule (m.1.span.shift first.offset) m.2) =
      (loop.marks body).map fun m ↦ findingAt rule (markWithin first last.after m) := by
  rw [marks, List.map_filterMap]
  refine List.filterMap_congr fun found hfound ↦ ?_
  cases hm : loop.mark found with
  | none => rfl
  | some m =>
    obtain ⟨hstart, hstop⟩ := hloop.text_eq hfound hm
    have hwithin : ∀ c : Cursor, c.text = body → (first.within last.after c).text = context.chars :=
      fun c hc ↦ (text_within (hc ▸ hreads)).trans hfirst
    have hspan : (m.1.within first last.after).span = m.1.span.shift first.offset := spanTo_within
    rw [Option.map_some, Option.map_some, ← hspan]
    exact congrArg some (finding_eq rule m.2 (hwithin _ hstart) (hwithin _ hstop))

/-! ### Parts -/

/-- Whether a loop finds and marks in a part of a longer text what it finds and marks in the part
alone, as far as places in the part are concerned. -/
def Carries (loop : Loop α) (outer : Cursor) (rest text : List Char) : Prop :=
  ∃ image : α → α,
    (∀ c : Cursor, c.text = text → c.after ≠ [] → loop.recognise (outer.within rest c) =
      (loop.recognise c).map (Prod.map image (outer.within rest))) ∧
    ∀ found ∈ findAll loop.recognise text, loop.mark (found.within outer rest image) =
      (loop.mark found).map (markWithin outer rest)

theorem carries_nil (loop : Loop α) (outer : Cursor) (rest : List Char) :
    loop.Carries outer rest [] := by
  refine ⟨id, fun c hc hne ↦ ?_, fun found hfound ↦ ?_⟩
  · obtain ⟨-, hnil⟩ := List.append_eq_nil_iff.1 hc
    exact absurd hnil hne
  · rw [findAll, findAllFrom_nil] at hfound
    cases hfound

/-- The marks in the part of a text. -/
theorem Carries.filterMap_eq {outer : Cursor} {rest text : List Char}
    {image : α → α}
    (hmark : ∀ found ∈ findAll loop.recognise text, loop.mark (found.within outer rest image) =
      (loop.mark found).map (markWithin outer rest)) :
    ((findAll loop.recognise text).map (Found.within outer rest image)).filterMap loop.mark =
      (loop.marks text).map (markWithin outer rest) := by
  rw [List.filterMap_map, marks, List.map_filterMap]
  exact List.filterMap_congr hmark

/-- **The marks of a text in two parts, with something between them in which nothing is found.** -/
theorem marks_append (hloop : loop.Sound) {above between below : List Char}
    (habove : loop.Carries (atStart []) (between ++ below) above)
    (hbelow : loop.Carries ⟨(above ++ between).reverse, []⟩ [] below)
    (hbetween : findAllFrom loop.recognise above.reverse (between ++ below) =
      findAllFrom loop.recognise (above ++ between).reverse below) :
    loop.marks (above ++ (between ++ below)) =
      (loop.marks above).map (markWithin (atStart []) (between ++ below)) ++
        (loop.marks below).map (markWithin ⟨(above ++ between).reverse, []⟩ []) := by
  obtain ⟨image, hcarries, hmark⟩ := habove
  obtain ⟨image', hcarries', hmark'⟩ := hbelow
  rw [marks, findAll_append hloop.advances hcarries hcarries' hbetween, List.filterMap_append,
    Carries.filterMap_eq hmark, Carries.filterMap_eq hmark']

/-- The marks of a text with something before it, in which nothing is found. -/
theorem marks_below (hloop : loop.Sound) {above text : List Char}
    (hcarries : loop.Carries ⟨above.reverse, []⟩ [] text)
    (habove : findAllFrom loop.recognise [] (above ++ text) =
      findAllFrom loop.recognise above.reverse text) :
    loop.marks (above ++ text) = (loop.marks text).map (markWithin ⟨above.reverse, []⟩ []) := by
  have happend := @marks_append α loop hloop [] above text
    (loop.carries_nil (atStart []) (above ++ text)) hcarries habove
  rw [List.nil_append] at happend
  rw [happend, marks, findAll, findAllFrom_nil]
  rfl

end Loop

/-! ### Blocks -/

section Blocks

variable {α : Type} {rule : Rule} {loop : List Char → Loop α}
  {findings : Context → Block → List Diagnostic}

/-- Whether the findings in a block are those of a loop over its body, at the place of the body in
the document. The loop may depend on the header of the block. -/
def Searches (rule : Rule) (loop : List Char → Loop α)
    (findings : Context → Block → List Diagnostic) : Prop :=
  ∀ (context : Context) (block : Block) (first last : Cursor), first.text = context.chars →
    first.Reads block.body last → first.offset = block.base →
      findings context block = ((loop block.header).marks block.body).map fun m ↦
        findingAt rule (markWithin first last.after m)

/-- Two blocks with the same header and body whose marks are at the same positions. -/
theorem Searches.congr (hfindings : Searches rule loop findings) {context context' : Context}
    {block block' : Block} {first first' last last' : Cursor}
    (hfirst : first.text = context.chars) (hreads : first.Reads block.body last)
    (hbase : first.offset = block.base) (hfirst' : first'.text = context'.chars)
    (hreads' : first'.Reads block'.body last') (hbase' : first'.offset = block'.base)
    (hheader : block.header = block'.header) (hbody : block.body = block'.body)
    (h : ∀ m ∈ (loop block.header).marks block.body, ∀ c, c = m.1.start ∨ c = m.1.stop →
      (first.within last.after c).Abreast (first'.within last'.after c)) :
    findings context block = findings context' block' := by
  rw [hfindings context block first last hfirst hreads hbase,
    hfindings context' block' first' last' hfirst' hreads' hbase', ← hheader, ← hbody]
  exact List.map_congr_left fun m hm ↦
    findingAt_congr rule (h m hm m.1.start (.inl rfl)) (h m hm m.1.stop (.inr rfl)) rfl

end Blocks

/-! ### The loops of the checks -/

section Loops

variable {outer : Cursor} {rest text : List Char} {context : Context}

/-- The loop over comparisons of lowered values. -/
def comparisonLoop : Loop Piece where
  recognise := comparison
  mark found :=
    if hasUppercase found.value.content then some (⟨found.start, found.stop⟩, comparisonMessage)
    else none

theorem sound_comparisonLoop : comparisonLoop.Sound where
  advances := (ignoresEndings_comparison []).advances
  inside found hfound m hm := by
    obtain ⟨-, hm⟩ := Option.ite_none_right_eq_some.1 hm
    obtain rfl := Option.some.inj hm
    exact ⟨rfl, text_comparison hfound⟩

theorem lowerComparisonFindings_eq :
    lowerComparisonFindings context =
      (comparisonLoop.marks context.chars).map (findingAt .lowerComparisonCase) := by
  rw [← sound_comparisonLoop.findings_eq]
  refine List.filterMap_congr fun found _ ↦ ?_
  show _ = Option.map _ (if hasUppercase found.value.content then _ else none)
  split <;> rfl

theorem comparisonMark_within (found : Found Piece) :
    comparisonLoop.mark (found.within outer rest (Piece.within outer rest)) =
      (comparisonLoop.mark found).map (markWithin outer rest) := by
  show (if hasUppercase (found.value.within outer rest).content then _ else none) =
    Option.map _ (if hasUppercase found.value.content then _ else none)
  rw [content_within]
  split <;> rfl

theorem carries_comparisonLoop (houter : outer.before.head?.any isWord = false)
    (hrest : Apart rest) : comparisonLoop.Carries outer rest text :=
  ⟨_, fun c _ _ ↦ carries_comparison houter hrest c, fun found _ ↦ comparisonMark_within found⟩

/-- The loop over calls of a function with a lowered value. -/
def callLoop (function : String) : Loop Piece where
  recognise := loweredCall function
  mark found :=
    if hasUppercase (withoutClassEscapes found.value.content) then
      some (⟨found.start, found.stop⟩, loweredCallMessage)
    else none

theorem sound_callLoop {function : String} (hfunction : function ∈ matchingFunctions) :
    (callLoop function).Sound where
  advances := by
    have hunbroken : ∀ function ∈ matchingFunctions, Unbroken function.toList := by decide
    exact (ignoresEndings_loweredCall (hunbroken function hfunction) []).advances
  inside found hfound m hm := by
    obtain ⟨-, hm⟩ := Option.ite_none_right_eq_some.1 hm
    obtain rfl := Option.some.inj hm
    exact ⟨rfl, text_loweredCall hfound⟩

theorem loweredCallFindings_eq {function : String} (hfunction : function ∈ matchingFunctions) :
    loweredCallFindings context function =
      ((callLoop function).marks context.chars).map (findingAt .nestedLowerCase) := by
  rw [← (sound_callLoop hfunction).findings_eq]
  refine List.filterMap_congr fun found _ ↦ ?_
  show _ = Option.map _ (if hasUppercase (withoutClassEscapes found.value.content) then _ else none)
  split <;> rfl

theorem callMark_within (function : String) (found : Found Piece) :
    (callLoop function).mark (found.within outer rest (Piece.within outer rest)) =
      ((callLoop function).mark found).map (markWithin outer rest) := by
  show (if hasUppercase (withoutClassEscapes (found.value.within outer rest).content) then _
    else none) =
    Option.map _ (if hasUppercase (withoutClassEscapes found.value.content) then _ else none)
  rw [content_within]
  split <;> rfl

theorem unbroken_of_mem_matchingFunctions {function : String}
    (hfunction : function ∈ matchingFunctions) : function.toList.any breaks.contains = false := by
  have hblank : ∀ function ∈ matchingFunctions, function.toList.any breaks.contains = false := by
    decide
  exact hblank function hfunction

theorem carries_callLoop {function : String} (hfunction : function ∈ matchingFunctions)
    (houter : outer.before.head?.any isWord = false) (hrest : Apart rest) :
    (callLoop function).Carries outer rest text :=
  ⟨_, fun c _ _ ↦ carries_loweredCall (unbroken_of_mem_matchingFunctions hfunction) houter hrest c,
    fun found _ ↦ callMark_within function found⟩

/-- The loop over concatenations. -/
def concatenationLoop : Loop Unit where
  recognise := concatenation
  mark found := some (⟨found.start, found.stop⟩, concatenationMessage)

theorem sound_concatenationLoop : concatenationLoop.Sound where
  advances := (ignoresEndings_concatenation []).advances
  inside found hfound m hm := by
    obtain rfl := Option.some.inj hm
    obtain ⟨cs, hreads⟩ := (isInstance_concatenation hfound).exists_reads
    exact ⟨rfl, hreads.text_eq⟩

theorem concatenationFindings_eq :
    concatenationFindings context =
      (concatenationLoop.marks context.chars).map (findingAt .numberToStringConcat) := by
  rw [← sound_concatenationLoop.findings_eq, concatenationFindings, ← List.filterMap_eq_map]
  rfl

theorem carries_concatenationLoop (houter : outer.before.head?.any isWord = false)
    (hrest : Apart rest) : concatenationLoop.Carries outer rest text :=
  ⟨id, fun c _ _ ↦ carries_concatenation houter hrest c, fun _ _ ↦ rfl⟩

/-- The loop over the keys of calls of whitelisting macros. -/
def keyLoop (declared : List Char) : Loop Piece where
  recognise := whitelistCall
  mark call :=
    (keyArgument call).bind fun argument ↦
      if normalKey argument.content == forwardedKey || normalKey argument.content == declared then
        none
      else some (argument, keyMessage)

theorem sound_keyLoop (declared : List Char) : (keyLoop declared).Sound where
  advances := (ignoresEndings_whitelistCall []).advances
  inside call hcall m hm := by
    obtain ⟨argument, hargument, hm⟩ := Option.bind_eq_some_iff.1 hm
    obtain ⟨-, hm⟩ := Option.ite_none_left_eq_some.1 hm
    obtain rfl := Option.some.inj hm
    obtain ⟨hinstance, htext⟩ := isInstance_keyArgument hcall hargument
    obtain ⟨cs, hreads⟩ := hinstance.exists_reads
    exact ⟨htext, hreads.text_eq.trans htext⟩

theorem keyFindings_eq (declared : List Char) :
    keyFindings context declared =
      ((keyLoop declared).marks context.chars).map (findingAt .whitelistKeyMismatch) := by
  rw [← (sound_keyLoop declared).findings_eq]
  refine List.filterMap_congr fun call _ ↦ ?_
  show (keyArgument call).bind _ = Option.map _ ((keyArgument call).bind _)
  cases keyArgument call with
  | none => rfl
  | some argument =>
    show (if _ then none else some _) = Option.map _ (if _ then none else some _)
    split <;> rfl

/-- Whether the key argument of a call, if there is a comma before it, ends in the text. -/
def KeyEnds (call : Found Piece) : Prop :=
  ∀ c, call.stop.skipBlanks.char ',' = some c → ArgumentEnds c

theorem keyArgument_within {call : Found Piece} (h : rest = [] ∨ KeyEnds call)
    (hcomma : (outer.within rest call.stop).skipBlanks.char ',' =
      (call.stop.skipBlanks.char ',').map (outer.within rest)) :
    keyArgument (call.within outer rest (Piece.within outer rest)) =
      (keyArgument call).map (Piece.within outer rest) := by
  show ((outer.within rest call.stop).skipBlanks.char ',').bind _ = _
  rw [hcomma]
  exact bind_within fun c hc ↦ argument_within (h.imp_right fun hends ↦ hends c hc)

theorem keyMark_within {call : Found Piece} (declared : List Char) (h : rest = [] ∨ KeyEnds call)
    (hcomma : (outer.within rest call.stop).skipBlanks.char ',' =
      (call.stop.skipBlanks.char ',').map (outer.within rest)) :
    (keyLoop declared).mark (call.within outer rest (Piece.within outer rest)) =
      ((keyLoop declared).mark call).map (markWithin outer rest) := by
  have hargument := keyArgument_within h hcomma
  show (keyArgument (call.within outer rest (Piece.within outer rest))).bind _ =
    Option.map _ ((keyArgument call).bind _)
  rw [hargument]
  cases keyArgument call with
  | none => rfl
  | some argument =>
    rw [Option.map_some, Option.bind_some, Option.bind_some, content_within]
    split <;> rfl

theorem carries_keyLoop (declared : List Char) (hrest : Apart rest)
    (h : rest = [] ∨ ∀ call ∈ findAll whitelistCall text, KeyEnds call) :
    (keyLoop declared).Carries outer rest text :=
  ⟨_, fun c _ _ ↦ carries_whitelistCall hrest c, fun call hcall ↦
    keyMark_within declared (h.imp_right fun hends ↦ hends call hcall)
      (char_skipBlanks_within hrest (by decide) (by decide) call.stop)⟩

/-- The loop over the names in calls of whitelisting macros. -/
def nameLoop (declared : List Char) : Loop Piece where
  recognise := whitelistCall
  mark call :=
    if call.value.content == declared then none else some (call.value, nameMessage declared)

theorem sound_nameLoop (declared : List Char) : (nameLoop declared).Sound where
  advances := (ignoresEndings_whitelistCall []).advances
  inside call hcall m hm := by
    obtain ⟨-, hm⟩ := Option.ite_none_left_eq_some.1 hm
    obtain rfl := Option.some.inj hm
    obtain ⟨hstart, -, hcontent, -⟩ := spells_whitelistCall hcall
    exact ⟨hstart.text_eq, hcontent.text_eq.trans hstart.text_eq⟩

theorem nameFindings_eq (declared : List Char) :
    nameFindings context declared =
      ((nameLoop declared).marks context.chars).map (findingAt .whitelistRuleNameMismatch) := by
  rw [← (sound_nameLoop declared).findings_eq]
  refine List.filterMap_congr fun call _ ↦ ?_
  show _ = Option.map _ (if call.value.content == declared then none else _)
  split <;> rfl

theorem nameMark_within (declared : List Char) (call : Found Piece) :
    (nameLoop declared).mark (call.within outer rest (Piece.within outer rest)) =
      ((nameLoop declared).mark call).map (markWithin outer rest) := by
  show (if (call.value.within outer rest).content == declared then none else _) =
    Option.map _ (if call.value.content == declared then none else _)
  rw [content_within]
  split <;> rfl

theorem carries_nameLoop (declared : List Char) (hrest : Apart rest) :
    (nameLoop declared).Carries outer rest text :=
  ⟨_, fun c _ _ ↦ carries_whitelistCall hrest c, fun call _ ↦ nameMark_within declared call⟩

/-- The loop over the assignments in a block with a header. -/
def assignmentLoop (header : List Char) : Loop Assignment where
  recognise := assignment
  mark found :=
    if found.value.isSingle then
      some (⟨found.value.field.start, found.stop⟩,
        assignmentMessage found.value.field.content header)
    else none

theorem sound_assignmentLoop (header : List Char) : (assignmentLoop header).Sound where
  advances := (ignoresEndings_assignment []).advances
  inside found hfound m hm := by
    obtain ⟨-, hm⟩ := Option.ite_none_right_eq_some.1 hm
    obtain rfl := Option.some.inj hm
    exact ⟨(spells_assignment hfound).1.text_eq, text_assignment hfound⟩

theorem searches_assignmentFindings :
    Searches .fieldAssignmentInBlock assignmentLoop assignmentFindings := by
  intro context block first last hfirst hreads hbase
  refine Eq.trans ?_ ((sound_assignmentLoop block.header).findings_within hfirst hreads _)
  rw [hbase]
  refine List.filterMap_congr fun found _ ↦ ?_
  show _ = Option.map _ (if found.value.isSingle then _ else none)
  split <;> rfl

theorem assignmentMark_within (header : List Char) (found : Found Assignment) :
    (assignmentLoop header).mark (found.within outer rest (Assignment.within outer rest)) =
      ((assignmentLoop header).mark found).map (markWithin outer rest) := by
  show (if found.value.isSingle then some (_, assignmentMessage
    (found.value.field.within outer rest).content header) else none) =
      Option.map _ (if found.value.isSingle then _ else none)
  rw [content_within]
  split <;> rfl

theorem carries_assignmentLoop (header : List Char) (houter : outer.atLineStart = true)
    (hrest : Apart rest) (h : rest = [] ∨ ∀ c : Cursor, c.text = text → Valued c) :
    (assignmentLoop header).Carries outer rest text :=
  ⟨Assignment.within outer rest, fun c hc _ ↦
    assignment_within_of_apart houter hrest (h.imp_right fun hvalued ↦ hvalued c hc),
    fun found _ ↦ assignmentMark_within header found⟩

/-- The loop over the equations in a block. -/
def equationLoop : Loop Equation where
  recognise := equation
  mark found :=
    if found.value.operator == ['='] then
      some (⟨found.value.subject.start, found.stop⟩, equationMessage)
    else none

theorem sound_equationLoop : equationLoop.Sound where
  advances := (ignoresEndings_equation []).advances
  inside found hfound m hm := by
    obtain ⟨-, hm⟩ := Option.ite_none_right_eq_some.1 hm
    obtain rfl := Option.some.inj hm
    exact ⟨(spells_equation hfound).1.text_eq, text_equation hfound⟩

theorem searches_equationFindings :
    Searches .filterSingleEquals (fun _ ↦ equationLoop) equationFindings := by
  intro context block first last hfirst hreads hbase
  refine Eq.trans ?_ (sound_equationLoop.findings_within hfirst hreads _)
  rw [hbase]
  refine List.filterMap_congr fun found _ ↦ ?_
  show _ = Option.map _ (if found.value.operator == ['='] then _ else none)
  split <;> rfl

theorem equationMark_within (found : Found Equation) :
    equationLoop.mark (found.within outer rest (Equation.within outer rest)) =
      (equationLoop.mark found).map (markWithin outer rest) := by
  show (if found.value.operator == ['='] then _ else none) =
    Option.map _ (if found.value.operator == ['='] then _ else none)
  split <;> rfl

theorem carries_equationLoop (hrest : Apart rest) : equationLoop.Carries outer rest text :=
  ⟨Equation.within outer rest, fun c _ _ ↦ carries_equation hrest c,
    fun found _ ↦ equationMark_within found⟩

/-! ### Grades -/

/-- The mark on a severity that differs from an importance. -/
def severityMark (importance : List Char) (severity : Found (List Char)) :
    Option (Piece × String) :=
  if severity.value == importance || severity.value == importanceVariable.toList then none
  else some (⟨severity.start, severity.stop⟩, gradeMessage importance severity.value)

/-- The mark on the grades of a text. -/
def gradeMark (text : List Char) : Option (Piece × String) :=
  (findFirst (gradeAssignment importanceVariable) text).bind fun importance ↦
    (findFirst (gradeAssignment severityVariable) text).bind (severityMark importance.value)

theorem gradeFinding_eq :
    gradeFinding context =
      (gradeMark context.chars).map (findingAt .importanceSeverityMismatch) := by
  rw [gradeFinding, gradeMark]
  cases findFirst (gradeAssignment importanceVariable) context.chars with
  | none => rfl
  | some importance =>
    cases hseverity : findFirst (gradeAssignment severityVariable) context.chars with
    | none => rfl
    | some severity =>
      obtain ⟨htext, hanswer⟩ := of_mem_findAll
        (fun c grade d h ↦ (spells_gradeAssignment h).text_eq) (mem_findAll_of_findFirst hseverity)
      have hfinding := @finding_eq context ⟨severity.start, severity.stop⟩
        .importanceSeverityMismatch (gradeMessage importance.value severity.value) htext
        ((spells_gradeAssignment hanswer).text_eq.trans htext)
      show (if _ then none else some (context.finding _ severity.span _)) =
        Option.map _ (severityMark importance.value severity)
      rw [severityMark]
      split
      · rfl
      · exact congrArg some hfinding

theorem severityMark_within (importance : List Char) (severity : Found (List Char)) :
    severityMark importance (severity.within outer rest id) =
      (severityMark importance severity).map (markWithin outer rest) := by
  rw [severityMark, severityMark]
  show (if severity.value == importance || severity.value == importanceVariable.toList then none
    else _) = _
  split <;> rfl

end Loops

end Check

end RuleLint
