import RuleLint.Proofs.Check.Assignments
import RuleLint.Proofs.Check.Instances

/-!
# What messages say

A message is a fixed text, or a fixed text around parts that are taken from the document
(`worded_of_mem_search`). The name of a rule, the two grades and the field of an assignment are read
as characters that are no blanks, so none of them has a line break. The header of an event block is
the one part that can have one: there are any blanks between `on` and the name of the event.

Two facts follow. A message has a line break if and only if it is about an assignment in a block
with one in its header (`Check.Worded.not_onOneLine_iff`). And in no message is there a blank after
`>` (`Check.Worded.unarrowed`), whatever the document says; so nothing in a message can be taken for
the location in a report.
-/

namespace RuleLint

/-! ### Line breaks -/

/-- The code points after which there is always a new line: line feed, vertical tab, form feed,
carriage return, next line, and the separators of lines and paragraphs. -/
def lineBreakCodePoints : CodePoints :=
  [(10, 13), (133, 133), (8232, 8233)]

/-- Whether a character ends a line. -/
def isLineBreak (c : Char) : Bool :=
  lineBreakCodePoints.has c

theorem isBlank_of_isLineBreak {c : Char} (h : isLineBreak c = true) : isBlank c = true := by
  obtain ⟨interval, hmem, hlow, hhigh⟩ := CodePoints.has_iff.1 h
  simp only [lineBreakCodePoints, List.mem_cons, List.not_mem_nil, or_false] at hmem
  rcases hmem with rfl | rfl | rfl
  · have hbetween : (9, 13) ∈ blankCodePoints := by decide
    exact CodePoints.mem_of_interval hbetween (by omega) hhigh
  · exact CodePoints.mem_of_interval (by decide) hlow hhigh
  · exact CodePoints.mem_of_interval (by decide) hlow hhigh

/-- Whether a text has no line break. -/
def OnOneLine (cs : List Char) : Prop :=
  ∀ x ∈ cs, isLineBreak x = false

instance (cs : List Char) : Decidable (OnOneLine cs) :=
  decidable_of_iff (cs.all (!isLineBreak ·) = true) (by simp [OnOneLine])

theorem OnOneLine.append {as bs : List Char} (has : OnOneLine as) (hbs : OnOneLine bs) :
    OnOneLine (as ++ bs) :=
  List.forall_mem_append.2 ⟨has, hbs⟩

theorem onOneLine_of_not_isBlank {cs : List Char} (h : ∀ x ∈ cs, isBlank x = false) :
    OnOneLine cs := by
  intro x hx
  by_contra hbreak
  have hblank := isBlank_of_isLineBreak (eq_true_of_ne_false hbreak)
  rw [h x hx] at hblank
  cases hblank

theorem OnOneLine.newline_notMem {cs : List Char} (h : OnOneLine cs) : '\n' ∉ cs := by
  intro hmem
  exact absurd (h _ hmem) (by decide)

/-! ### Arrows -/

/-- Whether there is no blank right after `>` in a text. -/
def Unarrowed (cs : List Char) : Prop :=
  cs.IsChain fun x y ↦ ¬(x = '>' ∧ y = ' ')

theorem Unarrowed.append {as bs : List Char} (has : Unarrowed as) (hbs : Unarrowed bs)
    (h : as.getLast? ≠ some '>' ∨ bs.head? ≠ some ' ') : Unarrowed (as ++ bs) := by
  refine List.isChain_append.2 ⟨has, hbs, fun x hx y hy hboth ↦ ?_⟩
  obtain ⟨rfl, rfl⟩ := hboth
  rcases h with h | h
  · exact h hx
  · exact h hy

theorem unarrowed_of_notMem_arrow {cs : List Char} (h : '>' ∉ cs) : Unarrowed cs := by
  refine (List.pairwise_of_forall_mem_list fun x hx y _ hboth ↦ ?_).isChain
  exact h (hboth.1 ▸ hx)

theorem unarrowed_of_not_isBlank {cs : List Char} (h : ∀ x ∈ cs, isBlank x = false) :
    Unarrowed cs := by
  refine (List.pairwise_of_forall_mem_list fun x _ y hy hboth ↦ ?_).isChain
  obtain ⟨-, rfl⟩ := hboth
  exact absurd (h _ hy) (by decide)

/-- A text between two without arrows, the second of which does not start with a blank. -/
theorem Unarrowed.enclose {left cs right : List Char} (hcs : Unarrowed cs) (hleft : '>' ∉ left)
    (hright : '>' ∉ right) (hhead : right.head? ≠ some ' ') : Unarrowed (left ++ cs ++ right) := by
  have hopened := (unarrowed_of_notMem_arrow hleft).append hcs
    (.inl fun hlast ↦ hleft (List.mem_of_getLast? hlast))
  exact hopened.append (unarrowed_of_notMem_arrow hright) (.inr hhead)

namespace Check

variable {context : Context} {text : List Char} {d : Diagnostic} {rule : Rule} {message : String}

/-! ### Captured parts -/

theorem not_isBlank_of_isSolid {x : Char} (h : isSolid x = true) : isBlank x = false := by
  simpa [isSolid] using h

theorem not_isBlank_of_isRuleNameChar {x : Char} (h : isRuleNameChar x = true) :
    isBlank x = false := by
  simp only [isRuleNameChar, Bool.and_eq_true, Bool.not_eq_true'] at h
  exact h.1

theorem not_isBlank_of_isEventNameChar {x : Char} (h : isEventNameChar x = true) :
    isBlank x = false := by
  simp only [isEventNameChar, Bool.and_eq_true, Bool.not_eq_true'] at h
  exact h.1

theorem isFieldChar_of_assignment {c next : Cursor} {found : Assignment}
    (h : assignment c = some (found, next)) : ∀ x ∈ found.field.content, isFieldChar x = true := by
  obtain ⟨-, -, hfield⟩ := assignment_eq_some h
  obtain ⟨-, hcontent, -⟩ := field_of_assignmentField hfield
  rw [hcontent]
  exact fun x hx ↦ List.mem_takeWhile_imp hx

/-- The declaration of a name is read on from where it starts, and the name has no blank. -/
theorem reads_nameDeclaration {c next : Cursor} {declared : List Char}
    (h : nameDeclaration c = some (declared, next)) :
    next.text = c.text ∧ ∀ x ∈ declared, isBlank x = false := by
  obtain ⟨-, h⟩ := Option.ite_none_right_eq_some.1 h
  obtain ⟨_, hword, h⟩ := Option.bind_eq_some_iff.1 h
  obtain ⟨start, hstart, h⟩ := Option.bind_eq_some_iff.1 h
  obtain ⟨stop, hstop, h⟩ := Option.bind_eq_some_iff.1 h
  obtain ⟨_, hcolon, h⟩ := Option.bind_eq_some_iff.1 h
  obtain ⟨rfl, rfl⟩ := Prod.mk.inj (Option.some.inj h)
  have hopened := (c.spells_skipBlanks.mul (Cursor.spells_word hword)).mul
    (Cursor.spells_run hstart)
  have hclosed := stop.spells_skipBlanks.mul (Cursor.spells_char hcolon)
  obtain ⟨cs, hreads, -, hall, -⟩ := Cursor.reads_run hstop
  refine ⟨hclosed.text_eq.trans (hreads.text_eq.trans hopened.text_eq), fun x hx ↦ ?_⟩
  rw [hreads.upTo_eq] at hx
  exact not_isBlank_of_isRuleNameChar (hall x hx)

theorem not_isBlank_of_declaredName {declared : List Char}
    (h : declaredName context.chars = some declared) : ∀ x ∈ declared, isBlank x = false := by
  obtain ⟨found, hfound, rfl⟩ := Option.map_eq_some_iff.1 h
  obtain ⟨-, hfound⟩ := of_mem_findAll (fun _ _ _ h ↦ (reads_nameDeclaration h).1)
    (mem_findAll_of_findFirst hfound)
  exact (reads_nameDeclaration hfound).2

theorem not_isBlank_of_grade {name : String} {found : Found (List Char)}
    (h : findFirst (gradeAssignment name) context.chars = some found) :
    ∀ x ∈ found.value, isBlank x = false := by
  obtain ⟨-, hfound⟩ := of_mem_findAll (fun c grade d h ↦ (spells_gradeAssignment h).text_eq)
    (mem_findAll_of_findFirst h)
  obtain ⟨_, -, hfound⟩ := Option.bind_eq_some_iff.1 hfound
  obtain ⟨_, -, hfound⟩ := Option.bind_eq_some_iff.1 hfound
  obtain ⟨start, -, hfound⟩ := Option.bind_eq_some_iff.1 hfound
  obtain ⟨cs, stop, hreads, -, hall, hfound, -⟩ := Cursor.reads_shortest hfound
  obtain ⟨next, -, hfound⟩ := Option.bind_eq_some_iff.1 hfound
  have hvalue := (Prod.mk.inj (Option.some.inj hfound)).1
  rw [← hvalue, hreads.upTo_eq]
  exact fun x hx ↦ not_isBlank_of_isSolid (hall x hx)

/-- The headers of the event blocks of a text. -/
def eventHeaders (text : List Char) : List (List Char) :=
  (findAll (block eventHeader) text).map fun found ↦ found.value.header

theorem header_mem_eventHeaders {block : Block} (h : block ∈ blocks eventHeader context) :
    block.header ∈ eventHeaders context.chars := by
  obtain ⟨found, hfound, rfl⟩ := List.mem_map.1 h
  exact List.mem_map_of_mem hfound

/-- A header is what its recogniser reads. -/
theorem mem_eventHeader {header : List Char} (h : header ∈ eventHeaders text) :
    header ∈ Construct.eventHeader := by
  obtain ⟨found, hfound, rfl⟩ := List.mem_map.1 h
  obtain ⟨-, hfound⟩ := of_mem_findAll (fun c block d h ↦ by
    obtain ⟨_, _, -, -, -, -, hd⟩ := isBody_block (fun _ _ ↦ spells_eventHeader) h
    exact hd) hfound
  obtain ⟨-, hfound⟩ := Option.ite_none_right_eq_some.1 hfound
  obtain ⟨headerEnd, hheader, hfound⟩ := Option.bind_eq_some_iff.1 hfound
  obtain ⟨start, -, hfound⟩ := Option.bind_eq_some_iff.1 hfound
  obtain ⟨next, -, hfound⟩ := Option.bind_eq_some_iff.1 hfound
  obtain ⟨cs, hcs, hreads⟩ := spells_eventHeader hheader
  have hvalue := (Prod.mk.inj (Option.some.inj hfound)).1
  rw [← hvalue, hreads.upTo_eq]
  exact hcs

/-- The blanks of a header come before the name of the event, and only the name can have `>`. -/
theorem unarrowed_header {header : List Char} (h : header ∈ eventHeaders text) :
    Unarrowed header := by
  rcases mem_eventHeader h with
    ⟨_, ⟨_, rfl, pad, ⟨-, hpad⟩, rfl⟩, name, ⟨-, hname⟩, hheader⟩ | hheader
  · rw [← hheader]
    have hblanks : '>' ∉ pad := fun hmem ↦ absurd (hpad _ hmem) (by decide)
    have hopened : '>' ∉ "on".toList ++ pad := by
      rw [List.mem_append, not_or]
      exact ⟨by decide, hblanks⟩
    have hsolid := unarrowed_of_not_isBlank fun x hx ↦ not_isBlank_of_isEventNameChar (hname x hx)
    have henclosed := hsolid.enclose hopened List.not_mem_nil nofun
    rwa [List.append_nil] at henclosed
  · rw [hheader]
    exact unarrowed_of_notMem_arrow (by decide)

/-! ### Messages -/

/-- The messages that the findings of a rule in a text can have. -/
inductive Worded (text : List Char) : Rule → String → Prop
  | comparison : Worded text .lowerComparisonCase comparisonMessage
  | loweredCall : Worded text .nestedLowerCase loweredCallMessage
  | assignment {header field : List Char} (hheader : header ∈ eventHeaders text)
      (hfield : ∀ x ∈ field, isFieldChar x = true) :
      Worded text .fieldAssignmentInBlock (assignmentMessage field header)
  | concatenation : Worded text .numberToStringConcat concatenationMessage
  | equation : Worded text .filterSingleEquals equationMessage
  | key : Worded text .whitelistKeyMismatch keyMessage
  | name {declared : List Char} (hdeclared : ∀ x ∈ declared, isBlank x = false) :
      Worded text .whitelistRuleNameMismatch (nameMessage declared)
  | grades {importance severity : List Char} (himportance : ∀ x ∈ importance, isBlank x = false)
      (hseverity : ∀ x ∈ severity, isBlank x = false) :
      Worded text .importanceSeverityMismatch (gradeMessage importance severity)

theorem worded_assignment {block : Block} (hblock : block ∈ blocks eventHeader context)
    (h : d ∈ assignmentFindings context block) : Worded context.chars d.rule d.message := by
  obtain ⟨found, hfound, h⟩ := List.mem_filterMap.1 h
  obtain ⟨-, h⟩ := Option.ite_none_right_eq_some.1 h
  obtain rfl := Option.some.inj h
  obtain ⟨-, hfound⟩ := of_mem_findAll (fun _ _ _ ↦ text_assignment) hfound
  exact .assignment (header_mem_eventHeaders hblock) (isFieldChar_of_assignment hfound)

theorem worded_name {declared : List Char} (hdeclared : ∀ x ∈ declared, isBlank x = false)
    (h : d ∈ nameFindings context declared) : Worded context.chars d.rule d.message := by
  obtain ⟨call, -, h⟩ := List.mem_filterMap.1 h
  obtain ⟨-, h⟩ := Option.ite_none_left_eq_some.1 h
  obtain rfl := Option.some.inj h
  exact .name hdeclared

theorem worded_grades (h : gradeFinding context = some d) :
    Worded context.chars d.rule d.message := by
  obtain ⟨importance, himportance, h⟩ := Option.bind_eq_some_iff.1 h
  obtain ⟨severity, hseverity, h⟩ := Option.bind_eq_some_iff.1 h
  obtain ⟨-, h⟩ := Option.ite_none_left_eq_some.1 h
  obtain rfl := Option.some.inj h
  exact .grades (not_isBlank_of_grade himportance) (not_isBlank_of_grade hseverity)

/-- A finding with a fixed message, out of a search that makes one for some of its finds. -/
theorem message_of_mem_filterMap {α : Type} {finds : List α} {keeps : α → Bool} {span : α → Span}
    (h : d ∈ finds.filterMap fun found ↦
      if keeps found then some (context.finding rule (span found) message) else none) :
    d.rule = rule ∧ d.message = message := by
  obtain ⟨found, -, h⟩ := List.mem_filterMap.1 h
  obtain ⟨-, h⟩ := Option.ite_none_right_eq_some.1 h
  obtain rfl := Option.some.inj h
  exact ⟨rfl, rfl⟩

/-- **The messages of the standard checks.** -/
theorem worded_of_mem_search {check : Check} {findings : List Diagnostic}
    (hcheck : check ∈ Suite.standard) (hsearch : check.search context = .ok findings)
    (h : d ∈ findings) : Worded context.chars d.rule d.message := by
  simp only [Suite.standard, List.mem_cons, List.not_mem_nil, or_false] at hcheck
  rcases hcheck with rfl | rfl | rfl | rfl | rfl | rfl | rfl | rfl <;>
    obtain rfl := Except.ok.inj hsearch
  · obtain ⟨hrule, hmessage⟩ := message_of_mem_filterMap (mem_of_mem_capped h)
    rw [hrule, hmessage]
    exact .comparison
  · obtain ⟨function, hfunction, h⟩ := List.mem_flatMap.1 h
    obtain ⟨hrule, hmessage⟩ := message_of_mem_filterMap (mem_of_mem_capped h)
    rw [hrule, hmessage]
    exact .loweredCall
  · obtain ⟨block, hblock, h⟩ := List.mem_flatMap.1 h
    exact worded_assignment hblock (mem_of_mem_capped h)
  · obtain ⟨found, -, rfl⟩ := List.mem_map.1 (mem_of_mem_capped h)
    exact .concatenation
  · obtain ⟨block, hblock, h⟩ := List.mem_flatMap.1 h
    obtain ⟨hrule, hmessage⟩ := message_of_mem_filterMap (mem_of_mem_capped h)
    rw [hrule, hmessage]
    exact .equation
  · split at h
    · cases h
    · split at h
      · cases h
      · obtain ⟨call, -, h⟩ := List.mem_filterMap.1 (mem_of_mem_capped h)
        obtain ⟨argument, -, h⟩ := Option.bind_eq_some_iff.1 h
        obtain ⟨-, h⟩ := Option.ite_none_left_eq_some.1 h
        obtain rfl := Option.some.inj h
        exact .key
  · split at h
    · cases h
    · rename_i declared hdeclared
      exact worded_name (not_isBlank_of_declaredName hdeclared) (mem_of_mem_capped h)
  · exact worded_grades (Option.mem_toList.1 h)

/-! ### Line breaks and arrows in messages -/

theorem toList_assignmentMessage (field header : List Char) :
    (assignmentMessage field header).toList = "Assigning event field ".toList ++ field ++
      " is not allowed in block '".toList ++ header ++ "'. Use $".toList ++ field := by
  unfold assignmentMessage
  generalize "Assigning event field " = opened, " is not allowed in block '" = middle,
    "'. Use $" = closed
  simp only [String.toList_append, String.toList_ofList]

theorem toList_nameMessage (declared : List Char) :
    (nameMessage declared).toList =
      "The first argument of the whitelisting macro differs from the rule name '".toList ++
        declared ++ "'".toList := by
  unfold nameMessage
  generalize "The first argument of the whitelisting macro differs from the rule name '" = opened
  simp only [String.toList_append, String.toList_ofList]

theorem toList_gradeMessage (importance severity : List Char) :
    (gradeMessage importance severity).toList = "Alert importance \"".toList ++ importance ++
      "\" differs from incident severity \"".toList ++ severity ++ "\"".toList := by
  unfold gradeMessage
  generalize "Alert importance \"" = opened, "\" differs from incident severity \"" = middle
  simp only [String.toList_append, String.toList_ofList]

theorem onOneLine_assignmentMessage {field header : List Char}
    (hfield : ∀ x ∈ field, isFieldChar x = true) :
    OnOneLine (assignmentMessage field header).toList ↔ OnOneLine header := by
  have hfield : OnOneLine field := onOneLine_of_not_isBlank fun x hx ↦
    not_isBlank_of_isFieldChar (hfield x hx)
  rw [toList_assignmentMessage]
  constructor
  · intro h x hx
    exact h x (List.mem_append_left _ (List.mem_append_left _ (List.mem_append_right _ hx)))
  · intro h
    have hopened : OnOneLine "Assigning event field ".toList := by decide +kernel
    have hmiddle : OnOneLine " is not allowed in block '".toList := by decide +kernel
    have hclosed : OnOneLine "'. Use $".toList := by decide +kernel
    exact ((((hopened.append hfield).append hmiddle).append h).append hclosed).append hfield

/-- **A message has a line break if and only if it is about an assignment in a block with one in its
header.** -/
theorem Worded.not_onOneLine_iff (h : Worded text rule message) :
    ¬OnOneLine message.toList ↔ rule = .fieldAssignmentInBlock ∧
      ∃ header ∈ eventHeaders text, ¬OnOneLine header ∧
        ∃ field, (∀ x ∈ field, isFieldChar x = true) ∧
          message = assignmentMessage field header := by
  constructor
  · intro hbroken
    cases h with
    | comparison => exact absurd (by decide +kernel) hbroken
    | loweredCall => exact absurd (by decide +kernel) hbroken
    | @assignment header field hheader hfield =>
      rw [onOneLine_assignmentMessage hfield] at hbroken
      exact ⟨rfl, header, hheader, hbroken, field, hfield, rfl⟩
    | concatenation => exact absurd (by decide +kernel) hbroken
    | equation => exact absurd (by decide +kernel) hbroken
    | key => exact absurd (by decide +kernel) hbroken
    | @name declared hdeclared =>
      refine absurd ?_ hbroken
      rw [toList_nameMessage]
      have hopened : OnOneLine
          "The first argument of the whitelisting macro differs from the rule name '".toList := by
        decide +kernel
      exact (hopened.append (onOneLine_of_not_isBlank hdeclared)).append (by decide +kernel)
    | @grades importance severity himportance hseverity =>
      refine absurd ?_ hbroken
      rw [toList_gradeMessage]
      have hopened : OnOneLine "Alert importance \"".toList := by decide +kernel
      have hmiddle : OnOneLine "\" differs from incident severity \"".toList := by decide +kernel
      exact (((hopened.append (onOneLine_of_not_isBlank himportance)).append hmiddle).append
        (onOneLine_of_not_isBlank hseverity)).append (by decide +kernel)
  · rintro ⟨-, header, -, hbroken, field, hfield, rfl⟩
    rwa [onOneLine_assignmentMessage hfield]

/-- **There is no blank after `>` in a message.** -/
theorem Worded.unarrowed (h : Worded text rule message) : Unarrowed message.toList := by
  cases h with
  | comparison => exact unarrowed_of_notMem_arrow (by decide +kernel)
  | loweredCall => exact unarrowed_of_notMem_arrow (by decide +kernel)
  | @assignment header field hheader hfield =>
    have harrow : '>' ∉ field := fun hmem ↦ absurd (hfield _ hmem) (by decide)
    have hopened : '>' ∉ "Assigning event field ".toList ++ field ++
        " is not allowed in block '".toList := by
      rw [List.mem_append, List.mem_append, not_or, not_or]
      exact ⟨⟨by decide +kernel, harrow⟩, by decide +kernel⟩
    have hclosed : '>' ∉ "'. Use $".toList ++ field := by
      rw [List.mem_append, not_or]
      exact ⟨by decide +kernel, harrow⟩
    have hhead : "'. Use $".toList.head? = some '\'' := by decide +kernel
    rw [toList_assignmentMessage, List.append_assoc]
    refine (unarrowed_header hheader).enclose hopened hclosed ?_
    rw [List.head?_append, hhead]
    exact nofun
  | concatenation => exact unarrowed_of_notMem_arrow (by decide +kernel)
  | equation => exact unarrowed_of_notMem_arrow (by decide +kernel)
  | key => exact unarrowed_of_notMem_arrow (by decide +kernel)
  | @name declared hdeclared =>
    rw [toList_nameMessage]
    exact (unarrowed_of_not_isBlank hdeclared).enclose (by decide +kernel) (by decide +kernel)
      (by decide +kernel)
  | @grades importance severity himportance hseverity =>
    have hfirst := (unarrowed_of_not_isBlank himportance).enclose
      (by decide +kernel : '>' ∉ "Alert importance \"".toList)
      (by decide +kernel : '>' ∉ "\" differs from incident severity \"".toList) (by decide +kernel)
    rw [toList_gradeMessage]
    refine (hfirst.append (unarrowed_of_not_isBlank hseverity) (.inl ?_)).append
      (unarrowed_of_notMem_arrow (by decide)) (.inr (by decide))
    have hlast : "\" differs from incident severity \"".toList.getLast? = some '"' := by
      decide +kernel
    rw [List.getLast?_append, hlast]
    exact nofun

end Check

end RuleLint
