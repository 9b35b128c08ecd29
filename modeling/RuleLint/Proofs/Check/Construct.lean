import RuleLint.Proofs.Text.Places
import RuleLint.Suite

/-!
# The constructs that rules are about

For each rule, what a finding of it has to mark. A construct is given by the formal language of its
text, put together as the rule describes it, and where the text alone does not decide, by what
stands around it: the block in which it lies, the call of which it is an argument.

`IsInstance rule start stop` is about two cursors of a text and mentions no recogniser. That the
recognisers of the checks read instances is proved construct by construct, each time along the
movements of the recogniser.
-/

namespace RuleLint

/-- Whether the text from one cursor to another is in a language. -/
def Cursor.Spells (c : Cursor) (l : Language Char) (d : Cursor) : Prop :=
  ∃ cs ∈ l, c.Reads cs d

namespace Construct

/-! ### Small languages -/

/-- The character `x`. -/
def mark (x : Char) : Language Char :=
  {[x]}

/-- The word `w`. -/
def said (w : String) : Language Char :=
  {w.toList}

/-- One of some words. -/
def oneOf (words : List String) : Language Char :=
  {cs | ∃ w ∈ words, cs = w.toList}

/-- Any number of characters with `p`. -/
def many (p : Char → Bool) : Language Char :=
  {cs | ∀ x ∈ cs, p x = true}

/-- One or more characters with `p`. -/
def several (p : Char → Bool) : Language Char :=
  {cs | cs ≠ [] ∧ ∀ x ∈ cs, p x = true}

/-- Any number of blanks. -/
def blanks : Language Char :=
  many isBlank

/-- A literal on one line, with its quotes, whose content is in a language. -/
def literal (contents : Language Char) : Language Char :=
  mark '"' * (contents ⊓ {cs | ∀ x ∈ cs, x ≠ '"' ∧ x ≠ '\n'}) * mark '"'

/-! ### Languages of constructs -/

/-- `lower(…)`. -/
def lowered : Language Char :=
  said "lower" * blanks * mark '(' * blanks * several Check.isSolid * blanks * mark ')'

/-- `lower(…)`, compared by `==` or `!=` with a literal. -/
def comparison (contents : Language Char) : Language Char :=
  lowered * blanks * oneOf ["==", "!="] * blanks * literal contents

/-- A function called with `lower(…)` and a literal. -/
def loweredCall (function : String) (contents : Language Char) : Language Char :=
  said function * blanks * mark '(' * blanks * lowered * blanks * mark ',' * blanks *
    literal contents

/-- A field, a sign and a value. -/
def assignment (sign : Language Char) : Language Char :=
  several Check.isFieldChar * blanks * sign * blanks * several Check.isSolid

/-- A word, a sign and a literal, set apart by blanks. -/
def equation (sign : Language Char) : Language Char :=
  several Check.isSolid * several isBlank * sign * several isBlank * literal ⊤

/-- The name of a numeric field. -/
def fieldName : Language Char :=
  oneOf Check.numericFieldNames + said "numfield" * several isDecimalDigit

/-- A call of a whitelisting macro, up to the quote before the name. -/
def openedCall : Language Char :=
  said "filter::CheckWL_" * several isWord * blanks * mark '(' * blanks * mark '"'

/-- A call of a whitelisting macro, up to the quote after the name. -/
def namedCall : Language Char :=
  said "filter::CheckWL_" * several isWord * blanks * mark '(' * blanks * literal ⊤

/-- The severity of incidents, set to a literal without blanks. -/
def severityAssignment : Language Char :=
  said "$incident.severity" * blanks * mark '=' * blanks * mark '"' *
    several Check.isSolid * mark '"'

/-! ### Surroundings -/

/-- Two cursors at the ends of the body of a block, whose header is in a language. -/
structure IsBody (header : Language Char) (start stop : Cursor) : Prop where
  opened : ∃ c : Cursor, c.atWordBoundary = true ∧ c.Spells (header * blanks * mark '\x7b') start
  braceless : start.Spells (many (· != '\x7d')) stop
  closed : ∃ d, stop.Spells (mark '\x7d') d

/-- Two cursors inside the body of one block. -/
def InBody (header : Language Char) (start stop : Cursor) : Prop :=
  ∃ first last cs ds, IsBody header first last ∧ first.Reads cs start ∧ stop.Reads ds last

/-- `on` and the name of an event, or `emit`. -/
def eventHeader : Language Char :=
  said "on" * several isBlank * several Check.isEventNameChar + said "emit"

/-- A numeric field, with or without a sigil, that starts and ends at a word boundary. -/
def IsNumericField (start stop : Cursor) : Prop :=
  ∃ c, start.Spells (1 + mark '$') c ∧ c.atWordBoundary = true ∧ c.Spells fieldName stop ∧
    stop.atWordBoundary = true

/-- How deep a scan of an argument is in brackets, and where it stands with respect to literals. -/
structure Nesting where
  depth : Nat
  quotes : QuoteState
deriving DecidableEq

/-- Outside brackets and literals. -/
def Nesting.top : Nesting :=
  ⟨0, .outside⟩

/-- The nesting after one more character. A closing bracket that was never opened does not
count. -/
def Nesting.step (nesting : Nesting) (x : Char) : Nesting :=
  if nesting.quotes = .outside ∧ x ≠ '"' then
    if isOpening x then ⟨nesting.depth + 1, .outside⟩
    else if isClosing x then ⟨nesting.depth - 1, .outside⟩
    else nesting
  else
    ⟨nesting.depth, nesting.quotes.step x⟩

/-- The nesting after more characters. -/
def Nesting.steps (nesting : Nesting) (cs : List Char) : Nesting :=
  cs.foldl Nesting.step nesting

/-- Whether a text between two cursors goes up to the first delimiter outside brackets and
literals. -/
structure Delimits (nesting : Nesting) (c : Cursor) (cs : List Char) (d : Cursor) : Prop where
  reads : c.Reads cs d
  delimiter : ∃ x ∈ d.after.head?, isDelimiter x = true
  top : nesting.steps cs = .top
  first : ∀ as x bs, cs = as ++ x :: bs → nesting.steps as = .top → isDelimiter x = false

/-- One more character before a text that goes up to a delimiter. -/
theorem Delimits.cons {nesting : Nesting} {before after cs : List Char} {x : Char} {d : Cursor}
    (h : Delimits (nesting.step x) ⟨x :: before, after⟩ cs d)
    (hx : nesting = .top → isDelimiter x = false) :
    Delimits nesting ⟨before, x :: after⟩ (x :: cs) d where
  reads := h.reads.cons
  delimiter := h.delimiter
  top := h.top
  first := by
    intro as y bs hparts htop
    cases as with
    | nil =>
      obtain ⟨rfl, -⟩ := List.cons.inj hparts
      exact hx htop
    | cons a as =>
      obtain ⟨rfl, hrest⟩ := List.cons.inj hparts
      exact h.first as y bs hrest htop

/-- A whole argument of a call without the blanks around it: before it comes `before`, and after it,
apart from blanks, the delimiter that ends it. -/
structure IsArgument (before : Language Char) (start stop : Cursor) : Prop where
  called : ∃ c : Cursor, c.Spells (before * blanks) start
  trimmed : ∃ cs, start.Reads cs stop ∧ cs ≠ [] ∧ (∀ x ∈ cs.head?, isBlank x = false) ∧
    ∀ x ∈ cs.getLast?, isBlank x = false
  ended : ∃ cs pad d, stop.Reads pad d ∧ pad ∈ blanks ∧ Delimits .top start (cs ++ pad) d

/-! ### Instances -/

/-- Whether the text between two cursors is what a finding of a rule has to mark. -/
def IsInstance (start stop : Cursor) : Rule → Prop
  | .lowerComparisonCase =>
    start.atWordBoundary = true ∧ start.Spells (comparison {cs | hasUppercase cs = true}) stop
  | .nestedLowerCase =>
    start.atWordBoundary = true ∧ ∃ function ∈ ["find_substr", "match", "regex"],
      start.Spells (loweredCall function
        {cs | hasUppercase (Check.withoutClassEscapes cs) = true}) stop
  | .fieldAssignmentInBlock =>
    start.Spells (assignment (mark '=')) stop ∧ InBody eventHeader start stop
  | .numberToStringConcat =>
    (∃ c, IsNumericField start c ∧ c.Spells (blanks * mark '+' * blanks * literal ⊤) stop) ∨
      ∃ c, start.Spells (literal ⊤ * blanks * mark '+' * blanks) c ∧ IsNumericField c stop
  | .filterSingleEquals =>
    start.Spells (equation (mark '=')) stop ∧ InBody (said "filter") start stop
  | .whitelistKeyMismatch => IsArgument (namedCall * blanks * mark ',') start stop
  | .whitelistRuleNameMismatch =>
    (∃ c : Cursor, c.Spells openedCall start) ∧
      start.Spells {cs | ∀ x ∈ cs, x ≠ '"' ∧ x ≠ '\n'} stop ∧ ∃ d, stop.Spells (mark '"') d
  | .importanceSeverityMismatch => start.Spells severityAssignment stop

end Construct

/-! ### Movements spell languages -/

namespace Cursor

open Construct

variable {c d e : Cursor} {l m : Language Char} {p : Char → Bool}

theorem Spells.mul (first : c.Spells l d) (rest : d.Spells m e) : c.Spells (l * m) e := by
  obtain ⟨cs, hcs, hfirst⟩ := first
  obtain ⟨ds, hds, hrest⟩ := rest
  exact ⟨cs ++ ds, Language.append_mem_mul hcs hds, hfirst.trans hrest⟩

theorem Spells.exists_mid (h : c.Spells (l * m) e) : ∃ d, c.Spells l d ∧ d.Spells m e := by
  obtain ⟨_, ⟨cs, hcs, ds, hds, rfl⟩, hreads⟩ := h
  obtain ⟨d, hfirst, hrest⟩ := hreads.exists_split
  exact ⟨d, ⟨cs, hcs, hfirst⟩, ⟨ds, hds, hrest⟩⟩

theorem Spells.mono (h : c.Spells l d) (hle : l ≤ m) : c.Spells m d := by
  obtain ⟨cs, hcs, hreads⟩ := h
  exact ⟨cs, hle hcs, hreads⟩

theorem Spells.text_eq (h : c.Spells l d) : d.text = c.text := by
  obtain ⟨cs, -, hreads⟩ := h
  exact hreads.text_eq

theorem Spells.after_mem (h : c.Spells l d) : c.after ∈ l * (⊤ : Language Char) := by
  obtain ⟨cs, hcs, hreads⟩ := h
  rw [hreads.after_eq]
  exact Language.append_mem_mul hcs trivial

theorem Spells.within (h : c.Spells l d) (outer : Cursor) (rest : List Char) :
    (outer.within rest c).Spells l (outer.within rest d) := by
  obtain ⟨cs, hcs, hreads⟩ := h
  exact ⟨cs, hcs, hreads.within outer rest⟩

theorem spells_refl (c : Cursor) : c.Spells 1 c :=
  ⟨[], Language.nil_mem_one, .refl c⟩

theorem spells_char {x : Char} (h : c.char x = some d) : c.Spells (mark x) d :=
  ⟨[x], rfl, reads_char h⟩

theorem spells_word {w : String} (h : c.word w = some d) : c.Spells (said w) d :=
  ⟨w.toList, rfl, reads_word h⟩

theorem spells_oneOf {words : List String} {w : String} (hw : w ∈ words)
    (h : c.word w = some d) : c.Spells (oneOf words) d :=
  ⟨w.toList, ⟨w, hw, rfl⟩, reads_word h⟩

theorem spells_skip (p : Char → Bool) (c : Cursor) : c.Spells (many p) (c.skip p) := by
  obtain ⟨cs, hreads, hall, -⟩ := c.reads_skip p
  exact ⟨cs, hall, hreads⟩

theorem spells_skipBlanks (c : Cursor) : c.Spells blanks c.skipBlanks :=
  c.spells_skip isBlank

/-- Blanks are skipped up to something that does not begin with one. -/
theorem skipBlanks_of_spells {cs : List Char} (h : c.Spells blanks d) (hreads : d.Reads cs e)
    (hhead : ∃ x ∈ cs.head?, isBlank x = false) : c.skipBlanks = d := by
  obtain ⟨pad, hpad, hskipped⟩ := h
  obtain ⟨x, hx, hsolid⟩ := hhead
  obtain ⟨cs, rfl⟩ := List.head?_eq_some_iff.1 hx
  refine hskipped.skip_eq hpad fun y hy ↦ ?_
  obtain rfl := Option.mem_unique hreads.head?_after hy
  exact hsolid

theorem spells_run (h : c.run p = some d) : c.Spells (several p) d := by
  obtain ⟨cs, hreads, hne, hall, -⟩ := reads_run h
  exact ⟨cs, ⟨hne, hall⟩, hreads⟩

theorem spells_shortest {α : Type} {next : Cursor → Option α} {a : α}
    (h : c.shortest p next = some a) : ∃ d, c.Spells (several p) d ∧ next d = some a := by
  obtain ⟨cs, d, hreads, hne, hall, hnext, -⟩ := reads_shortest h
  exact ⟨d, ⟨cs, ⟨hne, hall⟩, hreads⟩, hnext⟩

end Cursor

namespace Check

open Construct

variable {c d : Cursor} {piece : Piece}

/-- A quoted literal, in three parts. -/
theorem spells_quoted_parts (h : quoted c = some (piece, d)) :
    c.Spells (mark '"') piece.start ∧
      piece.start.Spells ({piece.content} ⊓ {cs | ∀ x ∈ cs, x ≠ '"' ∧ x ≠ '\n'}) piece.stop ∧
      piece.stop.Spells (mark '"') d := by
  obtain ⟨hstart, hcontent, hstop, hall⟩ := reads_quoted h
  exact ⟨⟨_, rfl, hstart⟩, ⟨_, ⟨rfl, hall⟩, hcontent⟩, ⟨_, rfl, hstop⟩⟩

theorem spells_quoted {contents : Language Char} (h : quoted c = some (piece, d))
    (hcontent : piece.content ∈ contents) : c.Spells (literal contents) d := by
  obtain ⟨hstart, hpiece, hstop⟩ := spells_quoted_parts h
  refine (hstart.mul (hpiece.mono ?_)).mul hstop
  exact inf_le_inf_right _ (Set.singleton_subset_iff.2 hcontent)

/-! ### Lowered values -/

theorem spells_loweredThen {α : Type} {next : Cursor → Option α} {a : α}
    (h : loweredThen next c = some a) :
    ∃ d, c.Spells (lowered * blanks) d ∧ next d = some a := by
  obtain ⟨c₁, hword, h⟩ := Option.bind_eq_some_iff.1 h
  obtain ⟨c₂, hopen, h⟩ := Option.bind_eq_some_iff.1 h
  obtain ⟨c₃, hargument, h⟩ := Cursor.spells_shortest h
  obtain ⟨c₄, hclose, h⟩ := Option.bind_eq_some_iff.1 h
  have hcall := ((Cursor.spells_word hword).mul c₁.spells_skipBlanks).mul (Cursor.spells_char hopen)
  have hlowered := (((hcall.mul c₂.spells_skipBlanks).mul hargument).mul c₃.spells_skipBlanks).mul
    (Cursor.spells_char hclose)
  exact ⟨c₄.skipBlanks, hlowered.mul c₄.spells_skipBlanks, h⟩

theorem spells_comparison {contents : Language Char} (h : comparison c = some (piece, d))
    (hcontent : piece.content ∈ contents) :
    c.atWordBoundary = true ∧ c.Spells (Construct.comparison contents) d := by
  obtain ⟨hboundary, h⟩ := Option.ite_none_right_eq_some.1 h
  obtain ⟨c₁, hlowered, h⟩ := spells_loweredThen h
  obtain ⟨c₂, hoperator, h⟩ := Option.bind_eq_some_iff.1 h
  have hspells : c₁.Spells (oneOf ["==", "!="]) c₂ := by
    rcases Option.or_eq_some_iff.1 hoperator with hequal | ⟨-, hdiffers⟩
    · exact Cursor.spells_oneOf (by simp) hequal
    · exact Cursor.spells_oneOf (by simp) hdiffers
  exact ⟨hboundary, ((hlowered.mul hspells).mul c₂.spells_skipBlanks).mul
    (spells_quoted h hcontent)⟩

theorem text_comparison (h : comparison c = some (piece, d)) : d.text = c.text := by
  obtain ⟨-, hspells⟩ : _ ∧ c.Spells (Construct.comparison ⊤) d := spells_comparison h trivial
  exact hspells.text_eq

theorem spells_loweredCall {function : String} {contents : Language Char}
    (h : loweredCall function c = some (piece, d)) (hcontent : piece.content ∈ contents) :
    c.atWordBoundary = true ∧ c.Spells (Construct.loweredCall function contents) d := by
  obtain ⟨hboundary, h⟩ := Option.ite_none_right_eq_some.1 h
  obtain ⟨c₁, hword, h⟩ := Option.bind_eq_some_iff.1 h
  obtain ⟨c₂, hopen, h⟩ := Option.bind_eq_some_iff.1 h
  obtain ⟨c₃, hlowered, h⟩ := spells_loweredThen h
  obtain ⟨c₄, hcomma, h⟩ := Option.bind_eq_some_iff.1 h
  have hcall := (((Cursor.spells_word hword).mul c₁.spells_skipBlanks).mul
    (Cursor.spells_char hopen)).mul c₂.spells_skipBlanks
  have harguments := ((hcall.mul hlowered).mul (Cursor.spells_char hcomma)).mul c₄.spells_skipBlanks
  rw [← mul_assoc] at harguments
  exact ⟨hboundary, harguments.mul (spells_quoted h hcontent)⟩

theorem text_loweredCall {function : String} (h : loweredCall function c = some (piece, d)) :
    d.text = c.text := by
  obtain ⟨-, hspells⟩ : _ ∧ c.Spells (Construct.loweredCall function ⊤) d :=
    spells_loweredCall h trivial
  exact hspells.text_eq

/-! ### Blocks -/

/-- The body of a block, by the cursors at its two ends. -/
theorem isBody_block {header : Cursor → Option Cursor} {language : Language Char} {block : Block}
    (hheader : ∀ c d, header c = some d → c.Spells language d)
    (h : Check.block header c = some (block, d)) :
    ∃ start stop : Cursor, start.offset = block.base ∧ start.Reads block.body stop ∧
      IsBody language start stop ∧ start.text = c.text ∧ d.text = c.text := by
  obtain ⟨hboundary, h⟩ := Option.ite_none_right_eq_some.1 h
  obtain ⟨c₁, hc₁, h⟩ := Option.bind_eq_some_iff.1 h
  obtain ⟨start, hstart, h⟩ := Option.bind_eq_some_iff.1 h
  obtain ⟨next, hnext, h⟩ := Option.bind_eq_some_iff.1 h
  obtain ⟨rfl, rfl⟩ := Prod.mk.inj (Option.some.inj h)
  have hopened := ((hheader _ _ hc₁).mul c₁.spells_skipBlanks).mul (Cursor.spells_char hstart)
  have hclosed := Cursor.spells_char hnext
  obtain ⟨cs, hreads, -, -⟩ := start.reads_skip (· != '\x7d')
  refine ⟨start, start.skip (· != '\x7d'), rfl, ?_, ⟨⟨c, hboundary, hopened⟩,
    start.spells_skip _, ⟨_, hclosed⟩⟩, hopened.text_eq, ?_⟩
  · rw [hreads.upTo_eq]
    exact hreads
  · rw [hclosed.text_eq, Cursor.text_skip, hopened.text_eq]

theorem spells_eventHeader (h : eventHeader c = some d) : c.Spells Construct.eventHeader d := by
  rcases Option.or_eq_some_iff.1 h with hon | ⟨-, hemit⟩
  · obtain ⟨c₁, hword, hon⟩ := Option.bind_eq_some_iff.1 hon
    obtain ⟨c₂, hblanks, hname⟩ := Option.bind_eq_some_iff.1 hon
    have hspells := ((Cursor.spells_word hword).mul (Cursor.spells_run hblanks)).mul
      (Cursor.spells_run hname)
    exact hspells.mono le_self_add
  · exact (Cursor.spells_word hemit).mono le_add_self

theorem spells_value (h : value c = some d) : c.Spells (blanks * several isSolid) d :=
  c.spells_skipBlanks.mul (Cursor.spells_run h)

theorem spells_assignment {found : Assignment} (h : assignment c = some (found, d)) :
    c.Spells (several isBlank) found.field.start ∧ found.field.start.Spells
      (Construct.assignment (if found.isSingle then mark '=' else mark '=' * mark '=')) d := by
  obtain ⟨-, h⟩ := Option.ite_none_right_eq_some.1 h
  obtain ⟨start, hstart, h⟩ := Option.bind_eq_some_iff.1 h
  obtain ⟨stop, hstop, h⟩ := Option.bind_eq_some_iff.1 h
  obtain ⟨c₁, hsign, h⟩ := Option.bind_eq_some_iff.1 h
  have hfield := ((Cursor.spells_run hstop).mul stop.spells_skipBlanks)
  split at h
  · rename_i next hboth
    obtain ⟨rfl, rfl⟩ := Prod.mk.inj (Option.some.inj h)
    obtain ⟨c₂, hsecond, hvalue⟩ := Option.bind_eq_some_iff.1 hboth
    have hspells := (hfield.mul ((Cursor.spells_char hsign).mul (Cursor.spells_char hsecond))).mul
      (spells_value hvalue)
    rw [← mul_assoc] at hspells
    exact ⟨Cursor.spells_run hstart, hspells⟩
  · obtain ⟨c₂, hvalue, h⟩ := Option.bind_eq_some_iff.1 h
    obtain ⟨rfl, rfl⟩ := Prod.mk.inj (Option.some.inj h)
    have hspells := (hfield.mul (Cursor.spells_char hsign)).mul (spells_value hvalue)
    rw [← mul_assoc] at hspells
    exact ⟨Cursor.spells_run hstart, hspells⟩

theorem text_assignment {found : Assignment} (h : assignment c = some (found, d)) :
    d.text = c.text := by
  obtain ⟨hblanks, hspells⟩ := spells_assignment h
  exact hspells.text_eq.trans hblanks.text_eq

theorem spells_equation {found : Equation} (h : equation c = some (found, d)) :
    c.Spells (several isBlank) found.subject.start ∧
      found.subject.start.Spells (Construct.equation {found.operator}) d := by
  obtain ⟨start, hstart, h⟩ := Option.bind_eq_some_iff.1 h
  obtain ⟨stop, hstop, h⟩ := Option.bind_eq_some_iff.1 h
  obtain ⟨operator, hoperator, h⟩ := Option.bind_eq_some_iff.1 h
  obtain ⟨operatorEnd, hend, h⟩ := Option.bind_eq_some_iff.1 h
  obtain ⟨c₁, hblanks, h⟩ := Option.bind_eq_some_iff.1 h
  obtain ⟨⟨piece, next⟩, hquoted, h⟩ := Option.bind_eq_some_iff.1 h
  obtain ⟨rfl, rfl⟩ := Prod.mk.inj (Option.some.inj h)
  obtain ⟨cs, hreads, -, -, -⟩ := Cursor.reads_run hend
  have hsign : operator.Spells {operator.upTo operatorEnd} operatorEnd :=
    ⟨cs, hreads.upTo_eq.symm, hreads⟩
  have hspells := (((Cursor.spells_run hstop).mul (Cursor.spells_run hoperator)).mul hsign).mul
    (Cursor.spells_run hblanks)
  exact ⟨Cursor.spells_run hstart, hspells.mul (spells_quoted hquoted trivial)⟩

theorem text_equation {found : Equation} (h : equation c = some (found, d)) :
    d.text = c.text := by
  obtain ⟨hblanks, hspells⟩ := spells_equation h
  exact hspells.text_eq.trans hblanks.text_eq

/-! ### Numeric fields -/

theorem boundary_eq_some (h : boundary c = some d) : d = c ∧ c.atWordBoundary = true := by
  obtain ⟨hboundary, h⟩ := Option.ite_none_right_eq_some.1 h
  exact ⟨(Option.some.inj h).symm, hboundary⟩

theorem spells_numericFieldName (h : numericFieldName c = some d) :
    c.Spells fieldName d ∧ d.atWordBoundary = true := by
  rcases Option.or_eq_some_iff.1 h with hname | ⟨-, hnumbered⟩
  · obtain ⟨name, hmem, hname⟩ := List.exists_of_findSome?_eq_some hname
    obtain ⟨c₁, hword, hname⟩ := Option.bind_eq_some_iff.1 hname
    obtain ⟨rfl, hboundary⟩ := boundary_eq_some hname
    exact ⟨(Cursor.spells_oneOf hmem hword).mono le_self_add, hboundary⟩
  · obtain ⟨c₁, hword, hnumbered⟩ := Option.bind_eq_some_iff.1 hnumbered
    obtain ⟨c₂, hdigits, hnumbered⟩ := Option.bind_eq_some_iff.1 hnumbered
    obtain ⟨rfl, hboundary⟩ := boundary_eq_some hnumbered
    have hspells := (Cursor.spells_word hword).mul (Cursor.spells_run hdigits)
    exact ⟨hspells.mono le_add_self, hboundary⟩

theorem isNumericField (h : numericField c = some d) : IsNumericField c d := by
  obtain ⟨c₁, hboundary, h⟩ := Option.bind_eq_some_iff.1 h
  obtain ⟨rfl, hstart⟩ := boundary_eq_some hboundary
  obtain ⟨hname, hstop⟩ := spells_numericFieldName h
  refine ⟨_, ?_, hstart, hname, hstop⟩
  cases hsigil : c.char '$' with
  | none => exact (Cursor.spells_refl c).mono le_self_add
  | some c₂ => exact (Cursor.spells_char hsigil).mono le_add_self

theorem isInstance_concatenation (h : concatenation c = some ((), d)) :
    IsInstance c d .numberToStringConcat := by
  obtain ⟨stop, hstop, hd⟩ := Option.map_eq_some_iff.1 h
  obtain rfl : stop = d := (Prod.mk.inj hd).2
  rcases Option.or_eq_some_iff.1 hstop with hfirst | ⟨-, hlast⟩
  · obtain ⟨c₁, hfield, hfirst⟩ := Option.bind_eq_some_iff.1 hfirst
    obtain ⟨c₂, hplus, hfirst⟩ := Option.bind_eq_some_iff.1 hfirst
    obtain ⟨⟨piece, next⟩, hquoted, hfirst⟩ := Option.bind_eq_some_iff.1 hfirst
    obtain rfl := Option.some.inj hfirst
    have hspells := (c₁.spells_skipBlanks.mul (Cursor.spells_char hplus)).mul c₂.spells_skipBlanks
    exact .inl ⟨c₁, isNumericField hfield, hspells.mul (spells_quoted hquoted trivial)⟩
  · obtain ⟨⟨piece, c₁⟩, hquoted, hlast⟩ := Option.bind_eq_some_iff.1 hlast
    obtain ⟨c₂, hplus, hlast⟩ := Option.bind_eq_some_iff.1 hlast
    have hliteral : c.Spells (literal ⊤) c₁ := spells_quoted hquoted trivial
    have hspells := (hliteral.mul c₁.spells_skipBlanks).mul (Cursor.spells_char hplus)
    exact .inr ⟨_, hspells.mul c₂.spells_skipBlanks, isNumericField hlast⟩

/-! ### Whitelisting macros -/

theorem spells_whitelistCall (h : whitelistCall c = some (piece, d)) :
    c.Spells openedCall piece.start ∧ c.Spells namedCall d ∧
      piece.start.Spells {cs | ∀ x ∈ cs, x ≠ '"' ∧ x ≠ '\n'} piece.stop ∧
      piece.stop.Spells (mark '"') d := by
  obtain ⟨c₁, hword, h⟩ := Option.bind_eq_some_iff.1 h
  obtain ⟨c₂, hname, h⟩ := Option.bind_eq_some_iff.1 h
  obtain ⟨c₃, hopen, h⟩ := Option.bind_eq_some_iff.1 h
  have hcall := ((((Cursor.spells_word hword).mul (Cursor.spells_run hname)).mul
    c₂.spells_skipBlanks).mul (Cursor.spells_char hopen)).mul c₃.spells_skipBlanks
  obtain ⟨hstart, hcontent, hstop⟩ := spells_quoted_parts h
  exact ⟨hcall.mul hstart, hcall.mul (spells_quoted h trivial), hcontent.mono inf_le_right, hstop⟩

theorem isDelimiter_of_isOpening {x : Char} (h : isOpening x = true) : isDelimiter x = false := by
  simp only [isOpening, Bool.or_eq_true, beq_iff_eq] at h
  rcases h with (rfl | rfl) | rfl <;> rfl

theorem text_whitelistCall (h : whitelistCall c = some (piece, d)) : d.text = c.text := by
  obtain ⟨-, hspells, -, -⟩ := spells_whitelistCall h
  exact hspells.text_eq

/-- One step of the scan for a delimiter. -/
theorem delimiterFrom_cons (nesting : Nesting) (before after : List Char) (x : Char) :
    Cursor.delimiterFrom nesting.depth nesting.quotes before (x :: after) =
      if nesting = .top ∧ isDelimiter x = true then some ⟨before, x :: after⟩
      else Cursor.delimiterFrom (nesting.step x).depth (nesting.step x).quotes (x :: before)
        after := by
  obtain ⟨depth, quotes⟩ := nesting
  -- Brackets and delimiters count outside literals only, and a quote is neither.
  by_cases houtside : quotes = .outside ∧ x ≠ '"'
  · obtain ⟨rfl, hquote⟩ := houtside
    have hstep : Nesting.step ⟨depth, .outside⟩ x = if isOpening x then ⟨depth + 1, .outside⟩
        else if isClosing x then ⟨depth - 1, .outside⟩ else ⟨depth, .outside⟩ :=
      if_pos ⟨rfl, hquote⟩
    rw [hstep, Cursor.delimiterFrom, if_pos (by simpa using hquote)]
    by_cases hopening : isOpening x = true
    · have hdelimiter := isDelimiter_of_isOpening hopening
      rw [if_pos hopening, if_pos hopening, if_neg (by simp [hdelimiter])]
    rw [if_neg hopening, if_neg hopening]
    cases depth with
    | zero =>
      rw [if_neg (by simp)]
      by_cases hdelimiter : isDelimiter x = true
      · rw [if_pos (by simp [hdelimiter]), if_pos ⟨rfl, hdelimiter⟩]
      · rw [if_neg (by simp [hdelimiter]), if_neg (by simp [hdelimiter])]
        split <;> rfl
    | succ depth =>
      have htop : (⟨depth + 1, .outside⟩ : Nesting) ≠ .top := fun h ↦ by
        obtain ⟨hdepth, -⟩ := Nesting.mk.inj h
        cases hdepth
      have hgoes : ¬((⟨depth + 1, .outside⟩ : Nesting) = .top ∧ isDelimiter x = true) :=
        fun h ↦ htop h.1
      rw [if_neg hgoes]
      by_cases hclosing : isClosing x = true
      · rw [if_pos (by simp [hclosing]), if_pos hclosing]
      · rw [if_neg (by simp [hclosing]), if_neg (by simp), if_neg hclosing]
  · have hstep : Nesting.step ⟨depth, quotes⟩ x = ⟨depth, quotes.step x⟩ := if_neg houtside
    rw [hstep, Cursor.delimiterFrom, if_neg (by simpa using houtside), if_neg]
    rintro ⟨htop, hdelimiter⟩
    obtain ⟨-, rfl⟩ := Nesting.mk.inj htop
    obtain rfl : x = '"' := by simpa using houtside
    exact absurd hdelimiter (by decide)

/-- The induction is on the text after the cursor; a delimiter outside brackets and literals ends
the scan, so none comes before the one that is found. -/
theorem reads_delimiterFrom {depth : Nat} {quotes : QuoteState} {before after : List Char}
    (h : Cursor.delimiterFrom depth quotes before after = some d) :
    ∃ cs, Delimits ⟨depth, quotes⟩ ⟨before, after⟩ cs d := by
  induction after generalizing depth quotes before with
  | nil => cases h
  | cons x after ih =>
    rw [delimiterFrom_cons ⟨depth, quotes⟩] at h
    split_ifs at h with hends
    · obtain ⟨htop, hx⟩ := hends
      obtain rfl := Option.some.inj h
      exact ⟨[], .refl _, ⟨x, rfl, hx⟩, htop, by simp⟩
    · obtain ⟨cs, hcs⟩ := ih h
      exact ⟨x :: cs, .cons hcs fun htop ↦ by simpa [htop] using hends⟩

/-- The blanks before a cursor that follows a text are the end of that text, unless it begins with a
blank. -/
theorem exists_trimmed {start : Cursor} {cs : List Char} (hreads : start.Reads cs d)
    (hne : cs ≠ []) (hhead : ∀ x ∈ cs.head?, isBlank x = false) :
    ∃ as pad, cs = as ++ pad ∧ start.Reads as d.backBlanks ∧ d.backBlanks.Reads pad d ∧
      pad ∈ blanks ∧ as ≠ [] ∧ ∀ x ∈ as.getLast?, isBlank x = false := by
  obtain ⟨pad, hpad, hblank, hlast⟩ := d.reads_backBlanks
  obtain ⟨x, rest, rfl⟩ := List.exists_cons_of_ne_nil hne
  have hx : x ∉ pad := by
    intro hmem
    have hnot := hhead x rfl
    rw [hblank x hmem] at hnot
    cases hnot
  have hbefore : pad.reverse ++ d.backBlanks.before = (x :: rest).reverse ++ start.before := by
    rw [← hpad.before_eq, hreads.before_eq]
  rcases List.append_eq_append_iff.1 hbefore with ⟨as, has, hrest⟩ | ⟨as, has, -⟩
  · have hparts : x :: rest = as.reverse ++ pad := by
      rw [← List.reverse_reverse (x :: rest), has, List.reverse_append, List.reverse_reverse]
    have hsome : as ≠ [] := by
      rintro rfl
      have hwhole : x :: rest = pad := hparts
      exact hx (hwhole ▸ List.mem_cons_self)
    obtain ⟨y, as, rfl⟩ := List.exists_cons_of_ne_nil hsome
    refine ⟨(y :: as).reverse, pad, hparts, ⟨?_, ?_⟩, hpad, hblank, by simp, ?_⟩
    · rw [List.reverse_reverse, hrest]
    · rw [hreads.after_eq, hparts, hpad.after_eq, List.append_assoc]
    · rw [List.getLast?_reverse]
      rw [hrest] at hlast
      exact hlast
  · -- the first character of the text would be one of the blanks
    refine absurd ?_ hx
    rw [← List.mem_reverse, has]
    simp

/-- An argument is read after blanks, and is followed by blanks and a delimiter. -/
theorem reads_argument (h : c.argument = some piece) :
    piece.start = c.skipBlanks ∧ ∃ as pad delimiter, piece.start.Reads as piece.stop ∧ as ≠ [] ∧
      (∀ x ∈ as.head?, isBlank x = false) ∧ (∀ x ∈ as.getLast?, isBlank x = false) ∧
      piece.stop.Reads pad delimiter ∧ pad ∈ blanks ∧
      Delimits .top piece.start (as ++ pad) delimiter := by
  obtain ⟨delimiter, hdelimiter, h⟩ := Option.bind_eq_some_iff.1 h
  obtain ⟨hlength, h⟩ := Option.ite_none_right_eq_some.1 h
  obtain rfl := Option.some.inj h
  obtain ⟨cs, hcs⟩ := reads_delimiterFrom hdelimiter
  have hne : cs ≠ [] := hcs.reads.length_lt_iff.1 hlength
  have hreads : c.skipBlanks.Reads cs delimiter := hcs.reads
  obtain ⟨as, pad, rfl, hargument, hpad, hblank, hsome, hlast⟩ :=
    exists_trimmed hreads hne hreads.head_skipBlanks
  exact ⟨rfl, as, pad, delimiter, hargument, hsome, hargument.head_skipBlanks, hlast, hpad, hblank,
    hcs⟩

/-- The key of a call is an argument of it. -/
theorem isInstance_keyArgument {call : Found Piece} {piece : Piece}
    (hcall : whitelistCall call.start = some (call.value, call.stop))
    (h : keyArgument call = some piece) :
    IsInstance piece.start piece.stop .whitelistKeyMismatch ∧
      piece.start.text = call.start.text := by
  obtain ⟨-, hspells, -, -⟩ := spells_whitelistCall hcall
  obtain ⟨c₁, hcomma, h⟩ := Option.bind_eq_some_iff.1 h
  obtain ⟨hstart, as, pad, delimiter, hargument, hne, hhead, hlast, hpad, hblank, hends⟩ :=
    reads_argument h
  have hbefore := ((hspells.mul call.stop.spells_skipBlanks).mul (Cursor.spells_char hcomma)).mul
    c₁.spells_skipBlanks
  rw [← hstart] at hbefore
  refine ⟨⟨⟨_, hbefore⟩, ?_, as, pad, delimiter, hpad, hblank, hends⟩, hbefore.text_eq⟩
  exact ⟨as, hargument, hne, hhead, hlast⟩

/-- The name in a call of a whitelisting macro. -/
theorem isInstance_whitelistCall (h : whitelistCall c = some (piece, d)) :
    IsInstance piece.start piece.stop .whitelistRuleNameMismatch := by
  obtain ⟨hstart, -, hcontent, hstop⟩ := spells_whitelistCall h
  exact ⟨⟨_, hstart⟩, hcontent, _, hstop⟩

/-! ### Grades -/

theorem spells_gradeAssignment {name : String} {grade : List Char}
    (h : gradeAssignment name c = some (grade, d)) :
    c.Spells (said name * blanks * mark '=' * blanks * mark '"' * several isSolid * mark '"')
      d := by
  obtain ⟨c₁, hword, h⟩ := Option.bind_eq_some_iff.1 h
  obtain ⟨c₂, hsign, h⟩ := Option.bind_eq_some_iff.1 h
  obtain ⟨start, hstart, h⟩ := Option.bind_eq_some_iff.1 h
  obtain ⟨stop, hgrade, h⟩ := Cursor.spells_shortest h
  obtain ⟨next, hnext, h⟩ := Option.bind_eq_some_iff.1 h
  obtain ⟨-, rfl⟩ := Prod.mk.inj (Option.some.inj h)
  have hopened := ((((Cursor.spells_word hword).mul c₁.spells_skipBlanks).mul
    (Cursor.spells_char hsign)).mul c₂.spells_skipBlanks).mul (Cursor.spells_char hstart)
  exact (hopened.mul hgrade).mul (Cursor.spells_char hnext)

end Check

end RuleLint
