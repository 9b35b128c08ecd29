import RuleLint.Proofs.Check.Remarked

/-!
# What the end of a line can cut

A search of a text may find something that begins above the end of a line and goes on below. Where
it does not, the end of the line cuts nothing (`LineEnd.Clear`): what a rule finds or reads in the
text, it finds or reads above the end of the line and below, each part by itself. This is said rule
by rule, since each looks for something of its own, and the rules on blocks have bodies to look at.

The searches here have something more at the end of the line, of which nothing is asked but that
nothing begins there.
-/

namespace RuleLint

open Cursor Check

namespace LineEnd

variable (cut : LineEnd) (context : Context)

/-! ### What a line end can cut -/

/-- Whether what a search finds above the end of a line and what it finds below, each part by
itself, is found in the whole text, as far as the limit goes. If not, something that goes over the
end of the line hides it. -/
def KeepsParts (findings : Context → List Diagnostic) : Prop :=
  Covered
    ((findings (context.withText cut.above) ++
      (findings (context.withText cut.below)).map (Diagnostic.down cut.lines)).take context.limit)
    ((findings context).take context.limit)

/-- The same for what is found in blocks. If the end of the line is in the body of a block, there is
a condition on its two parts. -/
structure KeepsBlocks (header : Cursor → Option Cursor)
    (findings : Context → Block → List Diagnostic)
    (KeepsBody : Block → List Char → List Char → Prop) : Prop where
  inside : ∀ block ∈ blocks header context, ∀ head tail, cut.InBody block head tail →
    KeepsBody block head tail
  apart : (∀ block ∈ blocks header context, ∀ head tail, ¬ cut.InBody block head tail) →
    Covered (blockFindings header findings (context.withText cut.above) ++
        (blockFindings header findings (context.withText cut.below)).map
          (Diagnostic.down cut.lines))
      (blockFindings header findings context)

/-- No assignment of the block is cut before its value, and none is hidden by one that goes over the
end of the line. -/
structure KeepsAssignments (block : Block) (head tail : List Char) : Prop where
  valued : ∀ c : Cursor, c.text = head → Valued c
  parts : Covered
    ((assignmentFindings context (block.part [] head) ++
      assignmentFindings context (block.part (head ++ cut.ending) tail)).take context.limit)
    ((assignmentFindings context block).take context.limit)

/-- The lines below do not go on with an equation that has its subject on the line, and no equation
is hidden by one that goes over the end of the line. -/
structure KeepsEquations (block : Block) (head tail : List Char) : Prop where
  begun : equationRest (atStart (cut.ending ++ tail)) = none
  parts : Covered
    ((equationFindings context (block.part [] head) ++
      equationFindings context (block.part head (cut.ending ++ tail))).take context.limit)
    ((equationFindings context block).take context.limit)

/-- The document declares its key on a line above, or no assignment of a key begins up to the end of
the line. -/
def KeepsKey : Prop :=
  (∃ found, findFirst keyAssignment cut.above = some found ∧ found.stop.after ≠ []) ∨
    ∀ c : Cursor, c.text = cut.text → (keyOpening c).isSome → byteLength cut.above ≤ c.offset

/-- The first grade that a text assigns to a variable, and where it does so. -/
def firstGrade (name : String) (text : List Char) : Option (List Char × Position) :=
  (findFirst (gradeAssignment name) text).map fun found ↦ (found.value, found.start.position)

/-- Whether the end of a line cuts nothing that a rule looks for: what the rule finds or reads in
the text, it finds or reads above the end of the line and below. -/
def Clear : Rule → Prop
  | .lowerComparisonCase => cut.KeepsParts context lowerComparisonFindings
  | .nestedLowerCase => ∀ function ∈ matchingFunctions,
      cut.KeepsParts context fun context ↦ loweredCallFindings context function
  | .fieldAssignmentInBlock =>
      cut.KeepsBlocks context eventHeader assignmentFindings (cut.KeepsAssignments context)
  | .numberToStringConcat => cut.KeepsParts context concatenationFindings
  | .filterSingleEquals =>
      cut.KeepsBlocks context (Cursor.word "filter") equationFindings (cut.KeepsEquations context)
  | .whitelistKeyMismatch => cut.KeepsKey ∧ ∀ declared ∈ declaredKey cut.text,
      declared ≠ inheritedKey → (∀ call ∈ findAll whitelistCall cut.above, KeyEnds call) ∧
        cut.KeepsParts context fun context ↦ keyFindings context declared
  | .whitelistRuleNameMismatch =>
      declaredName cut.text = (declaredName cut.above).or (declaredName cut.below) ∧
        ∀ declared ∈ declaredName cut.text,
          cut.KeepsParts context fun context ↦ nameFindings context declared
  | .importanceSeverityMismatch => ∀ name ∈ [importanceVariable, severityVariable],
      firstGrade name cut.text = (firstGrade name cut.above).or
        ((firstGrade name cut.below).map (Prod.map id (Position.down cut.lines)))

/-! ### Searches of a text with something more -/

section Searches

variable {cut} {α : Type} {recognise : Recogniser α}

/-- A search of a text with something more at the end of a line finds what it finds above and below
the end of the line, if nothing begins between them. -/
theorem findAll_more {more : List Char} (hadvances : Advances recognise)
    (habove : ∀ c : Cursor, c.text = cut.above → c.after ≠ [] →
      recognise ((atStart []).within ((more ++ cut.ending) ++ cut.below) c) = (recognise c).map
        (Prod.map id ((atStart []).within ((more ++ cut.ending) ++ cut.below))))
    (hbelow : ∀ outer : Cursor, outer.atLineStart = true →
      Carries outer [] (Prod.map id (outer.within [])) recognise)
    (hpass : findAllFrom recognise cut.above.reverse ((more ++ cut.ending) ++ cut.below) =
      findAllFrom recognise (cut.afterMore more).before cut.below) :
    findAll recognise (cut.above ++ ((more ++ cut.ending) ++ cut.below)) =
      (findAll recognise cut.above).map
          (Found.within (atStart []) ((more ++ cut.ending) ++ cut.below) id) ++
        (findAll recognise cut.below).map (Found.within (cut.afterMore more) [] id) := by
  refine findAll_append hadvances habove (fun c hc hne ↦ ?_) hpass
  have hnil : cut.below ≠ [] := by
    rintro hnil
    rw [hnil] at hc
    exact hne (List.append_eq_nil_iff.1 hc).2
  exact hbelow _ (cut.atLineStart_afterMore more hnil) c

theorem grade_name {name : String} (hname : name ∈ [importanceVariable, severityVariable]) :
    name.toList.head? = some '$' ∧ name.toList.any breaks.contains = false ∧
      Unbroken name.toList ∧ name.toList ≠ [] := by
  have hnames : ∀ name ∈ [importanceVariable, severityVariable],
      name.toList.head? = some '$' ∧ name.toList.any breaks.contains = false ∧
        Unbroken name.toList ∧ name.toList ≠ [] := by
    decide
  exact hnames name hname

/-- The first grade in a text with something more at the end of a line. -/
theorem firstGrade_more {name : String} {more : List Char}
    (hname : name ∈ [importanceVariable, severityVariable]) (hmore : '\n' ∉ more)
    (habove : ∀ c : Cursor, c.text = cut.above →
      gradeAssignment name ((atStart []).within ((more ++ cut.ending) ++ cut.below) c) =
        (gradeAssignment name c).map
          (Prod.map id ((atStart []).within ((more ++ cut.ending) ++ cut.below))))
    (hpass : findAllFrom (gradeAssignment name) cut.above.reverse
        ((more ++ cut.ending) ++ cut.below) =
      findAllFrom (gradeAssignment name) (cut.afterMore more).before cut.below) :
    firstGrade name (cut.above ++ ((more ++ cut.ending) ++ cut.below)) =
      (firstGrade name cut.above).or
        ((firstGrade name cut.below).map (Prod.map id (Position.down cut.lines))) := by
  obtain ⟨-, hblank, hunbroken, hne⟩ := grade_name hname
  have hfinds := findAll_more (ignoresEndings_gradeAssignment hunbroken hne []).advances
    (fun c hc _ ↦ habove c hc) (fun outer houter ↦ carries_gradeAssignment hblank apart_nil) hpass
  have hplace : ∀ found : Found (List Char),
      (found.within (atStart []) ((more ++ cut.ending) ++ cut.below) id).start.position =
        found.start.position := fun found ↦
    (abreast_of_before (by rw [Found.within, within_atStart])).position_eq
  rw [firstGrade, findFirst, hfinds, List.head?_append, List.head?_map, List.head?_map,
    Option.map_or, Option.map_map, Option.map_map, firstGrade, firstGrade, Option.map_map,
    findFirst, findFirst]
  refine congrArg₂ Option.or ?_ ?_
  · cases (findAll (gradeAssignment name) cut.above).head? with
    | none => rfl
    | some found => exact congrArg (fun p ↦ some (found.value, p)) (hplace found)
  · cases hfound : (findAll (gradeAssignment name) cut.below).head? with
    | none => rfl
    | some found =>
      have hnil : cut.below ≠ [] := by
        intro hnil
        rw [hnil, findAll, findAllFrom_nil] at hfound
        cases hfound
      have hposition := @position_within _ found.start [] (cut.atLineStart_afterMore more hnil)
      rw [cut.line_afterMore hmore] at hposition
      exact congrArg (fun p ↦ some (found.value, p)) hposition

/-- The place of a block whose body the end of a line is in. -/
theorem InBody.base_eq {block : Block} {head tail before : List Char}
    (h : cut.InBody block head tail) (habove : cut.above = before.reverse ++ head) :
    block.base = byteLength before := by
  have hbase := h.base_add
  rw [habove, byteLength_append, byteLength_reverse] at hbase
  omega

end Searches

end LineEnd

end RuleLint
