import RuleLint.Proofs.Json.Reading
import RuleLint.Report

/-!
# Reading reports for programs

The JSON form of a report is read back as the results that it is about (`readReport?_writtenJson`):
paths, messages and errors may hold any characters. Each type has a decoder that answers with what
was written, and no number in a report has decimal places, so the text of a report is read back as a
value (`Json.ofText?_pretty`) and the value as results.

Whether there is a JSON form is decided by the paths alone (`reportJson_eq`): each of them has to be
a text.
-/

namespace RuleLint

namespace Json

/-- The number of a value that is a natural number. -/
def natural? : Json → Option Nat
  | .whole n => n.toNat?
  | _ => none

/-- The text of a value that is a string. -/
def string? : Json → Option String
  | .string text => some text
  | _ => none

/-- The items of a value that is an array, each of them decoded. -/
def decodeItems? {α : Type} (decode : Json → Option α) : Json → Option (List α)
  | .array items => items.mapM decode
  | _ => none

theorem decodeItems?_map {α : Type} {decode : Json → Option α} {encode : α → Json} {items : List α}
    (h : ∀ x ∈ items, decode (encode x) = some x) :
    decodeItems? decode (.array (items.map encode)) = some items := by
  rw [decodeItems?]
  induction items with
  | nil => rfl
  | cons item items ih =>
    obtain ⟨hitem, hitems⟩ := List.forall_mem_cons.1 h
    rw [List.map_cons, List.mapM_cons, hitem, ih hitems]
    rfl

end Json

/-! ### Findings -/

/-- The severity with a number. -/
def Severity.ofNumber? : Nat → Option Severity
  | 1 => some .error
  | 2 => some .warning
  | 3 => some .information
  | 4 => some .hint
  | _ => none

theorem Severity.ofNumber?_number (severity : Severity) :
    ofNumber? severity.number = some severity := by
  cases severity <;> rfl

namespace Position

/-- The position that a value stands for. -/
def ofJson? (value : Json) : Option Position := do
  let line ← (← value.member? "line").natural?
  let character ← (← value.member? "character").natural?
  return ⟨line.toUInt32, character.toUInt32⟩

theorem ofJson?_toJson (position : Position) : ofJson? position.toJson = some position := by
  have hread : ofJson? position.toJson =
      some ⟨position.line.toNat.toUInt32, position.character.toNat.toUInt32⟩ := rfl
  have hword (n : UInt32) : n.toNat.toUInt32 = n := UInt32.ofNat_toNat
  rw [hread, hword, hword]

theorem isWhole_toJson (position : Position) : position.toJson.IsWhole := by
  refine .object ?_
  simp only [List.forall_mem_cons]
  exact ⟨.whole _, .whole _, List.forall_mem_nil _⟩

end Position

namespace Range

/-- The range that a value stands for. -/
def ofJson? (value : Json) : Option Range := do
  let start ← Position.ofJson? (← value.member? "start")
  let stop ← Position.ofJson? (← value.member? "end")
  return ⟨start, stop⟩

theorem ofJson?_toJson (range : Range) : ofJson? range.toJson = some range := by
  have hstart : range.toJson.member? "start" = some range.start.toJson := rfl
  have hstop : range.toJson.member? "end" = some range.stop.toJson := rfl
  simp only [ofJson?, hstart, hstop, Option.bind_eq_bind, Option.bind_some,
    Position.ofJson?_toJson]
  rfl

theorem isWhole_toJson (range : Range) : range.toJson.IsWhole := by
  refine .object ?_
  simp only [List.forall_mem_cons]
  exact ⟨range.start.isWhole_toJson, range.stop.isWhole_toJson, List.forall_mem_nil _⟩

end Range

namespace Diagnostic

/-- The finding that a value stands for. -/
def ofJson? (value : Json) : Option Diagnostic := do
  let severity ← Severity.ofNumber? (← (← value.member? "severity").natural?)
  let range ← Range.ofJson? (← value.member? "range")
  let message ← (← value.member? "message").string?
  let rule ← Rule.ofCode? (← (← value.member? "code").string?)
  return ⟨rule, severity, range, message⟩

theorem ofJson?_toJson (d : Diagnostic) : ofJson? d.toJson = some d := by
  have hseverity : d.toJson.member? "severity" = some (.whole d.severity.number) := rfl
  have hrange : d.toJson.member? "range" = some d.range.toJson := rfl
  have hmessage : d.toJson.member? "message" = some (.string d.message) := rfl
  have hcode : d.toJson.member? "code" = some (.string d.rule.code) := rfl
  have hnumber : (Json.whole d.severity.number).natural? = some d.severity.number := rfl
  simp only [ofJson?, hseverity, hrange, hmessage, hcode, Option.bind_eq_bind, Option.bind_some,
    hnumber, Severity.ofNumber?_number, Range.ofJson?_toJson, Json.string?, Rule.ofCode?_code]
  rfl

theorem isWhole_toJson (d : Diagnostic) : d.toJson.IsWhole := by
  refine .object ?_
  simp only [List.forall_mem_cons]
  exact ⟨.whole _, d.range.isWhole_toJson, .string _, .string _, .string _, List.forall_mem_nil _⟩

end Diagnostic

/-! ### Results -/

namespace FileResult

/-- The result that a value stands for. Only a file that could not be read has an error. -/
def ofJson? (value : Json) : Option FileResult := do
  let path ← (← value.member? "path").string?
  let diagnostics ← Json.decodeItems? Diagnostic.ofJson? (← value.member? "diagnostics")
  match value.member? "error" with
  | none => return ⟨path, diagnostics, none⟩
  | some error => return ⟨path, diagnostics, some (← error.string?)⟩

/-- Whether the path of a result is a text, so that it can be written. -/
def isWritable (result : FileResult) : Bool :=
  result.location.text?.isSome

theorem serialize_eq (result : FileResult) : result.serialize =
    if result.isWritable then .ok result.toJson else .error notTextMessage := by
  rw [serialize, isWritable]
  cases result.location <;> rfl

theorem ofJson?_toJson {result : FileResult} (h : result.isWritable = true) :
    ofJson? result.toJson = some result := by
  have hpath : result.toJson.member? "path" = some (.string result.path) := rfl
  have hdiagnostics : result.toJson.member? "diagnostics" =
      some (.array (result.diagnostics.map Diagnostic.toJson)) := rfl
  have herror : result.toJson.member? "error" = result.error.map Json.string := by
    obtain ⟨location, diagnostics, error⟩ := result
    cases error <;> rfl
  simp only [ofJson?, hpath, hdiagnostics, Option.bind_eq_bind, Option.bind_some, Json.string?,
    Json.decodeItems?_map fun d _ ↦ Diagnostic.ofJson?_toJson d, herror]
  obtain ⟨location, diagnostics, error⟩ := result
  cases location with
  | text path => cases error <;> rfl
  | raw => cases h

theorem isWhole_toJson (result : FileResult) : result.toJson.IsWhole := by
  obtain ⟨location, diagnostics, error⟩ := result
  have hdiagnostics : (Json.array (diagnostics.map Diagnostic.toJson)).IsWhole :=
    .array (List.forall_mem_map.2 fun d _ ↦ d.isWhole_toJson)
  refine .object ?_
  cases error with
  | none =>
    simp only [Option.map_none, Option.toList_none, List.append_nil, List.forall_mem_cons]
    exact ⟨.string _, hdiagnostics, List.forall_mem_nil _⟩
  | some error =>
    simp only [Option.map_some, Option.toList_some, List.forall_mem_append, List.forall_mem_cons]
    exact ⟨⟨.string _, hdiagnostics, List.forall_mem_nil _⟩, .string _, List.forall_mem_nil _⟩

end FileResult

/-- The results that the JSON form of a report is about. -/
def readReport? (text : String) : Option (List FileResult) :=
  (Json.ofText? text).bind (Json.decodeItems? FileResult.ofJson?)

theorem mapM_serialize (results : List FileResult) : results.mapM FileResult.serialize =
    if results.all FileResult.isWritable then .ok (results.map FileResult.toJson)
    else .error notTextMessage := by
  induction results with
  | nil => rfl
  | cons result results ih =>
    rw [List.mapM_cons, ih, FileResult.serialize_eq, List.all_cons]
    cases result.isWritable with
    | false => rfl
    | true => cases results.all FileResult.isWritable <;> rfl

/-- The JSON form of the report on results whose paths are texts. -/
def writtenJson (results : List FileResult) : String :=
  (Json.array (results.map FileResult.toJson)).pretty ++ "\n"

/-- **There is a JSON form if and only if all paths are texts.** -/
theorem reportJson_eq (results : List FileResult) : reportJson results =
    if results.all FileResult.isWritable then .ok (writtenJson results)
    else .error notTextMessage := by
  rw [reportJson, mapM_serialize]
  split <;> rfl

/-- **The JSON form of a report has the results as they are**, file by file and finding by finding,
in their order. -/
theorem readReport?_writtenJson {results : List FileResult}
    (h : results.all FileResult.isWritable = true) :
    readReport? (writtenJson results) = some results := by
  have hwhole : (Json.array (results.map FileResult.toJson)).IsWhole :=
    .array (List.forall_mem_map.2 fun result _ ↦ result.isWhole_toJson)
  have hspace : "\n".toList.all Json.isSpace = true := by decide
  rw [readReport?, writtenJson, Json.ofText?_pretty hwhole hspace, Option.bind_some,
    Json.decodeItems?_map fun result hresult ↦
      FileResult.ofJson?_toJson (List.all_eq_true.1 h result hresult)]

end RuleLint
