import RuleLint.Json.Form

/-!
# Capabilities of editors

At the start an editor tells what it is capable of, as a JSON value. The server wants to know one
thing of it, whether the editor can be asked for settings, but it takes the value as a whole: one
that departs anywhere from the form that the protocol gives it is refused. `capabilities` is that
form.
-/

namespace RuleLint.Server.Capabilities

open Json (Form)

/-! ### Forms that occur several times -/

/-- A group of fields that may be left out. -/
def group (fields : List (String × Form)) : Form :=
  .optional (.record fields)

/-- A truth value that may be left out. -/
def flag : Form :=
  .optional .bool

/-- Fields that are flags. -/
def flags (names : List String) : List (String × Form) :=
  names.map fun name ↦ (name, flag)

/-- The group of a capability that can be registered later on, with the names of further flags. -/
def registrable (names : List String) : Form :=
  group (flags ("dynamicRegistration" :: names))

/-- The group of a capability of a workspace whose answers can be asked for again. -/
def refreshable : Form :=
  group (flags ["refreshSupport"])

/-- A number that stands for one of the things that the protocol lists. -/
def code : Form :=
  .whole (-0x80000000) 0x7fffffff

/-- The group with the codes that an editor knows. -/
def codes : Form :=
  group [("valueSet", .optional (.list code))]

/-- The tags that an editor knows. They came late, first as a mere flag, so they may be missing. -/
def tags : Form :=
  .omissible (.optional (.either .bool (.record [("valueSet", .list code)])))

/-- The group with the names of properties that an editor fetches later. -/
def properties : Form :=
  group [("properties", .list .string)]

/-- The ways in which an editor shows texts, the preferred one first. -/
def markup : Form :=
  .optional (.list (.word ["plaintext", "markdown"]))

/-! ### Workspace -/

/-- What an editor can do with the edits of a workspace. -/
def workspaceEdit : Form :=
  group [
    ("documentChanges", flag),
    ("resourceOperations", .optional (.list (.word ["create", "rename", "delete"]))),
    ("failureHandling",
      .optional (.word ["abort", "transactional", "textOnlyTransactional", "undo"])),
    ("normalizesLineEndings", flag),
    ("changeAnnotationSupport", group (flags ["groupsOnLabel"]))]

/-- The fields on the workspace. -/
def workspace : List (String × Form) :=
  [("applyEdit", flag),
   ("workspaceEdit", workspaceEdit),
   ("didChangeConfiguration", registrable []),
   ("didChangeWatchedFiles", registrable ["relativePatternSupport"]),
   ("symbol", group [
      ("dynamicRegistration", flag),
      ("symbolKind", codes),
      ("tagSupport", tags),
      ("resolveSupport", properties)]),
   ("executeCommand", registrable []),
   ("workspaceFolders", flag),
   ("configuration", flag),
   ("semanticTokens", refreshable),
   ("codeLens", refreshable),
   ("fileOperations", registrable
      ["didCreate", "willCreate", "didRename", "willRename", "didDelete", "willDelete"]),
   ("inlineValue", refreshable),
   ("inlayHint", refreshable),
   ("diagnostic", refreshable)]

/-! ### Documents -/

/-- What an editor can do with completions. -/
def completion : Form :=
  group [
    ("dynamicRegistration", flag),
    ("completionItem", group [
      ("snippetSupport", flag),
      ("commitCharactersSupport", flag),
      ("documentationFormat", markup),
      ("deprecatedSupport", flag),
      ("preselectSupport", flag),
      ("tagSupport", tags),
      ("insertReplaceSupport", flag),
      ("resolveSupport", properties),
      ("insertTextModeSupport", group [("valueSet", .list code)]),
      ("labelDetailsSupport", flag)]),
    ("completionItemKind", codes),
    ("contextSupport", flag),
    ("insertTextMode", .optional code),
    ("completionList", group [("itemDefaults", .optional (.list .string))])]

/-- What an editor can do with the signatures of what is called. -/
def signatureHelp : Form :=
  group [
    ("dynamicRegistration", flag),
    ("signatureInformation", group [
      ("documentationFormat", markup),
      ("parameterInformation", group (flags ["labelOffsetSupport"])),
      ("activeParameterSupport", flag)]),
    ("contextSupport", flag)]

/-- What an editor can do with the symbols of a document. -/
def documentSymbol : Form :=
  group [
    ("dynamicRegistration", flag),
    ("symbolKind", codes),
    ("hierarchicalDocumentSymbolSupport", flag),
    ("tagSupport", tags)]

/-- What an editor can do with actions on code. -/
def codeAction : Form :=
  group [
    ("dynamicRegistration", flag),
    ("codeActionLiteralSupport", group [
      ("codeActionKind", .record [("valueSet", .list .string)])]),
    ("isPreferredSupport", flag),
    ("disabledSupport", flag),
    ("dataSupport", flag),
    ("resolveSupport", properties),
    ("honorsChangeAnnotations", flag)]

/-- What an editor can do with the diagnostics that it is sent. -/
def publishDiagnostics : Form :=
  group [
    ("relatedInformation", flag),
    ("tagSupport", tags),
    ("versionSupport", flag),
    ("codeDescriptionSupport", flag),
    ("dataSupport", flag)]

/-- What an editor can do with ranges that fold. -/
def foldingRange : Form :=
  group [
    ("dynamicRegistration", flag),
    ("rangeLimit", .optional (.whole 0 0xffffffff)),
    ("lineFoldingOnly", flag),
    ("foldingRangeKind", group [
      ("valueSet", .optional (.list (.word ["comment", "imports", "region"])))]),
    ("foldingRange", group (flags ["collapsedText"]))]

/-- What an editor can do with tokens that have a meaning. Here some fields may not be left out. -/
def semanticTokens : Form :=
  group [
    ("dynamicRegistration", flag),
    ("requests", .record [
      ("range", flag),
      ("full", .optional (.either .bool (.object (flags ["delta"]))))]),
    ("tokenTypes", .list .string),
    ("tokenModifiers", .list .string),
    ("formats", .list .string),
    ("overlappingTokenSupport", flag),
    ("multilineTokenSupport", flag),
    ("serverCancelSupport", flag),
    ("augmentsSyntaxTokens", flag)]

/-- The fields on documents. -/
def textDocument : List (String × Form) :=
  [("synchronization", registrable ["willSave", "willSaveWaitUntil", "didSave"]),
   ("completion", completion),
   ("hover", group [("dynamicRegistration", flag), ("contentFormat", markup)]),
   ("signatureHelp", signatureHelp),
   ("references", registrable []),
   ("documentHighlight", registrable []),
   ("documentSymbol", documentSymbol),
   ("formatting", registrable []),
   ("rangeFormatting", registrable []),
   ("onTypeFormatting", registrable []),
   ("declaration", registrable ["linkSupport"]),
   ("definition", registrable ["linkSupport"]),
   ("typeDefinition", registrable ["linkSupport"]),
   ("implementation", registrable ["linkSupport"]),
   ("codeAction", codeAction),
   ("codeLens", registrable []),
   ("documentLink", registrable ["tooltipSupport"]),
   ("colorProvider", registrable []),
   ("rename", group [
      ("dynamicRegistration", flag),
      ("prepareSupport", flag),
      ("prepareSupportDefaultBehavior", .optional code),
      ("honorsChangeAnnotations", flag)]),
   ("publishDiagnostics", publishDiagnostics),
   ("foldingRange", foldingRange),
   ("selectionRange", registrable []),
   ("linkedEditingRange", registrable []),
   ("callHierarchy", registrable []),
   ("semanticTokens", semanticTokens),
   ("moniker", registrable []),
   ("typeHierarchy", registrable []),
   ("inlineValue", registrable []),
   ("inlayHint", group [("dynamicRegistration", flag), ("resolveSupport", properties)]),
   ("diagnostic", registrable ["relatedDocumentSupport"])]

/-! ### The rest -/

/-- The fields on windows. -/
def window : List (String × Form) :=
  [("workDoneProgress", flag),
   ("showMessage", group [
      ("messageActionItem", group (flags ["additionalPropertiesSupport"]))]),
   ("showDocument", group [("support", .bool)])]

/-- The fields on nothing in particular. -/
def general : List (String × Form) :=
  [("regularExpressions", group [
      ("engine", .string),
      ("version", .optional .string)]),
   ("markdown", group [
      ("parser", .string),
      ("version", .optional .string),
      ("allowedTags", .optional (.list .string))]),
   ("staleRequestSupport", group [
      ("cancel", .bool),
      ("retryOnContentModified", .list .string)]),
   ("positionEncodings", .optional (.list .string))]

/-- All fields. -/
def capabilities : List (String × Form) :=
  [("workspace", group workspace),
   ("textDocument", group textDocument),
   ("window", group window),
   ("general", group general),
   ("experimental", .any)]

/-- Whether an editor with the given capabilities can be asked for settings; `none` if they do not
have the form of capabilities. -/
def asksForSettings? (value : Json) : Option Bool :=
  if (Form.record capabilities).admits value then
    match (value.field? capabilities "workspace").bind (·.field? workspace "configuration") with
    | some (.bool answer) => some answer
    | _ => some false
  else
    none

end RuleLint.Server.Capabilities
