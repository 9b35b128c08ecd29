import RuleLint.Document
import RuleLint.Report
import RuleLint.Server.Capabilities
import RuleLint.Settings.Section
import RuleLint.Uri
import RuleLint.Version

/-!
# Messages of the language server

What an editor tells the server, what the server sends of its own accord, and how it replies. Only
what the server reads and writes is here; `Outgoing.method` and `Outgoing.params` give the form
that travels. A message may be malformed (`Message.isWellFormed`): its URIs have to be URIs, its
version has to fit into 32 bits, and capabilities have to have the form of capabilities.
-/

namespace RuleLint.Server

/-! ### From the editor -/

/-- What the editor tells of itself at the start. -/
structure Startup where
  capabilities : Json
  /-- The URIs of the folders of the workspace, if the editor has folders. -/
  folders : Option (List String)
  /-- The URI of the workspace, if there is one. -/
  root : Option String
deriving Repr

namespace Startup

/-- Whether the editor can be asked for settings. -/
def canBeAsked (startup : Startup) : Bool :=
  (Capabilities.asksForSettings? startup.capabilities).getD false

/-- The URI of the workspace: the first of its folders, if there are any. -/
def workspace? (startup : Startup) : Option String :=
  (startup.folders.bind List.head?).or startup.root

/-- Whether what the editor says is well formed. -/
def isWellFormed (startup : Startup) : Bool :=
  (Capabilities.asksForSettings? startup.capabilities).isSome
    && ((startup.folders.getD []) ++ startup.root.toList).all fun uri ↦ (Uri.ofText? uri).isSome

end Startup

/-- What an editor can tell the server. -/
inductive Message where
  | start (startup : Startup)
  /-- The editor has taken the greeting. -/
  | ready
  | shutdown
  | exit
  /-- A document was opened; it has the language that the editor gives it. -/
  | opened (document : Document)
  /-- A document was changed, in several steps, each with a whole text. -/
  | changed (uri : String) (version : Int) (texts : List String)
  | saved (uri : String)
  | closed (uri : String)
  /-- The settings of the editor were changed. -/
  | configured (settings : Json)
deriving Repr

/-- Whether a number can be the version of a document. -/
def isVersion (version : Int) : Bool :=
  -0x80000000 ≤ version && version ≤ 0x7fffffff

/-- Whether a message is well formed. -/
def Message.isWellFormed : Message → Bool
  | .start startup => startup.isWellFormed
  | .opened document => (Uri.ofText? document.uri).isSome && isVersion document.version
  | .changed uri version _ => (Uri.ofText? uri).isSome && isVersion version
  | .saved uri | .closed uri => (Uri.ofText? uri).isSome
  | .ready | .shutdown | .exit | .configured _ => true

/-! ### To the editor -/

/-- What the server sends of its own accord. -/
inductive Outgoing where
  /-- A warning to be shown. -/
  | warning (text : String)
  /-- The wish to be told when the settings change. -/
  | watchSettings
  /-- The question for the settings of a document. -/
  | askSettings (uri : String)
  /-- The findings in a version of a document, or in a document that is closed. -/
  | findings (uri : String) (version : Option Int) (diagnostics : List Diagnostic)
deriving DecidableEq, Repr

namespace Outgoing

/-- The name of the method that is called. -/
def method : Outgoing → String
  | .warning _ => "window/logMessage"
  | .watchSettings => "client/registerCapability"
  | .askSettings _ => "workspace/configuration"
  | .findings .. => "textDocument/publishDiagnostics"

/-- The parameters of the call. -/
def params : Outgoing → Json
  | .warning text => .object [("type", .whole 2), ("message", .string text)]
  | .watchSettings =>
    .object [("registrations", .array [.object [
      ("id", .string "xplint-did-change-configuration"),
      ("method", .string "workspace/didChangeConfiguration")]])]
  | .askSettings uri =>
    .object [("items", .array [.object [
      ("scopeUri", .string uri),
      ("section", .string Settings.sectionName)]])]
  | .findings uri version diagnostics =>
    .object ([
      ("uri", .string uri),
      ("diagnostics", .array (diagnostics.map Diagnostic.toJson))]
      ++ (version.map fun version ↦ ("version", Json.whole version)).toList)

end Outgoing

/-- Why a request is refused. -/
inductive Refusal where
  /-- The server has not been started. -/
  | notStarted
  /-- The request must not be made now. -/
  | invalidRequest
  /-- The request is malformed. -/
  | invalidParams
deriving DecidableEq, Repr

/-- The number of a refusal. -/
def Refusal.code : Refusal → Int
  | .notStarted => -32002
  | .invalidRequest => -32600
  | .invalidParams => -32602

/-- The reply to a message. -/
inductive Reply where
  /-- None, because the message is not a request. -/
  | silence
  | result (value : Json)
  | refusal (refusal : Refusal)
  /-- None, because the server has exited. -/
  | gone
deriving Repr

/-- What the server says of itself at the start: that it wants whole texts, and its name. -/
def greeting : Json :=
  .object [
    ("capabilities", .object [("textDocumentSync", .whole 1)]),
    ("serverInfo", .object [
      ("name", .string "xplint-lsp"),
      ("version", .string version)])]

end RuleLint.Server
