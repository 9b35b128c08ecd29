import RuleLint.Config.Locate
import RuleLint.Server.Message
import RuleLint.Session.Schedule
import RuleLint.Settings.Shared
import RuleLint.Uri.Normal

/-!
# The language server

The server keeps a session for one editor. It takes messages one at a time: `Server.handle` carries
one out to its end, and answers with the reply, what was sent meanwhile, and the server after it.

Between its start and its shutdown the server is running. Before and after, requests are refused
and everything else is passed over, and after an exit there are no replies at all. A malformed
message is refused if it is a request, and else passed over.

The settings of documents come from the editor. One that can be asked is asked for each document;
of any other the server keeps the settings that were announced last.

Two spellings of a URI name one document. The server knows documents by one form of their URIs
(`Server.spell`), and it is this form that it tells the editor. Which form that is, is up to
whatever reads the URIs, and it has to read the form itself as it is; `Uri.normal` is the one that
is written out here.
-/

namespace RuleLint

/-- How far the life of a server has come. -/
inductive Server.Phase where
  | fresh
  | running
  | stopped
  | exited
deriving DecidableEq, Repr

/-- The answers of an editor to the question for the settings of a document: values, of which the
first counts, or the reason why there are none. -/
abbrev Server.Client := String → Except String (List Json)

/-- A language server. -/
structure Server where
  phase : Server.Phase
  session : Session
  /-- The settings that were announced last. -/
  announced : SharedSettings
  /-- Whether the editor is asked for settings. -/
  asksClient : Bool
  /-- The form of a URI that stands for all its spellings. -/
  spell : String → String

namespace Server

/-- The server at the start. -/
def new (spell : String → String := Uri.normal) : Server where
  phase := .fresh
  session := .new Suite.standard .empty
  announced := .standard
  asksClient := false
  spell := spell

/-- The language in which a document is linted: the one that the editor gives if that is a dialect,
else the dialect of the extension of the URI if there is one. -/
def languageOf (language uri : String) : String :=
  match Dialect.ofExtension? language with
  | some dialect => dialect.id
  | none =>
    match (Uri.ofText? uri).bind fun uri ↦ uri.extension?.bind Dialect.ofExtension? with
    | some dialect => dialect.id
    | none => language

/-! ### Settings -/

/-- The settings in the answer of an editor. -/
def settingsIn (values : List Json) : Answer :=
  match Settings.ofSection? values.head? with
  | some settings => .ok settings
  | none => .error ("malformed section '" ++ Settings.sectionName ++ "'")

/-- The settings of a document. -/
def settingsOf (server : Server) (client : Client) (uri : String) : Answer :=
  if server.asksClient then (client uri).bind settingsIn else server.announced.answer uri

/-- The server after settings were announced. A malformed section changes nothing, and neither does
any section of an editor that is asked. -/
def announce (server : Server) (settings : Json) : Server :=
  match server.asksClient, Settings.ofSection? (settings.member? Settings.sectionName) with
  | false, some settings => { server with announced := server.announced.announce settings }
  | _, _ => server

/-! ### Work of the session -/

/-- What is sent because of something that happens in the session. -/
def outgoing? (server : Server) : Event → Option Outgoing
  | .fetched uri => if server.asksClient then some (.askSettings uri) else none
  | .published uri version diagnostics => some (.findings uri (some version) diagnostics)

/-- Have the session carry out a request. -/
def serve (server : Server) (client : Client) (request : Request) : List Outgoing × Server :=
  let session := { server.session with events := [], notices := [] }
  let session := session.serve (server.settingsOf client) request
  (session.events.filterMap server.outgoing?, { server with session })

/-! ### Start -/

/-- Load the configuration nearest to the workspace. -/
def loadConfig (server : Server) (tree : FileTree) (startup : Startup) : List Outgoing × Server :=
  let found := do Config.nearest? tree (← (← Uri.ofText? (← startup.workspace?)).filePath?)
  match found with
  | none => ([], server)
  | some path =>
    match Config.load tree path with
    | .ok config => ([], { server with session := (server.session.start (.configure config)).2 })
    | .error error => ([.warning ("failed to load " ++ path ++ ": " ++ error.message)], server)

/-- Start the server. -/
def start (server : Server) (tree : FileTree) (startup : Startup) :
    Reply × List Outgoing × Server :=
  let (sent, server) := { server with asksClient := startup.canBeAsked }.loadConfig tree startup
  (.result greeting, sent, { server with phase := .running })

/-! ### Messages -/

/-- Carry out a notification while the server is running. -/
def react (server : Server) (client : Client) : Message → List Outgoing × Server
  | .ready => (if server.asksClient then [.watchSettings] else [], server)
  | .opened document =>
    let language := languageOf document.language document.uri
    server.serve client
      (.openDocument { document with uri := server.spell document.uri, language })
  | .changed uri version texts =>
    match texts.getLast? with
    | some text => server.serve client (.change (server.spell uri) version text)
    | none => ([], server)
  | .saved uri => server.serve client (.lint (server.spell uri))
  | .closed uri =>
    let uri := server.spell uri
    let (sent, server) := server.serve client (.close uri)
    (sent ++ [.findings uri none []], server)
  | .configured settings => (server.announce settings).serve client .refresh
  | .start _ | .shutdown | .exit => ([], server)

/-- Carry out a message. -/
def handle (tree : FileTree) (client : Client) (server : Server) (message : Message) :
    Reply × List Outgoing × Server :=
  match server.phase, message with
  | .exited, _ => (.gone, [], server)
  | _, .exit => (.silence, [], { server with phase := .exited })
  | .fresh, .start startup =>
    if startup.isWellFormed then server.start tree startup
    else (.refusal .invalidParams, [], server)
  | _, .start _ => (.refusal .invalidRequest, [], server)
  | .running, .shutdown => (.result .null, [], { server with phase := .stopped })
  | .fresh, .shutdown => (.refusal .notStarted, [], server)
  | .stopped, .shutdown => (.refusal .invalidRequest, [], server)
  | .running, message =>
    if message.isWellFormed then
      let (sent, server) := server.react client message
      (.silence, sent, server)
    else
      (.silence, [], server)
  | _, _ => (.silence, [], server)

end Server

end RuleLint
