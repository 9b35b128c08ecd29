import RuleLint.Lint
import RuleLint.Session.Lock
import RuleLint.Settings.Cache

/-!
# Sessions

A session keeps the open documents of an editor linted. Requests come at any time; each is carried
out by a task of its own, and many tasks may be under way at once. The work on a document is a
*pass*: under the lock of the document, its settings are resolved, its newest snapshot is linted,
and the findings are published. Each publication replaces the one before it.

A task runs until it has to wait, for a lock or for settings to be fetched. All the effects up to
there are one step, so a session is a plain value, and what may happen next is one of three steps:

* `Session.start` begins a task for a request,
* `Session.answer` gives a task the settings it waits for,
* `Session.resume` lets a task go on that has come to hold the lock it waits for.

In which order steps are taken is left open here. The lock of a document is found through a table
from which closing the document removes it, while tasks may still hold or await it; the next task
then makes a new lock. Locks are therefore numbered, and so are tasks, and neither is ever reused.
-/

namespace RuleLint

/-- What can be asked of a session. -/
inductive Request where
  /-- To hold a document open from now on, and lint it. -/
  | openDocument (document : Document)
  /-- To replace the content of a document, and lint it. -/
  | change (uri : String) (version : Int) (text : String)
  /-- To forget a document. -/
  | close (uri : String)
  /-- To fetch all settings anew, and lint every document. -/
  | refresh
  /-- To lint a document. -/
  | lint (uri : String)
  /-- To use a configuration from now on. -/
  | configure (config : Config)

/-- What a task does when it holds the lock it waits for. -/
inductive Job where
  /-- A pass on a document, and then passes on others. -/
  | pass (uri : String) (others : List String)
  /-- To close a document. -/
  | close (uri : String)
deriving DecidableEq, Repr

/-- Where a task stands between two steps. -/
inductive Stage where
  /-- The task waits for the lock with a number, or has come to hold it. -/
  | locked (lock : Nat) (job : Job)
  /-- The task holds the lock with a number and waits for the settings of a document, which it began
  to fetch under a stamp; passes on others come next. -/
  | fetching (uri : String) (lock : Nat) (stamp : Stamp) (others : List String)
  /-- The task is over. -/
  | done
deriving DecidableEq, Repr

/-- What a session lets others know of. -/
inductive Event where
  /-- That it asks for the settings of a document. -/
  | fetched (uri : String)
  /-- The findings in a version of a document. -/
  | published (uri : String) (version : Int) (diagnostics : List Diagnostic)
deriving DecidableEq, Repr

/-- The state of a session. -/
structure Session where
  suite : Suite
  config : Config
  /-- The newest snapshots of the open documents. -/
  documents : Table Document
  cache : Cache
  /-- The numbers of the locks of documents. -/
  lockOf : Table Nat
  /-- The locks by number. -/
  locks : List Lock
  /-- The stages of the tasks by number. -/
  stages : List Stage
  /-- What has happened, in order. -/
  events : List Event
  /-- What has been noted, in order. -/
  notices : List Notice

namespace Session

/-- The session at the start. -/
def new (suite : Suite) (config : Config) : Session where
  suite := suite
  config := config
  documents := .empty
  cache := .empty
  lockOf := .empty
  locks := []
  stages := []
  events := []
  notices := []

/-- The open documents, in order. -/
def openUris (session : Session) : List String :=
  session.documents.names

/-! ### Parts of a step -/

/-- Put a task into a stage. -/
def setStage (session : Session) (task : TaskId) (stage : Stage) : Session :=
  { session with stages := session.stages.set task stage }

/-- Note something. -/
def note (session : Session) (notices : List Notice) : Session :=
  { session with notices := session.notices ++ notices }

/-- The lock with a number. -/
def lock (session : Session) (number : Nat) : Lock :=
  (session.locks[number]?).getD .free

/-- Replace the lock with a number. -/
def setLock (session : Session) (number : Nat) (lock : Lock) : Session :=
  { session with locks := session.locks.set number lock }

/-- The number of the lock of a document, which is made if there is none. -/
def lockFor (session : Session) (uri : String) : Nat × Session :=
  match session.lockOf.get? uri with
  | some number => (number, session)
  | none =>
    let number := session.locks.length
    (number,
      { session with
        lockOf := session.lockOf.insert uri number
        locks := session.locks ++ [.free] })

/-- Release the lock with a number. -/
def release (session : Session) (number : Nat) : Session :=
  session.setLock number (session.lock number).release

/-- Store a snapshot. -/
def store (session : Session) (document : Document) : Session :=
  { session with documents := session.documents.insert document.uri document }

/-- Lint the newest snapshot of a document under the given settings, and publish the findings.
Nothing happens if the document is not open. -/
def publish (session : Session) (uri : String) (settings : Settings) : Session :=
  match session.documents.get? uri with
  | none => session
  | some document =>
    let run := RuleLint.lint session.suite document settings session.config
    { session with
      events := session.events ++ [.published uri document.version run.diagnostics]
      notices := session.notices ++ run.failures.map .checkFailed }

/-- Begin the pass of a task that holds the lock of a document. The pass is over at once if the
document is not open or its settings are known; else a fetch begins, and its stamp is returned. -/
def enterPass (session : Session) (uri : String) (number : Nat) : Session × Option Stamp :=
  if session.documents.contains uri then
    match session.cache.look uri with
    | .hit settings => ((session.publish uri settings).release number, none)
    | .miss stamp => ({ session with events := session.events ++ [.fetched uri] }, some stamp)
  else
    (session.release number, none)

/-- Passes of a task on documents, one after the other, as far as they can go. -/
def runPasses (session : Session) (task : TaskId) : List String → Session
  | [] => session.setStage task .done
  | uri :: others =>
    let (number, session) := session.lockFor uri
    let lock := session.lock number
    let session := session.setLock number (lock.request task)
    if lock.isFree then
      match session.enterPass uri number with
      | (session, none) => session.runPasses task others
      | (session, some stamp) => session.setStage task (.fetching uri number stamp others)
    else
      session.setStage task (.locked number (.pass uri others))

/-- Forget a document whose lock is held: its snapshot, its settings and its lock. -/
def forget (session : Session) (uri : String) (number : Nat) : Session :=
  { session with
    documents := session.documents.erase uri
    cache := session.cache.evict uri
    lockOf := session.lockOf.erase uri }.release number

/-! ### Steps -/

/-- Carry out a request as a task up to its first wait. A change of a document that is not open
opens it in no known language. -/
def perform (session : Session) (task : TaskId) : Request → Session
  | .openDocument document => (session.store document).runPasses task [document.uri]
  | .change uri version text =>
    match session.documents.get? uri with
    | some document => (session.store (document.withText version text)).runPasses task [uri]
    | none =>
      ((session.note [.changeUnopened uri]).store ⟨uri, "", version, text⟩).runPasses task [uri]
  | .close uri =>
    let (number, session) := session.lockFor uri
    let lock := session.lock number
    let session := session.setLock number (lock.request task)
    if lock.isFree then
      (session.forget uri number).setStage task .done
    else
      session.setStage task (.locked number (.close uri))
  | .refresh =>
    { session with cache := session.cache.clear }.runPasses task session.openUris
  | .lint uri => session.runPasses task [uri]
  | .configure config => { session with config }.setStage task .done

/-- Begin a task for a request. It gets the next number. -/
def start (session : Session) (request : Request) : TaskId × Session :=
  let task := session.stages.length
  (task, { session with stages := session.stages ++ [Stage.done] }.perform task request)

/-- Give a task the settings it waits for. -/
def answer (session : Session) (task : TaskId) (answer : Answer) : Session :=
  match session.stages[task]? with
  | some (.fetching uri number stamp others) =>
    let resolved := session.cache.complete uri stamp answer
    let session := { session with cache := resolved.cache }.note resolved.notices
    ((session.publish uri resolved.settings).release number).runPasses task others
  | _ => session

/-- Whether a task holds the lock it has waited for. -/
def canResume (session : Session) (task : TaskId) : Bool :=
  match session.stages[task]? with
  | some (.locked number _) => (session.lock number).holder == some task
  | _ => false

/-- Let a task go on that holds the lock it has waited for. -/
def resume (session : Session) (task : TaskId) : Session :=
  if session.canResume task then
    match session.stages[task]? with
    | some (.locked number (.pass uri others)) =>
      match session.enterPass uri number with
      | (session, none) => session.runPasses task others
      | (session, some stamp) => session.setStage task (.fetching uri number stamp others)
    | some (.locked number (.close uri)) => (session.forget uri number).setStage task .done
    | _ => session
  else
    session

end Session

end RuleLint
