import RuleLint.Session.Basic

/-!
# Histories of sessions

A run of a session is a list of acts: requests that start tasks, answers to fetches, and tasks that
go on with a lock they have come to hold, in any order (`Session.run`). `Session.history` is the
record of what the tasks of a run have done. It tells more than the events of the session: each
publication comes with its snapshot, the settings that its pass resolved and the configuration in
force. That the events are what is public of the history is `Session.events_run`, in the module on
moves.
-/

namespace RuleLint

namespace Session

/-! ### Runs -/

/-- One step of a session. -/
inductive Act where
  /-- A task begins for a request. -/
  | start (request : Request)
  /-- A task gets the settings it waits for. -/
  | answer (task : TaskId) (answer : Answer)
  /-- A task goes on with the lock it has come to hold. -/
  | resume (task : TaskId)

/-- Carry out an act. Nothing happens if the task is not waiting for it. -/
def step (session : Session) : Act → Session
  | .start request => (session.start request).2
  | .answer task answer => session.answer task answer
  | .resume task => session.resume task

/-- The session after a list of acts. -/
def run (session : Session) (acts : List Act) : Session :=
  acts.foldl step session

@[simp] theorem run_nil (session : Session) : session.run [] = session := rfl

@[simp] theorem run_cons (session : Session) (act : Act) (acts : List Act) :
    session.run (act :: acts) = (session.step act).run acts := rfl

theorem run_append (session : Session) (acts more : List Act) :
    session.run (acts ++ more) = (session.run acts).run more := by
  simp [run]

/-- Every task is over. -/
def AtRest (session : Session) : Prop :=
  ∀ stage ∈ session.stages, stage = .done

instance (session : Session) : Decidable session.AtRest :=
  inferInstanceAs (Decidable (∀ stage ∈ session.stages, stage = .done))

/-! ### What tasks do -/

/-- Something that a task has done. -/
inductive Effect where
  /-- A snapshot was stored. -/
  | stored (document : Document)
  /-- A document was closed. -/
  | forgotten (uri : String)
  /-- The cache of settings was cleared. -/
  | cleared (task : TaskId)
  /-- A configuration came into force. -/
  | configured (config : Config)
  /-- The pass of a task on a document found its settings in the cache. -/
  | found (task : TaskId) (uri : String) (settings : Settings)
  /-- The pass of a task on a document began to fetch settings. -/
  | fetched (task : TaskId) (uri : String)
  /-- The fetch was answered. -/
  | answered (task : TaskId) (uri : String) (answer : Answer)
  /-- The pass of a task on a document published the findings in its newest snapshot, under the
  settings that the pass resolved and the configuration in force. -/
  | published (task : TaskId) (uri : String) (document : Document) (settings : Settings)
      (config : Config)

/-- The event that others know of. -/
def Effect.event? (suite : Suite) : Effect → Option Event
  | .fetched _ uri => some (.fetched uri)
  | .published _ uri document settings config =>
    some (.published uri document.version (lint suite document settings config).diagnostics)
  | _ => none

/-- What a pass does that comes to its publication. -/
def publishEffects (session : Session) (task : TaskId) (uri : String) (settings : Settings) :
    List Effect :=
  match session.documents.get? uri with
  | none => []
  | some document => [.published task uri document settings session.config]

/-- What a pass does that has just come to hold the lock of its document. -/
def enterEffects (session : Session) (task : TaskId) (uri : String) : List Effect :=
  match session.documents.contains uri, session.cache.look uri with
  | false, _ => []
  | true, .hit settings => .found task uri settings :: session.publishEffects task uri settings
  | true, .miss _ => [.fetched task uri]

/-- What a task does that makes passes on documents, up to its next wait. -/
def passEffects (session : Session) (task : TaskId) : List String → List Effect
  | [] => []
  | uri :: others =>
    let (number, session) := session.lockFor uri
    let lock := session.lock number
    let session := session.setLock number (lock.request task)
    if lock.isFree then
      session.enterEffects task uri ++
        match session.enterPass uri number with
        | (session, none) => session.passEffects task others
        | (_, some _) => []
    else
      []

/-- The snapshot that a request stores. A change keeps the language of a document that is open. -/
def snapshot? (session : Session) : Request → Option Document
  | .openDocument document => some document
  | .change uri version text =>
    match session.documents.get? uri with
    | some document => some ⟨document.uri, document.language, version, text⟩
    | none => some ⟨uri, "", version, text⟩
  | _ => none

/-- What a task does for a request up to its first wait. -/
def performEffects (session : Session) (task : TaskId) : Request → List Effect
  | .openDocument document =>
    .stored document :: (session.store document).passEffects task [document.uri]
  | .change uri version text =>
    match session.documents.get? uri with
    | some document =>
      .stored (document.withText version text) ::
        (session.store (document.withText version text)).passEffects task [uri]
    | none =>
      .stored ⟨uri, "", version, text⟩ ::
        ((session.note [.changeUnopened uri]).store ⟨uri, "", version, text⟩).passEffects task
          [uri]
  | .close uri =>
    let (number, session) := session.lockFor uri
    if (session.lock number).isFree then [.forgotten uri] else []
  | .refresh =>
    .cleared task ::
      { session with cache := session.cache.clear }.passEffects task session.openUris
  | .lint uri => session.passEffects task [uri]
  | .configure config => [.configured config]

/-- What the task of an act does. -/
def effects (session : Session) : Act → List Effect
  | .start request =>
    { session with stages := session.stages ++ [Stage.done] }.performEffects
      session.stages.length request
  | .answer task answer =>
    match session.stages[task]? with
    | some (.fetching uri number stamp others) =>
      let resolved := session.cache.complete uri stamp answer
      let session := { session with cache := resolved.cache }.note resolved.notices
      .answered task uri answer :: (session.publishEffects task uri resolved.settings ++
        ((session.publish uri resolved.settings).release number).passEffects task others)
    | _ => []
  | .resume task =>
    if session.canResume task then
      match session.stages[task]? with
      | some (.locked number (.pass uri others)) =>
        session.enterEffects task uri ++
          match session.enterPass uri number with
          | (session, none) => session.passEffects task others
          | (_, some _) => []
      | some (.locked _ (.close uri)) => [.forgotten uri]
      | _ => []
    else
      []

/-- What the tasks of a run do, in order. -/
def history (session : Session) : List Act → List Effect
  | [] => []
  | act :: acts => session.effects act ++ (session.step act).history acts

@[simp] theorem history_nil (session : Session) : session.history [] = [] := rfl

@[simp] theorem history_cons (session : Session) (act : Act) (acts : List Act) :
    session.history (act :: acts) = session.effects act ++ (session.step act).history acts := rfl

end Session

end RuleLint
