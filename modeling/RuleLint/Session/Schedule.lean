import RuleLint.Session.Basic

/-!
# Running a session to rest

With a source that answers every fetch at once, tasks only ever wait for each other.
`Session.settle` takes steps until no task can go on, always of the earliest task that can;
`Session.serve` carries out one request in a session at rest.

Each step of a task shortens what it still has to do (`Stage.work`), which bounds the number of
steps.
-/

namespace RuleLint

/-- A bound on the number of steps that a task still takes. -/
def Stage.work : Stage → Nat
  | .locked _ (.pass _ others) => 2 * others.length + 2
  | .locked _ (.close _) => 1
  | .fetching _ _ _ others => 2 * others.length + 1
  | .done => 0

namespace Session

/-- A bound on the number of steps that all tasks together still take. -/
def work (session : Session) : Nat :=
  session.stages.foldr (fun stage work ↦ stage.work + work) 0

/-- Answer the fetches of a task until it waits for something else. -/
def answerFetches (source : String → Answer) (task : TaskId) : Nat → Session → Session
  | 0, session => session
  | fuel + 1, session =>
    match session.stages[task]? with
    | some (.fetching uri _ _ _) =>
      answerFetches source task fuel (session.answer task (source uri))
    | _ => session

/-- Let a task run until it is over or waits for a lock. -/
def advance (source : String → Answer) (task : TaskId) (session : Session) : Session :=
  answerFetches source task session.work session

/-- Let tasks run, the earliest first, until none can go on. -/
def settleFrom (source : String → Answer) : Nat → Session → Session
  | 0, session => session
  | fuel + 1, session =>
    match (List.range session.stages.length).find? session.canResume with
    | some task => settleFrom source fuel ((session.resume task).advance source task)
    | none => session

/-- Let all tasks run until none can go on. -/
def settle (source : String → Answer) (session : Session) : Session :=
  settleFrom source session.work session

/-- Carry out a request. -/
def serve (source : String → Answer) (session : Session) (request : Request) : Session :=
  let (task, session) := session.start request
  (session.advance source task).settle source

end Session

end RuleLint
