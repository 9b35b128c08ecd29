import RuleLint.Proofs.Session.History

/-!
# Moves of tasks

This module says once what an act can do, so that nothing later unfolds a step of a session.

* A task that runs is at a `Point`, and its stage reads `done` until it parks again. `Move` lists
  what can happen between two points; each rule touches little.
* `idle_or_enters` says that an act either changes nothing or is a chain of moves of one task.
* `keeps_run` turns what moves keep into what runs keep. Every invariant of sessions goes through
  it: one case for each way in and one for each move.

The stage of a task matters only while it waits, which is why the stage can be taken away as soon as
the task goes on (`runPasses_setStage`).
-/

namespace RuleLint

/-- The document that a job is about. -/
def Job.uri : Job → String
  | .pass uri _ | .close uri => uri

namespace Session

/-! ### Between two waits -/

/-- Where a running task stands. -/
inductive Point where
  /-- It is about to carry out a request. -/
  | perform (request : Request)
  /-- It is about to make passes on documents. -/
  | passes (uris : List String)
  /-- It is about to ask for the lock of the document of a job. -/
  | ask (job : Job)
  /-- It holds the lock with a number for a job. -/
  | hold (number : Nat) (job : Job)
  /-- It holds the lock with a number and has just got the answer to a fetch. -/
  | answered (uri : String) (number : Nat) (stamp : Stamp) (others : List String)
      (answer : Answer)
  /-- It holds the lock with a number and has the settings for a document. -/
  | settled (uri : String) (number : Nat) (settings : Settings) (others : List String)
  /-- It is over or waits. -/
  | parked

/-- The session in which a task has asked for the lock of a document. -/
def ask (session : Session) (task : TaskId) (uri : String) : Session :=
  let (number, session) := session.lockFor uri
  session.setLock number ((session.lock number).request task)

/-- Whether nobody holds the lock of a document. -/
def isFreeFor (session : Session) (uri : String) : Bool :=
  let (number, session) := session.lockFor uri
  (session.lock number).isFree

/-- The session after the answer to a fetch that began under a stamp. -/
def receive (session : Session) (uri : String) (stamp : Stamp) (answer : Answer) : Session :=
  let resolved := session.cache.complete uri stamp answer
  { session with cache := resolved.cache }.note resolved.notices

/-- What a running task does next: from a session and a point to a session and a point. -/
inductive Move (task : TaskId) : Session → Point → List Effect → Session → Point → Prop
  | openDocument (s : Session) (document : Document) :
      Move task s (.perform (.openDocument document)) [.stored document] (s.store document)
        (.passes [document.uri])
  | change {s : Session} {uri : String} {document : Document} (version : Int) (text : String)
      (opened : s.documents.get? uri = some document) :
      Move task s (.perform (.change uri version text))
        [.stored (document.withText version text)] (s.store (document.withText version text))
        (.passes [uri])
  | changeUnopened {s : Session} {uri : String} (version : Int) (text : String)
      (closed : s.documents.get? uri = none) :
      Move task s (.perform (.change uri version text)) [.stored ⟨uri, "", version, text⟩]
        ((s.note [.changeUnopened uri]).store ⟨uri, "", version, text⟩) (.passes [uri])
  | close (s : Session) (uri : String) :
      Move task s (.perform (.close uri)) [] s (.ask (.close uri))
  | refresh (s : Session) :
      Move task s (.perform .refresh) [.cleared task] { s with cache := s.cache.clear }
        (.passes s.openUris)
  | lint (s : Session) (uri : String) :
      Move task s (.perform (.lint uri)) [] s (.passes [uri])
  | configure (s : Session) (config : Config) :
      Move task s (.perform (.configure config)) [.configured config] { s with config } (.passes [])
  | finish (s : Session) : Move task s (.passes []) [] s .parked
  | next (s : Session) (uri : String) (others : List String) :
      Move task s (.passes (uri :: others)) [] s (.ask (.pass uri others))
  | wait {s : Session} {job : Job} (held : s.isFreeFor job.uri = false) :
      Move task s (.ask job) []
        ((s.ask task job.uri).setStage task (.locked (s.lockFor job.uri).1 job)) .parked
  | take {s : Session} {job : Job} (free : s.isFreeFor job.uri = true) :
      Move task s (.ask job) [] (s.ask task job.uri) (.hold (s.lockFor job.uri).1 job)
  | skip {s : Session} {uri : String} (number : Nat) (others : List String)
      (closed : s.documents.get? uri = none) :
      Move task s (.hold number (.pass uri others)) [] (s.release number) (.passes others)
  | hit {s : Session} {uri : String} {document : Document} {settings : Settings} (number : Nat)
      (others : List String) (opened : s.documents.get? uri = some document)
      (entry : s.cache.entries.get? uri = some settings) :
      Move task s (.hold number (.pass uri others)) [.found task uri settings] s
        (.settled uri number settings others)
  | fetch {s : Session} {uri : String} {document : Document} (number : Nat)
      (others : List String) (opened : s.documents.get? uri = some document)
      (missing : s.cache.entries.get? uri = none) :
      Move task s (.hold number (.pass uri others)) [.fetched task uri]
        ({ s with events := s.events ++ [Event.fetched uri] }.setStage task
          (.fetching uri number (s.cache.stamp uri) others)) .parked
  | forget (s : Session) (number : Nat) (uri : String) :
      Move task s (.hold number (.close uri)) [.forgotten uri] (s.forget uri number) .parked
  | answer (s : Session) (uri : String) (number : Nat) (stamp : Stamp) (others : List String)
      (answer : Answer) :
      Move task s (.answered uri number stamp others answer) [.answered task uri answer]
        (s.receive uri stamp answer)
        (.settled uri number (s.cache.complete uri stamp answer).settings others)
  | publish {s : Session} {uri : String} {document : Document} (number : Nat)
      (settings : Settings) (others : List String)
      (opened : s.documents.get? uri = some document) :
      Move task s (.settled uri number settings others)
        [.published task uri document settings s.config]
        ((s.publish uri settings).release number) (.passes others)
  | drop {s : Session} {uri : String} (number : Nat) (settings : Settings) (others : List String)
      (closed : s.documents.get? uri = none) :
      Move task s (.settled uri number settings others) [] (s.release number) (.passes others)

/-- What a running task does until it parks. -/
inductive Moves (task : TaskId) : Session → Point → List Effect → Session → Prop
  | parked (s : Session) : Moves task s .parked [] s
  | move {s s' s'' : Session} {point point' : Point} {effects effects' : List Effect}
      (first : Move task s point effects s' point') (rest : Moves task s' point' effects' s'') :
      Moves task s point (effects ++ effects') s''

/-- How an act sets a task going: its stage now reads that it is over, and it is at a point. -/
inductive Enters (s : Session) : Act → TaskId → Session → Point → Prop
  | start (request : Request) :
      Enters s (.start request) s.stages.length { s with stages := s.stages ++ [Stage.done] }
        (.perform request)
  | answer {task : TaskId} {uri : String} {number : Nat} {stamp : Stamp} {others : List String}
      (answer : Answer) (stage : s.stages[task]? = some (.fetching uri number stamp others)) :
      Enters s (.answer task answer) task (s.setStage task .done)
        (.answered uri number stamp others answer)
  | resume {task : TaskId} {number : Nat} {job : Job}
      (stage : s.stages[task]? = some (.locked number job))
      (holds : (s.lock number).holder = some task) :
      Enters s (.resume task) task (s.setStage task .done) (.hold number job)

/-! ### What the parts of a step leave alone

Asking for a lock and releasing one are about locks only, and a publication about what is told. -/

section Frames

variable (s : Session) (task : TaskId) (uri : String) (number : Nat) (settings : Settings)

@[simp] theorem ask_suite : (s.ask task uri).suite = s.suite := by
  simp only [ask, lockFor]; split <;> rfl

@[simp] theorem ask_config : (s.ask task uri).config = s.config := by
  simp only [ask, lockFor]; split <;> rfl

@[simp] theorem ask_documents : (s.ask task uri).documents = s.documents := by
  simp only [ask, lockFor]; split <;> rfl

@[simp] theorem ask_cache : (s.ask task uri).cache = s.cache := by
  simp only [ask, lockFor]; split <;> rfl

@[simp] theorem ask_stages : (s.ask task uri).stages = s.stages := by
  simp only [ask, lockFor]; split <;> rfl

@[simp] theorem ask_events : (s.ask task uri).events = s.events := by
  simp only [ask, lockFor]; split <;> rfl

@[simp] theorem publish_suite : (s.publish uri settings).suite = s.suite := by
  simp only [publish]; split <;> rfl

@[simp] theorem publish_config : (s.publish uri settings).config = s.config := by
  simp only [publish]; split <;> rfl

@[simp] theorem publish_documents : (s.publish uri settings).documents = s.documents := by
  simp only [publish]; split <;> rfl

@[simp] theorem publish_cache : (s.publish uri settings).cache = s.cache := by
  simp only [publish]; split <;> rfl

@[simp] theorem publish_lockOf : (s.publish uri settings).lockOf = s.lockOf := by
  simp only [publish]; split <;> rfl

@[simp] theorem publish_locks : (s.publish uri settings).locks = s.locks := by
  simp only [publish]; split <;> rfl

@[simp] theorem publish_stages : (s.publish uri settings).stages = s.stages := by
  simp only [publish]; split <;> rfl

theorem publish_events_of_open {document : Document}
    (opened : s.documents.get? uri = some document) :
    (s.publish uri settings).events = s.events ++
      [.published uri document.version
        (RuleLint.lint s.suite document settings s.config).diagnostics] := by
  simp [publish, opened]

@[simp] theorem release_suite : (s.release number).suite = s.suite := rfl

@[simp] theorem release_config : (s.release number).config = s.config := rfl

@[simp] theorem release_documents : (s.release number).documents = s.documents := rfl

@[simp] theorem release_cache : (s.release number).cache = s.cache := rfl

@[simp] theorem release_lockOf : (s.release number).lockOf = s.lockOf := rfl

@[simp] theorem release_stages : (s.release number).stages = s.stages := rfl

@[simp] theorem release_events : (s.release number).events = s.events := rfl

@[simp] theorem forget_documents :
    (s.forget uri number).documents = s.documents.erase uri := rfl

@[simp] theorem forget_lockOf : (s.forget uri number).lockOf = s.lockOf.erase uri := rfl

@[simp] theorem forget_stages : (s.forget uri number).stages = s.stages := rfl

end Frames

/-! ### Passes in terms of moves -/

section Passes

variable (s : Session) (task : TaskId) (uri : String) (number : Nat) (others : List String)

/-- The pass of a task that has come to hold the lock of a document, and its further passes. -/
def turn : Session :=
  match s.enterPass uri number with
  | (s, none) => s.runPasses task others
  | (s, some stamp) => s.setStage task (.fetching uri number stamp others)

/-- What a task does in its turn. -/
def turnEffects : List Effect :=
  s.enterEffects task uri ++
    match s.enterPass uri number with
    | (s, none) => s.passEffects task others
    | (_, some _) => []

theorem runPasses_cons :
    s.runPasses task (uri :: others) =
      if s.isFreeFor uri then (s.ask task uri).turn task uri (s.lockFor uri).1 others
      else (s.ask task uri).setStage task (.locked (s.lockFor uri).1 (.pass uri others)) := rfl

theorem passEffects_cons :
    s.passEffects task (uri :: others) =
      if s.isFreeFor uri then (s.ask task uri).turnEffects task uri (s.lockFor uri).1 others
      else [] := rfl

theorem perform_close :
    s.perform task (.close uri) =
      if s.isFreeFor uri then
        ((s.ask task uri).forget uri (s.lockFor uri).1).setStage task .done
      else (s.ask task uri).setStage task (.locked (s.lockFor uri).1 (.close uri)) := rfl

theorem performEffects_close :
    s.performEffects task (.close uri) =
      if s.isFreeFor uri then [.forgotten uri] else [] := rfl

theorem step_answer {stamp : Stamp}
    (stage : s.stages[task]? = some (.fetching uri number stamp others)) (answer : Answer) :
    s.step (.answer task answer) =
      (((s.receive uri stamp answer).publish uri
        (s.cache.complete uri stamp answer).settings).release number).runPasses task others := by
  simp only [step, Session.answer, stage]
  rfl

theorem effects_answer {stamp : Stamp}
    (stage : s.stages[task]? = some (.fetching uri number stamp others)) (answer : Answer) :
    s.effects (.answer task answer) =
      .answered task uri answer ::
        ((s.receive uri stamp answer).publishEffects task uri
          (s.cache.complete uri stamp answer).settings ++
        (((s.receive uri stamp answer).publish uri
          (s.cache.complete uri stamp answer).settings).release number).passEffects
            task others) := by
  simp only [effects, stage]
  rfl

theorem step_resume_pass (stage : s.stages[task]? = some (.locked number (.pass uri others)))
    (holds : (s.lock number).holder = some task) :
    s.step (.resume task) = s.turn task uri number others ∧
      s.effects (.resume task) = s.turnEffects task uri number others := by
  have hcan : s.canResume task = true := by simp [canResume, stage, holds]
  constructor
  · simp only [step, Session.resume, hcan, stage, if_true]
    rfl
  · simp only [effects, hcan, stage, if_true]
    rfl

theorem step_resume_close (stage : s.stages[task]? = some (.locked number (.close uri)))
    (holds : (s.lock number).holder = some task) :
    s.step (.resume task) = (s.forget uri number).setStage task .done ∧
      s.effects (.resume task) = [.forgotten uri] := by
  have hcan : s.canResume task = true := by simp [canResume, stage, holds]
  constructor
  · simp only [step, Session.resume, hcan, stage, if_true]
  · simp only [effects, hcan, stage, if_true]

end Passes

/-! ### Stages are only for tasks that wait -/

section Stages

variable (s : Session) (task : TaskId) (stage : Stage) (uri : String) (number : Nat)

@[simp] theorem setStage_setStage (stage' : Stage) :
    (s.setStage task stage).setStage task stage' = s.setStage task stage' := by
  simp [setStage]

/-- To park a task that is over changes nothing. -/
theorem setStage_done {s : Session} {task : TaskId} (hdone : s.stages[task]? = some .done) :
    s.setStage task .done = s := by
  obtain ⟨hlt, hstage⟩ := List.getElem?_eq_some_iff.1 hdone
  have hset := List.set_getElem_self hlt
  rw [hstage] at hset
  rw [setStage, hset]

@[simp] theorem lockFor_setStage :
    (s.setStage task stage).lockFor uri =
      ((s.lockFor uri).1, (s.lockFor uri).2.setStage task stage) := by
  simp only [lockFor, setStage]
  split <;> rfl

@[simp] theorem isFreeFor_setStage : (s.setStage task stage).isFreeFor uri = s.isFreeFor uri := by
  simp only [isFreeFor, lockFor_setStage]
  rfl

@[simp] theorem ask_setStage :
    (s.setStage task stage).ask task uri = (s.ask task uri).setStage task stage := by
  simp only [ask, lockFor_setStage]
  rfl

@[simp] theorem publish_setStage (settings : Settings) :
    (s.setStage task stage).publish uri settings =
      (s.publish uri settings).setStage task stage := by
  simp only [publish, setStage]
  split <;> rfl

@[simp] theorem enterEffects_setStage :
    (s.setStage task stage).enterEffects task uri = s.enterEffects task uri := rfl

@[simp] theorem enterPass_setStage :
    (s.setStage task stage).enterPass uri number =
      ((s.enterPass uri number).1.setStage task stage, (s.enterPass uri number).2) := by
  have hopen : (s.setStage task stage).documents.contains uri = s.documents.contains uri := rfl
  have hlook : (s.setStage task stage).cache.look uri = s.cache.look uri := rfl
  simp only [enterPass, hopen, hlook, publish_setStage]
  split
  · split <;> rfl
  · rfl

/-- The stage that a task had does not matter for what its turn comes to, if it does not matter for
the passes after it. -/
theorem turn_setStage {others : List String} (passes : ∀ s : Session,
      (s.setStage task stage).runPasses task others = s.runPasses task others) :
    (s.setStage task stage).turn task uri number others = s.turn task uri number others := by
  simp only [turn, enterPass_setStage]
  rcases s.enterPass uri number with ⟨s', - | stamp⟩
  · exact passes s'
  · exact s'.setStage_setStage task stage _

theorem turnEffects_setStage {others : List String} (passes : ∀ s : Session,
      (s.setStage task stage).passEffects task others = s.passEffects task others) :
    (s.setStage task stage).turnEffects task uri number others =
      s.turnEffects task uri number others := by
  simp only [turnEffects, enterPass_setStage, enterEffects_setStage]
  rcases s.enterPass uri number with ⟨s', - | stamp⟩
  · simp only [passes s']
  · rfl

/-- The stage that a task had does not matter for what its passes come to. -/
theorem runPasses_setStage (uris : List String) :
    (s.setStage task stage).runPasses task uris = s.runPasses task uris := by
  induction uris generalizing s with
  | nil => exact s.setStage_setStage task stage .done
  | cons uri others ih =>
    rw [runPasses_cons, runPasses_cons, isFreeFor_setStage, ask_setStage, lockFor_setStage,
      turn_setStage _ _ _ _ _ ih, setStage_setStage]

theorem passEffects_setStage (uris : List String) :
    (s.setStage task stage).passEffects task uris = s.passEffects task uris := by
  induction uris generalizing s with
  | nil => rfl
  | cons uri others ih =>
    rw [passEffects_cons, passEffects_cons, isFreeFor_setStage, ask_setStage, lockFor_setStage,
      turnEffects_setStage _ _ _ _ _ ih]

theorem store_setStage (document : Document) :
    (s.setStage task stage).store document = (s.store document).setStage task stage := rfl

theorem note_setStage (notices : List Notice) :
    (s.setStage task stage).note notices = (s.note notices).setStage task stage := rfl

theorem forget_setStage :
    (s.setStage task stage).forget uri number = (s.forget uri number).setStage task stage := rfl

theorem receive_setStage (stamp : Stamp) (answer : Answer) :
    (s.setStage task stage).receive uri stamp answer =
      (s.receive uri stamp answer).setStage task stage := rfl

theorem withCache_setStage (cache : Cache) :
    { s.setStage task stage with cache } = { s with cache }.setStage task stage := rfl

theorem withConfig_setStage (config : Config) :
    { s.setStage task stage with config } = { s with config }.setStage task stage := rfl

theorem release_setStage :
    (s.setStage task stage).release number = (s.release number).setStage task stage := rfl

end Stages

/-! ### Acts are chains of moves -/

section Chains

variable {s : Session} {task : TaskId}

/-- A move that does nothing to speak of is one more move. -/
theorem Moves.silent {s' s'' : Session} {point point' : Point} {effects : List Effect}
    (first : Move task s point [] s' point') (rest : Moves task s' point' effects s'') :
    Moves task s point effects s'' :=
  .move first rest

theorem Moves.last {s' : Session} {point : Point} {effects : List Effect}
    (first : Move task s point effects s' .parked) : Moves task s point effects s' := by
  simpa using Moves.move first (.parked s')

theorem moves_settled {uri : String} {number : Nat} {settings : Settings} {others : List String}
    (passes : ∀ s : Session, s.setStage task .done = s →
      Moves task s (.passes others) (s.passEffects task others) (s.runPasses task others))
    (running : s.setStage task .done = s) :
    Moves task s (.settled uri number settings others)
      (s.publishEffects task uri settings ++
        ((s.publish uri settings).release number).passEffects task others)
      (((s.publish uri settings).release number).runPasses task others) := by
  have hrest := passes ((s.publish uri settings).release number) (by
    rw [← release_setStage, ← publish_setStage, running])
  cases hopen : s.documents.get? uri with
  | none =>
    have hpublish : s.publish uri settings = s := by simp [publish, hopen]
    rw [hpublish] at hrest ⊢
    rw [publishEffects, hopen]
    exact .silent (.drop number settings others hopen) hrest
  | some document =>
    rw [publishEffects, hopen]
    exact .move (.publish number settings others hopen) hrest

theorem moves_turn {uri : String} {number : Nat} {others : List String}
    (passes : ∀ s : Session, s.setStage task .done = s →
      Moves task s (.passes others) (s.passEffects task others) (s.runPasses task others))
    (running : s.setStage task .done = s) :
    Moves task s (.hold number (.pass uri others)) (s.turnEffects task uri number others)
      (s.turn task uri number others) := by
  cases hopen : s.documents.get? uri with
  | none =>
    have hcontains : s.documents.contains uri = false := by simp [Table.contains, hopen]
    simp only [turn, turnEffects, enterPass, enterEffects, hcontains]
    exact .silent (.skip number others hopen)
      (passes (s.release number) (by rw [← release_setStage, running]))
  | some document =>
    have hcontains : s.documents.contains uri = true := by simp [Table.contains, hopen]
    cases hentry : s.cache.entries.get? uri with
    | some settings =>
      have hmoves := Moves.move (.hit number others hopen hentry) (moves_settled passes running)
      simp only [turn, turnEffects, enterPass, enterEffects, hcontains, Cache.look, hentry,
        if_true, List.cons_append]
      exact hmoves
    | none =>
      simp only [turn, turnEffects, enterPass, enterEffects, hcontains, Cache.look, hentry]
      exact .last (.fetch number others hopen hentry)

/-- What `runPasses` does is a chain of moves. The induction is on the documents that are left. -/
theorem moves_passes (uris : List String) :
    ∀ s : Session, s.setStage task .done = s →
      Moves task s (.passes uris) (s.passEffects task uris) (s.runPasses task uris) := by
  induction uris with
  | nil =>
    intro s running
    rw [runPasses, running]
    exact .last (.finish s)
  | cons uri others ih =>
    intro s running
    refine .silent (.next s uri others) ?_
    rw [runPasses_cons, passEffects_cons]
    by_cases hfree : s.isFreeFor uri = true
    · rw [if_pos hfree, if_pos hfree]
      exact .silent (.take hfree) (moves_turn ih (by rw [← ask_setStage, running]))
    · rw [if_neg hfree, if_neg hfree]
      exact .last (.wait (eq_false_of_ne_true hfree))

theorem moves_perform (running : s.setStage task .done = s) (request : Request) :
    Moves task s (.perform request) (s.performEffects task request) (s.perform task request) := by
  cases request with
  | openDocument document =>
    exact .move (.openDocument s document)
      (moves_passes [document.uri] (s.store document) (by rw [← store_setStage, running]))
  | change uri version text =>
    cases hopen : s.documents.get? uri with
    | some document =>
      simp only [perform, performEffects, hopen]
      exact .move (.change version text hopen)
        (moves_passes [uri] _ (by rw [← store_setStage, running]))
    | none =>
      simp only [perform, performEffects, hopen]
      exact .move (.changeUnopened version text hopen)
        (moves_passes [uri] _ (by rw [← store_setStage, ← note_setStage, running]))
  | close uri =>
    refine .silent (.close s uri) ?_
    rw [perform_close, performEffects_close]
    by_cases hfree : s.isFreeFor uri = true
    -- A lock that nobody holds is taken at once, and the document forgotten in the same act.
    · have hforget : (((s.ask task uri).forget uri (s.lockFor uri).1).setStage task .done) =
          (s.ask task uri).forget uri (s.lockFor uri).1 := by
        rw [← forget_setStage, ← ask_setStage, running]
      rw [if_pos hfree, if_pos hfree, hforget]
      exact .silent (.take hfree) (.last (.forget _ _ uri))
    · rw [if_neg hfree, if_neg hfree]
      exact .last (.wait (eq_false_of_ne_true hfree))
  | refresh =>
    exact .move (.refresh s) (moves_passes s.openUris _ (by rw [← withCache_setStage, running]))
  | lint uri => exact .silent (.lint s uri) (moves_passes [uri] s running)
  | configure config =>
    have hover : ({ s with config } : Session).setStage task .done = { s with config } := by
      rw [← withConfig_setStage, running]
    rw [perform, hover]
    exact .move (.configure s config) (.last (.finish _))

/-- A request is carried out by a new task. -/
theorem moves_start (s : Session) (request : Request) :
    Moves s.stages.length { s with stages := s.stages ++ [Stage.done] } (.perform request)
      (s.effects (.start request)) (s.step (.start request)) :=
  moves_perform (by simp [setStage]) request

/-- **What an act can do.** Either its task is not waiting for it and nothing happens, or it sets
the task going, and everything else is moves of that task. -/
theorem idle_or_enters (s : Session) (act : Act) :
    (s.step act = s ∧ s.effects act = []) ∨
      ∃ task entered point, Enters s act task entered point ∧
        Moves task entered point (s.effects act) (s.step act) := by
  cases act with
  | start request =>
    exact Or.inr ⟨_, _, _, .start request, s.moves_start request⟩
  | answer task answer =>
    rcases hstage : s.stages[task]? with - | stage
    · exact Or.inl (by simp [step, Session.answer, effects, hstage])
    · cases stage with
      | locked => exact Or.inl (by simp [step, Session.answer, effects, hstage])
      | done => exact Or.inl (by simp [step, Session.answer, effects, hstage])
      | fetching uri number stamp others =>
        refine Or.inr ⟨task, _, _, .answer answer hstage, ?_⟩
        -- The moves are those of a session whose stage for the task has been taken away; the task
        -- parks over it in the end, so nothing of the difference is left.
        have hrunning : ((s.setStage task .done).receive uri stamp answer).setStage task .done =
            (s.setStage task .done).receive uri stamp answer := by
          rw [receive_setStage, setStage_setStage]
        have hmoves := Moves.move
          (.answer (s.setStage task .done) uri number stamp others answer)
          (moves_settled (moves_passes others) hrunning)
        rw [receive_setStage, publish_setStage, release_setStage, runPasses_setStage,
          passEffects_setStage] at hmoves
        rw [step_answer _ _ _ _ _ hstage, effects_answer _ _ _ _ _ hstage]
        exact hmoves
  | resume task =>
    by_cases hcan : s.canResume task = true
    · simp only [canResume] at hcan
      split at hcan
      · rename_i number job hstage
        have hholds : (s.lock number).holder = some task := by simpa using hcan
        refine Or.inr ⟨task, _, _, .resume hstage hholds, ?_⟩
        cases job with
        | pass uri others =>
          obtain ⟨hstep, heffects⟩ := step_resume_pass _ _ _ _ _ hstage hholds
          rw [hstep, heffects,
            ← s.turn_setStage task .done uri number fun s ↦ s.runPasses_setStage task .done others,
            ← s.turnEffects_setStage task .done uri number
              fun s ↦ s.passEffects_setStage task .done others]
          exact moves_turn (moves_passes others) (by rw [setStage_setStage])
        | close uri =>
          obtain ⟨hstep, heffects⟩ := step_resume_close _ _ _ _ hstage hholds
          rw [hstep, heffects, ← forget_setStage]
          exact .last (.forget _ number uri)
      · exact absurd hcan Bool.false_ne_true
    · exact Or.inl (by simp [step, Session.resume, effects, hcan])

end Chains

/-! ### Tasks that wait -/

/-- Some task is at a stage of a kind. -/
def Has (session : Session) (kind : Stage → Prop) : Prop :=
  ∃ stage ∈ session.stages, kind stage

section Waiting

variable {s s' : Session} {task : TaskId} {stage old : Stage} {kind : Stage → Prop}

theorem Has.of_setStage (h : (s.setStage task stage).Has kind) : s.Has kind ∨ kind stage := by
  obtain ⟨found, hmem, hkind⟩ := h
  rcases List.mem_or_eq_of_mem_set hmem with hmem | rfl
  · exact Or.inl ⟨found, hmem, hkind⟩
  · exact Or.inr hkind

theorem Has.setStage (h : s.Has kind) (hold : s.stages[task]? = some old) (stage : Stage) :
    (s.setStage task stage).Has kind ∨ kind old := by
  obtain ⟨found, hmem, hkind⟩ := h
  obtain ⟨other, hother⟩ := List.mem_iff_getElem?.1 hmem
  by_cases htask : task = other
  · subst htask
    obtain rfl := Option.some.inj (hold.symm.trans hother)
    exact Or.inr hkind
  · refine Or.inl ⟨found, List.mem_iff_getElem?.2 ⟨other, ?_⟩, hkind⟩
    rw [Session.setStage, List.getElem?_set_ne htask, hother]

theorem has_setStage_self (hold : s.stages[task]? = some old) (hkind : kind stage) :
    (s.setStage task stage).Has kind :=
  ⟨stage, List.mem_set (List.getElem?_eq_some_iff.1 hold).1 stage, hkind⟩

/-- A task that is set going leaves its stage, which shows in the point it is at. -/
theorem Has.enters {act : Act} {point : Point} (h : s.Has kind)
    (henters : Enters s act task s' point) :
    s'.Has kind ∨
      (∃ uri number stamp others answer, point = .answered uri number stamp others answer ∧
        kind (.fetching uri number stamp others)) ∨
      ∃ number job, point = .hold number job ∧ kind (.locked number job) := by
  cases henters with
  | start request =>
    obtain ⟨found, hmem, hkind⟩ := h
    exact Or.inl ⟨found, List.mem_append_left _ hmem, hkind⟩
  | answer answer hstage =>
    rcases h.setStage hstage .done with h | hkind
    · exact Or.inl h
    · exact Or.inr (Or.inl ⟨_, _, _, _, answer, rfl, hkind⟩)
  | resume hstage holds =>
    rcases h.setStage hstage .done with h | hkind
    · exact Or.inl h
    · exact Or.inr (Or.inr ⟨_, _, rfl, hkind⟩)

theorem Enters.has_of_has {act : Act} {point : Point} (henters : Enters s act task s' point)
    (hdone : ¬kind .done) (h : s'.Has kind) : s.Has kind := by
  cases henters with
  | start request =>
    obtain ⟨found, hmem, hkind⟩ := h
    rcases List.mem_append.1 hmem with hmem | hmem
    · exact ⟨found, hmem, hkind⟩
    · exact absurd (List.mem_singleton.1 hmem ▸ hkind) hdone
  | answer => exact h.of_setStage.resolve_right hdone
  | resume => exact h.of_setStage.resolve_right hdone

end Waiting

/-! ### What moves keep, runs keep -/

section Keeps

variable {s : Session} {past : List Effect}

/-- Only a move that parks its task changes stages. -/
theorem Move.stages_eq {task : TaskId} {s' : Session} {point point' : Point}
    {effects : List Effect} (h : Move task s point effects s' point') (hpoint : point' ≠ .parked) :
    s'.stages = s.stages := by
  cases h with
  | finish => exact absurd rfl hpoint
  | wait => exact absurd rfl hpoint
  | fetch => exact absurd rfl hpoint
  | forget => exact absurd rfl hpoint
  | take => simp
  | publish => simp
  | _ => rfl

theorem Enters.stage_eq_done {act : Act} {task : TaskId} {s' : Session} {point : Point}
    (h : Enters s act task s' point) : s'.stages[task]? = some .done := by
  cases h with
  | start => exact List.getElem?_concat_length
  | answer _ stage => exact List.getElem?_set_self (List.getElem?_eq_some_iff.1 stage).1
  | resume stage => exact List.getElem?_set_self (List.getElem?_eq_some_iff.1 stage).1

/-- Induction over the moves of a task. -/
theorem Moves.keeps {task : TaskId} {I : Session → Point → List Effect → Prop}
    (moves : ∀ {s s' : Session} {point point' : Point} {effects past : List Effect},
      Move task s point effects s' point' → s.stages[task]? = some .done →
        I s point past → I s' point' (past ++ effects))
    {s' : Session} {point : Point} {effects : List Effect} (h : Moves task s point effects s')
    (running : s.stages[task]? = some .done) (start : I s point past) :
    I s' .parked (past ++ effects) := by
  induction h generalizing past with
  | parked s => simpa using start
  | @move _ s' _ _ point' _ _ first rest ih =>
    have hnext := moves first running start
    rw [← List.append_assoc]
    -- once the task has parked, its stage may be anything, but it makes no move any more
    by_cases hpoint : point' = .parked
    · subst hpoint
      cases rest with
      | parked => simpa using hnext
      | move impossible => cases impossible
    · exact ih (by rw [first.stages_eq hpoint]; exact running) hnext

/-- Induction over runs. `J` speaks of a session between two acts and of all that has been done
before, and `I` of a session in which a task is at some point. -/
theorem keeps_run {J : Session → List Effect → Prop}
    {I : TaskId → Session → Point → List Effect → Prop} (acts : List Act)
    (enters : ∀ {s s' : Session} {act : Act} {task : TaskId} {point : Point}
      {past : List Effect}, act ∈ acts → Enters s act task s' point → J s past →
        I task s' point past)
    (moves : ∀ {task : TaskId} {s s' : Session} {point point' : Point}
      {effects past : List Effect}, Move task s point effects s' point' →
        s.stages[task]? = some .done → I task s point past → I task s' point' (past ++ effects))
    (parked : ∀ {task : TaskId} {s : Session} {past : List Effect},
      I task s .parked past → J s past)
    (start : J s past) : J (s.run acts) (past ++ s.history acts) := by
  induction acts generalizing s past with
  | nil => simpa using start
  | cons act acts ih =>
    rw [run_cons, history_cons, ← List.append_assoc]
    refine ih (fun hmem ↦ enters (List.mem_cons_of_mem act hmem)) ?_
    rcases idle_or_enters s act with ⟨hstep, heffects⟩ | ⟨task, s', point, henters, hmoves⟩
    · rw [hstep, heffects, List.append_nil]
      exact start
    · exact parked (hmoves.keeps moves henters.stage_eq_done
        (enters List.mem_cons_self henters start))

/-- The same for runs that begin with a request, when more is known of that one. -/
theorem keeps_run_of_start {J : Session → List Effect → Prop}
    {I : TaskId → Session → Point → List Effect → Prop} (request : Request) (acts : List Act)
    (enters : ∀ {s s' : Session} {act : Act} {task : TaskId} {point : Point}
      {past : List Effect}, act ∈ acts → Enters s act task s' point → J s past →
        I task s' point past)
    (moves : ∀ {task : TaskId} {s s' : Session} {point point' : Point}
      {effects past : List Effect}, Move task s point effects s' point' →
        s.stages[task]? = some .done → I task s point past → I task s' point' (past ++ effects))
    (parked : ∀ {task : TaskId} {s : Session} {past : List Effect},
      I task s .parked past → J s past)
    (start : I s.stages.length { s with stages := s.stages ++ [Stage.done] } (.perform request)
      past) :
    J (s.run (.start request :: acts)) (past ++ s.history (.start request :: acts)) := by
  rw [run_cons, history_cons, ← List.append_assoc]
  exact keeps_run acts enters moves parked
    (parked ((s.moves_start request).keeps moves List.getElem?_concat_length start))

end Keeps

/-! ### Events -/

/-- A move changes neither the suite nor, but for what it does in public, the events. -/
theorem Move.suite_and_events {task : TaskId} {s s' : Session} {point point' : Point}
    {effects : List Effect} (h : Move task s point effects s' point') :
    s'.suite = s.suite ∧ s'.events = s.events ++ effects.filterMap (Effect.event? s.suite) := by
  cases h with
  | publish number settings others opened =>
    simp [publish_events_of_open _ _ _ opened, Effect.event?]
  | wait => simp [setStage]
  | take => simp
  | fetch => simp [setStage, Effect.event?]
  | _ => exact ⟨rfl, (List.append_nil _).symm⟩

theorem suite_and_events_run (session : Session) (acts : List Act) :
    (session.run acts).suite = session.suite ∧ (session.run acts).events =
      session.events ++ (session.history acts).filterMap (Effect.event? session.suite) := by
  let J : Session → List Effect → Prop := fun s past ↦ s.suite = session.suite ∧
    s.events = session.events ++ past.filterMap (Effect.event? session.suite)
  refine @keeps_run session [] J (fun _ s _ past ↦ J s past) acts ?_ ?_ (fun h ↦ h) (by simp [J])
  · intro s s' act task point past _ henters h
    cases henters <;> exact h
  · rintro task s s' point point' effects past hmove - ⟨hsuite, hevents⟩
    obtain ⟨hsuite', hevents'⟩ := hmove.suite_and_events
    refine ⟨hsuite'.trans hsuite, ?_⟩
    rw [hevents', hevents, hsuite, List.filterMap_append, List.append_assoc]

theorem suite_run (session : Session) (acts : List Act) :
    (session.run acts).suite = session.suite :=
  (session.suite_and_events_run acts).1

/-- The events of a session are what is public of its history. -/
theorem events_run (session : Session) (acts : List Act) :
    (session.run acts).events =
      session.events ++ (session.history acts).filterMap (Effect.event? session.suite) :=
  (session.suite_and_events_run acts).2

end Session

end RuleLint
