import Mathlib
import RuleLint.Proofs.Session.LastWrite
import RuleLint.Proofs.Session.Locks
import RuleLint.Session.Schedule

/-!
# Passes that nothing interrupts

In a session at rest nobody holds a lock, so a task that begins takes each lock at once, and nobody
else moves until it is over. What it does to a document is then one function of the session,
`Session.pass`, and what it does to several documents is that function folded over them
(`answerFetches_runPasses`). The induction on the documents also shows that the schedule has fuel
for all the fetches on the way.

Every request comes down to this: it changes the session at once (`Session.prepared`) and then makes
passes on some documents (`serve_eq_foldl`). Nothing later speaks of stages or fuel.
-/

namespace RuleLint

namespace Session

/-- Every task is over, and nobody holds or awaits a lock. -/
structure Idle (session : Session) : Prop where
  rest : session.AtRest
  unlocked : ∀ lock ∈ session.locks, lock = .free

/-- The session in which a fetch of the settings of a document has begun. -/
def fetch (session : Session) (uri : String) : Session :=
  { session with events := session.events ++ [.fetched uri] }

/-- One pass of a task that finds the lock of the document free: its settings are resolved, with the
answer of the source if they are not known, and its findings are published. -/
def pass (source : String → Answer) (task : TaskId) (session : Session) (uri : String) : Session :=
  let number := (session.lockFor uri).1
  match (session.ask task uri).enterPass uri number with
  | (session, none) => session
  | (session, some stamp) =>
    ((session.receive uri stamp (source uri)).publish uri (source uri).settings).release number

/-- The documents that a request comes to, in order. -/
def visits (session : Session) : Request → List String
  | .refresh => session.openUris
  | request => Point.uris (.perform request)

/-- The session with one more task. -/
def opened (session : Session) : Session :=
  { session with stages := session.stages ++ [.done] }

/-- The session at rest after what a request does before its passes. -/
def prepared (session : Session) : Request → Session
  | .openDocument document => session.opened.store document
  | .change uri version text =>
    match session.documents.get? uri with
    | some document => session.opened.store (document.withText version text)
    | none => (session.opened.note [.changeUnopened uri]).store ⟨uri, "", version, text⟩
  | .close uri =>
    (session.opened.ask session.stages.length uri).forget uri (session.opened.lockFor uri).1
  | .refresh => { session.opened with cache := session.cache.clear }
  | .lint _ => session.opened
  | .configure config => { session.opened with config }

section Passing

variable {source : String → Answer} {s s' : Session} {task : TaskId} {uri : String}
variable {uris : List String}

/-! ### Locks at rest -/

theorem Idle.lock_eq (hidle : s.Idle) (number : Nat) : s.lock number = .free := by
  cases hlock : s.locks[number]? with
  | none => rw [lock, hlock]; rfl
  | some lock =>
    rw [Session.lock, hlock]
    exact hidle.unlocked lock (List.mem_of_getElem? hlock)

theorem Idle.isFreeFor (hidle : s.Idle) (uri : String) : s.isFreeFor uri = true := by
  rw [isFreeFor_eq, hidle.lock_eq]
  rfl

theorem Idle.free_of_mem_lockFor (hidle : s.Idle) (uri : String) :
    ∀ lock ∈ (s.lockFor uri).2.locks, lock = .free := by
  intro lock hmem
  rw [lockFor] at hmem
  split at hmem
  · exact hidle.unlocked lock hmem
  · rcases List.mem_append.1 hmem with hmem | hmem
    · exact hidle.unlocked lock hmem
    · exact List.mem_singleton.1 hmem

/-- A lock that was taken while it was free is free again once it is released. -/
theorem Idle.unlocked_release {t : Session} (hidle : s.Idle)
    (hlocks : t.locks = (s.ask task uri).locks) :
    ∀ lock ∈ (t.release (s.lockFor uri).1).locks, lock = .free := by
  have hask : (s.ask task uri).locks = (s.lockFor uri).2.locks.set (s.lockFor uri).1
      (((s.lockFor uri).2.lock (s.lockFor uri).1).request task) := rfl
  rw [lock_lockFor, hidle.lock_eq] at hask
  have hreleased : (t.lock (s.lockFor uri).1).release = .free := by
    rw [Session.lock, hlocks, hask, List.getElem?_set_self']
    cases (s.lockFor uri).2.locks[(s.lockFor uri).1]? <;> rfl
  intro lock hmem
  have hrelease : (t.release (s.lockFor uri).1).locks =
      t.locks.set (s.lockFor uri).1 (t.lock (s.lockFor uri).1).release := rfl
  rw [hrelease, hreleased, hlocks, hask, List.set_set] at hmem
  rcases List.mem_or_eq_of_mem_set hmem with hmem | rfl
  · exact hidle.free_of_mem_lockFor uri lock hmem
  · rfl

/-! ### One pass -/

theorem enterPass_of_closed (hclosed : s.documents.get? uri = none) (number : Nat) :
    s.enterPass uri number = (s.release number, none) := by
  simp [enterPass, Table.contains, hclosed]

theorem enterPass_of_entry {document : Document} {settings : Settings}
    (hopen : s.documents.get? uri = some document)
    (hentry : s.cache.entries.get? uri = some settings) (number : Nat) :
    s.enterPass uri number = ((s.publish uri settings).release number, none) := by
  simp [enterPass, Table.contains, hopen, Cache.look, hentry]

theorem enterPass_of_missing {document : Document} (hopen : s.documents.get? uri = some document)
    (hmissing : s.cache.entries.get? uri = none) (number : Nat) :
    s.enterPass uri number = (s.fetch uri, some (s.cache.stamp uri)) := by
  simp [enterPass, Table.contains, hopen, Cache.look, hmissing, fetch]

/-- A pass on a document that is not open does nothing. -/
theorem pass_of_closed (hclosed : s.documents.get? uri = none) :
    s.pass source task uri = (s.ask task uri).release (s.lockFor uri).1 := by
  rw [pass, enterPass_of_closed (by rw [ask_documents, hclosed])]

theorem pass_of_entry {document : Document} {settings : Settings}
    (hopen : s.documents.get? uri = some document)
    (hentry : s.cache.entries.get? uri = some settings) :
    s.pass source task uri = ((s.ask task uri).publish uri settings).release (s.lockFor uri).1 := by
  rw [pass, enterPass_of_entry (by rw [ask_documents, hopen]) (by rw [ask_cache, hentry])]

theorem pass_of_missing {document : Document} (hopen : s.documents.get? uri = some document)
    (hmissing : s.cache.entries.get? uri = none) :
    s.pass source task uri =
      ((((s.ask task uri).fetch uri).receive uri (s.cache.stamp uri) (source uri)).publish uri
        (source uri).settings).release (s.lockFor uri).1 := by
  rw [pass, enterPass_of_missing (by rw [ask_documents, hopen]) (by rw [ask_cache, hmissing]),
    ask_cache]

/-- A pass ends with the release of the lock that it has taken. -/
theorem exists_pass_eq (source : String → Answer) (s : Session) (task : TaskId) (uri : String) :
    ∃ t : Session, s.pass source task uri = t.release (s.lockFor uri).1 ∧
      t.documents = s.documents ∧ t.stages = s.stages ∧ t.locks = (s.ask task uri).locks := by
  have hdocuments := ask_documents s task uri
  have hstages := ask_stages s task uri
  cases hopen : s.documents.get? uri with
  | none => exact ⟨_, pass_of_closed hopen, hdocuments, hstages, rfl⟩
  | some document =>
    cases hentry : s.cache.entries.get? uri with
    | some settings =>
      exact ⟨_, pass_of_entry hopen hentry, (publish_documents ..).trans hdocuments,
        (publish_stages ..).trans hstages, publish_locks ..⟩
    | none =>
      exact ⟨_, pass_of_missing hopen hentry, (publish_documents ..).trans hdocuments,
        (publish_stages ..).trans hstages, publish_locks ..⟩

theorem pass_stages (source : String → Answer) (s : Session) (task : TaskId) (uri : String) :
    (s.pass source task uri).stages = s.stages := by
  obtain ⟨t, hpass, -, hstages, -⟩ := exists_pass_eq source s task uri
  rw [hpass, release_stages, hstages]

theorem pass_documents (source : String → Answer) (s : Session) (task : TaskId) (uri : String) :
    (s.pass source task uri).documents = s.documents := by
  obtain ⟨t, hpass, hdocuments, -⟩ := exists_pass_eq source s task uri
  rw [hpass, release_documents, hdocuments]

/-- A session is at rest again after a pass. -/
theorem Idle.pass (hidle : s.Idle) (source : String → Answer) (task : TaskId) (uri : String) :
    (s.pass source task uri).Idle := by
  refine ⟨?_, ?_⟩
  · rw [AtRest, pass_stages]
    exact hidle.rest
  · obtain ⟨t, hpass, -, -, hlocks⟩ := exists_pass_eq source s task uri
    rw [hpass]
    exact hidle.unlocked_release hlocks

theorem foldl_pass_documents (source : String → Answer) (s : Session) (task : TaskId)
    (uris : List String) : (uris.foldl (pass source task) s).documents = s.documents := by
  induction uris generalizing s with
  | nil => rfl
  | cons uri others ih => rw [List.foldl_cons, ih, pass_documents]

theorem Idle.foldl_pass (hidle : s.Idle) (source : String → Answer) (task : TaskId)
    (uris : List String) : (uris.foldl (Session.pass source task) s).Idle := by
  induction uris generalizing s with
  | nil => exact hidle
  | cons uri others ih => exact ih (hidle.pass source task uri)

/-! ### The work that is left -/

theorem work_eq_sum : s.work = (s.stages.map Stage.work).sum := by
  rw [work, List.sum_eq_foldr, List.foldr_map]

theorem le_work {stage : Stage} (h : stage ∈ s.stages) : stage.work ≤ s.work := by
  obtain ⟨before, after, hstages⟩ := List.append_of_mem h
  rw [work_eq_sum, hstages, List.map_append, List.map_cons, List.sum_append, List.sum_cons]
  omega

theorem sum_work_of_done {stages : List Stage} (hdone : ∀ stage ∈ stages, stage = .done) :
    (stages.map Stage.work).sum = 0 := by
  rw [List.sum_eq_zero_iff_forall_eq_nat]
  intro work hmem
  obtain ⟨stage, hstage, rfl⟩ := List.mem_map.1 hmem
  rw [hdone stage hstage]
  rfl

theorem sum_work_set_le {stages : List Stage} (hdone : ∀ stage ∈ stages, stage = .done)
    (task : TaskId) (stage : Stage) :
    ((stages.set task stage).map Stage.work).sum ≤ stage.work := by
  induction stages generalizing task with
  | nil => exact Nat.zero_le _
  | cons first rest ih =>
    obtain ⟨rfl, hrest⟩ := List.forall_mem_cons.1 hdone
    cases task with
    | zero =>
      rw [List.set_cons_zero, List.map_cons, List.sum_cons, sum_work_of_done hrest]
      exact Nat.le_refl _
    | succ task => simpa [Stage.work] using ih hrest task

theorem work_setStage_le (hrest : s.AtRest) (task : TaskId) (stage : Stage) :
    (s.setStage task stage).work ≤ stage.work := by
  rw [work_eq_sum]
  exact sum_work_set_le hrest task stage

theorem answerFetches_of_done (hdone : s.stages[task]? = some .done) (fuel : Nat) :
    answerFetches source task fuel s = s := by
  cases fuel with
  | zero => rfl
  | succ fuel => simp [answerFetches, hdone]

/-! ### Passes one after the other -/

theorem getElem?_setStage_self {old : Stage} (hold : s.stages[task]? = some old) (stage : Stage) :
    (s.setStage task stage).stages[task]? = some stage :=
  List.getElem?_set_self (List.getElem?_eq_some_iff.1 hold).1

/-- A pass that has to fetch settings parks its task, and the answer to the fetch ends the pass. -/
theorem answer_fetching (source : String → Answer) {document : Document}
    (running : s.stages[task]? = some .done) (hopen : s.documents.get? uri = some document)
    (hmissing : s.cache.entries.get? uri = none) (others : List String) :
    ∃ t : Session, t.stages = s.stages ∧
      (s.ask task uri).turn task uri (s.lockFor uri).1 others =
        t.setStage task (.fetching uri (s.lockFor uri).1 (s.cache.stamp uri) others) ∧
      (t.setStage task (.fetching uri (s.lockFor uri).1 (s.cache.stamp uri) others)).answer task
        (source uri) = (s.pass source task uri).runPasses task others := by
  have hstages : ((s.ask task uri).fetch uri).stages = s.stages := ask_stages s task uri
  refine ⟨(s.ask task uri).fetch uri, hstages, ?_, ?_⟩
  · rw [turn, enterPass_of_missing (by rw [ask_documents, hopen]) (by rw [ask_cache, hmissing]),
      ask_cache]
  · have hstage := getElem?_setStage_self (hstages ▸ running)
      (.fetching uri (s.lockFor uri).1 (s.cache.stamp uri) others)
    have hstep := step_answer _ _ _ _ _ hstage (source uri)
    rw [receive_setStage, publish_setStage, release_setStage, runPasses_setStage,
      Cache.settings_complete] at hstep
    rw [pass_of_missing hopen hmissing]
    exact hstep

/-- **Passes at rest.** A task that makes passes on documents comes to the end of them, and the
schedule has fuel for all the fetches on the way. The induction is on the documents. -/
theorem answerFetches_runPasses (source : String → Answer) (uris : List String) (hidle : s.Idle)
    (running : s.stages[task]? = some .done) :
    (s.runPasses task uris).work ≤ 2 * uris.length ∧
      ∀ fuel, (s.runPasses task uris).work ≤ fuel →
        answerFetches source task fuel (s.runPasses task uris) =
          uris.foldl (pass source task) s := by
  induction uris generalizing s with
  | nil =>
    have hpasses : s.runPasses task [] = s := setStage_done running
    rw [hpasses, work_eq_sum, sum_work_of_done hidle.rest]
    exact ⟨Nat.zero_le _, fun fuel _ ↦ answerFetches_of_done running fuel⟩
  | cons uri others ih =>
    obtain ⟨hwork, hothers⟩ := ih (hidle.pass source task uri) (by rw [pass_stages, running])
    rw [runPasses_cons, if_pos (hidle.isFreeFor uri), List.foldl_cons]
    -- without a fetch the others follow at once
    have hdirect : (s.ask task uri).enterPass uri (s.lockFor uri).1 =
        (s.pass source task uri, none) →
        ((s.ask task uri).turn task uri (s.lockFor uri).1 others) =
          (s.pass source task uri).runPasses task others := fun henter ↦ by rw [turn, henter]
    cases hopen : s.documents.get? uri with
    | none =>
      rw [hdirect (by
        rw [pass_of_closed hopen, enterPass_of_closed (by rw [ask_documents, hopen])])]
      exact ⟨Nat.le_trans hwork (Nat.mul_le_mul_left 2 (Nat.le_succ _)), hothers⟩
    | some document =>
      cases hentry : s.cache.entries.get? uri with
      | some settings =>
        rw [hdirect (by rw [pass_of_entry hopen hentry,
          enterPass_of_entry (by rw [ask_documents, hopen]) (by rw [ask_cache, hentry])])]
        exact ⟨Nat.le_trans hwork (Nat.mul_le_mul_left 2 (Nat.le_succ _)), hothers⟩
      | none =>
        obtain ⟨t, hstages, hturn, hanswer⟩ := answer_fetching source running hopen hentry others
        rw [hturn]
        have hstage := getElem?_setStage_self (hstages ▸ running)
          (.fetching uri (s.lockFor uri).1 (s.cache.stamp uri) others)
        refine ⟨?_, fun fuel hfuel ↦ ?_⟩
        · have hrest : t.AtRest := by
            rw [AtRest, hstages]
            exact hidle.rest
          refine Nat.le_trans (work_setStage_le hrest task _) ?_
          simp only [Stage.work, List.length_cons]
          omega
        · -- there is fuel for the fetch, and then enough is left for the others
          have hlt := Nat.le_trans (le_work (List.mem_of_getElem? hstage)) hfuel
          cases fuel with
          | zero => simp [Stage.work] at hlt
          | succ fuel =>
            simp only [answerFetches, hstage, hanswer]
            refine hothers fuel ?_
            simp only [Stage.work] at hlt
            omega

/-! ### Requests -/

theorem Idle.settle (hidle : s.Idle) (source : String → Answer) : s.settle source = s := by
  rw [Session.settle, work_eq_sum, sum_work_of_done hidle.rest]
  rfl

theorem Idle.of_start (hidle : s.Idle) (hstages : s'.stages = s.stages ++ [.done])
    (hlocks : s'.locks = s.locks) : s'.Idle := by
  refine ⟨fun stage hmem ↦ ?_, fun lock hmem ↦ hidle.unlocked lock (hlocks ▸ hmem)⟩
  rw [hstages] at hmem
  rcases List.mem_append.1 hmem with hmem | hmem
  · exact hidle.rest stage hmem
  · exact List.mem_singleton.1 hmem

theorem prepared_stages (s : Session) (request : Request) :
    (s.prepared request).stages = s.stages ++ [.done] := by
  cases request with
  | change uri version text =>
    simp only [prepared]
    split <;> rfl
  | close uri => exact ask_stages s.opened s.stages.length uri
  | _ => rfl

/-- Whatever a request does at once, the session is at rest afterwards, but for passes. -/
theorem Idle.prepared (hidle : s.Idle) (request : Request) : (s.prepared request).Idle := by
  have hopened : s.opened.Idle := hidle.of_start rfl rfl
  cases request with
  | change uri version text =>
    refine hidle.of_start (s.prepared_stages _) ?_
    simp only [Session.prepared]
    split <;> rfl
  | close uri =>
    refine ⟨?_, hopened.unlocked_release (t := { s.opened.ask s.stages.length uri with
      documents := _, cache := _, lockOf := _ }) rfl⟩
    rw [AtRest, prepared_stages]
    exact hopened.rest
  | _ => exact hidle.of_start rfl rfl

/-- A request takes effect at once, and then its task makes passes. -/
theorem perform_eq_runPasses (hidle : s.Idle) (request : Request) :
    s.opened.perform s.stages.length request =
      (s.prepared request).runPasses s.stages.length (s.visits request) := by
  cases request with
  | change uri version text =>
    have hdocuments : s.opened.documents = s.documents := rfl
    cases hopen : s.documents.get? uri with
    | none =>
      simp only [perform, prepared, hdocuments, hopen]
      rfl
    | some document =>
      simp only [perform, prepared, hdocuments, hopen]
      rfl
  | close uri =>
    have hopened : s.opened.Idle := hidle.of_start rfl rfl
    rw [perform_close, if_pos (hopened.isFreeFor uri)]
    rfl
  | _ => rfl

/-- **What serving a request comes down to.** It changes the session at once, and then makes passes
on the documents that it comes to. -/
theorem serve_eq_foldl (hidle : s.Idle) (source : String → Answer) (request : Request) :
    s.serve source request =
      (s.visits request).foldl (pass source s.stages.length) (s.prepared request) := by
  have hready := hidle.prepared request
  have running : (s.prepared request).stages[s.stages.length]? = some .done := by
    rw [prepared_stages, List.getElem?_concat_length]
  have hadvance :=
    (answerFetches_runPasses source (s.visits request) hready running).2 _ (Nat.le_refl _)
  have hserve : s.serve source request =
      ((s.opened.perform s.stages.length request).advance source s.stages.length).settle source :=
    rfl
  rw [hserve, perform_eq_runPasses hidle, advance, hadvance,
    (hready.foldl_pass source s.stages.length (s.visits request)).settle]

theorem Idle.serve (hidle : s.Idle) (source : String → Answer) (request : Request) :
    (s.serve source request).Idle := by
  rw [serve_eq_foldl hidle]
  exact (hidle.prepared request).foldl_pass source s.stages.length (s.visits request)

end Passing

end Session

end RuleLint
