import RuleLint.Proofs.Session.LastWrite

/-!
# Tasks publish in ascending order

A table lists its names in ascending order, and a task that makes passes on several documents takes
them from such a list. Other tasks may do anything between its passes, but they neither add to what
a task has ahead of it nor change its order. So what one task publishes, it publishes in strictly
ascending order of documents, each at most once (`ascending_run`).

The invariant puts what a task has published and what it has ahead of it into one list. A pass that
publishes moves a name from the one part to the other, and a pass that finds its document closed
drops a name, so the list is only ever thinned out.
-/

namespace RuleLint

namespace Table

variable {α : Type}

/-- The names of a table are in strictly ascending order. -/
def Ordered (table : Table α) : Prop :=
  table.names.Pairwise (· < ·)

theorem ordered_empty : (empty : Table α).Ordered :=
  List.Pairwise.nil

theorem mem_map_put (name other : String) (value : α) (entries : List (String × α)) :
    other ∈ (put name value entries).map Prod.fst ↔
      name = other ∨ other ∈ entries.map Prod.fst := by
  rw [← isSome_find?_iff, ← isSome_find?_iff, find?_put]
  split <;> simp_all

theorem pairwise_put (name : String) (value : α) (entries : List (String × α))
    (h : (entries.map Prod.fst).Pairwise (· < ·)) :
    ((put name value entries).map Prod.fst).Pairwise (· < ·) := by
  induction entries with
  | nil => simp [put]
  | cons entry entries ih =>
    obtain ⟨key, old⟩ := entry
    rw [List.map_cons, List.pairwise_cons] at h
    obtain ⟨hkey, hentries⟩ := h
    by_cases heq : key = name
    · subst heq
      simp only [put, if_true, List.map_cons]
      exact .cons hkey hentries
    by_cases hlt : name < key
    · have hname : ∀ other ∈ key :: entries.map Prod.fst, name < other := by
        intro other hmem
        rcases List.mem_cons.1 hmem with rfl | hmem
        · exact hlt
        · exact String.lt_trans hlt (hkey other hmem)
      simp only [put, heq, hlt, if_false, if_true, List.map_cons]
      exact .cons hname (.cons hkey hentries)
    · have hgt : key < name := by
        refine String.not_le.1 fun hle ↦ heq (String.le_antisymm ?_ hle)
        exact String.not_lt.1 hlt
      simp only [put, heq, hlt, if_false, List.map_cons]
      refine .cons (fun other hmem ↦ ?_) (ih hentries)
      rcases (mem_map_put name other value entries).1 hmem with rfl | hmem
      · exact hgt
      · exact hkey other hmem

theorem Ordered.insert {table : Table α} (h : table.Ordered) (name : String) (value : α) :
    (table.insert name value).Ordered :=
  pairwise_put name value table.entries h

theorem Ordered.erase {table : Table α} (h : table.Ordered) (name : String) :
    (table.erase name).Ordered :=
  h.sublist (List.filter_sublist.map Prod.fst)

end Table

namespace Session

/-- The document whose findings an effect publishes, if the effect is one of a given task. -/
def Effect.publishedBy? (task : TaskId) : Effect → Option String
  | .published other uri _ _ _ => if other = task then some uri else none
  | _ => none

/-- The documents whose findings a task has published, in the order of publication. -/
def publishedBy (task : TaskId) (past : List Effect) : List String :=
  past.filterMap (Effect.publishedBy? task)

/-- The documents that a waiting task still comes to, in order. -/
def ahead (session : Session) (task : TaskId) : List String :=
  ((session.stages[task]?).map Stage.uris).getD []

/-- What tasks publish ascends, and will go on doing so. One task is running, at the given point. -/
structure Ascending (task : TaskId) (session : Session) (point : Point) (past : List Effect) :
    Prop where
  documents : session.documents.Ordered
  waiting : ∀ other, (publishedBy other past ++ session.ahead other).Pairwise (· < ·)
  running : (publishedBy task past ++ point.uris).Pairwise (· < ·)
  /-- A task that is about to carry out its request has published nothing. -/
  unspent : ∀ request, point = .perform request → publishedBy task past = []
  unborn : ∀ other, session.stages.length ≤ other → publishedBy other past = []

section Moving

variable {s s' : Session} {task : TaskId} {point point' : Point} {act : Act}
variable {effects past : List Effect}

@[simp] theorem publishedBy_append (past effects : List Effect) :
    publishedBy task (past ++ effects) = publishedBy task past ++ publishedBy task effects :=
  List.filterMap_append

theorem ahead_of_done (running : s.stages[task]? = some .done) : s.ahead task = [] := by
  rw [ahead, running]
  rfl

theorem ahead_setStage {old : Stage} (hold : s.stages[task]? = some old) (stage : Stage)
    (other : TaskId) :
    (s.setStage task stage).ahead other = if other = task then stage.uris else s.ahead other := by
  by_cases hother : other = task
  · subst hother
    have hlt := (List.getElem?_eq_some_iff.1 hold).1
    rw [ahead, setStage, List.getElem?_set_self hlt, if_pos rfl]
    rfl
  · rw [ahead, setStage, List.getElem?_set_ne (Ne.symm hother), if_neg hother, ahead]

/-- A move publishes for its own task only. -/
theorem Move.publishedBy_of_ne (h : Move task s point effects s' point') {other : TaskId}
    (hother : other ≠ task) : publishedBy other effects = [] := by
  cases h with
  | publish number settings others opened =>
    simp [publishedBy, Effect.publishedBy?, Ne.symm hother]
  | _ => rfl

theorem Move.ordered (h : Move task s point effects s' point') (hordered : s.documents.Ordered) :
    s'.documents.Ordered := by
  cases h with
  | openDocument document => exact hordered.insert _ _
  | change version text opened => exact hordered.insert _ _
  | changeUnopened version text closed => exact hordered.insert _ _
  | forget number uri => exact hordered.erase uri
  | wait held => simpa [Session.setStage] using hordered
  | take free => simpa using hordered
  | publish number settings others opened => simpa using hordered
  | _ => exact hordered

/-- A task goes on. What it publishes and what it then has ahead of it, it had ahead of it. -/
theorem Ascending.proceed (h : Ascending task s point past)
    (hmove : Move task s point effects s' point') (running : s.stages[task]? = some .done)
    (hparked : point' ≠ .parked) (hperform : ∀ request, point' ≠ .perform request)
    (huris : (publishedBy task effects ++ point'.uris).Sublist point.uris) :
    Ascending task s' point' (past ++ effects) := by
  have hstages := hmove.stages_eq hparked
  have hrunning : (publishedBy task (past ++ effects) ++ point'.uris).Pairwise (· < ·) := by
    rw [publishedBy_append, List.append_assoc]
    exact h.running.sublist (huris.append_left _)
  refine ⟨hmove.ordered h.documents, fun other ↦ ?_, hrunning,
    fun request hpoint ↦ absurd hpoint (hperform request), fun other hother ↦ ?_⟩
  · by_cases heq : other = task
    · subst heq
      rw [ahead_of_done (by rw [hstages]; exact running), List.append_nil]
      exact hrunning.sublist (List.sublist_append_left _ _)
    · have hahead : s'.ahead other = s.ahead other := by rw [ahead, hstages, ahead]
      rw [publishedBy_append, hmove.publishedBy_of_ne heq, List.append_nil, hahead]
      exact h.waiting other
  · rw [hstages] at hother
    have hne : other ≠ task := by
      rintro rfl
      exact absurd (List.getElem?_eq_some_iff.1 running).1 (Nat.not_lt.2 hother)
    rw [publishedBy_append, hmove.publishedBy_of_ne hne, h.unborn other hother]
    rfl

/-- A task parks with what it has ahead of it. -/
theorem Ascending.park {stage : Stage} (h : Ascending task s point past)
    (hmove : Move task s point effects s' .parked) (running : s.stages[task]? = some .done)
    (hsilent : publishedBy task effects = []) (hstages : s'.stages = (s.setStage task stage).stages)
    (huris : stage.uris.Sublist point.uris) : Ascending task s' .parked (past ++ effects) := by
  have hpast : ∀ other, publishedBy other (past ++ effects) = publishedBy other past := by
    intro other
    by_cases heq : other = task
    · rw [publishedBy_append, heq, hsilent, List.append_nil]
    · rw [publishedBy_append, hmove.publishedBy_of_ne heq, List.append_nil]
  have hahead : ∀ other, s'.ahead other = if other = task then stage.uris else s.ahead other := by
    intro other
    rw [← ahead_setStage running stage other, ahead, hstages, ahead]
  refine ⟨hmove.ordered h.documents, fun other ↦ ?_, ?_, nofun, fun other hother ↦ ?_⟩
  · rw [hpast, hahead]
    split
    · rename_i heq
      subst heq
      exact h.running.sublist (huris.append_left _)
    · exact h.waiting other
  · rw [hpast]
    exact h.running.sublist ((List.nil_sublist _).append_left _)
  · rw [hpast]
    refine h.unborn other ?_
    simpa [hstages, Session.setStage] using hother

/-- **Each move keeps publications ascending.** -/
theorem Move.ascending (h : Move task s point effects s' point')
    (running : s.stages[task]? = some .done) (hascending : Ascending task s point past) :
    Ascending task s' point' (past ++ effects) := by
  have hmove := h
  have hparked : s.stages = (s.setStage task .done).stages := by rw [setStage_done running]
  cases h with
  | refresh =>
    -- only here does a task come to new documents, and it has published nothing yet
    have hnone := hascending.unspent _ rfl
    have hpast : ∀ other, publishedBy other (past ++ [.cleared task]) = publishedBy other past :=
      fun other ↦ by rw [publishedBy_append]; exact List.append_nil _
    refine ⟨hascending.documents, fun other ↦ ?_, ?_, by simp, fun other hother ↦ ?_⟩
    · rw [hpast]
      exact hascending.waiting other
    · rw [hpast, hnone]
      exact hascending.documents
    · rw [hpast]
      exact hascending.unborn other hother
  | finish => exact hascending.park hmove running rfl hparked (List.Sublist.refl _)
  | forget number uri =>
    exact hascending.park hmove running rfl hparked (List.Sublist.refl _)
  | fetch number others opened missing =>
    exact hascending.park hmove running rfl rfl (List.Sublist.refl _)
  | @wait job held =>
    have hstages : ((s.ask task job.uri).setStage task (.locked (s.lockFor job.uri).1 job)).stages =
        (s.setStage task (.locked (s.lockFor job.uri).1 job)).stages := by
      simp only [Session.setStage, ask_stages]
    exact hascending.park hmove running rfl hstages (List.Sublist.refl _)
  | skip number others closed =>
    exact hascending.proceed hmove running (by simp) (by simp) (List.sublist_cons_self _ _)
  | drop number settings others closed =>
    exact hascending.proceed hmove running (by simp) (by simp) (List.sublist_cons_self _ _)
  | publish number settings others opened =>
    exact hascending.proceed hmove running (by simp) (by simp)
      (by simp [publishedBy, Effect.publishedBy?, Point.uris])
  | _ => exact hascending.proceed hmove running (by simp) (by simp) (List.Sublist.refl _)

theorem pairwise_uris_perform (request : Request) :
    (Point.uris (.perform request)).Pairwise (· < ·) := by
  cases request with
  | openDocument => exact List.pairwise_singleton _ _
  | change => exact List.pairwise_singleton _ _
  | lint => exact List.pairwise_singleton _ _
  | _ => exact List.Pairwise.nil

/-- A task that is set going has ahead of it what it had as a waiting task. -/
theorem Enters.ascending {other : TaskId} (h : Enters s act task s' point)
    (hascending : Ascending other s .parked past) : Ascending task s' point past := by
  obtain ⟨hdocuments, hwaiting, -, -, hunborn⟩ := hascending
  have hset : ∀ {stage : Stage}, s.stages[task]? = some stage →
      (∀ other, (publishedBy other past ++ (s.setStage task .done).ahead other).Pairwise
        (· < ·)) ∧
      (publishedBy task past ++ stage.uris).Pairwise (· < ·) ∧
      ∀ other, (s.setStage task .done).stages.length ≤ other → publishedBy other past = [] := by
    intro stage hstage
    have hahead : s.ahead task = stage.uris := by rw [ahead, hstage]; rfl
    refine ⟨fun other ↦ ?_, hahead ▸ hwaiting task, fun other hother ↦ ?_⟩
    · refine (hwaiting other).sublist (List.Sublist.append_left ?_ _)
      rw [ahead_setStage hstage]
      split
      · exact List.nil_sublist _
      · exact List.Sublist.refl _
    · exact hunborn other (by simpa [Session.setStage] using hother)
  cases h with
  | start request =>
    -- the task is new, so whatever it comes to is all that it publishes
    have hnone := hunborn s.stages.length (Nat.le_refl _)
    refine ⟨hdocuments, fun other ↦ ?_, ?_, fun _ _ ↦ hnone, fun other hother ↦ ?_⟩
    · refine (hwaiting other).sublist (List.Sublist.append_left ?_ _)
      rw [ahead, ahead, List.getElem?_append]
      split
      · exact List.Sublist.refl _
      · rcases other - s.stages.length with - | n <;> exact List.nil_sublist _
    · rw [hnone]
      exact pairwise_uris_perform request
    · exact hunborn other (Nat.le_trans (by simp) hother)
  | answer answer stage =>
    obtain ⟨hothers, hself, hlater⟩ := hset stage
    exact ⟨hdocuments, hothers, hself, by simp, hlater⟩
  | @resume _ number job stage holds =>
    obtain ⟨hothers, hself, hlater⟩ := hset stage
    exact ⟨hdocuments, hothers, by cases job <;> exact hself, by simp, hlater⟩

end Moving

/-- **Each task publishes in strictly ascending order of documents**, whatever happens between its
passes. -/
theorem ascending_run (suite : Suite) (config : Config) (acts : List Act) (task : TaskId) :
    (publishedBy task ((new suite config).history acts)).Pairwise (· < ·) := by
  have h : ∃ task, Ascending task ((new suite config).run acts) .parked
      ([] ++ (new suite config).history acts) := by
    refine keeps_run (J := fun s past ↦ ∃ task, Ascending task s .parked past)
      (I := fun task s point past ↦ Ascending task s point past) acts
      (fun _ henters h ↦ henters.ascending h.choose_spec)
      (fun hmove running h ↦ hmove.ascending running h) (fun h ↦ ⟨_, h⟩) ⟨0, ?_⟩
    exact ⟨Table.ordered_empty, fun _ ↦ List.Pairwise.nil, List.Pairwise.nil, nofun, fun _ _ ↦ rfl⟩
  exact (h.choose_spec.waiting task).sublist (List.sublist_append_left _ _)

end Session

end RuleLint
