import RuleLint.Proofs.Session.Locks

/-!
# When passes exclude each other

Two tasks never hold one lock, so passes on a document exclude each other as long as they go by the
same lock. Closing the document takes its lock out of the table. Whoever comes next makes a new
lock, while a task that was at the old one may still be about to begin a pass, or be in one. An act
that closes a document while a task is at a pass on it *severs* that task (`Severs`), and this is
exactly what exclusion depends on:

* passes on a document exclude each other if no act severs a task from it, for then every task that
  is at a pass on the document is at the lock in the table (`Attached`);
* after an act that severs a task, two tasks can come to fetch the settings of the document at the
  same time (`passes_exclude_iff`).

For the second part the tasks at the old lock are led to it one after the other. Those that come
before the first pass only close the document once more.
-/

namespace RuleLint

/-- The lock that a waiting task is at for a pass, and the document of the pass. -/
def Stage.pass? : Stage → Option (Nat × String)
  | .locked number (.pass uri _) => some (number, uri)
  | .fetching uri number _ _ => some (number, uri)
  | _ => none

theorem Stage.target?_of_pass? {stage : Stage} {target : Nat × String}
    (h : stage.pass? = some target) : stage.target? = some target := by
  rcases stage with ⟨number, ⟨uri, others⟩ | uri⟩ | ⟨uri, number, stamp, others⟩ | -
  · exact h
  · cases h
  · exact h
  · cases h

namespace Session

/-- The lock that a running task holds for a pass, and the document of the pass. -/
def Point.pass? : Point → Option (Nat × String)
  | .hold number (.pass uri _) => some (number, uri)
  | .answered uri number _ _ _ | .settled uri number _ _ => some (number, uri)
  | _ => none

/-- A task is fetching the settings of a document. -/
def Fetches (session : Session) (task : TaskId) (uri : String) : Prop :=
  ∃ number stamp others, session.stages[task]? = some (.fetching uri number stamp others)

/-- A task is in a pass on a document: it has come to hold the lock and has not published yet. -/
inductive InPass (session : Session) (task : TaskId) (uri : String) : Prop where
  | granted {number : Nat} {others : List String}
      (stage : session.stages[task]? = some (.locked number (.pass uri others)))
      (holds : (session.lock number).holder = some task)
  | fetching (fetches : session.Fetches task uri)

/-- Some task is at a pass on a document: it is in one or awaits the lock for one. -/
def Passing (session : Session) (uri : String) : Prop :=
  session.Has fun stage ↦ ∃ number, stage.pass? = some (number, uri)

/-- An act closes a document while a task is at a pass on it. -/
def Severs (session : Session) (act : Act) (uri : String) : Prop :=
  .forgotten uri ∈ session.effects act ∧ (session.step act).Passing uri

/-- Every task that is at a pass on a document is at the lock in the table. One task is running, at
the given point. -/
structure Attached (uri : String) (session : Session) (point : Point) : Prop where
  waiting : ∀ stage ∈ session.stages, ∀ number, stage.pass? = some (number, uri) →
    session.lockOf.get? uri = some number
  running : ∀ number, point.pass? = some (number, uri) →
    session.lockOf.get? uri = some number

/-! ### Attached tasks exclude each other -/

section Attaching

variable {s s' : Session} {task : TaskId} {point point' : Point} {act : Act}
variable {effects : List Effect} {uri : String}

theorem Attached.frame (h : Attached uri s point)
    (hlockOf : ∀ number, s.lockOf.get? uri = some number → s'.lockOf.get? uri = some number)
    (hstages : ∀ stage ∈ s'.stages, ∀ number, stage.pass? = some (number, uri) →
      stage ∈ s.stages ∨ point.pass? = some (number, uri))
    (hpoint : ∀ number, point'.pass? = some (number, uri) →
      point.pass? = some (number, uri)) : Attached uri s' point' where
  waiting stage hmem number hpass :=
    hlockOf number ((hstages stage hmem number hpass).elim
      (fun hmem ↦ h.waiting stage hmem number hpass) (h.running number))
  running number hpass := hlockOf number (h.running number (hpoint number hpass))

/-- Asking for a lock attaches a task, and leaves the others attached. -/
theorem Attached.ask {job : Job} (h : Attached uri s (.ask job)) (task : TaskId) :
    Attached uri (s.ask task job.uri) (.hold (s.lockFor job.uri).1 job) := by
  have hlockOf : ∀ number, s.lockOf.get? uri = some number →
      (s.ask task job.uri).lockOf.get? uri = some number := by
    intro number hentry
    rw [get?_lockOf_ask]
    split
    · rename_i huri
      rw [lockFor, huri, hentry]
    · exact hentry
  refine ⟨fun stage hmem number hpass ↦ ?_, fun number hpass ↦ ?_⟩
  · rw [ask_stages] at hmem
    exact hlockOf number (h.waiting stage hmem number hpass)
  · cases job with
    | close => cases hpass
    | pass other others =>
      obtain ⟨rfl, rfl⟩ := Prod.mk.inj (Option.some.inj hpass)
      rw [get?_lockOf_ask]
      exact if_pos rfl

/-- **Only closing a document takes a task off its lock.** -/
theorem Move.attached (h : Move task s point effects s' point')
    (hattached : Attached uri s point) :
    Attached uri s' point' ∨ .forgotten uri ∈ effects := by
  have hset : ∀ {s : Session} {stage new : Stage} {number : Nat},
      stage ∈ (s.setStage task new).stages → stage.pass? = some (number, uri) →
        stage ∈ s.stages ∨ new.pass? = some (number, uri) := by
    intro s stage new number hmem hpass
    rcases List.mem_or_eq_of_mem_set hmem with hmem | rfl
    · exact Or.inl hmem
    · exact Or.inr hpass
  cases h with
  | @wait job held =>
    refine Or.inl ((hattached.ask task).frame (fun _ h ↦ h) (fun _ hmem _ hpass ↦ ?_) nofun)
    cases job <;> exact hset hmem hpass
  | take free => exact Or.inl (hattached.ask task)
  | fetch number others opened missing =>
    exact Or.inl (hattached.frame (fun _ h ↦ h) (fun _ hmem _ hpass ↦ hset hmem hpass) nofun)
  | publish number settings others opened =>
    exact Or.inl (hattached.frame (by simp) (fun _ hmem _ _ ↦ Or.inl (by simpa using hmem)) nofun)
  | forget number other =>
    by_cases huri : other = uri
    · exact Or.inr (by simp [huri])
    · refine Or.inl (hattached.frame ?_ (fun _ hmem _ _ ↦ Or.inl hmem) nofun)
      simp [Table.get?_erase, huri]
  | hit number others opened entry =>
    exact Or.inl (hattached.frame (fun _ h ↦ h) (fun _ hmem _ _ ↦ Or.inl hmem) fun _ h ↦ h)
  | answer other number stamp others answer =>
    exact Or.inl (hattached.frame (fun _ h ↦ h) (fun _ hmem _ _ ↦ Or.inl hmem) fun _ h ↦ h)
  | _ => exact Or.inl (hattached.frame (fun _ h ↦ h) (fun _ hmem _ _ ↦ Or.inl hmem) nofun)

theorem Enters.attached (h : Enters s act task s' point) (hattached : Attached uri s .parked) :
    Attached uri s' point := by
  have hset : ∀ stage ∈ (s.setStage task .done).stages, ∀ number,
      stage.pass? = some (number, uri) → stage ∈ s.stages := by
    intro stage hmem number hpass
    rcases List.mem_or_eq_of_mem_set hmem with hmem | rfl
    · exact hmem
    · cases hpass
  cases h with
  | start request =>
    refine hattached.frame (fun _ h ↦ h) (fun stage hmem number hpass ↦ ?_) nofun
    rcases List.mem_append.1 hmem with hmem | hmem
    · exact Or.inl hmem
    · rw [List.mem_singleton.1 hmem] at hpass
      cases hpass
  | answer answer hstage =>
    refine ⟨fun stage hmem number hpass ↦ ?_, fun number hpass ↦ ?_⟩
    · exact hattached.waiting stage (hset stage hmem number hpass) number hpass
    · exact hattached.waiting _ (List.mem_iff_getElem?.2 ⟨task, hstage⟩) number hpass
  | @resume _ number' job hstage holds =>
    refine ⟨fun stage hmem number hpass ↦ ?_, fun number hpass ↦ ?_⟩
    · exact hattached.waiting stage (hset stage hmem number hpass) number hpass
    · refine hattached.waiting _ (List.mem_iff_getElem?.2 ⟨task, hstage⟩) number ?_
      cases job <;> exact hpass

/-- An act that severs no task leaves all tasks attached. -/
theorem Attached.step (h : Attached uri s .parked) (hsafe : ¬s.Severs act uri) :
    Attached uri (s.step act) .parked := by
  rcases idle_or_enters s act with ⟨hidle, -⟩ | ⟨task, s', point, henters, hmoves⟩
  · rw [hidle]
    exact h
  · have hkept : Attached uri (s.step act) .parked ∨ .forgotten uri ∈ [] ++ s.effects act := by
      refine hmoves.keeps (I := fun s point past ↦ Attached uri s point ∨ .forgotten uri ∈ past)
        (fun hmove _ h ↦ ?_) henters.stage_eq_done (Or.inl (henters.attached h))
      rcases h with h | hpast
      · exact (hmove.attached h).imp_right (List.mem_append_right _)
      · exact Or.inr (List.mem_append_left _ hpast)
    rcases hkept with hattached | hforgotten
    · exact hattached
    · -- the document was closed, but nobody was at a pass on it
      refine ⟨fun stage hmem number hpass ↦ ?_, nofun⟩
      exact absurd ⟨hforgotten, stage, hmem, number, hpass⟩ hsafe

/-- Tasks stay attached in a run in which no act severs one. -/
theorem Attached.run (acts : List Act) (h : Attached uri s .parked)
    (hsafe : ∀ before act after, acts = before ++ act :: after →
      ¬(s.run before).Severs act uri) : Attached uri (s.run acts) .parked := by
  induction acts generalizing s with
  | nil => exact h
  | cons act acts ih =>
    refine ih (h.step (hsafe [] act acts rfl)) fun before later after hacts ↦ ?_
    exact hsafe (act :: before) later after (by rw [hacts]; rfl)

theorem InPass.exists_number (h : s.InPass task uri) (horderly : s.Orderly none) :
    ∃ stage number, s.stages[task]? = some stage ∧ stage.pass? = some (number, uri) ∧
      (s.lock number).holder = some task := by
  cases h with
  | granted stage holds => exact ⟨_, _, stage, rfl, holds⟩
  | fetching fetches =>
    obtain ⟨number, stamp, others, stage⟩ := fetches
    exact ⟨_, number, stage, rfl, horderly.holder_of_fetching stage⟩

/-- Tasks exclude each other from passes while they are attached: the holder of the lock in the
table is the only one that can be in a pass. -/
theorem Attached.inPass_unique (h : Attached uri s .parked) (horderly : s.Orderly none)
    {first second : TaskId} (hfirst : s.InPass first uri) (hsecond : s.InPass second uri) :
    first = second := by
  obtain ⟨stage, number, hstage, hpass, hholder⟩ := hfirst.exists_number horderly
  obtain ⟨stage', number', hstage', hpass', hholder'⟩ := hsecond.exists_number horderly
  have hentry := h.waiting stage (List.mem_iff_getElem?.2 ⟨first, hstage⟩) number hpass
  have hentry' := h.waiting stage' (List.mem_iff_getElem?.2 ⟨second, hstage'⟩) number' hpass'
  obtain rfl := Option.some.inj (hentry.symm.trans hentry')
  exact Option.some.inj (hholder.symm.trans hholder')

end Attaching

/-! ### Severed tasks meet others -/

/-- The lock of a document is not in the table, nor are its settings in the cache: so closing the
document leaves it. -/
structure Vacant (uri : String) (session : Session) : Prop where
  lockOf : session.lockOf.get? uri = none
  entry : session.cache.entries.get? uri = none

section Severing

variable {s s' : Session} {task : TaskId} {point point' : Point} {act : Act}
variable {effects : List Effect} {uri : String} {number : Nat}

theorem vacant_forget (s : Session) (uri : String) (number : Nat) :
    Vacant uri (s.forget uri number) :=
  ⟨by simp, by simp [forget, Cache.evict]⟩

theorem Move.forget_of_forgotten (h : Move task s point effects s' point')
    (hmem : .forgotten uri ∈ effects) :
    point' = .parked ∧ ∃ (t : Session) (number : Nat), s' = t.forget uri number := by
  cases h with
  | forget number other =>
    obtain rfl : uri = other := by simpa using hmem
    exact ⟨rfl, s, number, rfl⟩
  | _ => simp at hmem

/-- An act that closes a document ends with that. -/
theorem step_of_forgotten (h : .forgotten uri ∈ s.effects act) :
    ∃ (t : Session) (number : Nat), s.step act = t.forget uri number := by
  rcases idle_or_enters s act with ⟨-, hidle⟩ | ⟨task, s', point, henters, hmoves⟩
  · rw [hidle] at h
    cases h
  · have hkept : .forgotten uri ∈ [] ++ s.effects act →
        Point.parked = .parked ∧
          ∃ (t : Session) (number : Nat), s.step act = t.forget uri number := by
      refine hmoves.keeps
        (I := fun s point past ↦ .forgotten uri ∈ past → point = .parked ∧
          ∃ (t : Session) (number : Nat), s = t.forget uri number)
        (fun hmove _ hpast hmem ↦ ?_) henters.stage_eq_done (fun hmem : _ ∈ [] ↦ nomatch hmem)
      rcases List.mem_append.1 hmem with hmem | hmem
      · -- the task has parked when it has closed a document
        obtain ⟨rfl, -⟩ := hpast hmem
        cases hmove
      · exact hmove.forget_of_forgotten hmem
    exact (hkept h).2

/-- A document that an act closes is vacant after the act. -/
theorem vacant_of_forgotten (h : .forgotten uri ∈ s.effects act) : Vacant uri (s.step act) := by
  obtain ⟨t, number, hstep⟩ := step_of_forgotten h
  rw [hstep]
  exact vacant_forget t uri number

/-- A pass that begins on an open document whose settings are not known begins to fetch them. -/
theorem turn_of_missing (s : Session) (task : TaskId) (number : Nat) (others : List String)
    {document : Document} (hopen : s.documents.get? uri = some document)
    (hentry : s.cache.entries.get? uri = none) :
    s.turn task uri number others =
      { s with events := s.events ++ [Event.fetched uri] }.setStage task
        (.fetching uri number (s.cache.stamp uri) others) := by
  simp [turn, enterPass, Table.contains, hopen, Cache.look, hentry]

/-- Opening a vacant document makes a new lock, and its pass begins to fetch the settings. Whoever
waits at another lock still does. -/
theorem step_open_of_vacant (horderly : s.Orderly none) (document : Document)
    (h : Vacant document.uri s) :
    (s.step (.start (.openDocument document))).stages = s.stages ++
        [.fetching document.uri s.locks.length (s.cache.stamp document.uri) []] ∧
      (s.step (.start (.openDocument document))).documents =
        s.documents.insert document.uri document ∧
      (s.step (.start (.openDocument document))).cache = s.cache ∧
      ∀ number < s.locks.length,
        (s.step (.start (.openDocument document))).lock number = s.lock number := by
  let opened : Session := { s with stages := s.stages ++ [Stage.done] }.store document
  -- The table has no lock for the document, so the next number is taken, whose lock is free.
  have hnumber : (opened.lockFor document.uri).1 = s.locks.length := by
    have hnone : opened.lockOf.get? document.uri = none := h.lockOf
    rw [lockFor, hnone]
    rfl
  have hfree : opened.isFreeFor document.uri = true := by
    rw [isFreeFor_eq, hnumber]
    show ((s.locks[s.locks.length]?).getD .free).isFree = true
    rw [List.getElem?_eq_none (Nat.le_refl _)]
    rfl
  have hstep : s.step (.start (.openDocument document)) =
      (opened.ask s.stages.length document.uri).turn s.stages.length document.uri
        s.locks.length [] := by
    have hpasses := opened.runPasses_cons s.stages.length document.uri []
    rw [if_pos hfree, hnumber] at hpasses
    exact hpasses
  have hopen : (opened.ask s.stages.length document.uri).documents =
      s.documents.insert document.uri document := by rw [ask_documents]; rfl
  have hcache : (opened.ask s.stages.length document.uri).cache = s.cache := by
    rw [ask_cache]; rfl
  have hturn := turn_of_missing (opened.ask s.stages.length document.uri) s.stages.length
    s.locks.length [] (by rw [hopen, Table.get?_insert_self]) (by rw [hcache, h.entry])
  rw [hstep, hturn]
  refine ⟨?_, hopen, hcache, fun number hlt ↦ ?_⟩
  · simp [setStage, opened, store]
  · have hlock : (opened.ask s.stages.length document.uri).lock number = opened.lock number := by
      rw [lock_ask (s := opened) horderly.lockOf_lt, hnumber, if_neg (Nat.ne_of_lt hlt)]
    exact hlock

/-- Tasks at the old lock of a vacant document can be led to it until one of them is in a pass. The
induction is on the tasks at the lock: one that only closes the document leaves it to the next. -/
theorem exists_inPass_of_vacant (tasks : List TaskId) {stage : Stage} (horderly : s.Orderly none)
    (howned : ∃ owner, Owned owner s .parked) (hvacant : Vacant uri s)
    (hstage : s.stages[task]? = some stage) (hpass : stage.pass? = some (number, uri))
    (htasks : (s.lock number).tasks = tasks) :
    ∃ more other, (s.run more).Orderly none ∧ Vacant uri (s.run more) ∧
      (s.run more).InPass other uri := by
  induction tasks generalizing s with
  | nil =>
    have hmem := (horderly.mem_tasks number task).2
      (Or.inr ⟨uri, stage, hstage, Stage.target?_of_pass? hpass⟩)
    rw [htasks] at hmem
    cases hmem
  | cons holder tasks ih =>
    obtain ⟨hholder, hrest⟩ := (horderly.tidy number).holder_of_tasks htasks
    have hmem : holder ∈ (s.lock number).tasks := htasks ▸ List.mem_cons_self
    obtain ⟨other, found, hfound, htarget⟩ :=
      ((horderly.mem_tasks number holder).1 hmem).resolve_left nofun
    -- the holder is at the lock for the same document as the task that is at a pass
    obtain rfl : uri = other := by
      obtain ⟨owner, howner⟩ := howned
      rw [← howner.waiting task number uri ⟨stage, hstage, Stage.target?_of_pass? hpass⟩,
        howner.waiting holder number other ⟨found, hfound, htarget⟩]
    cases found with
    | done => cases htarget
    | fetching other number' stamp others =>
      obtain ⟨rfl, rfl⟩ := Prod.mk.inj (Option.some.inj htarget)
      exact ⟨[], holder, horderly, hvacant, .fetching ⟨_, stamp, others, hfound⟩⟩
    | locked number' job =>
      cases job with
      | pass other others =>
        obtain ⟨rfl, rfl⟩ := Prod.mk.inj (Option.some.inj htarget)
        exact ⟨[], holder, horderly, hvacant, .granted hfound hholder⟩
      | close other =>
        obtain ⟨rfl, rfl⟩ := Prod.mk.inj (Option.some.inj htarget)
        obtain ⟨hstep, -⟩ := s.step_resume_close holder other number' hfound hholder
        have hne : holder ≠ task := by
          rintro rfl
          obtain rfl := Option.some.inj (hfound.symm.trans hstage)
          cases hpass
        obtain ⟨more, last, hreached⟩ := ih (s := s.step (.resume holder))
          (horderly.run [.resume holder]) (exists_owned_run horderly howned [.resume holder])
          (by
            rw [hstep]
            exact ⟨(vacant_forget s other number').lockOf, (vacant_forget s other number').entry⟩)
          (by rw [hstep, setStage, List.getElem?_set_ne hne]; exact hstage)
          (by
            rw [hstep]
            exact (congrArg Lock.tasks ((lock_release _ number' number').trans
              (if_pos rfl))).trans hrest)
        exact ⟨.resume holder :: more, last, hreached⟩

/-- While a task is in a pass on a vacant document, opening the document sets a second one to fetch
its settings. -/
theorem exists_fetches_of_inPass (horderly : s.Orderly none) (hvacant : Vacant uri s)
    (hin : s.InPass task uri) :
    ∃ more second, task ≠ second ∧ (s.run more).Fetches task uri ∧
      (s.run more).Fetches second uri := by
  let document : Document := ⟨uri, "", 0, ""⟩
  obtain ⟨hstages, hdocuments, hcache, hlock⟩ := step_open_of_vacant horderly document hvacant
  have hold : ∀ {stage : Stage}, s.stages[task]? = some stage → task ≠ s.stages.length ∧
      (s.step (.start (.openDocument document))).stages[task]? = some stage := by
    intro stage hstage
    have hlt := (List.getElem?_eq_some_iff.1 hstage).1
    exact ⟨Nat.ne_of_lt hlt, by rw [hstages, List.getElem?_append_left hlt, hstage]⟩
  have hnew : (s.step (.start (.openDocument document))).stages[s.stages.length]? =
      some (.fetching uri s.locks.length (s.cache.stamp uri) []) := by
    rw [hstages, List.getElem?_concat_length]
  cases hin with
  | fetching fetches =>
    obtain ⟨number, stamp, others, hstage⟩ := fetches
    obtain ⟨hne, hstage⟩ := hold hstage
    exact ⟨[.start (.openDocument document)], s.stages.length, hne,
      ⟨number, stamp, others, hstage⟩, ⟨_, _, _, hnew⟩⟩
  | @granted number others hstage hholds =>
    have hmem : task ∈ (s.lock number).tasks :=
      (horderly.mem_tasks number task).2 (Or.inr ⟨uri, _, hstage, rfl⟩)
    obtain ⟨hne, hstage⟩ := hold hstage
    have hholds : ((s.step (.start (.openDocument document))).lock number).holder = some task := by
      rw [hlock number (lt_of_mem_tasks hmem), hholds]
    have hturn := (step_resume_pass _ task uri number others hstage hholds).1
    rw [turn_of_missing _ task number others (by rw [hdocuments, Table.get?_insert_self])
      (by rw [hcache, hvacant.entry])] at hturn
    have hfetches : (s.run [.start (.openDocument document), .resume task]).Fetches task uri := by
      rw [Fetches, run_cons, run_cons, run_nil, hturn]
      exact ⟨number, _, others,
        List.getElem?_set_self (List.getElem?_eq_some_iff.1 hstage).1⟩
    refine ⟨[.start (.openDocument document), .resume task], s.stages.length, hne, hfetches, ?_⟩
    rw [Fetches, run_cons, run_cons, run_nil, hturn]
    exact ⟨s.locks.length, s.cache.stamp uri, [], (List.getElem?_set_ne hne).trans hnew⟩

end Severing

/-! ### The main result -/

/-- **Exactly when passes exclude each other.** In a run in which no act severs a task from a
document, at most one task at a time is in a pass on the document. And if an act severs a task, the
run can go on to where two tasks fetch the settings of the document at the same time. -/
theorem passes_exclude_iff (suite : Suite) (config : Config) (acts : List Act) (uri : String) :
    ((∀ before act after, acts = before ++ act :: after →
        ¬((new suite config).run before).Severs act uri) →
      ∀ first second, ((new suite config).run acts).InPass first uri →
        ((new suite config).run acts).InPass second uri → first = second) ∧
    ∀ act, ((new suite config).run acts).Severs act uri → ∃ more first second, first ≠ second ∧
      ((new suite config).run (acts ++ act :: more)).Fetches first uri ∧
      ((new suite config).run (acts ++ act :: more)).Fetches second uri := by
  have horderly := (orderly_new suite config).run acts
  constructor
  · intro hsafe first second hfirst hsecond
    have hattached : Attached uri (new suite config) .parked := ⟨nofun, nofun⟩
    exact (hattached.run acts hsafe).inPass_unique horderly hfirst hsecond
  · rintro act ⟨hforgotten, stage, hmem, number, hpass⟩
    obtain ⟨task, hstage⟩ := List.mem_iff_getElem?.1 hmem
    have howned := exists_owned_run (orderly_new suite config) ⟨_, owned_new suite config⟩ acts
    obtain ⟨more, first, horder, hvacant, hin⟩ := exists_inPass_of_vacant _
      (horderly.run [act]) (exists_owned_run horderly howned [act])
      (vacant_of_forgotten hforgotten) hstage hpass rfl
    obtain ⟨opening, second, hne, hfirst, hsecond⟩ :=
      exists_fetches_of_inPass horder hvacant hin
    refine ⟨more ++ opening, first, second, hne, ?_⟩
    simp only [run_append, run_cons] at hfirst hsecond ⊢
    exact ⟨hfirst, hsecond⟩

/-- Passes do overlap: a close that waits for a fetch severs a task that waits behind it, and when
the document is opened again before that task goes on, two tasks fetch its settings at the same
time. -/
theorem passes_overlap :
    ∃ (acts : List Act) (uri : String) (first second : TaskId), first ≠ second ∧
      ((new .standard .empty).run acts).Fetches first uri ∧
      ((new .standard .empty).run acts).Fetches second uri :=
  ⟨[.start (.openDocument ⟨"a", "co", 1, ""⟩), .start (.close "a"), .start (.lint "a"),
      .answer 0 (.ok ⟨1000⟩), .resume 1, .start (.openDocument ⟨"a", "co", 2, ""⟩), .resume 2],
    "a", 2, 3, by decide, ⟨0, ⟨0, 1⟩, [], by decide⟩, ⟨1, ⟨0, 1⟩, [], by decide⟩⟩

end Session

end RuleLint
