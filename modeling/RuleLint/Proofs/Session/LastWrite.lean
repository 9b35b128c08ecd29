import RuleLint.Proofs.Session.Moves
import RuleLint.Proofs.Settings.Resolution

/-!
# The last write wins

When every task of a run is over, the findings that stand for an open document are those of its
newest snapshot. Requests overlap as they like, so this cannot be read off the order in which they
came. Two invariants carry it, and neither looks at a lock:

* `Covered`: for an open document, some task still comes to a pass on it, or its newest publication
  already shows its newest snapshot. A request that stores a snapshot goes on to a pass, and a pass
  reads the snapshot at the moment it publishes.
* `Sound`: each publication comes right after its pass has resolved its settings, and is made under
  the configuration then in force.

At rest no task comes to anything, which leaves the second half of `Covered`.
-/

namespace RuleLint

/-- The documents that a job comes to. -/
def Job.uris : Job → List String
  | .pass uri others => uri :: others
  | .close _ => []

/-- The documents that a waiting task still comes to. -/
def Stage.uris : Stage → List String
  | .locked _ job => job.uris
  | .fetching uri _ _ others => uri :: others
  | .done => []

/-- Whether an event replaces the findings of a document. -/
def Event.publishes (uri : String) : Event → Bool
  | .published other _ _ => other == uri
  | .fetched _ => false

namespace Session

/-- The documents that a running task still comes to. -/
def Point.uris : Point → List String
  | .perform (.openDocument document) => [document.uri]
  | .perform (.change uri _ _) | .perform (.lint uri) => [uri]
  | .perform _ => []
  | .passes uris => uris
  | .ask job | .hold _ job => job.uris
  | .answered uri _ _ others _ | .settled uri _ _ others => uri :: others
  | .parked => []

/-- Whether an effect replaces the findings of a document. -/
def Effect.publishes (uri : String) : Effect → Bool
  | .published _ other _ _ _ => other == uri
  | _ => false

theorem Effect.exists_of_publishes {effect : Effect} {uri : String}
    (h : effect.publishes uri = true) :
    ∃ task document settings config, effect = .published task uri document settings config := by
  cases effect with
  | published task other document settings config =>
    obtain rfl : other = uri := by simpa [publishes] using h
    exact ⟨task, document, settings, config, rfl⟩
  | _ => cases h

theorem Effect.publishes_of_event? {suite : Suite} {effect : Effect} {event : Event}
    (h : effect.event? suite = some event) (uri : String) :
    event.publishes uri = effect.publishes uri := by
  cases effect with
  | fetched task other =>
    obtain rfl := Option.some.inj h
    rfl
  | published task other document settings config =>
    obtain rfl := Option.some.inj h
    rfl
  | _ => simp [event?] at h

/-- What does not replace the findings of a document is not seen to. -/
theorem filter_events_eq_nil (suite : Suite) {effects : List Effect} {uri : String}
    (h : ∀ effect ∈ effects, effect.publishes uri = false) :
    (effects.filterMap (Effect.event? suite)).filter (Event.publishes uri) = [] := by
  rw [List.filter_eq_nil_iff]
  intro event hmem
  obtain ⟨effect, heffect, hevent⟩ := List.mem_filterMap.1 hmem
  rw [Effect.publishes_of_event? hevent, h effect heffect]
  exact Bool.false_ne_true

/-! ### Every open document is covered -/

/-- The newest publication for a document is of the given snapshot. -/
def Shows (uri : String) (document : Document) (past : List Effect) : Prop :=
  ∃ task settings config, past.reverse.find? (Effect.publishes uri) =
    some (.published task uri document settings config)

/-- Some waiting task still comes to a document. -/
def Awaited (session : Session) (uri : String) : Prop :=
  session.Has fun stage ↦ uri ∈ stage.uris

/-- Snapshots are stored under their own names. -/
def Keyed (session : Session) : Prop :=
  ∀ uri document, session.documents.get? uri = some document → document.uri = uri

/-- If a document is open, a task still comes to it or its newest snapshot is what is shown. One
task is running, at the given point. -/
def Covered (uri : String) (session : Session) (point : Point) (past : List Effect) : Prop :=
  ∀ document, session.documents.get? uri = some document →
    uri ∈ point.uris ∨ session.Awaited uri ∨ Shows uri document past

section Covering

variable {s s' : Session} {task : TaskId} {point point' : Point} {act : Act}
variable {effects past : List Effect} {uri : String}

theorem Shows.append {document : Document} (h : Shows uri document past)
    (hsilent : ∀ effect ∈ effects, effect.publishes uri = false) :
    Shows uri document (past ++ effects) := by
  obtain ⟨task, settings, config, hlast⟩ := h
  have hnone : effects.reverse.find? (Effect.publishes uri) = none := by
    simpa [List.find?_eq_none] using hsilent
  refine ⟨task, settings, config, ?_⟩
  rw [List.reverse_append, List.find?_append, hnone, Option.none_or, hlast]

theorem shows_concat (task : TaskId) (uri : String) (document : Document) (settings : Settings)
    (config : Config) (past : List Effect) :
    Shows uri document (past ++ [.published task uri document settings config]) := by
  refine ⟨task, settings, config, ?_⟩
  rw [List.reverse_append]
  simp [Effect.publishes]

/-- A task that parks leaves the stages of the others alone. -/
theorem Awaited.setStage (h : s.Awaited uri) (running : s.stages[task]? = some .done)
    (stage : Stage) : (s.setStage task stage).Awaited uri :=
  (Has.setStage h running stage).resolve_right List.not_mem_nil

theorem keyed_store {document : Document} (h : s.Keyed) : (s.store document).Keyed := by
  intro uri found hfound
  simp only [store, Table.get?_insert] at hfound
  split at hfound
  · rename_i huri
    exact (Option.some.inj hfound) ▸ huri
  · exact h uri found hfound

theorem Move.keyed (h : Move task s point effects s' point') (hkeyed : s.Keyed) : s'.Keyed := by
  cases h with
  | openDocument document => exact keyed_store hkeyed
  | change version text opened => exact keyed_store hkeyed
  | changeUnopened version text closed => exact keyed_store hkeyed
  | forget number other =>
    intro uri document hopen
    simp only [forget_documents, Table.get?_erase] at hopen
    split at hopen
    · cases hopen
    · exact hkeyed uri document hopen
  | wait held => simpa [Keyed, Session.setStage] using hkeyed
  | take free => simpa [Keyed] using hkeyed
  | publish number settings others opened => simpa [Keyed] using hkeyed
  | _ => exact hkeyed

/-- If the snapshot of a document stays as it is, the document stays covered as long as no task
loses its passes on it. -/
theorem Covered.mono (h : Covered uri s point past)
    (hdocuments : s'.documents.get? uri = s.documents.get? uri)
    (hnext : uri ∈ point.uris → uri ∈ point'.uris ∨ s'.Awaited uri)
    (hawaited : s.Awaited uri → s'.Awaited uri)
    (hsilent : ∀ effect ∈ effects, effect.publishes uri = false) :
    Covered uri s' point' (past ++ effects) := by
  intro document hopen
  rcases h document (hdocuments ▸ hopen) with huri | hstage | hshows
  · rcases hnext huri with huri | hstage
    · exact Or.inl huri
    · exact Or.inr (Or.inl hstage)
  · exact Or.inr (Or.inl (hawaited hstage))
  · exact Or.inr (Or.inr (hshows.append hsilent))

/-- A request that stores a snapshot goes on to a pass on its document. -/
theorem Covered.store {document : Document} (h : Covered uri s point past)
    (hpoint : point.uris = [document.uri]) :
    Covered uri (s.store document) (.passes [document.uri]) (past ++ [.stored document]) := by
  by_cases huri : document.uri = uri
  · exact fun _ _ ↦ Or.inl (by simp [Point.uris, huri])
  · refine h.mono ?_ (fun hmem ↦ Or.inl (hpoint ▸ hmem)) (fun hstage ↦ hstage)
      (by simp [Effect.publishes])
    simp [Session.store, Table.get?_insert, huri]

/-- A pass on a closed document need not come to anything. -/
theorem Covered.pass_closed {other : String} {others : List String} {number : Nat}
    (h : Covered uri s point past) (hpoint : point.uris = other :: others)
    (closed : s.documents.get? other = none) :
    Covered uri (s.release number) (.passes others) (past ++ []) := by
  by_cases huri : other = uri
  · subst huri
    intro document hopen
    rw [release_documents, closed] at hopen
    cases hopen
  · refine h.mono rfl (fun hmem ↦ ?_) (fun hstage ↦ hstage) (by simp)
    rw [hpoint] at hmem
    exact Or.inl ((List.mem_cons.1 hmem).resolve_left (Ne.symm huri))

/-- **Each move leaves a document covered.** A move that takes a document off the list of a task
either publishes its newest snapshot or finds it closed. -/
theorem Move.covered (h : Move task s point effects s' point')
    (running : s.stages[task]? = some .done) (hkeyed : s.Keyed)
    (hcovered : Covered uri s point past) : Covered uri s' point' (past ++ effects) := by
  cases h with
  | openDocument document => exact hcovered.store rfl
  | @change other document version text opened =>
    have hother : other = (document.withText version text).uri :=
      (hkeyed other document opened).symm
    rw [hother]
    exact hcovered.store (hother ▸ rfl)
  | changeUnopened version text closed => exact hcovered.store rfl
  | wait held =>
    refine hcovered.mono (by simp [Session.setStage]) (fun hmem ↦ Or.inr ?_) (fun hstage ↦ ?_)
      (by simp)
    · exact has_setStage_self (by simpa using running) hmem
    · exact Awaited.setStage (by simpa [Awaited, Has] using hstage) (by simpa using running) _
  | fetch number others opened missing =>
    refine hcovered.mono rfl (fun hmem ↦ Or.inr ?_) (fun hstage ↦ ?_) (by simp [Effect.publishes])
    · exact has_setStage_self running hmem
    · exact Awaited.setStage hstage running _
  | skip number others closed => exact hcovered.pass_closed rfl closed
  | drop number settings others closed => exact hcovered.pass_closed rfl closed
  -- A document that has just been forgotten has no snapshot left to cover.
  | forget number other =>
    intro document hopen
    simp only [forget_documents, Table.get?_erase] at hopen
    split at hopen
    · cases hopen
    · rcases hcovered document hopen with hmem | hstage | hshows
      · cases hmem
      · exact Or.inr (Or.inl hstage)
      · exact Or.inr (Or.inr (hshows.append (by simp [Effect.publishes])))
  | @publish other document number settings others opened =>
    -- A publication shows the newest snapshot of its own document and hides that of no other.
    by_cases huri : other = uri
    · subst huri
      intro newest hopen
      rw [release_documents, publish_documents, opened] at hopen
      obtain rfl := Option.some.inj hopen
      exact Or.inr (Or.inr (shows_concat task other document settings s.config past))
    · refine hcovered.mono (by simp) (fun hmem ↦ ?_) (fun hstage ↦ ?_)
        (by simp [Effect.publishes, huri])
      · exact Or.inl ((List.mem_cons.1 hmem).resolve_left (Ne.symm huri))
      · simpa [Awaited, Has] using hstage
  | take free =>
    refine hcovered.mono (by simp) Or.inl (fun hstage ↦ ?_) (by simp)
    simpa [Awaited, Has] using hstage
  | _ =>
    refine hcovered.mono rfl (fun hmem ↦ Or.inl ?_) (fun hstage ↦ hstage)
      (by simp [Effect.publishes])
    first | exact hmem | cases hmem

end Covering

/-! ### Every publication is sound -/

/-- The configuration in force after all that has been done. -/
def configAfter (config : Config) (past : List Effect) : Config :=
  past.foldl (fun config effect ↦
    match effect with
    | .configured config => config
    | _ => config) config

/-- The latest thing done is that the pass of a task on a document resolved its settings. -/
inductive Resolved (task : TaskId) (uri : String) : Settings → List Effect → Prop
  | found (past : List Effect) (settings : Settings) :
      Resolved task uri settings (past ++ [.found task uri settings])
  | answered (past : List Effect) (answer : Answer) :
      Resolved task uri answer.settings (past ++ [.answered task uri answer])

/-- Each publication comes right after its pass has resolved its settings, and is made under the
configuration in force. -/
def Sound (config : Config) (past : List Effect) : Prop :=
  ∀ before task uri document settings config' after,
    past = before ++ .published task uri document settings config' :: after →
      Resolved task uri settings before ∧ config' = configAfter config before

/-- All publications were sound, and if the running task has settings it has just resolved them. -/
structure Careful (config : Config) (task : TaskId) (session : Session) (point : Point)
    (past : List Effect) : Prop where
  sound : Sound config past
  inForce : session.config = configAfter config past
  resolved : ∀ {uri number settings others}, point = .settled uri number settings others →
    Resolved task uri settings past

section Soundness

variable {s s' : Session} {task : TaskId} {point point' : Point}
variable {effects past : List Effect} {config : Config}

theorem Sound.concat {effect : Effect} (h : Sound config past)
    (hlast : ∀ task uri document settings config',
      effect = .published task uri document settings config' →
        Resolved task uri settings past ∧ config' = configAfter config past) :
    Sound config (past ++ [effect]) := by
  intro before task uri document settings config' after heq
  rcases List.eq_nil_or_concat after with rfl | ⟨after, last, rfl⟩
  · obtain ⟨rfl, heffect⟩ := List.append_inj' heq rfl
    exact hlast task uri document settings config' (List.singleton_inj.1 heffect)
  · rw [List.concat_eq_append, ← List.cons_append, ← List.append_assoc] at heq
    obtain ⟨rfl, -⟩ := List.append_inj' heq rfl
    exact h before task uri document settings config' after rfl

theorem configAfter_append (config : Config) (past effects : List Effect) :
    configAfter config (past ++ effects) = configAfter (configAfter config past) effects :=
  List.foldl_append

theorem Move.config_eq (h : Move task s point effects s' point') :
    s'.config = configAfter s.config effects := by
  cases h with
  | wait held => simp [Session.setStage, configAfter]
  | take free => simp [configAfter]
  | publish number settings others opened => simp [configAfter]
  | _ => rfl

/-- A move does at most one thing, and only a task with settings publishes. -/
theorem Move.effects_eq (h : Move task s point effects s' point') :
    effects = [] ∨ ∃ effect, effects = [effect] ∧
      ∀ task' uri document settings config',
        effect = .published task' uri document settings config' →
          task' = task ∧ config' = s.config ∧
            ∃ number others, point = .settled uri number settings others := by
  cases h with
  | publish number settings others opened =>
    refine Or.inr ⟨_, rfl, ?_⟩
    rintro task' uri' document' settings' config' heffect
    obtain ⟨rfl, rfl, rfl, rfl, rfl⟩ := Effect.published.inj heffect
    exact ⟨rfl, rfl, number, others, rfl⟩
  | _ => first | exact Or.inl rfl | exact Or.inr ⟨_, rfl, nofun⟩

/-- A task comes to have settings by resolving them. -/
theorem Move.resolved (h : Move task s point effects s' point') {uri : String} {number : Nat}
    {settings : Settings} {others : List String}
    (hpoint : point' = .settled uri number settings others) :
    Resolved task uri settings (past ++ effects) := by
  cases h with
  | hit number' others' opened entry =>
    obtain ⟨rfl, -, rfl, -⟩ := Point.settled.inj hpoint
    exact .found past _
  | answer uri' number' stamp others' answer =>
    obtain ⟨rfl, -, rfl, -⟩ := Point.settled.inj hpoint
    rw [Cache.settings_complete]
    exact .answered past answer
  | _ => cases hpoint

/-- **Each move is careful.** -/
theorem Move.careful (h : Move task s point effects s' point')
    (hcareful : Careful config task s point past) :
    Careful config task s' point' (past ++ effects) := by
  obtain ⟨hsound, hconfig, hresolved⟩ := hcareful
  refine ⟨?_, by rw [h.config_eq, hconfig, configAfter_append], h.resolved⟩
  rcases h.effects_eq with rfl | ⟨effect, rfl, hpublished⟩
  · rw [List.append_nil]
    exact hsound
  · refine hsound.concat fun task' uri document settings config' heffect ↦ ?_
    obtain ⟨rfl, rfl, number, others, rfl⟩ :=
      hpublished task' uri document settings config' heffect
    exact ⟨hresolved rfl, hconfig⟩

end Soundness

/-! ### The main result -/

section Runs

variable (suite : Suite) (config : Config) (acts : List Act)

/-- What covers a document is kept when a task is set going. -/
theorem Enters.covered {s s' : Session} {act : Act} {task : TaskId} {point : Point}
    {past : List Effect} {uri : String} (henters : Enters s act task s' point)
    (h : Covered uri s .parked past) : Covered uri s' point past := by
  intro document hopen
  have hdocuments : s'.documents = s.documents := by cases henters <;> rfl
  rcases h document (hdocuments ▸ hopen) with hmem | hstage | hshows
  · cases hmem
  · -- what the task came to while it waited, it comes to now
    rcases hstage.enters henters with hstage | ⟨_, _, _, _, _, rfl, hmem⟩ | ⟨_, _, rfl, hmem⟩
    · exact Or.inr (Or.inl hstage)
    · exact Or.inl hmem
    · exact Or.inl hmem
  · exact Or.inr (Or.inr hshows)

theorem Enters.keyed {s s' : Session} {act : Act} {task : TaskId} {point : Point}
    (h : Enters s act task s' point) (hkeyed : s.Keyed) : s'.Keyed := by
  cases h <;> exact hkeyed

theorem Keyed.run {s : Session} (h : s.Keyed) : (s.run acts).Keyed :=
  @keeps_run s [] (fun s _ ↦ s.Keyed) (fun _ s _ _ ↦ s.Keyed) acts
    (fun _ henters h ↦ henters.keyed h) (fun hmove _ h ↦ hmove.keyed h) (fun h ↦ h) h

theorem keyed_new : (new suite config).Keyed :=
  fun _ _ hopen ↦ nomatch hopen

/-- Runs keep documents covered. -/
theorem Covered.run {s : Session} {past : List Effect} {uri : String}
    (h : Covered uri s .parked past) (hkeyed : s.Keyed) :
    Covered uri (s.run acts) .parked (past ++ s.history acts) :=
  (keeps_run (J := fun s past ↦ s.Keyed ∧ Covered uri s .parked past)
    (I := fun _ s point past ↦ s.Keyed ∧ Covered uri s point past) acts
    (fun _ henters h ↦ ⟨henters.keyed h.1, henters.covered h.2⟩)
    (fun hmove running h ↦ ⟨hmove.keyed h.1, hmove.covered running h.1 h.2⟩)
    (fun h ↦ h) ⟨hkeyed, h⟩).2

/-- A request that comes to a document covers it, whatever was shown before. -/
theorem covered_run_of_start {s : Session} {request : Request} {uri : String}
    (hkeyed : s.Keyed) (hcomes : uri ∈ Point.uris (.perform request)) :
    Covered uri (s.run (.start request :: acts)) .parked (s.history (.start request :: acts)) :=
  (@keeps_run_of_start s [] (fun s past ↦ s.Keyed ∧ Covered uri s .parked past)
    (fun _ s point past ↦ s.Keyed ∧ Covered uri s point past) request acts
    (fun _ henters h ↦ ⟨henters.keyed h.1, henters.covered h.2⟩)
    (fun hmove running h ↦ ⟨hmove.keyed h.1, hmove.covered running h.1 h.2⟩)
    (fun h ↦ h) ⟨hkeyed, fun _ _ ↦ Or.inl hcomes⟩).2

/-- In a session at rest, what covers an open document is its newest publication. -/
theorem Covered.shows {s : Session} {past : List Effect} {uri : String} {document : Document}
    (h : Covered uri s .parked past) (rest : s.AtRest)
    (opened : s.documents.get? uri = some document) : Shows uri document past := by
  rcases h document opened with hmem | ⟨stage, hstage, huri⟩ | hshows
  · cases hmem
  · rw [rest stage hstage] at huri
    cases huri
  · exact hshows

theorem Shows.exists_append {uri : String} {document : Document} {past : List Effect}
    (h : Shows uri document past) :
    ∃ before task settings config after,
      past = before ++ .published task uri document settings config :: after ∧
        ∀ effect ∈ after, effect.publishes uri = false := by
  obtain ⟨task, settings, config, hlast⟩ := h
  obtain ⟨-, after, before, hpast, hafter⟩ := List.find?_eq_some_iff_append.1 hlast
  refine ⟨before.reverse, task, settings, config, after.reverse, ?_, fun effect hmem ↦ ?_⟩
  · rw [← List.reverse_reverse past, hpast]
    simp
  · simpa using hafter effect (List.mem_reverse.1 hmem)

theorem sound_history : Sound config ((new suite config).history acts) := by
  have h : ∃ task, Careful config task ((new suite config).run acts) .parked
      ([] ++ (new suite config).history acts) := by
    refine keeps_run (J := fun s past ↦ ∃ task, Careful config task s .parked past)
      (I := fun task s point past ↦ Careful config task s point past) acts ?_ ?_
      (fun h ↦ ⟨_, h⟩) ⟨0, fun before _ _ _ _ _ _ hnil ↦ by simp at hnil, rfl, nofun⟩
    · rintro s s' act task point past - henters ⟨_, hsound, hconfig, -⟩
      cases henters <;> exact ⟨hsound, hconfig, nofun⟩
    · intro task s s' point point' effects past hmove _ h
      exact hmove.careful h
  exact h.choose_spec.sound

/-- **The last write wins.** In whatever order tasks have taken their steps, when all are over the
newest publication for an open document is of its newest snapshot: it tells the version of the
snapshot and the findings in it, under the settings that its pass has just resolved and the
configuration then in force. -/
theorem last_write_wins (uri : String) (rest : ((new suite config).run acts).AtRest)
    (opened : uri ∈ ((new suite config).run acts).openUris) :
    ∃ document before task settings config' after,
      ((new suite config).run acts).documents.get? uri = some document ∧
      (new suite config).history acts =
        before ++ .published task uri document settings config' :: after ∧
      (∀ effect ∈ after, effect.publishes uri = false) ∧
      Resolved task uri settings before ∧
      config' = configAfter config before ∧
      (((new suite config).run acts).events.filter (Event.publishes uri)).getLast? =
        some (.published uri document.version
          (RuleLint.lint suite document settings config').diagnostics) := by
  obtain ⟨document, hopen⟩ := (Table.mem_names_iff _ uri).1 opened
  have hcovered : Covered uri ((new suite config).run acts) .parked
      ([] ++ (new suite config).history acts) :=
    Covered.run acts (fun document hopen ↦ nomatch hopen) (keyed_new suite config)
  rw [List.nil_append] at hcovered
  obtain ⟨before, task, settings, config', after, hhistory, hafter⟩ :=
    (hcovered.shows rest hopen).exists_append
  obtain ⟨hresolved, hconfig⟩ :=
    sound_history suite config acts before task uri document settings config' after hhistory
  refine ⟨document, before, task, settings, config', after, hopen, hhistory, hafter, hresolved,
    hconfig, ?_⟩
  have hevents : ((new suite config).run acts).events =
      ((new suite config).history acts).filterMap (Effect.event? suite) :=
    events_run (new suite config) acts
  have hlater := filter_events_eq_nil suite hafter
  have hpublished : Effect.event? suite (.published task uri document settings config') =
      some (.published uri document.version
        (RuleLint.lint suite document settings config').diagnostics) := rfl
  have hself : Event.publishes uri (.published uri document.version
      (RuleLint.lint suite document settings config').diagnostics) = true := by
    simp [Event.publishes]
  rw [hevents, hhistory, List.filterMap_append, List.filterMap_cons_some hpublished,
    List.filter_append, List.filter_cons_of_pos hself, hlater, List.getLast?_concat]

end Runs

/-- A change comes while the settings for the opening of its document are fetched, and all settings
are fetched anew before its own pass begins. -/
def overtaking : List Act :=
  [.start (.openDocument ⟨"a", "co", 1, ""⟩), .start (.change "a" 2 "x"), .start .refresh,
    .answer 0 (.ok ⟨3⟩), .resume 1, .answer 1 (.ok ⟨5⟩), .resume 2]

theorem last_write_wins_overtaking :
    ((new .standard .empty).run overtaking).AtRest ∧
      "a" ∈ ((new .standard .empty).run overtaking).openUris ∧
      ∃ settings config,
        (((new .standard .empty).run overtaking).events.filter (Event.publishes "a")).getLast? =
          some (.published "a" 2
            (RuleLint.lint .standard ⟨"a", "co", 2, "x"⟩ settings config).diagnostics) := by
  obtain ⟨document, -, -, settings, config, -, hopen, -, -, -, -, hlast⟩ :=
    last_write_wins .standard .empty overtaking "a" (by decide) (by decide)
  have hnewest : ((new .standard .empty).run overtaking).documents.get? "a" =
      some ⟨"a", "co", 2, "x"⟩ := by decide
  obtain rfl := Option.some.inj (hopen.symm.trans hnewest)
  exact ⟨by decide, by decide, settings, config, hlast⟩

end Session

end RuleLint
