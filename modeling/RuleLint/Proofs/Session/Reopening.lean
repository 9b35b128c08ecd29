import RuleLint.Proofs.Session.LastWrite

/-!
# Reopened documents

A request stores its snapshot at once, but a close forgets a document only when it has come to hold
its lock. A close that waits may therefore forget a snapshot that was stored after the close had
begun, and whether this happens is decided when the last snapshot is stored:

* if no close waits then (`Session.Closing`), the snapshot stands in the end, and its findings are
  published;
* if one waits, the document is closed in the end, however early the close began.

A session is *doomed* to lose a document while a close of it waits or runs. A task that is about to
store a snapshot has not done so yet; `pending` looks ahead by that much, so that no move but the
forgetting of a document changes its pending snapshot.
-/

namespace RuleLint

/-- Whether a task waits to close a document. -/
def Stage.closes (uri : String) : Stage → Bool
  | .locked _ (.close other) => other == uri
  | _ => false

/-- Whether a request stores or forgets the snapshot of a document. -/
def Request.touches (uri : String) : Request → Bool
  | .openDocument document => document.uri == uri
  | .change other _ _ | .close other => other == uri
  | _ => false

/-- Whether a request stores a snapshot of a document. -/
def Request.opens (uri : String) : Request → Bool
  | .openDocument document => document.uri == uri
  | .change other _ _ => other == uri
  | _ => false

theorem Request.opens_eq_false {request : Request} {uri : String}
    (h : request.touches uri = false) : request.opens uri = false := by
  cases request with
  | openDocument document => exact h
  | change other version text => exact h
  | _ => rfl

namespace Session

/-- Whether a task is about to close a document. -/
def Point.closes (uri : String) : Point → Bool
  | .perform (.close other) | .ask (.close other) | .hold _ (.close other) => other == uri
  | _ => false

/-- A task waits to close a document. -/
def Closing (session : Session) (uri : String) : Prop :=
  session.Has fun stage ↦ stage.closes uri = true

instance (session : Session) (uri : String) : Decidable (session.Closing uri) :=
  inferInstanceAs (Decidable (∃ stage ∈ session.stages, stage.closes uri = true))

/-- A task waits to close a document, or is about to. -/
def Doomed (session : Session) (uri : String) (point : Point) : Prop :=
  session.Closing uri ∨ point.closes uri = true

/-- The snapshots when the running task has stored its own. -/
def pending (session : Session) : Point → Table Document
  | .perform request =>
    match session.snapshot? request with
    | some document => session.documents.insert document.uri document
    | none => session.documents
  | _ => session.documents

section Moving

variable {s s' : Session} {task : TaskId} {point point' : Point} {act : Act}
variable {effects : List Effect} {uri : String}

/-- A task that parks waits to close a document or leaves its fate to the others. -/
theorem doomed_parked_iff (running : s.stages[task]? = some .done) (stage : Stage)
    (hstages : s'.stages = (s.setStage task stage).stages) :
    s'.Doomed uri .parked ↔ s.Closing uri ∨ stage.closes uri = true := by
  have hparked : s'.Doomed uri .parked ↔ (s.setStage task stage).Closing uri := by
    simp [Doomed, Closing, Has, Point.closes, hstages]
  rw [hparked]
  constructor
  · exact Has.of_setStage
  · rintro (h | h)
    · exact (Has.setStage h running stage).resolve_right (by simp [Stage.closes])
    · exact has_setStage_self running h

/-- **Only a close loses a snapshot.** A move forgets a document that was doomed, or leaves both its
fate and its pending snapshot as they are. -/
theorem Move.doomed (h : Move task s point effects s' point')
    (running : s.stages[task]? = some .done) :
    s.Doomed uri point ∧ (s'.pending point').get? uri = none ∨
      (s'.Doomed uri point' ↔ s.Doomed uri point) ∧
        (s'.pending point').get? uri = (s.pending point).get? uri := by
  cases h with
  | @wait job held =>
    have hcloses : Stage.closes uri (.locked (s.lockFor job.uri).1 job) =
        Point.closes uri (.ask job) := by cases job <;> rfl
    refine Or.inr ⟨?_, by simp [pending, Session.setStage]⟩
    rw [doomed_parked_iff running (.locked (s.lockFor job.uri).1 job) (by simp [Session.setStage]),
      hcloses, Doomed]
  | @take job free =>
    have hcloses : Point.closes uri (.hold (s.lockFor job.uri).1 job) =
        Point.closes uri (.ask job) := by cases job <;> rfl
    exact Or.inr ⟨by simp [Doomed, Closing, Has, hcloses], by simp [pending]⟩
  | fetch number others opened missing =>
    refine Or.inr ⟨(doomed_parked_iff running _ rfl).trans ?_, rfl⟩
    simp [Doomed, Point.closes, Stage.closes]
  -- This is the only move by which the table loses a snapshot.
  | forget number other =>
    by_cases huri : other = uri
    · exact Or.inl ⟨Or.inr (by simp [Point.closes, huri]), by simp [pending, huri]⟩
    · refine Or.inr ⟨?_, by simp [pending, Table.get?_erase, huri]⟩
      simp [Doomed, Closing, Has, Point.closes, huri]
  | change version text opened =>
    exact Or.inr ⟨Iff.rfl, by simp [pending, snapshot?, opened, store, Document.withText]⟩
  | changeUnopened version text closed =>
    exact Or.inr ⟨Iff.rfl, by simp [pending, snapshot?, closed, store, note]⟩
  | publish number settings others opened =>
    exact Or.inr ⟨by simp [Doomed, Closing, Has, Point.closes], by simp [pending]⟩
  | _ => exact Or.inr ⟨Iff.rfl, rfl⟩

/-- The requests that store a snapshot. -/
theorem open_or_change_of_snapshot? {request : Request} {document : Document} (hkeyed : s.Keyed)
    (h : s.snapshot? request = some document) :
    request = .openDocument document ∨
      ∃ version text, request = .change document.uri version text := by
  cases request with
  | openDocument opened =>
    obtain rfl := Option.some.inj h
    exact Or.inl rfl
  | change other version text =>
    refine Or.inr ⟨version, text, ?_⟩
    cases hopen : s.documents.get? other with
    | some found =>
      simp only [snapshot?, hopen, Option.some.injEq] at h
      rw [← h, hkeyed other found hopen]
    | none =>
      simp only [snapshot?, hopen, Option.some.injEq] at h
      rw [← h]
  | _ => cases h

theorem opens_of_snapshot? {request : Request} {document : Document} (hkeyed : s.Keyed)
    (h : s.snapshot? request = some document) : request.opens document.uri = true := by
  rcases open_or_change_of_snapshot? hkeyed h with rfl | ⟨version, text, rfl⟩ <;>
    simp [Request.opens]

/-- A task that is set going, and not to close a document, leaves the fate of the document as it
is. -/
theorem Enters.doomed_iff (h : Enters s act task s' point) (hact : act ≠ .start (.close uri)) :
    s'.Doomed uri point ↔ s.Closing uri := by
  constructor
  · rintro (hclosing | hcloses)
    · exact h.has_of_has (by simp [Stage.closes]) hclosing
    · cases h with
      | start request =>
        cases request with
        | close other => exact absurd (by rw [eq_of_beq hcloses]) hact
        | _ => cases hcloses
      | answer answer stage => cases hcloses
      | @resume _ number job stage holds =>
        refine ⟨_, List.mem_iff_getElem?.2 ⟨task, stage⟩, ?_⟩
        cases job with
        | pass => cases hcloses
        | close => exact hcloses
  · intro hclosing
    rcases hclosing.enters h with hclosing | ⟨_, _, _, _, _, -, hkind⟩ | ⟨number, job, rfl, hkind⟩
    · exact Or.inl hclosing
    · cases hkind
    · cases job with
      | pass => cases hkind
      | close => exact Or.inr hkind

/-- Only a request that opens a document has a new snapshot of it. -/
theorem Enters.get?_pending (h : Enters s act task s' point) (hkeyed : s.Keyed)
    (unopened : ∀ request, act = .start request → request.opens uri = false) :
    (s'.pending point).get? uri = s.documents.get? uri := by
  cases h with
  | start request =>
    simp only [pending]
    split
    · rename_i document hstored
      have hne : document.uri ≠ uri := by
        rintro rfl
        have hopens := opens_of_snapshot? (s := { s with stages := _ }) hkeyed hstored
        exact absurd (hopens.symm.trans (unopened request rfl)) (by simp)
      rw [Table.get?_insert, if_neg hne]
    · rfl
  | answer answer stage => rfl
  | resume stage holds => rfl

end Moving

/-! ### The last snapshot -/

/-- The fate of the last snapshot of a document. It stands if it is safe; else its document is
doomed until it is closed. One task is running, at the given point. -/
structure Fated (safe : Prop) (document : Document) (session : Session) (point : Point) : Prop where
  keyed : session.Keyed
  stands : safe → ¬session.Doomed document.uri point ∧
    (session.pending point).get? document.uri = some document
  lost : ¬safe → session.Doomed document.uri point ∨
    (session.pending point).get? document.uri = none

section Runs

variable {s s' : Session} {task : TaskId} {point point' : Point} {act : Act} {after : List Act}
variable {effects : List Effect} {request : Request} {document : Document} {safe : Prop}

theorem Fated.of_iff (h : Fated safe document s point) (hkeyed : s'.Keyed)
    (hdoomed : s'.Doomed document.uri point' ↔ s.Doomed document.uri point)
    (hpending : (s'.pending point').get? document.uri = (s.pending point).get? document.uri) :
    Fated safe document s' point' where
  keyed := hkeyed
  stands hsafe := by
    rw [hdoomed, hpending]
    exact h.stands hsafe
  lost hsafe := by
    rw [hdoomed, hpending]
    exact h.lost hsafe

theorem Move.fated (h : Move task s point effects s' point')
    (running : s.stages[task]? = some .done) (hfated : Fated safe document s point) :
    Fated safe document s' point' := by
  rcases h.doomed running with ⟨hdoomed, hnone⟩ | ⟨hdoomed, hpending⟩
  · -- a snapshot that is forgotten was not safe
    exact ⟨h.keyed hfated.keyed, fun hsafe ↦ absurd hdoomed (hfated.stands hsafe).1,
      fun _ ↦ Or.inr hnone⟩
  · exact hfated.of_iff (h.keyed hfated.keyed) hdoomed hpending

/-- What decides the fate of a snapshot is whether a close waits when it is stored. -/
theorem fated_start (hkeyed : s.Keyed) (stored : s.snapshot? request = some document) :
    Fated (¬s.Closing document.uri) document { s with stages := s.stages ++ [Stage.done] }
      (.perform request) := by
  have hdoomed : { s with stages := s.stages ++ [Stage.done] }.Doomed document.uri
      (.perform request) ↔ s.Closing document.uri := by
    refine (Enters.start request).doomed_iff fun hclose ↦ ?_
    obtain rfl := Act.start.inj hclose
    cases stored
  refine ⟨hkeyed, fun hsafe ↦ ⟨mt hdoomed.1 hsafe, ?_⟩, fun hsafe ↦ ?_⟩
  · have hstored : { s with stages := s.stages ++ [Stage.done] }.snapshot? request =
        some document := stored
    simp [pending, hstored]
  · exact Or.inl (hdoomed.2 (not_not.1 hsafe))

/-- Nothing that comes later changes the fate of the last snapshot. -/
theorem fated_run (hkeyed : s.Keyed) (stored : s.snapshot? request = some document)
    (newest : ∀ later, .start later ∈ after → later.touches document.uri = false) :
    Fated (¬s.Closing document.uri) document (s.run (.start request :: after)) .parked := by
  refine @keeps_run_of_start s []
    (fun s' _ ↦ Fated (¬s.Closing document.uri) document s' .parked)
    (fun _ s' point _ ↦ Fated (¬s.Closing document.uri) document s' point)
    request after ?_ ?_ (fun h ↦ h) (fated_start hkeyed stored)
  · intro s s' act task point past hmem henters hfated
    have huntouched : ∀ request, act = .start request → request.touches document.uri = false := by
      rintro request rfl
      exact newest request hmem
    have hdoomed : s'.Doomed document.uri point ↔ s.Doomed document.uri .parked := by
      rw [henters.doomed_iff]
      · simp [Doomed, Point.closes]
      · rintro rfl
        exact absurd (huntouched _ rfl) (by simp [Request.touches])
    exact hfated.of_iff (henters.keyed hfated.keyed) hdoomed
      (henters.get?_pending hfated.keyed fun request hact ↦
        Request.opens_eq_false (huntouched request hact))
  · intro task s s' point point' effects past hmove running hfated
    exact hmove.fated running hfated

/-- A request comes to the document whose snapshot it stores. -/
theorem mem_uris_of_snapshot? (hkeyed : s.Keyed) (h : s.snapshot? request = some document) :
    document.uri ∈ Point.uris (.perform request) := by
  rcases open_or_change_of_snapshot? hkeyed h with rfl | ⟨version, text, rfl⟩ <;>
    simp [Point.uris]

/-- What is shown of a document since some act was published since. -/
theorem Shows.exists_mem_events {uri : String} (h : Shows uri document (s.history after)) :
    ∃ events settings config, (s.run after).events = s.events ++ events ∧
      .published uri document.version
        (RuleLint.lint s.suite document settings config).diagnostics ∈ events := by
  obtain ⟨before, task, settings, config, later, hhistory, -⟩ := h.exists_append
  have hmem : Effect.published task uri document settings config ∈ s.history after := by
    rw [hhistory]
    exact List.mem_append_right before List.mem_cons_self
  exact ⟨_, settings, config, events_run s after, List.mem_filterMap.2 ⟨_, hmem, rfl⟩⟩

end Runs

/-- **When the last snapshot of a document stands.** Let a request store a snapshot, and let no
later request open, change or close its document. When all tasks are over, the document is open with
that snapshot, and its findings were published since, if and only if no close of the document waited
when the snapshot was stored. If one waited, the document is closed. -/
theorem last_snapshot_stands_iff (suite : Suite) (config : Config) (before after : List Act)
    (request : Request) (document : Document)
    (stored : ((new suite config).run before).snapshot? request = some document)
    (newest : ∀ later, .start later ∈ after → later.touches document.uri = false)
    (rest : ((new suite config).run (before ++ .start request :: after)).AtRest) :
    (¬((new suite config).run before).Closing document.uri →
      document.uri ∈ ((new suite config).run (before ++ .start request :: after)).openUris ∧
      ((new suite config).run (before ++ .start request :: after)).documents.get? document.uri =
        some document ∧
      ∃ events settings config',
        ((new suite config).run (before ++ .start request :: after)).events =
          ((new suite config).run before).events ++ events ∧
        .published document.uri document.version
          (RuleLint.lint suite document settings config').diagnostics ∈ events) ∧
    (((new suite config).run before).Closing document.uri →
      document.uri ∉ ((new suite config).run (before ++ .start request :: after)).openUris) := by
  have hkeyed : ((new suite config).run before).Keyed := (keyed_new suite config).run before
  have hsuite : ((new suite config).run before).suite = suite := suite_run _ before
  rw [run_append] at rest ⊢
  obtain ⟨-, hstands, hlost⟩ := fated_run hkeyed stored newest
  constructor
  · intro hsafe
    have hopen := (hstands hsafe).2
    have hshows := (covered_run_of_start after hkeyed (mem_uris_of_snapshot? hkeyed stored)).shows
      rest hopen
    have hpublished := hshows.exists_mem_events
    rw [hsuite] at hpublished
    exact ⟨(Table.mem_names_iff _ _).2 ⟨document, hopen⟩, hopen, hpublished⟩
  · intro hclosing hopen
    obtain ⟨found, hfound⟩ := (Table.mem_names_iff _ _).1 hopen
    rcases hlost (not_not.2 hclosing) with hdoomed | hnone
    · -- at rest no task waits, to close a document or otherwise
      obtain ⟨stage, hmem, hcloses⟩ := hdoomed.resolve_right (by simp [Point.closes])
      rw [rest stage hmem] at hcloses
      cases hcloses
    · exact absurd (hnone.symm.trans hfound) (by simp)

/-- A document that is opened again after its close is over, and then changed, stands with the text
of the change and the language of the opening. -/
theorem last_snapshot_stands_after_close :
    ((new .standard .empty).run ([.start (.openDocument ⟨"a", "co", 1, "x"⟩),
        .answer 0 (.ok ⟨3⟩), .start (.close "a"), .start (.openDocument ⟨"a", "en", 2, "y"⟩),
        .answer 2 (.ok ⟨3⟩)] ++
      .start (.change "a" 5 "z") :: [])).documents.get? "a" = some ⟨"a", "en", 5, "z"⟩ :=
  ((last_snapshot_stands_iff .standard .empty
    [.start (.openDocument ⟨"a", "co", 1, "x"⟩), .answer 0 (.ok ⟨3⟩), .start (.close "a"),
      .start (.openDocument ⟨"a", "en", 2, "y"⟩), .answer 2 (.ok ⟨3⟩)] []
    (.change "a" 5 "z") ⟨"a", "en", 5, "z"⟩ (by decide) (by simp) (by decide)).1 (by decide)).2.1

/-- A document that is opened again while its close waits for a fetch is lost: the close began
before the opening, and nothing comes after it but the steps of tasks that had begun. -/
theorem reopened_document_lost :
    ∃ before after : List Act, ∃ document : Document,
      (∀ request, .start request ∈ after → request.touches document.uri = false) ∧
      ((new .standard .empty).run (before ++ .start (.openDocument document) :: after)).AtRest ∧
      ((new .standard .empty).run
        (before ++ .start (.openDocument document) :: after)).documents.get? document.uri = none ∧
      document.uri ∉ ((new .standard .empty).run
        (before ++ .start (.openDocument document) :: after)).openUris :=
  ⟨[.start (.openDocument ⟨"a", "co", 1, ""⟩), .start (.close "a")],
    [.answer 0 (.ok ⟨1000⟩), .resume 1, .resume 2], ⟨"a", "co", 2, ""⟩, by simp, by decide,
    by decide, by decide⟩

end Session

end RuleLint
