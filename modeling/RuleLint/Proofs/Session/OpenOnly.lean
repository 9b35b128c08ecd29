import Mathlib
import RuleLint.Proofs.Session.Refresh

/-!
# Only open documents are served

Closing a document takes its snapshot and its cached settings away, but not the fetches of its
settings that are under way: passes wait at locks that outlive the close, so a fetch may be answered
when its document is closed, or closed and open again. Its answer must not bring the entry back.

What keeps it out is the stamp. A fetch begins while its document is open, under the stamp that is
then current. Whenever the document is closed its stamp becomes newer, and no older stamp ever comes
back, not even when a clearing takes the counts of evictions back to zero. So a fetch whose stamp is
still current *vouches* for its document (`Session.Vouches`): the document has been open all the
time. This and the entries of the cache are the invariant `Guarded`.

That nothing is published for a document that has been closed needs no stamps: a pass publishes a
snapshot that is there, and only opening or changing a document puts one there (`Shut`).
-/

namespace RuleLint

namespace Session

/-! ### Entries -/

/-- A stamp has been reached, and if it is still current the document is open. -/
structure Vouches (session : Session) (uri : String) (stamp : Stamp) : Prop where
  reached : stamp.Reached (session.cache.stamp uri)
  opened : stamp = session.cache.stamp uri → (session.documents.get? uri).isSome

/-- The settings of a document are cached only while it is open, and the fetches of them that are
under way vouch for it. One task is running, at the given point. -/
structure Guarded (uri : String) (session : Session) (point : Point) : Prop where
  entry : ∀ settings, session.cache.entries.get? uri = some settings →
    (session.documents.get? uri).isSome
  waiting : ∀ task stamp, session.FetchesUnder task uri stamp → session.Vouches uri stamp
  running : ∀ stamp, point.AnsweredUnder uri stamp → session.Vouches uri stamp

section Guarding

variable {s s' : Session} {task : TaskId} {point point' : Point} {act : Act}
variable {effects past : List Effect} {uri : String} {stamp : Stamp}

/-- **A move keeps a document or invalidates its entry.** If the document may be closed, its stamp
becomes newer and its entry is gone. -/
theorem Move.keeps_or_invalidates (h : Move task s point effects s' point') (uri : String) :
    s'.cache.stamp uri = s.cache.stamp uri ∧
        ((s.documents.get? uri).isSome → (s'.documents.get? uri).isSome) ∨
      (s.cache.stamp uri).Before (s'.cache.stamp uri) ∧ s'.cache.entries.get? uri = none := by
  cases h with
  | openDocument document => exact Or.inl ⟨rfl, isSome_store document⟩
  | change version text opened => exact Or.inl ⟨rfl, isSome_store _⟩
  | changeUnopened version text closed => exact Or.inl ⟨rfl, isSome_store _⟩
  | refresh => exact Or.inr ⟨s.cache.stamp_before_clear uri, rfl⟩
  | forget number other =>
    by_cases huri : other = uri
    · subst huri
      exact Or.inr ⟨s.cache.stamp_before_evict other, Table.get?_erase_self _ _⟩
    · refine Or.inl ⟨s.cache.stamp_evict_of_ne huri, fun hopen ↦ ?_⟩
      rw [forget_documents, Table.get?_erase, if_neg huri]
      exact hopen
  | answer asked number stamp others answer =>
    exact Or.inl ⟨s.cache.stamp_complete asked uri stamp answer, fun hopen ↦ hopen⟩
  | wait held => exact Or.inl (by simp [Session.setStage])
  | take free => exact Or.inl (by simp)
  | publish number settings others opened => exact Or.inl (by simp)
  | _ => exact Or.inl ⟨rfl, fun hopen ↦ hopen⟩

theorem Move.opened_of_fetched (h : Move task s point [.fetched task uri] s' point') :
    (s.documents.get? uri).isSome := by
  cases h with
  | fetch number others opened missing => exact Option.isSome_of_eq_some opened

/-- A stamp that vouches for a document goes on to do so, if only because it is no longer
current. -/
theorem Vouches.move (hvouches : s.Vouches uri stamp) (h : Move task s point effects s' point') :
    s'.Vouches uri stamp := by
  rcases h.keeps_or_invalidates uri with ⟨hstamp, hopen⟩ | ⟨hbefore, -⟩
  · refine ⟨?_, fun heq ↦ hopen (hvouches.opened (heq.trans hstamp))⟩
    rw [hstamp]
    exact hvouches.reached
  · have holder := hvouches.reached.trans_before hbefore
    exact ⟨Or.inr holder, fun heq ↦ absurd heq holder.ne⟩

theorem Move.guarded (h : Move task s point effects s' point') (hguarded : Guarded uri s point) :
    Guarded uri s' point' where
  entry settings hentry := by
    have hopen : (s.documents.get? uri).isSome := by
      rcases h.entry hentry with hentry | ⟨hanswered, -⟩
      · exact hguarded.entry settings hentry
      · exact (hguarded.running _ hanswered).opened rfl
    rcases h.keeps_or_invalidates uri with ⟨-, hkeeps⟩ | ⟨-, hgone⟩
    · exact hkeeps hopen
    · exact nomatch hentry.symm.trans hgone
  waiting other stamp hfetches := by
    rcases h.fetchesUnder hfetches with hfetches | ⟨-, rfl, rfl⟩
    · exact (hguarded.waiting other stamp hfetches).move h
    · have hbegun : s.Vouches uri (s.cache.stamp uri) :=
        ⟨Or.inl rfl, fun _ ↦ h.opened_of_fetched⟩
      exact hbegun.move h
  running stamp hanswered := absurd hanswered h.not_answeredUnder

theorem Enters.guarded (h : Enters s act task s' point) (hguarded : Guarded uri s .parked) :
    Guarded uri s' point := by
  have hvouches : ∀ stamp, s.Vouches uri stamp → s'.Vouches uri stamp := by
    intro stamp hvouches
    cases h <;> exact ⟨hvouches.reached, hvouches.opened⟩
  refine ⟨?_, fun other stamp hfetches ↦ ?_, fun stamp hanswered ↦ ?_⟩
  · cases h <;> exact hguarded.entry
  · exact hvouches stamp (hguarded.waiting other stamp (h.fetchesUnder hfetches))
  · exact hvouches stamp (hguarded.waiting task stamp (h.answeredUnder hanswered))

/-- Whatever overlaps, entries are guarded between any two acts. -/
theorem guarded_run (suite : Suite) (config : Config) (acts : List Act) (uri : String) :
    Guarded uri ((new suite config).run acts) .parked := by
  refine @keeps_run (new suite config) [] (fun s _ ↦ Guarded uri s .parked)
    (fun _ s point _ ↦ Guarded uri s point) acts (fun _ henters h ↦ henters.guarded h)
    (fun hmove _ h ↦ hmove.guarded h) (fun h ↦ h) ⟨nofun, ?_, ?_⟩
  · rintro task stamp ⟨number, others, hstage⟩
    cases hstage
  · rintro stamp ⟨number, others, answer, hpoint⟩
    cases hpoint

end Guarding

/-! ### Publications -/

/-- A document is closed, nothing that runs is about to open it, and nothing has been published for
it. One task is running, at the given point. -/
structure Shut (uri : String) (session : Session) (point : Point) (past : List Effect) : Prop where
  keyed : session.Keyed
  closed : (session.pending point).get? uri = none
  silent : ∀ effect ∈ past, effect.publishes uri = false

section Shutting

variable {s s' : Session} {task : TaskId} {point point' : Point} {act : Act}
variable {effects past : List Effect} {uri : String}

theorem Move.silent_of_closed (h : Move task s point effects s' point')
    (hclosed : (s.pending point).get? uri = none) :
    ∀ effect ∈ effects, effect.publishes uri = false := by
  intro effect hmem
  cases h with
  | @publish other document number settings others opened =>
    obtain rfl := List.mem_singleton.1 hmem
    have hne : other ≠ uri := by
      rintro rfl
      exact nomatch opened.symm.trans hclosed
    simp [Effect.publishes, hne]
  | _ => simp_all [Effect.publishes]

theorem Move.shut (h : Move task s point effects s' point')
    (running : s.stages[task]? = some .done) (hshut : Shut uri s point past) :
    Shut uri s' point' (past ++ effects) where
  keyed := h.keyed hshut.keyed
  closed := by
    rcases h.doomed running with ⟨-, hnone⟩ | ⟨-, hpending⟩
    · exact hnone
    · rw [hpending, hshut.closed]
  silent effect hmem := by
    rcases List.mem_append.1 hmem with hmem | hmem
    · exact hshut.silent effect hmem
    · exact h.silent_of_closed hshut.closed effect hmem

/-- A document stays shut as long as nobody opens or changes it. -/
theorem Shut.run {acts : List Act} (hshut : Shut uri s .parked past)
    (hacts : ∀ request, .start request ∈ acts → request.opens uri = false) :
    Shut uri (s.run acts) .parked (past ++ s.history acts) := by
  refine @keeps_run s past (fun s past ↦ Shut uri s .parked past)
    (fun _ s point past ↦ Shut uri s point past) acts ?_
    (fun hmove running h ↦ hmove.shut running h) (fun h ↦ h) hshut
  intro s s' act task point past hmem henters hshut
  refine ⟨henters.keyed hshut.keyed, ?_, hshut.silent⟩
  rw [henters.get?_pending hshut.keyed fun request hact ↦ hacts request (hact ▸ hmem)]
  exact hshut.closed

/-- The act that closes a document shuts it. -/
theorem shut_of_forgotten (hkeyed : s.Keyed) (h : .forgotten uri ∈ s.effects act) :
    Shut uri (s.step act) .parked [] := by
  obtain ⟨t, number, hstep⟩ := step_of_forgotten h
  refine ⟨Keyed.run [act] hkeyed, ?_, nofun⟩
  have hpending : (s.step act).pending .parked = (s.step act).documents := rfl
  rw [hpending, hstep, forget_documents, Table.get?_erase_self]

end Shutting

/-- **Only open documents have cached settings, and findings.** Between any two acts of any run, a
document with an entry in the cache is open; and from the act that closes a document until a request
opens or changes it, nothing is published for it. -/
theorem only_open_documents_served (suite : Suite) (config : Config) (acts : List Act)
    (uri : String) :
    (∀ settings, ((new suite config).run acts).cache.entries.get? uri = some settings →
        uri ∈ ((new suite config).run acts).openUris) ∧
      ∀ before act after, acts = before ++ act :: after →
        .forgotten uri ∈ ((new suite config).run before).effects act →
        (∀ request, .start request ∈ after → request.opens uri = false) →
          ∃ events, ((new suite config).run acts).events =
              (((new suite config).run before).step act).events ++ events ∧
            ∀ event ∈ events, event.publishes uri = false := by
  refine ⟨fun settings hentry ↦ ?_, fun before act after hacts hforgotten hafter ↦ ?_⟩
  · have hopen := (guarded_run suite config acts uri).entry settings hentry
    exact (Table.mem_names_iff _ uri).2 (Option.isSome_iff_exists.1 hopen)
  · let closed := ((new suite config).run before).step act
    have hshut : Shut uri closed .parked [] :=
      shut_of_forgotten (Keyed.run before (keyed_new suite config)) hforgotten
    have hrun : (new suite config).run acts = closed.run after := by
      rw [hacts, run_append, run_cons]
    refine ⟨_, by rw [hrun, events_run], fun event hmem ↦ ?_⟩
    obtain ⟨effect, heffect, hevent⟩ := List.mem_filterMap.1 hmem
    rw [Effect.publishes_of_event? hevent]
    exact (hshut.run hafter).silent effect heffect

/-- Two passes on a document wait at the locks from before and after it was closed and opened again,
and both fetch its settings when it is closed once more. -/
def lingering : List Act :=
  [.start (.openDocument ⟨"a", "co", 1, ""⟩), .start (.close "a"), .start (.lint "a"),
    .answer 0 (.ok ⟨3⟩), .resume 1, .start (.openDocument ⟨"a", "co", 2, ""⟩), .resume 2,
    .start (.close "a"), .answer 3 (.ok ⟨5⟩)]

/-- The second fetch is answered when the document has been closed. -/
theorem only_open_documents_served_lingering :
    ((new .standard .empty).run (lingering ++ [.resume 4])).Fetches 2 "a" ∧
      (∀ settings, ((new .standard .empty).run
          (lingering ++ [.resume 4, .answer 2 (.ok ⟨7⟩)])).cache.entries.get? "a" = some settings →
        "a" ∈ ((new .standard .empty).run
          (lingering ++ [.resume 4, .answer 2 (.ok ⟨7⟩)])).openUris) ∧
      ∃ events, ((new .standard .empty).run (lingering ++ [.resume 4, .answer 2 (.ok ⟨7⟩)])).events
          = (((new .standard .empty).run lingering).step (.resume 4)).events ++ events ∧
        ∀ event ∈ events, event.publishes "a" = false := by
  obtain ⟨hentries, hevents⟩ := only_open_documents_served .standard .empty
    (lingering ++ [.resume 4, .answer 2 (.ok ⟨7⟩)]) "a"
  have hforgotten : ((new .standard .empty).run lingering).effects (.resume 4) =
      [.forgotten "a"] := by rfl
  exact ⟨⟨0, ⟨0, 1⟩, [], by decide⟩, hentries, hevents lingering (.resume 4)
    [.answer 2 (.ok ⟨7⟩)] rfl (by simp [hforgotten]) (by simp)⟩

end Session

end RuleLint
