import Mathlib
import RuleLint.Proofs.Session.LastWrite
import RuleLint.Proofs.Session.Passing

/-!
# Requests served at rest

When nothing else is going on, a request is carried out to its end before anything else begins. This
module says what then comes of it, in one equation per part of the session (`Served`): the documents
are those after the request, and what is published are the findings in the documents that it comes
to, in order, under the settings that the source gives for them (`served_serve`).

A request changes the session at once and then makes passes. The first part is one equation per part
of the session; the second is `Passed`, a relation between the session before and after passes on a
list of documents.
-/

namespace RuleLint

/-- Whether an event publishes findings. -/
def Event.isPublication : Event → Bool
  | .published .. => true
  | .fetched _ => false

/-- What a cache holds for documents is what a source answers for them. -/
def Cache.Agrees (source : String → Answer) (cache : Cache) : Prop :=
  ∀ uri settings, cache.entries.get? uri = some settings → settings = (source uri).settings

theorem Cache.Agrees.evict {source : String → Answer} {cache : Cache} (h : cache.Agrees source)
    (uri : String) : (cache.evict uri).Agrees source := by
  intro other settings hentry
  have herased : (cache.entries.erase uri).get? other = some settings := hentry
  rw [Table.get?_erase] at herased
  split at herased
  · cases herased
  · exact h other settings herased

/-- A cache that has been cleared holds nothing. -/
theorem Cache.agrees_clear (source : String → Answer) (cache : Cache) :
    cache.clear.Agrees source := by
  intro uri settings hentry
  have hempty : cache.clear.entries = .empty := rfl
  rw [hempty, Table.get?_empty] at hentry
  cases hentry

namespace Session

/-- The publication of the findings in a document under the settings from a source, if the document
is open. -/
def publication? (session : Session) (source : String → Answer) (uri : String) : Option Event :=
  (session.documents.get? uri).map fun document ↦
    .published uri document.version
      (RuleLint.lint session.suite document (source uri).settings session.config).diagnostics

/-- One session after another that passes have been made on documents: the findings in them have
been published in order, and all else that one can tell of the session is the same. -/
structure Passed (source : String → Answer) (uris : List String) (s s' : Session) : Prop where
  suite_eq : s'.suite = s.suite
  config_eq : s'.config = s.config
  documents_eq : s'.documents = s.documents
  stages_eq : s'.stages = s.stages
  unlocked : ∀ lock ∈ s'.locks, lock = .free
  agrees : s'.cache.Agrees source
  published : s'.events.filter Event.isPublication =
    s.events.filter Event.isPublication ++ uris.filterMap (s.publication? source)

section Passing

variable {source : String → Answer} {s s' s'' : Session} {task : TaskId} {uri : String}
variable {uris others : List String}

theorem Passed.refl (hidle : s.Idle) (hagrees : s.cache.Agrees source) : Passed source [] s s :=
  ⟨rfl, rfl, rfl, rfl, hidle.unlocked, hagrees, (List.append_nil _).symm⟩

theorem Passed.publication?_eq (h : Passed source uris s s') :
    s'.publication? source = s.publication? source := by
  funext uri
  rw [publication?, publication?, h.documents_eq, h.suite_eq, h.config_eq]

theorem Passed.idle (h : Passed source uris s s') (hidle : s.Idle) : s'.Idle :=
  ⟨fun stage hstage ↦ hidle.rest stage (h.stages_eq ▸ hstage), h.unlocked⟩

theorem Passed.trans (first : Passed source uris s s') (rest : Passed source others s' s'') :
    Passed source (uris ++ others) s s'' where
  suite_eq := rest.suite_eq.trans first.suite_eq
  config_eq := rest.config_eq.trans first.config_eq
  documents_eq := rest.documents_eq.trans first.documents_eq
  stages_eq := rest.stages_eq.trans first.stages_eq
  unlocked := rest.unlocked
  agrees := rest.agrees
  published := by
    rw [rest.published, first.published, first.publication?_eq, List.filterMap_append,
      List.append_assoc]

/-! ### Passes -/

/-- What a fetch adds to the cache is what the source has answered. -/
theorem agrees_receive (hagrees : s.cache.Agrees source) (uri : String) (stamp : Stamp) :
    (s.receive uri stamp (source uri)).cache.Agrees source := by
  have hcache : (s.receive uri stamp (source uri)).cache =
      (s.cache.complete uri stamp (source uri)).cache := rfl
  rw [hcache]
  cases hanswer : source uri with
  | error reason => exact hagrees
  | ok settings =>
    by_cases hstamp : s.cache.stamp uri = stamp
    · rw [Cache.complete, if_pos hstamp]
      intro other value hentry
      simp only [Table.get?_insert] at hentry
      split at hentry
      · rename_i heq
        rw [← heq, hanswer]
        exact (Option.some.inj hentry).symm
      · exact hagrees other value hentry
    · rw [Cache.complete, if_neg hstamp]
      exact hagrees

/-- Since the lock has been taken nothing has been published, and now the pass comes to its
publication. -/
theorem passed_publish {t : Session} (hidle : s.Idle) (htask : t.stages = s.stages)
    (hlocks : t.locks = (s.ask task uri).locks) (hsuite : t.suite = s.suite)
    (hconfig : t.config = s.config) (hdocuments : t.documents = s.documents)
    (hagrees : t.cache.Agrees source)
    (hunpublished : t.events.filter Event.isPublication = s.events.filter Event.isPublication) :
    Passed source [uri] s
      ((t.publish uri (source uri).settings).release (s.lockFor uri).1) where
  suite_eq := by rw [release_suite, publish_suite, hsuite]
  config_eq := by rw [release_config, publish_config, hconfig]
  documents_eq := by rw [release_documents, publish_documents, hdocuments]
  stages_eq := by rw [release_stages, publish_stages, htask]
  unlocked := hidle.unlocked_release (by rw [publish_locks, hlocks])
  agrees := by
    rw [release_cache, publish_cache]
    exact hagrees
  published := by
    rw [release_events]
    cases hopen : s.documents.get? uri with
    | none =>
      have hpublish : t.publish uri (source uri).settings = t := by
        simp [publish, hdocuments, hopen]
      simp [hpublish, hunpublished, publication?, hopen]
    | some document =>
      have hopen' : t.documents.get? uri = some document := by rw [hdocuments, hopen]
      rw [publish_events_of_open _ _ _ hopen', List.filter_append, hunpublished, hsuite, hconfig]
      simp [publication?, hopen, Event.isPublication]

/-- A pass publishes under the settings that the source gives, whether it finds them or asks. -/
theorem passed_pass (hidle : s.Idle) (hagrees : s.cache.Agrees source) (task : TaskId)
    (uri : String) : Passed source [uri] s (s.pass source task uri) := by
  have hask : (s.ask task uri).cache.Agrees source := by
    rw [ask_cache]
    exact hagrees
  have hpublish : Passed source [uri] s
      (((s.ask task uri).publish uri (source uri).settings).release (s.lockFor uri).1) :=
    passed_publish hidle (by simp) rfl (by simp) (by simp) (by simp) hask (by simp)
  cases hopen : s.documents.get? uri with
  | none =>
    have hsilent : (s.ask task uri).publish uri (source uri).settings = s.ask task uri := by
      simp [publish, hopen]
    rw [hsilent] at hpublish
    rw [pass_of_closed hopen]
    exact hpublish
  | some document =>
    cases hentry : s.cache.entries.get? uri with
    | some settings =>
      rw [pass_of_entry hopen hentry, hagrees uri settings hentry]
      exact hpublish
    | none =>
      rw [pass_of_missing hopen hentry]
      refine passed_publish hidle (ask_stages s task uri) rfl (ask_suite s task uri)
        (ask_config s task uri) (ask_documents s task uri)
        (agrees_receive (s := (s.ask task uri).fetch uri) hask uri _) ?_
      have hevents : (((s.ask task uri).fetch uri).receive uri (s.cache.stamp uri)
          (source uri)).events = (s.ask task uri).events ++ [.fetched uri] := rfl
      simp [hevents, Event.isPublication]

theorem passed_foldl (hidle : s.Idle) (hagrees : s.cache.Agrees source) (task : TaskId)
    (uris : List String) : Passed source uris s (uris.foldl (pass source task) s) := by
  induction uris generalizing s with
  | nil => exact .refl hidle hagrees
  | cons uri others ih =>
    have hpass := passed_pass hidle hagrees task uri
    exact hpass.trans (ih (hpass.idle hidle) hpass.agrees)

end Passing

/-- The documents that are open after a request. -/
def documentsAfter (session : Session) : Request → Table Document
  | .close uri => session.documents.erase uri
  | request =>
    match session.snapshot? request with
    | some document => session.documents.insert document.uri document
    | none => session.documents

/-- The configuration that is in force after a request. -/
def configOver (session : Session) : Request → Config
  | .configure config => config
  | _ => session.config

/-- One session after another that a request has been served in: the findings in the documents that
the request comes to have been published, as the documents are afterwards. -/
structure Served (source : String → Answer) (request : Request) (s s' : Session) : Prop where
  idle : s'.Idle
  agrees : s'.cache.Agrees source
  suite_eq : s'.suite = s.suite
  config_eq : s'.config = s.configOver request
  documents_eq : s'.documents = s.documentsAfter request
  published : s'.events.filter Event.isPublication =
    s.events.filter Event.isPublication ++ (s.visits request).filterMap (s'.publication? source)

section Serving

variable {source : String → Answer} {s s' t : Session} {uris : List String} {request : Request}

theorem prepared_suite (s : Session) (request : Request) :
    (s.prepared request).suite = s.suite := by
  cases request with
  | change uri version text =>
    simp only [prepared]
    split <;> rfl
  | close uri => exact ask_suite s.opened s.stages.length uri
  | _ => rfl

theorem prepared_config (s : Session) (request : Request) :
    (s.prepared request).config = s.configOver request := by
  cases request with
  | change uri version text =>
    simp only [prepared]
    split <;> rfl
  | close uri => exact ask_config s.opened s.stages.length uri
  | _ => rfl

theorem prepared_documents (s : Session) (request : Request) :
    (s.prepared request).documents = s.documentsAfter request := by
  cases request with
  | change uri version text =>
    cases hopen : s.documents.get? uri with
    | none =>
      simp only [prepared, documentsAfter, snapshot?, hopen]
      rfl
    | some document =>
      simp only [prepared, documentsAfter, snapshot?, hopen]
      rfl
  | close uri =>
    exact congrArg (Table.erase · uri) (ask_documents s.opened s.stages.length uri)
  | _ => rfl

theorem prepared_events (s : Session) (request : Request) :
    (s.prepared request).events = s.events := by
  cases request with
  | change uri version text =>
    simp only [prepared]
    split <;> rfl
  | close uri => exact ask_events s.opened s.stages.length uri
  | _ => rfl

/-- Only a refresh and a close touch the cache before the passes. -/
theorem prepared_cache (s : Session) (request : Request) :
    (s.prepared request).cache =
      match request with
      | .refresh => s.cache.clear
      | .close uri => s.cache.evict uri
      | _ => s.cache := by
  cases request with
  | change uri version text =>
    simp only [prepared]
    split <;> rfl
  | close uri => exact congrArg (Cache.evict · uri) (ask_cache s.opened s.stages.length uri)
  | _ => rfl

theorem agrees_prepared (hagrees : request ≠ .refresh → s.cache.Agrees source) :
    (s.prepared request).cache.Agrees source := by
  rw [prepared_cache]
  split
  · exact s.cache.agrees_clear source
  · exact (hagrees nofun).evict _
  · rename_i hrefresh _
    exact hagrees hrefresh

/-- **What comes of a request that is served at rest.** The cache may hold anything if the request
is to fetch all settings anew. -/
theorem served_serve (hidle : s.Idle) (hagrees : request ≠ .refresh → s.cache.Agrees source) :
    Served source request s (s.serve source request) := by
  have hready := hidle.prepared request
  have hpassed := passed_foldl hready (agrees_prepared hagrees) s.stages.length (s.visits request)
  rw [serve_eq_foldl hidle]
  exact {
    idle := hpassed.idle hready
    agrees := hpassed.agrees
    suite_eq := hpassed.suite_eq.trans (s.prepared_suite request)
    config_eq := hpassed.config_eq.trans (s.prepared_config request)
    documents_eq := hpassed.documents_eq.trans (s.prepared_documents request)
    published := by rw [hpassed.published, prepared_events, hpassed.publication?_eq] }

/-- Documents are still stored under their own names after a request. -/
theorem Keyed.after (h : s.Keyed) (hdocuments : s'.documents = s.documentsAfter request) :
    s'.Keyed := by
  intro uri found hopen
  rw [hdocuments, documentsAfter.eq_def] at hopen
  split at hopen
  · rw [Table.get?_erase] at hopen
    split at hopen
    · cases hopen
    · exact h uri found hopen
  · split at hopen
    · exact keyed_store h uri found hopen
    · exact h uri found hopen

/-- A change keeps the language of a document that is open. -/
theorem get?_documentsAfter_change (hkeyed : s.Keyed) (uri : String) (version : Int)
    (text : String) (other : String) :
    (s.documentsAfter (.change uri version text)).get? other =
      if uri = other then
        some ⟨uri, ((s.documents.get? uri).map Document.language).getD "", version, text⟩
      else s.documents.get? other := by
  cases hopen : s.documents.get? uri with
  | none => simp [documentsAfter, snapshot?, hopen, Table.get?_insert]
  | some document =>
    have huri : document.uri = uri := hkeyed uri document hopen
    simp [documentsAfter, snapshot?, hopen, Table.get?_insert, huri]

end Serving

end Session

end RuleLint
