import Mathlib
import RuleLint.Proofs.Session.Ascending
import RuleLint.Proofs.Session.Serving

/-!
# Documents do not influence each other

All documents of a session go through one cache, one table of locks and one configuration. Still,
what is told about a document depends on its own share alone (`Session.share`): its snapshot, its
cached settings, the configuration, and what was told about it before. Serving a request does to the
share of a document what can be said without the rest of the session (`share_serve`), and so does
any number of requests, with sources that change in between (`share_serveAll`).

Two sessions that a document has the same share in can therefore not be told apart by it. Leaving
out the requests on another document, or answering its fetches differently, changes nothing in the
share of this one (`told_of_ne`).
-/

namespace RuleLint

/-- The document that an event is about. -/
def Event.uri : Event → String
  | .fetched uri | .published uri _ _ => uri

/-- The document that a request is about, if it is about one. -/
def Request.uri? : Request → Option String
  | .openDocument document => some document.uri
  | .change uri _ _ | .close uri | .lint uri => some uri
  | .refresh | .configure _ => none

/-- What a document has a share in: the parts of a session that are about it or about all. -/
structure Share where
  suite : Suite
  config : Config
  document : Option Document
  entry : Option Settings
  /-- What has been told about the document, in order. -/
  told : List Event

namespace Share

/-- Publish the findings in a document, if it is open. -/
def publish (share : Share) (uri : String) (settings : Settings) : Share :=
  match share.document with
  | none => share
  | some document =>
    { share with
      told := share.told ++ [.published uri document.version
        (RuleLint.lint share.suite document settings share.config).diagnostics] }

/-- Begin to fetch the settings of a document. -/
def fetch (share : Share) (uri : String) : Share :=
  { share with told := share.told ++ [.fetched uri] }

/-- Take the answer of a fetch. Only settings are kept. -/
def receive (share : Share) : Answer → Share
  | .ok settings => { share with entry := some settings.normalized }
  | .error _ => share

/-- A pass on a document, which gets an answer if it asks for settings. -/
def pass (share : Share) (uri : String) (answer : Answer) : Share :=
  match share.document, share.entry with
  | none, _ => share
  | some _, some settings => share.publish uri settings
  | some _, none => ((share.fetch uri).receive answer).publish uri answer.settings

/-- What a request does to the share of a document. -/
def serve (share : Share) (uri : String) (answer : Answer) : Request → Share
  | .openDocument document =>
    if document.uri = uri then { share with document := some document }.pass uri answer else share
  | .change other version text =>
    if other = uri then
      let snapshot := (share.document.map (Document.withText · version text)).getD
        ⟨uri, "", version, text⟩
      { share with document := some snapshot }.pass uri answer
    else share
  | .close other => if other = uri then { share with document := none, entry := none } else share
  | .refresh => { share with entry := none }.pass uri answer
  | .lint other => if other = uri then share.pass uri answer else share
  | .configure config => { share with config }

/-- A request on another document changes nothing. -/
theorem serve_of_ne {request : Request} {uri other : String} (hrequest : request.uri? = some other)
    (hne : other ≠ uri) (share : Share) (answer : Answer) :
    share.serve uri answer request = share := by
  cases request with
  | refresh => cases hrequest
  | configure config => cases hrequest
  | openDocument document =>
    obtain rfl := Option.some.inj hrequest
    exact if_neg hne
  | change name version text =>
    obtain rfl := Option.some.inj hrequest
    exact if_neg hne
  | close name =>
    obtain rfl := Option.some.inj hrequest
    exact if_neg hne
  | lint name =>
    obtain rfl := Option.some.inj hrequest
    exact if_neg hne

end Share

namespace Session

/-- The share of a document in a session. -/
def share (session : Session) (uri : String) : Share where
  suite := session.suite
  config := session.config
  document := session.documents.get? uri
  entry := session.cache.entries.get? uri
  told := session.events.filter (·.uri == uri)

/-- A session at rest, with its snapshots stored under their own names and in order. -/
structure Steady (session : Session) : Prop where
  idle : session.Idle
  keyed : session.Keyed
  ordered : session.documents.Ordered

section Sharing

variable {source : String → Answer} {s : Session} {task : TaskId} {uri other : String}
variable {settings : Settings} {answer : Answer} {stamp : Stamp} {request : Request}

/-! ### Parts of a pass -/

@[simp] theorem share_release (number : Nat) : (s.release number).share uri = s.share uri := rfl

@[simp] theorem share_ask : (s.ask task other).share uri = s.share uri := by
  simp [share]

theorem share_publish (s : Session) (uri : String) (settings : Settings) :
    (s.publish uri settings).share uri = (s.share uri).publish uri settings := by
  cases hopen : s.documents.get? uri with
  | none => simp [publish, Share.publish, share, hopen]
  | some document => simp [publish, Share.publish, share, hopen, Event.uri]

theorem share_publish_of_ne (hne : other ≠ uri) :
    (s.publish other settings).share uri = s.share uri := by
  cases hopen : s.documents.get? other with
  | none => simp [publish, hopen]
  | some document => simp [publish, share, hopen, Event.uri, hne]

theorem share_fetch (s : Session) (uri : String) :
    (s.fetch uri).share uri = (s.share uri).fetch uri := by
  simp [fetch, Share.fetch, share, Event.uri]

theorem share_fetch_of_ne (hne : other ≠ uri) : (s.fetch other).share uri = s.share uri := by
  simp [fetch, share, Event.uri, hne]

/-- An answer that comes before anything has been invalidated is kept. -/
theorem share_receive (hstamp : s.cache.stamp uri = stamp) (answer : Answer) :
    (s.receive uri stamp answer).share uri = (s.share uri).receive answer := by
  cases answer with
  | error reason => rfl
  | ok settings => simp [receive, note, share, Share.receive, Cache.complete, hstamp]

theorem share_receive_of_ne (hne : other ≠ uri) :
    (s.receive other stamp answer).share uri = s.share uri := by
  have hentry : (s.cache.complete other stamp answer).cache.entries.get? uri =
      s.cache.entries.get? uri := by
    cases answer with
    | error reason => rfl
    | ok settings =>
      rw [Cache.complete]
      split
      · rw [Table.get?_insert, if_neg hne]
      · rfl
  simp [receive, note, share, hentry]

/-! ### Passes -/

/-- A pass on a document does to its share what the share says. -/
theorem share_pass (source : String → Answer) (s : Session) (task : TaskId) (uri : String) :
    (s.pass source task uri).share uri = (s.share uri).pass uri (source uri) := by
  cases hopen : s.documents.get? uri with
  | none =>
    have hdocument : (s.share uri).document = none := hopen
    rw [pass_of_closed hopen, share_release, share_ask, Share.pass, hdocument]
  | some document =>
    have hdocument : (s.share uri).document = some document := hopen
    cases hentry : s.cache.entries.get? uri with
    | some settings =>
      have hshare : (s.share uri).entry = some settings := hentry
      rw [pass_of_entry hopen hentry, share_release, share_publish, share_ask, Share.pass,
        hdocument, hshare]
    | none =>
      have hshare : (s.share uri).entry = none := hentry
      have hstamp : ((s.ask task uri).fetch uri).cache.stamp uri = s.cache.stamp uri :=
        congrArg (Cache.stamp · uri) (ask_cache s task uri)
      rw [pass_of_missing hopen hentry, share_release, share_publish, share_receive hstamp,
        share_fetch, share_ask, Share.pass, hdocument, hshare]

/-- A pass on another document is no concern of this one. -/
theorem share_pass_of_ne (hne : other ≠ uri) :
    (s.pass source task other).share uri = s.share uri := by
  cases hopen : s.documents.get? other with
  | none => rw [pass_of_closed hopen, share_release, share_ask]
  | some document =>
    cases hentry : s.cache.entries.get? other with
    | some settings =>
      rw [pass_of_entry hopen hentry, share_release, share_publish_of_ne hne, share_ask]
    | none =>
      rw [pass_of_missing hopen hentry, share_release, share_publish_of_ne hne,
        share_receive_of_ne hne, share_fetch_of_ne hne, share_ask]

theorem share_foldl_of_not_mem {uris : List String} (hmem : uri ∉ uris) :
    (uris.foldl (pass source task) s).share uri = s.share uri := by
  induction uris generalizing s with
  | nil => rfl
  | cons other others ih =>
    rw [List.mem_cons, not_or] at hmem
    rw [List.foldl_cons, ih hmem.2, share_pass_of_ne (Ne.symm hmem.1)]

/-- Among passes on several documents, each document has its own. -/
theorem share_foldl_of_mem {uris : List String} (hnodup : uris.Nodup) (hmem : uri ∈ uris) :
    (uris.foldl (pass source task) s).share uri = (s.share uri).pass uri (source uri) := by
  induction uris generalizing s with
  | nil => cases hmem
  | cons other others ih =>
    obtain ⟨hother, hothers⟩ := List.nodup_cons.1 hnodup
    rw [List.foldl_cons]
    rcases List.mem_cons.1 hmem with rfl | hmem
    · rw [share_foldl_of_not_mem hother, share_pass]
    · have hne : other ≠ uri := fun h ↦ hother (h ▸ hmem)
      rw [ih hothers hmem, share_pass_of_ne hne]

/-! ### Requests -/

/-- The share of a document after a request that stores a snapshot of it. -/
theorem share_prepared_of_snapshot? {document : Document}
    (hstored : s.snapshot? request = some document) :
    (s.prepared request).share uri =
      if document.uri = uri then { s.share uri with document := some document }
      else s.share uri := by
  have hdocuments : (s.prepared request).documents = s.documents.insert document.uri document := by
    rw [prepared_documents, documentsAfter.eq_def]
    split
    · cases hstored
    · rw [hstored]
  have hconfig : (s.prepared request).config = s.config := by
    rw [prepared_config]
    cases request with
    | configure config => cases hstored
    | _ => rfl
  have hcache : (s.prepared request).cache = s.cache := by
    rw [prepared_cache]
    cases request with
    | refresh => cases hstored
    | close other => cases hstored
    | _ => rfl
  have hget : (s.prepared request).documents.get? uri =
      if document.uri = uri then some document else s.documents.get? uri := by
    rw [hdocuments, Table.get?_insert]
  simp only [share, prepared_suite, prepared_events, hconfig, hcache, hget]
  split <;> rfl

/-- A request that stores a snapshot and makes a pass on it concerns that document only. -/
theorem share_serve_of_snapshot? {document : Document} (hidle : s.Idle)
    (hstored : s.snapshot? request = some document) (hvisits : s.visits request = [document.uri]) :
    (s.serve source request).share uri =
      if document.uri = uri then
        { s.share uri with document := some document }.pass uri (source uri)
      else s.share uri := by
  rw [serve_eq_foldl hidle, hvisits, List.foldl_cons, List.foldl_nil]
  split
  · rename_i heq
    subst heq
    rw [share_pass, share_prepared_of_snapshot? hstored, if_pos rfl]
  · rename_i hne
    rw [share_pass_of_ne hne, share_prepared_of_snapshot? hstored, if_neg hne]

/-- **What a request does to the share of a document.** No other document has a part in it. -/
theorem share_serve (h : s.Steady) (source : String → Answer) (request : Request) (uri : String) :
    (s.serve source request).share uri = (s.share uri).serve uri (source uri) request := by
  cases request with
  | openDocument document => exact share_serve_of_snapshot? h.idle rfl rfl
  | change other version text =>
    -- the snapshot that is stored is the one that the share of the document gives
    obtain ⟨snapshot, hstored, hname, hsnapshot⟩ : ∃ snapshot,
        s.snapshot? (.change other version text) = some snapshot ∧ snapshot.uri = other ∧
          ((s.share other).document.map (Document.withText · version text)).getD
            ⟨other, "", version, text⟩ = snapshot := by
      cases hopen : s.documents.get? other with
      | none => exact ⟨⟨other, "", version, text⟩, by simp [snapshot?, hopen], rfl,
          by simp [share, hopen]⟩
      | some document => exact ⟨document.withText version text,
          by simp [snapshot?, hopen, Document.withText], h.keyed other document hopen,
          by simp [share, hopen]⟩
    rw [share_serve_of_snapshot? h.idle hstored (by rw [hname]; rfl), Share.serve, hname]
    split
    · rename_i heq
      subst heq
      rw [hsnapshot]
    · rfl
  | close other =>
    rw [serve_eq_foldl h.idle]
    have hdocument := s.prepared_documents (.close other)
    have hcache := s.prepared_cache (.close other)
    have hentry : (s.cache.evict other).entries = s.cache.entries.erase other := rfl
    simp only [documentsAfter, visits, Point.uris, List.foldl_nil, share, Share.serve,
      prepared_suite, prepared_config, prepared_events, configOver, hdocument, hcache, hentry,
      Table.get?_erase]
    split <;> rfl
  | refresh =>
    rw [serve_eq_foldl h.idle]
    have hprepared : (s.prepared .refresh).share uri = { s.share uri with entry := none } := rfl
    by_cases hmem : uri ∈ s.openUris
    · have hnodup : s.openUris.Nodup := h.ordered.imp ne_of_lt
      rw [visits, share_foldl_of_mem hnodup hmem, hprepared, Share.serve]
    · -- the document is not open, so that a pass would do nothing
      have hclosed : (s.share uri).document = none := by
        rw [openUris, Table.mem_names_iff, not_exists] at hmem
        exact Option.eq_none_iff_forall_ne_some.2 hmem
      rw [visits, share_foldl_of_not_mem hmem, hprepared, Share.serve, Share.pass]
      simp only [hclosed]
  | lint other =>
    rw [serve_eq_foldl h.idle]
    show (pass source s.stages.length s.opened other).share uri = _
    by_cases hother : other = uri
    · subst hother
      rw [share_pass, Share.serve, if_pos rfl]
      rfl
    · rw [share_pass_of_ne hother, Share.serve, if_neg hother]
      rfl
  | configure config =>
    rw [serve_eq_foldl h.idle]
    rfl

/-- A session stays steady, whatever request is served. -/
theorem Steady.serve (h : s.Steady) (source : String → Answer) (request : Request) :
    (s.serve source request).Steady := by
  have hdocuments : (s.serve source request).documents = s.documentsAfter request := by
    rw [serve_eq_foldl h.idle, foldl_pass_documents, prepared_documents]
  refine ⟨h.idle.serve source request, h.keyed.after hdocuments, ?_⟩
  rw [hdocuments, documentsAfter.eq_def]
  split
  · exact h.ordered.erase _
  · split
    · exact h.ordered.insert _ _
    · exact h.ordered

end Sharing

/-! ### Whatever happens -/

/-- What can happen to a session at rest. -/
inductive Happening where
  /-- A request is served. -/
  | served (request : Request)
  /-- From now on another source answers the fetches. -/
  | sourced (source : String → Answer)

namespace Happening

/-- Whether it is the service of a request on a document. -/
def isOn (uri : String) : Happening → Bool
  | .served request => request.uri? == some uri
  | .sourced _ => false

/-- Two happenings are the same but for what sources answer for a document. -/
inductive AlikeBut (uri : String) : Happening → Happening → Prop
  | served (request : Request) : AlikeBut uri (.served request) (.served request)
  | sourced {source source' : String → Answer}
      (same : ∀ other, other ≠ uri → source other = source' other) :
      AlikeBut uri (.sourced source) (.sourced source')

end Happening

/-- The session after happenings, the first source being given. -/
def serveAll (source : String → Answer) (session : Session) : List Happening → Session
  | [] => session
  | .served request :: happenings => (session.serve source request).serveAll source happenings
  | .sourced source :: happenings => session.serveAll source happenings

end Session

/-- The share of a document after happenings, the first answer for it being given. -/
def Share.serveAll (share : Share) (uri : String) (answer : Answer) :
    List Session.Happening → Share
  | [] => share
  | .served request :: happenings =>
    (share.serve uri answer request).serveAll uri answer happenings
  | .sourced source :: happenings => share.serveAll uri (source uri) happenings

namespace Session

section Happenings

variable {source source' : String → Answer} {s : Session} {uri other : String}
variable {happenings happenings' : List Happening}

/-- **A document's share is its own.** What many requests do to it takes neither the other documents
nor what is answered for them. -/
theorem share_serveAll (h : s.Steady) (source : String → Answer) (happenings : List Happening)
    (uri : String) :
    (s.serveAll source happenings).share uri =
      (s.share uri).serveAll uri (source uri) happenings := by
  induction happenings generalizing s source with
  | nil => rfl
  | cons happening happenings ih =>
    cases happening with
    | served request =>
      rw [serveAll, ih (h.serve source request), share_serve h, Share.serveAll]
    | sourced source' => exact ih h source'

theorem share_serveAll_filter (hne : other ≠ uri) (share : Share) (answer : Answer)
    (happenings : List Happening) :
    share.serveAll uri answer (happenings.filter fun happening ↦ !happening.isOn other) =
      share.serveAll uri answer happenings := by
  induction happenings generalizing share answer with
  | nil => rfl
  | cons happening happenings ih =>
    cases happening with
    | sourced source => exact ih share (source uri)
    | served request =>
      by_cases hrequest : request.uri? = some other
      · have hon : (Happening.served request).isOn other = true := by
          simp [Happening.isOn, hrequest]
        rw [List.filter_cons_of_neg (by simp [hon]), ih, Share.serveAll,
          Share.serve_of_ne hrequest hne]
      · have hoff : (Happening.served request).isOn other = false := by
          simp [Happening.isOn, hrequest]
        rw [List.filter_cons_of_pos (by simp [hoff]), Share.serveAll, Share.serveAll, ih]

theorem share_serveAll_congr (hne : other ≠ uri)
    (halike : List.Forall₂ (Happening.AlikeBut other) happenings happenings') (share : Share)
    (answer : Answer) :
    share.serveAll uri answer happenings' = share.serveAll uri answer happenings := by
  induction halike generalizing share answer with
  | nil => rfl
  | cons hfirst _ ih =>
    cases hfirst with
    | served request => exact ih (share.serve uri answer request) answer
    | sourced same =>
      rw [Share.serveAll, Share.serveAll, same uri (Ne.symm hne)]
      exact ih share _

theorem steady_new (suite : Suite) (config : Config) : (new suite config).Steady where
  idle := ⟨nofun, nofun⟩
  keyed := keyed_new suite config
  ordered := Table.ordered_empty

/-- What a session tells about a document, over a list of happenings. -/
def told (suite : Suite) (config : Config) (source : String → Answer)
    (happenings : List Happening) (uri : String) : List Event :=
  ((new suite config).serveAll source happenings).events.filter (·.uri == uri)

/-- **Documents do not influence each other.** Neither without the requests on another document nor
with other answers for it, such as errors, are other settings asked for or other findings published
of a document. -/
theorem told_of_ne (suite : Suite) (config : Config) (source : String → Answer)
    (happenings : List Happening) {uri other : String} (hne : other ≠ uri) :
    told suite config source (happenings.filter fun happening ↦ !happening.isOn other) uri =
        told suite config source happenings uri ∧
      ∀ source' happenings', (∀ name, name ≠ other → source name = source' name) →
        List.Forall₂ (Happening.AlikeBut other) happenings happenings' →
          told suite config source' happenings' uri = told suite config source happenings uri := by
  have htold : ∀ source happenings, told suite config source happenings uri =
      (((new suite config).share uri).serveAll uri (source uri) happenings).told :=
    fun source happenings ↦
      congrArg Share.told (share_serveAll (steady_new suite config) source happenings uri)
  refine ⟨?_, fun source' happenings' hsource halike ↦ ?_⟩
  · rw [htold, htold, share_serveAll_filter hne]
  · rw [htold, htold, share_serveAll_congr hne halike, hsource uri (Ne.symm hne)]

end Happenings

/-- Two documents are opened, all settings are fetched anew from another source, and one of the
documents is changed and closed. -/
def neighbours (reply : Answer) : List Happening :=
  [.served (.openDocument ⟨"a", "co", 1, ""⟩), .served (.openDocument ⟨"b", "co", 1, ""⟩),
    .sourced fun uri ↦ if uri = "b" then reply else .ok ⟨5⟩, .served .refresh,
    .served (.change "b" 2 "x"), .served (.close "b"), .served (.lint "a")]

/-- What is told of one document is the same without the other, and if the fetches for the other
fail. -/
theorem told_of_ne_neighbours :
    told .standard .empty (fun _ ↦ .ok ⟨3⟩)
        ((neighbours (.ok ⟨5⟩)).filter fun happening ↦ !happening.isOn "b") "a" =
        told .standard .empty (fun _ ↦ .ok ⟨3⟩) (neighbours (.ok ⟨5⟩)) "a" ∧
      told .standard .empty (fun _ ↦ .ok ⟨3⟩) (neighbours (.error "gone")) "a" =
        told .standard .empty (fun _ ↦ .ok ⟨3⟩) (neighbours (.ok ⟨5⟩)) "a" ∧
      told .standard .empty (fun _ ↦ .ok ⟨3⟩) (neighbours (.ok ⟨5⟩)) "a" =
        [.fetched "a", .published "a" 1 [], .fetched "a", .published "a" 1 [],
          .published "a" 1 []] := by
  obtain ⟨hfilter, hanswers⟩ := @told_of_ne .standard .empty (fun _ ↦ .ok ⟨3⟩)
    (neighbours (.ok ⟨5⟩)) "a" "b" (by decide)
  refine ⟨hfilter, hanswers _ _ (fun _ _ ↦ rfl) ?_, by decide +kernel⟩
  have hsame : ∀ other, other ≠ "b" →
      (if other = "b" then Except.ok ⟨5⟩ else Except.ok ⟨5⟩ : Answer) =
        if other = "b" then .error "gone" else .ok ⟨5⟩ := fun other hne ↦ by simp [hne]
  exact .cons (.served _) (.cons (.served _) (.cons (.sourced hsame) (.cons (.served _)
    (.cons (.served _) (.cons (.served _) (.cons (.served _) .nil))))))

end Session

end RuleLint
