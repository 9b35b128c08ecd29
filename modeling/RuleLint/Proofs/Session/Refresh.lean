import RuleLint.Proofs.Session.Ascending
import RuleLint.Proofs.Session.Exclusion
import RuleLint.Proofs.Session.Reopening

/-!
# A refresh reaches every open document

A refresh clears the cache of settings and makes a pass on each document that is open then. A fetch
may be under way at that moment, and its answer still goes into a publication, so what the refresh
promises holds from its own pass on: the document is published under settings that were fetched
after the clearing, and so is everything that is published for it later
(`refresh_reaches_open_documents`).

The argument is in three parts, each an invariant of moves.

* `Tended`: nobody is about to close the document. Its lock then stays in the table, and whoever is
  in a pass on it holds that lock.
* `Traced`: a fetch that began under a stamp from after the clearing shows in the history since, and
  so does the answer that any entry of the cache was made from. This is where stamps count.
* `Due` and `Current`: as long as the refresh has not published the document, it still comes to it.
  When it publishes, it holds the lock, so no fetch from before the clearing is left under way; and
  without one, no publication can be out of date any more.
-/

namespace RuleLint

namespace Session

/-! ### Settings from fetches since -/

/-- A task has begun to fetch the settings of a document, and its answer is yet to come. -/
def Asked (task : TaskId) (uri : String) (past : List Effect) : Prop :=
  ∃ earlier later, past = earlier ++ .fetched task uri :: later ∧
    ∀ other answer, .answered task other answer ∉ later

/-- A fetch of the settings of a document has begun and has been answered. -/
def Told (uri : String) (answer : Answer) (past : List Effect) : Prop :=
  ∃ task earlier later, past = earlier ++ .answered task uri answer :: later ∧
    Asked task uri earlier

/-- The latest thing done is that the pass of a task on a document resolved its settings, which come
of a fetch in the given history: of its own, in which case they are standard settings if the fetch
failed, or of one whose answer was kept. -/
inductive Renewed (task : TaskId) (uri : String) : Settings → List Effect → Prop
  | answered {past : List Effect} (answer : Answer) (asked : Asked task uri past) :
      Renewed task uri answer.settings (past ++ [.answered task uri answer])
  | found {past : List Effect} (value : Settings) (told : Told uri (.ok value) past) :
      Renewed task uri value.normalized (past ++ [.found task uri value.normalized])

section Histories

variable {task : TaskId} {uri : String} {past effects : List Effect}

theorem Asked.append (h : Asked task uri past)
    (hopen : ∀ other answer, .answered task other answer ∉ effects) :
    Asked task uri (past ++ effects) := by
  obtain ⟨earlier, later, rfl, hlater⟩ := h
  refine ⟨earlier, later ++ effects, by simp, fun other answer hmem ↦ ?_⟩
  rcases List.mem_append.1 hmem with hmem | hmem
  · exact hlater other answer hmem
  · exact hopen other answer hmem

theorem asked_concat (task : TaskId) (uri : String) (past : List Effect) :
    Asked task uri (past ++ [.fetched task uri]) :=
  ⟨past, [], rfl, fun _ _ ↦ List.not_mem_nil⟩

theorem Told.append {answer : Answer} (h : Told uri answer past) (effects : List Effect) :
    Told uri answer (past ++ effects) := by
  obtain ⟨task, earlier, later, rfl, hasked⟩ := h
  exact ⟨task, earlier, later ++ effects, by simp, hasked⟩

theorem Asked.told (h : Asked task uri past) (answer : Answer) :
    Told uri answer (past ++ [.answered task uri answer]) :=
  ⟨task, past, [], rfl, h⟩

end Histories

/-! ### Fetches under way -/

/-- A waiting task fetches the settings of a document, under a stamp. -/
def FetchesUnder (session : Session) (task : TaskId) (uri : String) (stamp : Stamp) : Prop :=
  ∃ number others, session.stages[task]? = some (.fetching uri number stamp others)

/-- The running task has just got the answer to a fetch of the settings of a document, which began
under a stamp. -/
def Point.AnsweredUnder (uri : String) (stamp : Stamp) (point : Point) : Prop :=
  ∃ number others answer, point = .answered uri number stamp others answer

/-! ### Nobody is about to close the document -/

/-- Nobody is about to close a document, and all tasks that are at a pass on it are at the lock in
the table. One task is running, at the given point. -/
structure Tended (uri : String) (task : TaskId) (session : Session) (point : Point) : Prop where
  inOrder : InOrder task session point
  attached : Attached uri session point
  spared : ¬session.Doomed uri point

section Tending

variable {s s' : Session} {task other : TaskId} {point point' : Point} {act : Act}
variable {effects : List Effect} {uri : String}

theorem Move.forgotten_not_mem (h : Move task s point effects s' point')
    (hspared : ¬s.Doomed uri point) : .forgotten uri ∉ effects := by
  intro hmem
  cases h with
  | forget number other =>
    obtain rfl : uri = other := by simpa using hmem
    exact hspared (Or.inr (by simp [Point.closes]))
  | _ => simp at hmem

theorem Move.tended (h : Move task s point effects s' point')
    (running : s.stages[task]? = some .done) (htended : Tended uri task s point) :
    Tended uri task s' point' where
  inOrder := h.inOrder running htended.inOrder
  attached := (h.attached htended.attached).resolve_right (h.forgotten_not_mem htended.spared)
  spared := by
    rcases h.doomed running with ⟨hdoomed, -⟩ | ⟨hdoomed, -⟩
    · exact absurd hdoomed htended.spared
    · exact mt hdoomed.1 htended.spared

theorem Enters.tended (h : Enters s act task s' point) (hact : act ≠ .start (.close uri))
    (htended : Tended uri other s .parked) : Tended uri task s' point where
  inOrder := h.inOrder htended.inOrder.orderly
  attached := h.attached htended.attached
  spared := mt (h.doomed_iff hact).1 fun hclosing ↦ htended.spared (Or.inl hclosing)

theorem tended_new (suite : Suite) (config : Config) (uri : String) :
    Tended uri 0 (new suite config) .parked where
  inOrder := (orderly_new suite config).inOrder rfl
  attached := ⟨nofun, nofun⟩
  spared := by
    rintro (⟨stage, hmem, -⟩ | hcloses)
    · cases hmem
    · cases hcloses

/-- Storing a snapshot keeps every document open. -/
theorem isSome_store (document : Document) (hopen : (s.documents.get? uri).isSome) :
    ((s.store document).documents.get? uri).isSome := by
  rw [store, Table.get?_insert]
  split
  · rfl
  · exact hopen

/-- A document stays open if nobody is about to close it. -/
theorem Move.isSome_document (h : Move task s point effects s' point')
    (hspared : ¬s.Doomed uri point) (hopen : (s.documents.get? uri).isSome) :
    (s'.documents.get? uri).isSome := by
  cases h with
  | openDocument document => exact isSome_store document hopen
  | change version text opened => exact isSome_store _ hopen
  | changeUnopened version text closed => exact isSome_store _ hopen
  | forget number other =>
    have hne : other ≠ uri := by
      rintro rfl
      exact hspared (Or.inr (by simp [Point.closes]))
    rw [forget_documents, Table.get?_erase, if_neg hne]
    exact hopen
  | wait held => simpa [Session.setStage] using hopen
  | take free => simpa using hopen
  | publish number settings others opened => simpa using hopen
  | _ => exact hopen

/-- While a task is in a pass on a document, no other task fetches its settings. -/
theorem Tended.not_fetches {number : Nat} {stamp : Stamp} (htended : Tended uri task s point)
    (running : s.stages[task]? = some .done) (hpass : point.pass? = some (number, uri))
    (htarget : point.target? = some (number, uri)) : ¬s.FetchesUnder other uri stamp := by
  rintro ⟨number', others, hfetching⟩
  have hentry := htended.attached.running number hpass
  have hentry' := htended.attached.waiting _ (List.mem_iff_getElem?.2 ⟨other, hfetching⟩)
    number' rfl
  obtain rfl := Option.some.inj (hentry.symm.trans hentry')
  -- the running task holds the only lock for the document
  have hholder := htended.inOrder.orderly.holder_of_fetching hfetching
  obtain rfl := Option.some.inj ((htended.inOrder.holds htarget).symm.trans hholder)
  exact nomatch Option.some.inj (running.symm.trans hfetching)

end Tending

/-! ### Stamps and the history since -/

/-- What began after the clearing with a number shows in the history since: a fetch of the settings
of a document that is under way, and the answer that an entry was made from. One task is running, at
the given point. -/
structure Traced (uri : String) (count : Nat) (task : TaskId) (session : Session) (point : Point)
    (past : List Effect) : Prop where
  count_le : count ≤ session.cache.clearings
  entry : ∀ settings, session.cache.entries.get? uri = some settings →
    ∃ value, Told uri (.ok value) past ∧ settings = value.normalized
  waiting : ∀ other stamp, session.FetchesUnder other uri stamp →
    count ≤ stamp.clearings → Asked other uri past
  running : ∀ stamp, point.AnsweredUnder uri stamp → count ≤ stamp.clearings → Asked task uri past

section Tracing

variable {s s' : Session} {task other : TaskId} {point point' : Point} {act : Act}
variable {effects past : List Effect} {uri : String} {stamp : Stamp} {count : Nat}

theorem FetchesUnder.of_setStage {stage : Stage}
    (h : (s.setStage task stage).FetchesUnder other uri stamp) :
    s.FetchesUnder other uri stamp ∨
      other = task ∧ ∃ number others, stage = .fetching uri number stamp others := by
  obtain ⟨number, others, hstage⟩ := h
  rw [setStage, List.getElem?_set] at hstage
  split at hstage
  · rename_i heq
    split at hstage
    · exact Or.inr ⟨heq.symm, number, others, Option.some.inj hstage⟩
    · cases hstage
  · exact Or.inl ⟨number, others, hstage⟩

/-- A fetch is under way after a move if it was before or the move has begun it. -/
theorem Move.fetchesUnder (h : Move task s point effects s' point')
    (hfetches : s'.FetchesUnder other uri stamp) :
    s.FetchesUnder other uri stamp ∨
      other = task ∧ effects = [.fetched task uri] ∧ stamp = s.cache.stamp uri := by
  cases h with
  | @wait job held =>
    rcases hfetches.of_setStage with hfetches | ⟨-, number, others, hstage⟩
    · exact Or.inl (by simpa [FetchesUnder] using hfetches)
    · cases hstage
  | fetch number others opened missing =>
    rcases hfetches.of_setStage with hfetches | ⟨heq, number, others, hstage⟩
    · exact Or.inl hfetches
    · obtain ⟨rfl, -, rfl, -⟩ := Stage.fetching.inj hstage
      exact Or.inr ⟨heq, rfl, rfl⟩
  | take free => exact Or.inl (by simpa [FetchesUnder] using hfetches)
  | publish number settings others opened =>
    exact Or.inl (by simpa [FetchesUnder] using hfetches)
  | _ => exact Or.inl hfetches

/-- A task that is set going begins no fetch. -/
theorem Enters.fetchesUnder (h : Enters s act task s' point)
    (hfetches : s'.FetchesUnder other uri stamp) : s.FetchesUnder other uri stamp := by
  cases h with
  | start request =>
    obtain ⟨number, others, hstage⟩ := hfetches
    exact ⟨number, others, (getElem?_start (by simp)).1 hstage⟩
  | answer answer stage => exact hfetches.of_setStage.resolve_right nofun
  | resume stage holds => exact hfetches.of_setStage.resolve_right nofun

/-- A fetch that has just been answered was under way. -/
theorem Enters.answeredUnder (h : Enters s act task s' point)
    (hanswered : point.AnsweredUnder uri stamp) : s.FetchesUnder task uri stamp := by
  obtain ⟨number, others, answer, hpoint⟩ := hanswered
  cases h with
  | answer answer stage =>
    obtain ⟨rfl, rfl, rfl, rfl, rfl⟩ := Point.answered.inj hpoint
    exact ⟨_, _, stage⟩
  | _ => cases hpoint

theorem Move.not_answeredUnder (h : Move task s point effects s' point') :
    ¬point'.AnsweredUnder uri stamp := by
  rintro ⟨number, others, answer, hpoint⟩
  cases h <;> cases hpoint

/-- The entry of a document after an answer to a fetch: the one before, or what the answer says if
the stamp of the fetch is current. -/
theorem entry_receive {asked : String} {answer : Answer} {settings : Settings}
    (h : (s.receive asked stamp answer).cache.entries.get? uri = some settings) :
    s.cache.entries.get? uri = some settings ∨
      asked = uri ∧ s.cache.stamp uri = stamp ∧
        ∃ value, answer = .ok value ∧ settings = value.normalized := by
  have hcache : (s.receive asked stamp answer).cache =
      (s.cache.complete asked stamp answer).cache := rfl
  rw [hcache] at h
  cases answer with
  | error reason => exact Or.inl h
  | ok value =>
    by_cases hstamp : s.cache.stamp asked = stamp
    · rw [Cache.complete, if_pos hstamp] at h
      simp only [Table.get?_insert] at h
      split at h
      · rename_i hasked
        subst hasked
        exact Or.inr ⟨rfl, hstamp, value, rfl, (Option.some.inj h).symm⟩
      · exact Or.inl h
    · rw [Cache.complete, if_neg hstamp] at h
      exact Or.inl h

/-- The entry of a document after a move: the one before, or what the answer to a fetch says whose
stamp is current. -/
theorem Move.entry (h : Move task s point effects s' point') {settings : Settings}
    (hentry : s'.cache.entries.get? uri = some settings) :
    s.cache.entries.get? uri = some settings ∨
      point.AnsweredUnder uri (s.cache.stamp uri) ∧
        ∃ value, effects = [.answered task uri (.ok value)] ∧ settings = value.normalized := by
  cases h with
  | refresh => cases hentry
  | forget number other =>
    have herased : (s.cache.entries.erase other).get? uri = some settings := hentry
    rw [Table.get?_erase] at herased
    split at herased
    · cases herased
    · exact Or.inl herased
  | answer asked number stamp others answer =>
    rcases entry_receive hentry with hentry | ⟨rfl, rfl, value, rfl, hsettings⟩
    · exact Or.inl hentry
    · exact Or.inr ⟨⟨number, others, _, rfl⟩, value, rfl, hsettings⟩
  | wait held => exact Or.inl (by simpa [Session.setStage] using hentry)
  | take free => exact Or.inl (by simpa using hentry)
  | publish number settings others opened => exact Or.inl (by simpa using hentry)
  | _ => exact Or.inl hentry

theorem Move.clearings_le (h : Move task s point effects s' point') :
    s.cache.clearings ≤ s'.cache.clearings := by
  cases h with
  | refresh => exact Nat.le_succ _
  | answer asked number stamp others answer =>
    have hstamp := s.cache.stamp_complete asked asked stamp answer
    exact Nat.le_of_eq (congrArg Stamp.clearings hstamp).symm
  | wait held => simp [Session.setStage]
  | take free => simp
  | publish number settings others opened => simp
  | _ => exact Nat.le_refl _

/-- A task that waits for the answer to a fetch is not the running one, so it still waits after the
move. -/
theorem Move.asked (h : Move task s point effects s' point')
    (running : s.stages[task]? = some .done) (hfetches : s.FetchesUnder other uri stamp)
    (hasked : Asked other uri past) : Asked other uri (past ++ effects) := by
  refine hasked.append fun asked answer hmem ↦ ?_
  have hne : task ≠ other := by
    rintro rfl
    obtain ⟨number, others, hstage⟩ := hfetches
    exact nomatch Option.some.inj (running.symm.trans hstage)
  cases h with
  | answer => exact hne (by simpa using (Effect.answered.inj (List.mem_singleton.1 hmem)).1.symm)
  | _ => simp at hmem

/-- **Each move leaves a trace.** -/
theorem Move.traced (h : Move task s point effects s' point')
    (running : s.stages[task]? = some .done) (htraced : Traced uri count task s point past) :
    Traced uri count task s' point' (past ++ effects) where
  count_le := Nat.le_trans htraced.count_le h.clearings_le
  entry settings hentry := by
    rcases h.entry hentry with hentry | ⟨hanswered, value, rfl, hsettings⟩
    · obtain ⟨value, htold, hsettings⟩ := htraced.entry settings hentry
      exact ⟨value, htold.append effects, hsettings⟩
    · -- the stamp is current, so it is from after the clearing
      have hasked := htraced.running _ hanswered htraced.count_le
      exact ⟨value, hasked.told _, hsettings⟩
  waiting other stamp hfetches hcount := by
    rcases h.fetchesUnder hfetches with hfetches | ⟨rfl, rfl, -⟩
    · exact h.asked running hfetches (htraced.waiting other stamp hfetches hcount)
    · exact asked_concat other uri past
  running stamp hanswered := absurd hanswered h.not_answeredUnder

theorem Enters.traced (h : Enters s act task s' point)
    (htraced : Traced uri count other s .parked past) : Traced uri count task s' point past := by
  have hcache : s'.cache = s.cache := by cases h <;> rfl
  refine ⟨?_, ?_, fun other stamp hfetches ↦ ?_, fun stamp hanswered ↦ ?_⟩
  · rw [hcache]
    exact htraced.count_le
  · rw [hcache]
    exact htraced.entry
  · exact htraced.waiting other stamp (h.fetchesUnder hfetches)
  · exact htraced.waiting task stamp (h.answeredUnder hanswered)

end Tracing

/-! ### Before and after the pass of the refresh -/

/-- From a place in the history on, whatever was published for a document was renewed. -/
def RenewedFrom (uri : String) (place : Nat) (past : List Effect) : Prop :=
  ∀ earlier task document settings config later,
    past = earlier ++ .published task uri document settings config :: later →
      place ≤ earlier.length → Renewed task uri settings earlier

/-- No fetch from before the clearing is under way, and so what is published for the document stays
renewed. One task is running, at the given point. -/
structure Current (uri : String) (count place : Nat) (task : TaskId) (session : Session)
    (point : Point) (past : List Effect) : Prop where
  traced : Traced uri count task session point past
  waiting : ∀ other stamp, session.FetchesUnder other uri stamp → count ≤ stamp.clearings
  running : ∀ stamp, point.AnsweredUnder uri stamp → count ≤ stamp.clearings
  settled : ∀ number settings others, point = .settled uri number settings others →
    Renewed task uri settings past
  renewed : RenewedFrom uri place past

/-- A task still comes to a document, and not with settings from before the clearing. One task is
running, at the given point. -/
structure Due (uri : String) (count : Nat) (refresh task : TaskId) (session : Session)
    (point : Point) (past : List Effect) : Prop where
  comes : uri ∈ session.ahead refresh ∨ task = refresh ∧ uri ∈ point.uris
  waiting : ∀ stamp, session.FetchesUnder refresh uri stamp → count ≤ stamp.clearings
  running : ∀ stamp, task = refresh → point.AnsweredUnder uri stamp → count ≤ stamp.clearings
  settled : ∀ number settings others, task = refresh →
    point = .settled uri number settings others → Renewed task uri settings past

section Refreshing

variable {s s' : Session} {task other refresh : TaskId} {point point' : Point} {act : Act}
variable {effects past : List Effect} {uri : String} {count place : Nat}

theorem RenewedFrom.concat {effect : Effect} (h : RenewedFrom uri place past)
    (hlast : ∀ task document settings config,
      effect = .published task uri document settings config → Renewed task uri settings past) :
    RenewedFrom uri place (past ++ [effect]) := by
  intro earlier task document settings config later heq hplace
  rcases List.eq_nil_or_concat later with rfl | ⟨later, last, rfl⟩
  · obtain ⟨rfl, heffect⟩ := List.append_inj' heq rfl
    exact hlast task document settings config (List.singleton_inj.1 heffect)
  · rw [List.concat_eq_append, ← List.cons_append, ← List.append_assoc] at heq
    obtain ⟨rfl, -⟩ := List.append_inj' heq rfl
    exact h earlier task document settings config later rfl hplace

/-- A pass comes to have renewed settings, as long as its fetch did not begin before the
clearing. -/
theorem Move.renewed (h : Move task s point effects s' point')
    (htraced : Traced uri count task s point past)
    (hrunning : ∀ stamp, point.AnsweredUnder uri stamp → count ≤ stamp.clearings)
    {number : Nat} {settings : Settings} {others : List String}
    (hpoint : point' = .settled uri number settings others) :
    Renewed task uri settings (past ++ effects) := by
  cases h with
  | hit number' others' opened entry =>
    obtain ⟨rfl, -, rfl, -⟩ := Point.settled.inj hpoint
    obtain ⟨value, htold, rfl⟩ := htraced.entry _ entry
    exact .found value htold
  | answer uri' number' stamp others' answer =>
    obtain ⟨rfl, -, rfl, -⟩ := Point.settled.inj hpoint
    have hanswered : Point.AnsweredUnder uri' stamp
        (.answered uri' number' stamp others' answer) := ⟨_, _, _, rfl⟩
    rw [Cache.settings_complete]
    exact .answered answer (htraced.running stamp hanswered (hrunning stamp hanswered))
  | _ => cases hpoint

/-- Fetches that begin after the clearing begin under stamps from after it. -/
theorem Move.count_le_stamp (h : Move task s point effects s' point') {stamp : Stamp}
    (htraced : Traced uri count task s point past)
    (hwaiting : s.FetchesUnder other uri stamp → count ≤ stamp.clearings)
    (hfetches : s'.FetchesUnder other uri stamp) : count ≤ stamp.clearings := by
  rcases h.fetchesUnder hfetches with hfetches | ⟨-, -, rfl⟩
  · exact hwaiting hfetches
  · exact htraced.count_le

/-- **Without a fetch from before the clearing everything stays renewed.** -/
theorem Move.current (h : Move task s point effects s' point')
    (running : s.stages[task]? = some .done)
    (hcurrent : Current uri count place task s point past) :
    Current uri count place task s' point' (past ++ effects) := by
  refine ⟨h.traced running hcurrent.traced,
    fun other stamp ↦ h.count_le_stamp hcurrent.traced (hcurrent.waiting other stamp),
    fun stamp hanswered ↦ absurd hanswered h.not_answeredUnder,
    fun number settings others ↦ h.renewed hcurrent.traced hcurrent.running, ?_⟩
  rcases h.effects_eq with rfl | ⟨effect, rfl, hpublished⟩
  · rw [List.append_nil]
    exact hcurrent.renewed
  · refine hcurrent.renewed.concat fun task' document settings config' heffect ↦ ?_
    obtain ⟨rfl, -, number, others, rfl⟩ :=
      hpublished task' uri document settings config' heffect
    exact hcurrent.settled number settings others rfl

theorem Enters.current (h : Enters s act task s' point)
    (hcurrent : Current uri count place other s .parked past) :
    Current uri count place task s' point past where
  traced := h.traced hcurrent.traced
  waiting other stamp hfetches := hcurrent.waiting other stamp (h.fetchesUnder hfetches)
  running stamp hanswered := hcurrent.waiting task stamp (h.answeredUnder hanswered)
  settled number settings others hpoint := by cases h <;> cases hpoint
  renewed := hcurrent.renewed

/-- A task that goes on leaves alone what others have ahead of them. -/
theorem Move.ahead_of_ne (h : Move task s point effects s' point') (hne : other ≠ task) :
    s'.ahead other = s.ahead other := by
  cases h with
  | wait held => simp [ahead, Session.setStage, List.getElem?_set_ne (Ne.symm hne)]
  | fetch number others opened missing =>
    simp [ahead, Session.setStage, List.getElem?_set_ne (Ne.symm hne)]
  | take free => simp [ahead]
  | publish number settings others opened => simp [ahead]
  | _ => rfl

/-- A task that comes to an open document goes on to it until it publishes it. -/
theorem Move.comes_or_publishes (h : Move task s point effects s' point')
    (running : s.stages[task]? = some .done) (hopen : (s.documents.get? uri).isSome)
    (hcomes : uri ∈ point.uris) :
    uri ∈ s'.ahead task ∨ uri ∈ point'.uris ∨
      ∃ number settings others document config, point = .settled uri number settings others ∧
        effects = [.published task uri document settings config] := by
  -- A pass that ends without publishing was on a closed document, which is another one.
  have hother : ∀ {other : String} {others : List String}, s.documents.get? other = none →
      uri ∈ other :: others → uri ∈ others := by
    intro other others hclosed hmem
    refine (List.mem_cons.1 hmem).resolve_left ?_
    rintro rfl
    rw [hclosed] at hopen
    cases hopen
  cases h with
  | wait held =>
    refine Or.inl ?_
    rw [ahead_setStage (by simpa using running), if_pos rfl]
    exact hcomes
  | fetch number others opened missing =>
    refine Or.inl ?_
    rw [ahead, setStage, List.getElem?_set_self (List.getElem?_eq_some_iff.1 running).1]
    exact hcomes
  | skip number others closed => exact Or.inr (Or.inl (hother closed hcomes))
  | drop number settings others closed => exact Or.inr (Or.inl (hother closed hcomes))
  | @publish other document number settings others opened =>
    rcases List.mem_cons.1 hcomes with rfl | hmem
    · exact Or.inr (Or.inr ⟨number, settings, others, document, s.config, rfl, rfl⟩)
    · exact Or.inr (Or.inl hmem)
  | @change other document version text opened =>
    exact Or.inr (Or.inl hcomes)
  | close => cases hcomes
  | refresh => cases hcomes
  | configure => cases hcomes
  | finish => cases hcomes
  | forget => cases hcomes
  | _ => exact Or.inr (Or.inl hcomes)

/-- When the task publishes the document that it comes to, no fetch from before the clearing is left
under way: it holds the lock, so no other task fetches at all. -/
theorem Move.current_of_publishes (h : Move task s point effects s' point')
    (running : s.stages[task]? = some .done) (htended : Tended uri task s point)
    (htraced : Traced uri count task s point past) {number : Nat} {settings : Settings}
    {others : List String} {document : Document} {config : Config}
    (hpoint : point = .settled uri number settings others)
    (heffects : effects = [.published task uri document settings config])
    (hrenewed : Renewed task uri settings past) :
    Current uri count past.length task s' point' (past ++ effects) := by
  have hnobody : ∀ other stamp, ¬s'.FetchesUnder other uri stamp := by
    intro other stamp hfetches
    rcases h.fetchesUnder hfetches with hfetches | ⟨-, hfetched, -⟩
    · exact htended.not_fetches running (by rw [hpoint]; rfl) (by rw [hpoint]; rfl) hfetches
    · rw [heffects] at hfetched
      cases hfetched
  have hanswered : ∀ stamp, ¬point.AnsweredUnder uri stamp := by
    rintro stamp ⟨_, _, _, hanswered⟩
    rw [hpoint] at hanswered
    cases hanswered
  refine ⟨h.traced running htraced,
    fun other stamp hfetches ↦ absurd hfetches (hnobody other stamp),
    fun stamp hanswered ↦ absurd hanswered h.not_answeredUnder,
    fun _ _ _ ↦ h.renewed htraced fun stamp h ↦ absurd h (hanswered stamp), ?_⟩
  -- the publication itself is the first one that counts
  have hempty : RenewedFrom uri past.length past := by
    rintro earlier task document settings config later rfl hplace
    simp only [List.length_append, List.length_cons] at hplace
    omega
  rw [heffects]
  refine hempty.concat fun task' document' settings' config' heffect ↦ ?_
  obtain ⟨rfl, -, -, rfl, -⟩ := Effect.published.inj heffect
  exact hrenewed

/-- An effect at a place in the history publishes a document. -/
def PublishedAt (uri : String) (place : Nat) (past : List Effect) : Prop :=
  ∃ effect, past[place]? = some effect ∧ effect.publishes uri = true

/-- A refresh is under way that comes to an open document, or it has published the document, and
since then everything has stayed renewed. One task is running, at the given point. -/
structure Refreshes (uri : String) (count : Nat) (refresh task : TaskId) (session : Session)
    (point : Point) (past : List Effect) : Prop where
  tended : Tended uri task session point
  opened : (session.documents.get? uri).isSome
  traced : Traced uri count task session point past
  due_or_current : Due uri count refresh task session point past ∨
    ∃ place, PublishedAt uri place past ∧ Current uri count place task session point past

theorem PublishedAt.append (h : PublishedAt uri place past) (effects : List Effect) :
    PublishedAt uri place (past ++ effects) := by
  obtain ⟨effect, hplace, hpublishes⟩ := h
  refine ⟨effect, ?_, hpublishes⟩
  rw [List.getElem?_append_left (List.getElem?_eq_some_iff.1 hplace).1, hplace]

theorem Due.move (hdue : Due uri count refresh task s point past)
    (h : Move task s point effects s' point') (htraced : Traced uri count task s point past)
    (hcomes : uri ∈ s'.ahead refresh ∨ task = refresh ∧ uri ∈ point'.uris) :
    Due uri count refresh task s' point' (past ++ effects) where
  comes := hcomes
  waiting stamp := h.count_le_stamp htraced (hdue.waiting stamp)
  running _ _ hanswered := absurd hanswered h.not_answeredUnder
  settled _ _ _ heq := h.renewed htraced fun stamp ↦ hdue.running stamp heq

/-- **Each move brings a refresh on, or leaves everything renewed.** -/
theorem Move.refreshes (h : Move task s point effects s' point')
    (running : s.stages[task]? = some .done)
    (hrefreshes : Refreshes uri count refresh task s point past) :
    Refreshes uri count refresh task s' point' (past ++ effects) := by
  obtain ⟨htended, hopen, htraced, hstate⟩ := hrefreshes
  refine ⟨h.tended running htended, h.isSome_document htended.spared hopen,
    h.traced running htraced, ?_⟩
  rcases hstate with hdue | ⟨place, hplace, hcurrent⟩
  · by_cases htask : task = refresh
    · subst htask
      have hcomes : uri ∈ point.uris := by
        rcases hdue.comes with hahead | ⟨-, hcomes⟩
        · rw [ahead_of_done running] at hahead
          cases hahead
        · exact hcomes
      rcases h.comes_or_publishes running hopen hcomes with
        hahead | hcomes | ⟨number, settings, others, document, config, hpoint, heffects⟩
      · exact Or.inl (hdue.move h htraced (Or.inl hahead))
      · exact Or.inl (hdue.move h htraced (Or.inr ⟨rfl, hcomes⟩))
      · refine Or.inr ⟨past.length, ⟨.published task uri document settings config, ?_, ?_⟩, ?_⟩
        · rw [heffects, List.getElem?_concat_length]
        · simp [Effect.publishes]
        · exact h.current_of_publishes running htended htraced hpoint heffects
            (hdue.settled number settings others rfl hpoint)
    · -- the move of another task leaves the refresh where it is
      have hahead : uri ∈ s'.ahead refresh := by
        rw [h.ahead_of_ne (Ne.symm htask)]
        exact hdue.comes.resolve_right fun h ↦ htask h.1
      exact Or.inl (hdue.move h htraced (Or.inl hahead))
  · exact Or.inr ⟨place, hplace.append effects, h.current running hcurrent⟩

/-- What a waiting task has ahead of it, it still has when it is set going. -/
theorem Enters.mem_ahead (h : Enters s act task s' point) (hmem : uri ∈ s.ahead other) :
    uri ∈ s'.ahead other ∨ task = other ∧ uri ∈ point.uris := by
  have hset : ∀ {stage : Stage}, s.stages[task]? = some stage →
      uri ∈ (s.setStage task .done).ahead other ∨ task = other ∧ uri ∈ stage.uris := by
    intro stage hstage
    rw [ahead_setStage hstage]
    split
    · rename_i heq
      subst heq
      rw [ahead, hstage] at hmem
      exact Or.inr ⟨rfl, hmem⟩
    · exact Or.inl hmem
  cases h with
  | start request =>
    refine Or.inl ?_
    have hlt : other < s.stages.length := by
      refine Nat.lt_of_not_le fun hle ↦ ?_
      rw [ahead, List.getElem?_eq_none hle] at hmem
      cases hmem
    rw [ahead, List.getElem?_append_left hlt]
    exact hmem
  | answer answer stage => exact hset stage
  | @resume _ number job stage holds => cases job <;> exact hset stage

theorem Enters.due (h : Enters s act task s' point)
    (hdue : Due uri count refresh other s .parked past) :
    Due uri count refresh task s' point past where
  comes := h.mem_ahead (hdue.comes.resolve_right fun h ↦ nomatch h.2)
  waiting stamp hfetches := hdue.waiting stamp (h.fetchesUnder hfetches)
  running stamp heq hanswered := hdue.waiting stamp (heq ▸ h.answeredUnder hanswered)
  settled _ _ _ _ hpoint := by cases h <;> cases hpoint

theorem Enters.refreshes (h : Enters s act task s' point) (hact : act ≠ .start (.close uri))
    (hrefreshes : Refreshes uri count refresh other s .parked past) :
    Refreshes uri count refresh task s' point past := by
  obtain ⟨htended, hopen, htraced, hstate⟩ := hrefreshes
  have hdocuments : s'.documents = s.documents := by cases h <;> rfl
  refine ⟨h.tended hact htended, hdocuments ▸ hopen, h.traced htraced, ?_⟩
  rcases hstate with hdue | ⟨place, hplace, hcurrent⟩
  · exact Or.inl (h.due hdue)
  · exact Or.inr ⟨place, hplace, h.current hcurrent⟩

end Refreshing

/-! ### The clearing -/

/-- The fetches of the settings of a document that are under way began under stamps that the cache
has reached. -/
def Dated (uri : String) (session : Session) : Prop :=
  ∀ task stamp, session.FetchesUnder task uri stamp → stamp.clearings ≤ session.cache.clearings

section Clearing

variable {s s' : Session} {task : TaskId} {point point' : Point} {act : Act}
variable {effects past : List Effect} {uri : String} {count place : Nat}

theorem Move.dated (h : Move task s point effects s' point') (hdated : Dated uri s) :
    Dated uri s' := by
  intro other stamp hfetches
  rcases h.fetchesUnder hfetches with hfetches | ⟨-, -, rfl⟩
  · exact Nat.le_trans (hdated other stamp hfetches) h.clearings_le
  · exact h.clearings_le

theorem Enters.dated (h : Enters s act task s' point) (hdated : Dated uri s) : Dated uri s' := by
  have hcache : s'.cache = s.cache := by cases h <;> rfl
  intro other stamp hfetches
  rw [hcache]
  exact hdated other stamp (h.fetchesUnder hfetches)

/-- Before the refresh: nobody is about to close the document, and stamps are in order. -/
theorem tended_and_dated_run (suite : Suite) (config : Config) {acts : List Act}
    (hopen : .start (.close uri) ∉ acts) :
    ∃ task, Tended uri task ((new suite config).run acts) .parked ∧
      Dated uri ((new suite config).run acts) := by
  refine @keeps_run (new suite config) []
    (fun s _ ↦ ∃ task, Tended uri task s .parked ∧ Dated uri s)
    (fun task s point _ ↦ Tended uri task s point ∧ Dated uri s) acts ?_ ?_
    (fun h ↦ ⟨_, h⟩) ⟨0, tended_new suite config uri, ?_⟩
  · rintro s s' act task point - hact henters ⟨other, htended, hdated⟩
    exact ⟨henters.tended (fun heq ↦ hopen (heq ▸ hact)) htended, henters.dated hdated⟩
  · rintro task s s' point point' effects - hmove running ⟨htended, hdated⟩
    exact ⟨hmove.tended running htended, hmove.dated hdated⟩
  · rintro other stamp ⟨number, others, hstage⟩
    cases hstage

/-- A refresh first clears the cache. Every open document is then ahead of it, and the fetches under
way are from before. -/
theorem refreshes_cleared (htended : Tended uri task s .parked) (hdated : Dated uri s)
    (hopen : uri ∈ s.openUris) :
    Refreshes uri (s.cache.clearings + 1) s.stages.length s.stages.length
      { s with stages := s.stages ++ [Stage.done], cache := s.cache.clear } (.passes s.openUris)
      [] := by
  have henters : Enters s (.start .refresh) s.stages.length
      { s with stages := s.stages ++ [Stage.done] } (.perform .refresh) := .start .refresh
  have hmove : Move s.stages.length { s with stages := s.stages ++ [Stage.done] }
      (.perform .refresh) [.cleared s.stages.length]
      { s with stages := s.stages ++ [Stage.done], cache := s.cache.clear }
      (.passes s.openUris) := .refresh _
  have hnot : ∀ stamp, ¬Point.AnsweredUnder uri stamp (.passes s.openUris) := by
    rintro stamp ⟨_, _, _, hpoint⟩
    cases hpoint
  have hold : ∀ other stamp, Session.FetchesUnder
      { s with stages := s.stages ++ [Stage.done], cache := s.cache.clear } other uri stamp →
      stamp.clearings < s.cache.clearings + 1 := by
    intro other stamp hfetches
    exact Nat.lt_succ_of_le (hdated other stamp (henters.fetchesUnder hfetches))
  refine ⟨hmove.tended henters.stage_eq_done (henters.tended nofun htended), ?_, ?_, Or.inl ?_⟩
  · obtain ⟨document, hdocument⟩ := (Table.mem_names_iff _ uri).1 hopen
    exact Option.isSome_of_eq_some hdocument
  · refine ⟨Nat.le_refl _, nofun, fun other stamp hfetches hcount ↦ ?_,
      fun stamp hanswered ↦ absurd hanswered (hnot stamp)⟩
    exact absurd (hold other stamp hfetches) (Nat.not_lt.2 hcount)
  · refine ⟨Or.inr ⟨rfl, hopen⟩, ?_, fun stamp _ hanswered ↦ absurd hanswered (hnot stamp), nofun⟩
    rintro stamp ⟨number, others, hstage⟩
    exact nomatch Option.some.inj (henters.stage_eq_done.symm.trans hstage)

/-- What the refresh has come to when it waits for the first time. -/
theorem refreshes_step (htended : Tended uri task s .parked) (hdated : Dated uri s)
    (hopen : uri ∈ s.openUris) :
    ∃ first, s.effects (.start .refresh) = .cleared s.stages.length :: first ∧
      Refreshes uri (s.cache.clearings + 1) s.stages.length s.stages.length
        (s.step (.start .refresh)) .parked first := by
  have hdone : (s.stages ++ [Stage.done])[s.stages.length]? = some .done :=
    List.getElem?_concat_length
  have hrunning : ({ s with stages := s.stages ++ [Stage.done], cache := s.cache.clear } :
      Session).setStage s.stages.length .done =
      { s with stages := s.stages ++ [Stage.done], cache := s.cache.clear } :=
    setStage_done hdone
  have hmoves := moves_passes s.openUris _ hrunning
  exact ⟨_, rfl, hmoves.keeps (fun hmove running h ↦ hmove.refreshes running h) hdone
    (refreshes_cleared htended hdated hopen)⟩

theorem Refreshes.run {refresh : TaskId} {acts : List Act}
    (h : Refreshes uri count refresh task s .parked past) (hopen : .start (.close uri) ∉ acts) :
    ∃ task, Refreshes uri count refresh task (s.run acts) .parked (past ++ s.history acts) :=
  keeps_run (J := fun s past ↦ ∃ task, Refreshes uri count refresh task s .parked past)
    (I := fun task s point past ↦ Refreshes uri count refresh task s point past) acts
    (fun hact henters h ↦ henters.refreshes (fun heq ↦ hopen (heq ▸ hact)) h.choose_spec)
    (fun hmove running h ↦ hmove.refreshes running h) (fun h ↦ ⟨_, h⟩) ⟨task, h⟩

theorem Current.run (h : Current uri count place task s .parked past) (acts : List Act) :
    ∃ task, Current uri count place task (s.run acts) .parked (past ++ s.history acts) :=
  keeps_run (J := fun s past ↦ ∃ task, Current uri count place task s .parked past)
    (I := fun task s point past ↦ Current uri count place task s point past) acts
    (fun _ henters h ↦ henters.current h.choose_spec)
    (fun hmove running h ↦ hmove.current running h) (fun h ↦ ⟨_, h⟩) ⟨task, h⟩

/-- A refresh that is over has come to the document. -/
theorem Refreshes.current {refresh : TaskId}
    (h : Refreshes uri count refresh task s .parked past)
    (hdone : s.stages[refresh]? = some .done) :
    ∃ place, PublishedAt uri place past ∧ Current uri count place task s .parked past := by
  refine h.due_or_current.resolve_left fun hdue ↦ ?_
  rcases hdue.comes with hahead | ⟨-, hpoint⟩
  · rw [ahead_of_done hdone] at hahead
    cases hahead
  · cases hpoint

/-- The last publication of a document, which is not before any other. The induction takes effects
away from the end. -/
theorem PublishedAt.exists_last (h : PublishedAt uri place past) :
    ∃ earlier task document settings config later,
      past = earlier ++ .published task uri document settings config :: later ∧
      (∀ effect ∈ later, effect.publishes uri = false) ∧ place ≤ earlier.length := by
  induction past using List.reverseRecOn with
  | nil =>
    obtain ⟨effect, hplace, -⟩ := h
    cases hplace
  | append_singleton past last ih =>
    obtain ⟨effect, hplace, hpublishes⟩ := h
    cases hlast : last.publishes uri with
    | true =>
      have hlt := (List.getElem?_eq_some_iff.1 hplace).1
      obtain ⟨task, document, settings, config, rfl⟩ := Effect.exists_of_publishes hlast
      refine ⟨past, task, document, settings, config, [], rfl, by simp, ?_⟩
      rw [List.length_append, List.length_singleton] at hlt
      exact Nat.le_of_lt_succ hlt
    | false =>
      have hbefore : PublishedAt uri place past := by
        refine ⟨effect, ?_, hpublishes⟩
        rw [List.getElem?_append] at hplace
        split at hplace
        · exact hplace
        · -- the last effect is not the one
          obtain rfl : effect = last := by
            simpa using List.mem_of_getElem? hplace
          exact absurd hpublishes (ne_true_of_eq_false hlast)
      obtain ⟨earlier, task, document, settings, config, later, rfl, hlater, hle⟩ := ih hbefore
      refine ⟨earlier, task, document, settings, config, later ++ [last], by simp, ?_, hle⟩
      intro effect hmem
      rcases List.mem_append.1 hmem with hmem | hmem
      · exact hlater effect hmem
      · rw [List.mem_singleton.1 hmem]
        exact hlast

end Clearing

/-- The last publication in a history is the last one that others know of. -/
theorem getLast?_events (suite : Suite) {task : TaskId} {uri : String} {document : Document}
    {settings : Settings} {config : Config} {earlier later : List Effect}
    (hlater : ∀ effect ∈ later, effect.publishes uri = false) :
    (((earlier ++ .published task uri document settings config :: later).filterMap
      (Effect.event? suite)).filter (Event.publishes uri)).getLast? =
      some (.published uri document.version
        (RuleLint.lint suite document settings config).diagnostics) := by
  have hpublished : Effect.event? suite (.published task uri document settings config) =
      some (.published uri document.version
        (RuleLint.lint suite document settings config).diagnostics) := rfl
  have hself : Event.publishes uri (.published uri document.version
      (RuleLint.lint suite document settings config).diagnostics) = true := by
    simp [Event.publishes]
  rw [List.filterMap_append, List.filterMap_cons_some hpublished, List.filter_append,
    List.filter_cons_of_pos hself, filter_events_eq_nil suite hlater, List.getLast?_concat]

/-- **A refresh reaches every open document.** Let a refresh begin when a document is open, in a run
in which nobody closes the document. Once the refresh is over, the document has been published since
the clearing. Its last publication, which is what others then see, and every publication after that
are under settings that were fetched after the clearing. Whatever the run, the refresh itself
publishes documents in strictly ascending order. -/
theorem refresh_reaches_open_documents (suite : Suite) (config : Config)
    (before mid after : List Act) :
    (publishedBy ((new suite config).run before).stages.length
      ((new suite config).history (before ++ .start .refresh :: mid))).Pairwise (· < ·) ∧
    ∀ uri ∈ ((new suite config).run before).openUris,
      .start (.close uri) ∉ before ++ mid ++ after →
      ((new suite config).run (before ++ .start .refresh :: mid)).stages[
        ((new suite config).run before).stages.length]? = some .done →
      ∃ since,
        ((new suite config).run before).history (.start .refresh :: mid) =
          .cleared ((new suite config).run before).stages.length :: since ∧
        (∃ earlier task document settings config' later,
          since = earlier ++ .published task uri document settings config' :: later ∧
          (∀ effect ∈ later, effect.publishes uri = false) ∧
          Renewed task uri settings earlier ∧
          (((new suite config).run (before ++ .start .refresh :: mid)).events.filter
            (Event.publishes uri)).getLast? =
            some (.published uri document.version
              (RuleLint.lint suite document settings config').diagnostics)) ∧
        ∀ earlier task document settings config' later,
          ((new suite config).run (before ++ .start .refresh :: mid)).history after =
            earlier ++ .published task uri document settings config' :: later →
          Renewed task uri settings (since ++ earlier) := by
  refine ⟨ascending_run suite config _ _, fun uri hopen hclose hdone ↦ ?_⟩
  simp only [List.mem_append, not_or] at hclose
  obtain ⟨⟨hbefore, hmid⟩, -⟩ := hclose
  obtain ⟨_, htended, hdated⟩ := tended_and_dated_run suite config hbefore
  -- The refresh owes the document a pass from its first act on, and has made it when it is over.
  obtain ⟨first, hfirst, hrefreshes⟩ := refreshes_step htended hdated hopen
  obtain ⟨_, hrefreshes⟩ := hrefreshes.run hmid
  rw [run_append, run_cons] at hdone ⊢
  obtain ⟨place, hplace, hcurrent⟩ := hrefreshes.current hdone
  have hhistory : ((new suite config).run before).history (.start .refresh :: mid) =
      .cleared ((new suite config).run before).stages.length ::
        (first ++ (((new suite config).run before).step (.start .refresh)).history mid) := by
    rw [history_cons, hfirst, List.cons_append]
  refine ⟨_, hhistory, ?_, ?_⟩
  · obtain ⟨earlier, task, document, settings, config', later, hsince, hlater, hle⟩ :=
      hplace.exists_last
    refine ⟨earlier, task, document, settings, config', later, hsince, hlater,
      hcurrent.renewed _ _ _ _ _ _ hsince hle, ?_⟩
    have hevents := events_run ((new suite config).run before) (.start .refresh :: mid)
    have hsuite : ((new suite config).run before).suite = suite := suite_run _ before
    rw [hhistory, hsince, hsuite, run_cons, ← List.cons_append] at hevents
    rw [hevents, List.filter_append, List.getLast?_append, getLast?_events suite hlater,
      Option.some_or]
  · intro earlier task document settings config' later hhistory
    obtain ⟨_, hlast⟩ := hcurrent.run after
    refine hlast.renewed _ task document settings config' later ?_ ?_
    · rw [hhistory, List.append_assoc, List.append_assoc, List.append_assoc]
    -- The pass came before all of `after`, so that every publication in there is a later one.
    · obtain ⟨effect, hplace, -⟩ := hplace
      have hlt := (List.getElem?_eq_some_iff.1 hplace).1
      rw [List.length_append]
      omega

/-- The settings of the document are being fetched when the refresh begins, and that fetch gets the
answer from before. -/
theorem refresh_reaches_document_being_fetched :
    ∃ since earlier task document settings config' later,
      ((new .standard .empty).run [.start (.openDocument ⟨"a", "co", 1, ""⟩)]).history
        [.start .refresh, .answer 0 (.ok ⟨3⟩), .resume 1, .answer 1 (.ok ⟨5⟩)] =
        .cleared 1 :: since ∧
      since = earlier ++ .published task "a" document settings config' :: later ∧
      Renewed task "a" settings earlier := by
  obtain ⟨since, hhistory, ⟨earlier, task, document, settings, config', later, hsince, -, hrenewed,
    -⟩, -⟩ :=
    (refresh_reaches_open_documents .standard .empty [.start (.openDocument ⟨"a", "co", 1, ""⟩)]
      [.answer 0 (.ok ⟨3⟩), .resume 1, .answer 1 (.ok ⟨5⟩)] [.start (.change "a" 2 "x")]).2 "a"
      (by decide) (by simp) (by decide)
  exact ⟨since, earlier, task, document, settings, config', later, hhistory, hsince, hrenewed⟩

end Session

end RuleLint
