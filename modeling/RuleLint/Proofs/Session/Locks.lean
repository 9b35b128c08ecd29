import RuleLint.Proofs.Session.Moves

/-!
# Who holds a lock

A lock and the tasks agree on who holds the lock and who awaits it (`Orderly`), and each lock
belongs to one document for good (`Owned`). Both hold of every session that can be reached, also
when documents are closed while tasks are at their locks: closing a document takes its lock out of
the table but leaves the lock and its queue as they are.

Between two moves of a running task the stage of that task tells nothing, so both invariants take
its point into account: what it is on (`Point.target?`), it holds.
-/

namespace RuleLint

namespace Lock

variable {lock : Lock}

/-- The tasks that hold or await a lock, the holder first. -/
def tasks (lock : Lock) : List TaskId :=
  lock.holder.toList ++ lock.queue

/-- Nobody awaits a lock that nobody holds. -/
def Tidy (lock : Lock) : Prop :=
  lock.holder = none → lock.queue = []

@[simp] theorem isFree_eq_true_iff : lock.isFree = true ↔ lock.holder = none :=
  Option.isNone_iff_eq_none

theorem tidy_free : free.Tidy :=
  fun _ ↦ rfl

theorem tidy_request (lock : Lock) (task : TaskId) : (lock.request task).Tidy := by
  by_cases hfree : lock.isFree = true
  · simp [Tidy, hfree]
  · intro hnone
    rw [holder_request_of_held (eq_false_of_ne_true hfree)] at hnone
    exact absurd (isFree_eq_true_iff.2 hnone) hfree

theorem tidy_release (lock : Lock) : lock.release.Tidy := by
  rcases lock with ⟨holder, - | ⟨next, queue⟩⟩
  · exact tidy_free
  · exact nofun

theorem Tidy.tasks_request (h : lock.Tidy) (task : TaskId) :
    (lock.request task).tasks = lock.tasks ++ [task] := by
  by_cases hfree : lock.isFree = true
  · have hnone := isFree_eq_true_iff.1 hfree
    simp [tasks, Lock.request, hfree, hnone, h hnone]
  · simp [tasks, Lock.request, hfree]

theorem tasks_release {task : TaskId} (held : lock.holder = some task) :
    lock.tasks = task :: lock.release.tasks := by
  rcases lock with ⟨holder, - | ⟨next, queue⟩⟩
  · simp_all [tasks, release, free]
  · simp_all [tasks]

/-- The first of the tasks at a lock holds it, and the others are left when it is released. -/
theorem Tidy.holder_of_tasks {task : TaskId} {others : List TaskId} (h : lock.Tidy)
    (htasks : lock.tasks = task :: others) :
    lock.holder = some task ∧ lock.release.tasks = others := by
  cases hholder : lock.holder with
  | none => simp [tasks, hholder, h hholder] at htasks
  | some other =>
    rw [tasks_release hholder] at htasks
    obtain ⟨rfl, hothers⟩ := List.cons.inj htasks
    exact ⟨rfl, hothers⟩

end Lock

/-- The lock that a waiting task is at, and the document that it is there for. -/
def Stage.target? : Stage → Option (Nat × String)
  | .locked number job => some (number, job.uri)
  | .fetching uri number _ _ => some (number, uri)
  | .done => none

namespace Session

/-- The lock that a running task holds, and the document that it holds it for. -/
def Point.target? : Point → Option (Nat × String)
  | .hold number job => some (number, job.uri)
  | .answered uri number _ _ _ | .settled uri number _ _ => some (number, uri)
  | _ => none

/-- A waiting task is at the lock with a number, for a document. -/
def At (session : Session) (task : TaskId) (number : Nat) (uri : String) : Prop :=
  ∃ stage, session.stages[task]? = some stage ∧ stage.target? = some (number, uri)

/-! ### Locks by number -/

section Numbers

variable (s : Session) (task : TaskId) (uri : String) (number : Nat)

@[simp] theorem lock_lockFor : (s.lockFor uri).2.lock number = s.lock number := by
  simp only [lockFor]
  split
  · rfl
  · simp only [lock, List.getElem?_append]
    split
    · rfl
    · rename_i hge
      rw [List.getElem?_eq_none (Nat.le_of_not_lt hge)]
      rcases number - s.locks.length with - | n <;> rfl

theorem lock_setLock {other : Nat} {lock : Lock} (hlt : number < s.locks.length) :
    (s.setLock number lock).lock other = if other = number then lock else s.lock other := by
  simp only [Session.lock, setLock, List.getElem?_set]
  by_cases h : number = other
  · subst h
    simp [hlt]
  · simp [h, Ne.symm h]

theorem lock_release (other : Nat) :
    (s.release number).lock other =
      if other = number then (s.lock number).release else s.lock other := by
  by_cases hlt : number < s.locks.length
  · exact s.lock_setLock number hlt
  · have hset : (s.release number).locks = s.locks :=
      List.set_eq_of_length_le (Nat.le_of_not_lt hlt)
    have hlock : (s.release number).lock other = s.lock other := by rw [lock, hset, lock]
    rw [hlock]
    split
    · rename_i h
      have hfree : s.lock number = .free := by
        rw [lock, List.getElem?_eq_none (Nat.le_of_not_lt hlt)]
        rfl
      rw [h, hfree]
      rfl
    · rfl

theorem isFreeFor_eq : s.isFreeFor uri = (s.lock (s.lockFor uri).1).isFree := by
  rw [isFreeFor]
  exact congrArg Lock.isFree (s.lock_lockFor uri _)

theorem get?_lockOf_ask (other : String) :
    (s.ask task uri).lockOf.get? other =
      if uri = other then some (s.lockFor uri).1 else s.lockOf.get? other := by
  simp only [ask, setLock, lockFor]
  split
  · rename_i found hfound
    split
    · rename_i h
      rw [← h, hfound]
    · rfl
  · simp [Table.get?_insert]

end Numbers

/-! ### Locks and tasks agree -/

/-- Locks and waiting tasks agree on who is at which lock. A running task may be at one too. -/
structure Orderly (session : Session) (running : Option (TaskId × Nat)) : Prop where
  tidy : ∀ number, (session.lock number).Tidy
  nodup : ∀ number, (session.lock number).tasks.Nodup
  mem_tasks : ∀ number task, task ∈ (session.lock number).tasks ↔
    running = some (task, number) ∨ ∃ uri, session.At task number uri
  holder_of_fetching : ∀ {task uri number stamp others},
    session.stages[task]? = some (.fetching uri number stamp others) →
      (session.lock number).holder = some task
  lockOf_lt : ∀ {uri number}, session.lockOf.get? uri = some number →
    number < session.locks.length

section Agreement

variable {s s' : Session} {task other : TaskId} {uri : String} {number : Nat} {stage old : Stage}

theorem not_at_of_done (running : s.stages[task]? = some .done) : ¬s.At task number uri := by
  rintro ⟨found, hfound, htarget⟩
  obtain rfl := Option.some.inj (running.symm.trans hfound)
  cases htarget

theorem at_setStage_of_ne (hne : other ≠ task) :
    (s.setStage task stage).At other number uri ↔ s.At other number uri := by
  simp only [At, setStage, List.getElem?_set_ne hne.symm]

theorem at_setStage_self (hold : s.stages[task]? = some old) :
    (s.setStage task stage).At task number uri ↔ stage.target? = some (number, uri) := by
  simp [At, setStage, List.getElem?_set_self (List.getElem?_eq_some_iff.1 hold).1]

theorem lt_of_mem_tasks (h : task ∈ (s.lock number).tasks) : number < s.locks.length := by
  refine Nat.lt_of_not_le fun hge ↦ ?_
  rw [lock, List.getElem?_eq_none hge] at h
  cases h

/-- What speaks of locks and stages only is kept as long as these are, and the table of locks gains
nothing. -/
theorem Orderly.frame {running : Option (TaskId × Nat)} (h : s.Orderly running)
    (hlocks : s'.locks = s.locks) (hstages : s'.stages = s.stages)
    (hlockOf : ∀ uri number, s'.lockOf.get? uri = some number →
      s.lockOf.get? uri = some number) : s'.Orderly running := by
  have hlock : ∀ number, s'.lock number = s.lock number := fun number ↦ by
    rw [lock, hlocks, lock]
  refine ⟨fun number ↦ ?_, fun number ↦ ?_, ?_, ?_, fun hentry ↦ ?_⟩
  · rw [hlock]
    exact h.tidy number
  · rw [hlock]
    exact h.nodup number
  · intro number task
    simp only [hlock, h.mem_tasks, At, hstages]
  · intro task uri number stamp others hfetching
    rw [hlock]
    exact h.holder_of_fetching (hstages ▸ hfetching)
  · rw [hlocks]
    exact h.lockOf_lt (hlockOf _ _ hentry)

theorem lockFor_lt (h : ∀ {uri number}, s.lockOf.get? uri = some number →
    number < s.locks.length) (uri : String) :
    (s.lockFor uri).1 < (s.lockFor uri).2.locks.length := by
  simp only [lockFor]
  split
  · rename_i hentry
    exact h hentry
  · simp

theorem lock_ask (h : ∀ {uri number}, s.lockOf.get? uri = some number →
    number < s.locks.length) (task : TaskId) (uri : String) (number : Nat) :
    (s.ask task uri).lock number =
      if number = (s.lockFor uri).1 then (s.lock number).request task else s.lock number := by
  have hask : s.ask task uri = (s.lockFor uri).2.setLock (s.lockFor uri).1
      (((s.lockFor uri).2.lock (s.lockFor uri).1).request task) := rfl
  rw [hask, lock_setLock _ _ (lockFor_lt h uri), lock_lockFor, lock_lockFor]
  split
  · rename_i heq
    rw [heq]
  · rfl

theorem Orderly.not_mem_tasks (h : s.Orderly none) (running : s.stages[task]? = some .done) :
    task ∉ (s.lock number).tasks := by
  intro hmem
  rcases (h.mem_tasks number task).1 hmem with hnone | ⟨uri, hat⟩
  · cases hnone
  · exact not_at_of_done running hat

/-- A running task comes to a lock by asking for it. -/
theorem Orderly.ask (h : s.Orderly none) (running : s.stages[task]? = some .done) (uri : String) :
    (s.ask task uri).Orderly (some (task, (s.lockFor uri).1)) := by
  have hlock := lock_ask h.lockOf_lt task uri
  refine ⟨fun number ↦ ?_, fun number ↦ ?_, ?_, ?_, ?_⟩
  · rw [hlock]
    split
    · exact Lock.tidy_request _ task
    · exact h.tidy number
  · rw [hlock]
    split
    · -- a running task is at no lock, so it does not ask a second time
      rw [(h.tidy number).tasks_request, List.nodup_append]
      refine ⟨h.nodup number, by simp, ?_⟩
      rintro other hother _ hself rfl
      rw [List.mem_singleton.1 hself] at hother
      exact h.not_mem_tasks running hother
    · exact h.nodup number
  · intro number other
    have hat : ∀ uri', (s.ask task uri).At other number uri' ↔ s.At other number uri' := by
      simp [At]
    simp only [hat, hlock]
    split
    · rename_i heq
      rw [(h.tidy number).tasks_request, List.mem_append, List.mem_singleton, h.mem_tasks, heq]
      simp [or_comm, eq_comm]
    · rename_i hne
      rw [h.mem_tasks]
      simp [Ne.symm hne]
  · intro other uri' number stamp others hfetching
    rw [ask_stages] at hfetching
    have hholder := h.holder_of_fetching hfetching
    rw [hlock]
    split
    · -- the lock is held by a task that fetches, so asking for it only makes the queue longer
      have hheld : (s.lock number).isFree = false := by simp [Lock.isFree, hholder]
      rw [Lock.holder_request_of_held hheld, hholder]
    · exact hholder
  · intro other number hentry
    rw [get?_lockOf_ask] at hentry
    have hlength : s.locks.length ≤ (s.ask task uri).locks.length := by
      simp only [Session.ask, setLock, lockFor]
      split <;> simp
    split at hentry
    · obtain rfl := Option.some.inj hentry
      have hlt := lockFor_lt h.lockOf_lt uri
      simpa [Session.ask, setLock] using hlt
    · exact Nat.lt_of_lt_of_le (h.lockOf_lt hentry) hlength

/-- A task may change its stage as long as it stays at the lock that it is at. -/
theorem Orderly.setStage {running running' : Option (TaskId × Nat)} (h : s.Orderly running)
    (hstage : s.stages[task]? = some old)
    (hself : ∀ number, (running = some (task, number) ∨ ∃ uri, old.target? = some (number, uri)) ↔
      running' = some (task, number) ∨ ∃ uri, stage.target? = some (number, uri))
    (hothers : ∀ other number, other ≠ task →
      (running = some (other, number) ↔ running' = some (other, number)))
    (hholder : ∀ uri number stamp others, stage = .fetching uri number stamp others →
      (s.lock number).holder = some task) : (s.setStage task stage).Orderly running' := by
  refine ⟨h.tidy, h.nodup, ?_, ?_, h.lockOf_lt⟩
  · intro number other
    refine (h.mem_tasks number other).trans ?_
    by_cases hother : other = task
    · subst hother
      have hat : ∀ uri, s.At other number uri ↔ old.target? = some (number, uri) := fun uri ↦ by
        simp [At, hstage]
      simpa only [hat, at_setStage_self hstage] using hself number
    · simp only [at_setStage_of_ne hother, hothers other number hother]
  · intro other uri number stamp others hfetching
    by_cases hother : other = task
    · subst hother
      rw [Session.setStage, List.getElem?_set_self (List.getElem?_eq_some_iff.1 hstage).1]
        at hfetching
      exact hholder uri number stamp others (Option.some.inj hfetching)
    · rw [Session.setStage, List.getElem?_set_ne (Ne.symm hother)] at hfetching
      exact h.holder_of_fetching hfetching

/-- A task that parks is still at the lock that it was at as a running task. -/
theorem Orderly.park (h : s.Orderly (some (task, number)))
    (running : s.stages[task]? = some .done) (htarget : stage.target? = some (number, uri))
    (hholder : ∀ uri stamp others, stage = .fetching uri number stamp others →
      (s.lock number).holder = some task) : (s.setStage task stage).Orderly none := by
  have hdone : Stage.done.target? = none := rfl
  refine h.setStage running (fun number' ↦ by simp [htarget, hdone])
    (fun other number' hother ↦ by simp [Ne.symm hother]) fun uri' number' stamp others heq ↦ ?_
  obtain ⟨rfl, -⟩ := Prod.mk.inj (Option.some.inj (htarget.symm.trans (congrArg _ heq)))
  exact hholder uri' stamp others heq

/-- A task that is set going is still at the lock that it was at as a waiting task. -/
theorem Orderly.unpark (h : s.Orderly none) (hstage : s.stages[task]? = some old)
    (htarget : old.target? = some (number, uri)) :
    (s.setStage task .done).Orderly (some (task, number)) := by
  have hdone : Stage.done.target? = none := rfl
  exact h.setStage hstage (fun number' ↦ by simp [htarget, hdone])
    (fun other number' hother ↦ by simp [Ne.symm hother]) nofun

/-- A running task leaves its lock by releasing it. -/
theorem Orderly.release (h : s.Orderly (some (task, number)))
    (running : s.stages[task]? = some .done) (hholder : (s.lock number).holder = some task) :
    (s.release number).Orderly none := by
  have hlock := s.lock_release number
  have htasks := Lock.tasks_release hholder
  have hnodup := h.nodup number
  rw [htasks, List.nodup_cons] at hnodup
  refine ⟨fun number' ↦ ?_, fun number' ↦ ?_, ?_, ?_, ?_⟩
  · rw [hlock]
    split
    · exact Lock.tidy_release _
    · exact h.tidy number'
  · rw [hlock]
    split
    · exact hnodup.2
    · exact h.nodup number'
  · intro number' other
    have hmem : other ∈ (s.lock number').tasks ↔ some (task, number) = some (other, number') ∨
        ∃ uri, (s.release number).At other number' uri := h.mem_tasks number' other
    rw [hlock]
    split
    · rename_i heq
      subst heq
      rw [htasks, List.mem_cons] at hmem
      by_cases hother : other = task
      · have hat : ∀ uri, ¬(s.release number').At task number' uri :=
          fun uri ↦ not_at_of_done running
        simp [hother, hnodup.1, hat]
      · simpa [hother, Ne.symm hother] using hmem
    · rename_i hne
      simpa [Ne.symm hne] using hmem
  · intro other uri' number' stamp others hfetching
    have hother := h.holder_of_fetching hfetching
    rw [hlock]
    split
    · -- the holder is the running task, which fetches nothing
      rename_i heq
      rw [heq, hholder] at hother
      obtain rfl := Option.some.inj hother
      exact nomatch Option.some.inj (running.symm.trans hfetching)
    · exact hother
  · intro uri' number' hentry
    have hlength : (s.release number).locks.length = s.locks.length := by
      simp [Session.release, setLock]
    rw [hlength]
    exact h.lockOf_lt hentry

/-- A task that has just started waits for nothing. -/
theorem getElem?_start (hstage : stage ≠ .done) :
    (s.stages ++ [Stage.done])[task]? = some stage ↔ s.stages[task]? = some stage := by
  rcases Nat.lt_trichotomy task s.stages.length with hlt | rfl | hgt
  · rw [List.getElem?_append_left hlt]
  · simp [Ne.symm hstage]
  · rw [List.getElem?_eq_none (by simp; omega), List.getElem?_eq_none (by omega)]

theorem at_start : ({ s with stages := s.stages ++ [Stage.done] } : Session).At task number uri ↔
    s.At task number uri := by
  constructor
  · rintro ⟨stage, hstage, htarget⟩
    exact ⟨stage, (getElem?_start (by rintro rfl; cases htarget)).1 hstage, htarget⟩
  · rintro ⟨stage, hstage, htarget⟩
    exact ⟨stage, (getElem?_start (by rintro rfl; cases htarget)).2 hstage, htarget⟩

theorem Orderly.start (h : s.Orderly none) :
    ({ s with stages := s.stages ++ [Stage.done] } : Session).Orderly none := by
  refine ⟨h.tidy, h.nodup, ?_, ?_, h.lockOf_lt⟩
  · intro number task
    simp only [at_start]
    exact h.mem_tasks number task
  · intro task uri number stamp others hfetching
    exact h.holder_of_fetching ((getElem?_start (by simp)).1 hfetching)

end Agreement

/-- Locks and tasks agree while a task is running, and that task holds the lock that it is at. -/
structure InOrder (task : TaskId) (session : Session) (point : Point) : Prop where
  orderly : session.Orderly (point.target?.map fun target ↦ (task, target.1))
  holds : ∀ {number uri}, point.target? = some (number, uri) →
    (session.lock number).holder = some task

section Keeping

variable {s s' : Session} {task : TaskId} {point point' : Point} {act : Act}
variable {effects : List Effect}

theorem Orderly.inOrder (h : s.Orderly none) (hpoint : point.target? = none) :
    InOrder task s point :=
  ⟨by rw [hpoint]; exact h, by simp [hpoint]⟩

/-- **Each move leaves the locks in order.** -/
theorem Move.inOrder (h : Move task s point effects s' point')
    (running : s.stages[task]? = some .done) (horder : InOrder task s point) :
    InOrder task s' point' := by
  obtain ⟨horderly, hholds⟩ := horder
  cases h with
  | @wait job held =>
    have hasked := horderly.ask running job.uri
    -- A task that waits for a lock fetches nothing, so it need not hold one.
    refine (hasked.park (by simpa using running) rfl ?_).inOrder rfl
    exact fun _ _ _ hfetching ↦ nomatch hfetching
  | @take job free =>
    refine ⟨horderly.ask running job.uri, fun hpoint ↦ ?_⟩
    obtain ⟨rfl, -⟩ := Prod.mk.inj (Option.some.inj hpoint)
    rw [lock_ask horderly.lockOf_lt, if_pos rfl]
    exact Lock.request_of_isFree (s.isFreeFor_eq job.uri ▸ free) task
  | @fetch uri document number others opened missing =>
    have hframe : ({ s with events := s.events ++ [Event.fetched uri] } : Session).Orderly _ :=
      horderly.frame rfl rfl fun _ _ h ↦ h
    exact Orderly.inOrder (Orderly.park hframe running rfl fun _ _ _ _ ↦ hholds rfl) rfl
  | skip number others closed => exact (horderly.release running (hholds rfl)).inOrder rfl
  | drop number settings others closed =>
    exact (horderly.release running (hholds rfl)).inOrder rfl
  | @publish uri document number settings others opened =>
    have hframe : (s.publish uri settings).Orderly _ :=
      horderly.frame (by simp) (by simp) (by simp)
    refine (hframe.release (by simpa using running) ?_).inOrder rfl
    rw [lock, publish_locks]
    exact hholds rfl
  | forget number uri =>
    have hframe : ({ s with
        documents := s.documents.erase uri
        cache := s.cache.evict uri
        lockOf := s.lockOf.erase uri } : Session).Orderly _ :=
      horderly.frame rfl rfl fun other number hentry ↦ by
        -- What the table still has it had before.
        rw [Table.get?_erase] at hentry
        split at hentry
        · cases hentry
        · exact hentry
    exact (hframe.release running (hholds rfl)).inOrder rfl
  | hit number others opened entry => exact ⟨horderly, hholds⟩
  | answer uri number stamp others answer =>
    exact ⟨horderly.frame rfl rfl fun _ _ h ↦ h, hholds⟩
  | _ => exact Orderly.inOrder (horderly.frame rfl rfl fun _ _ h ↦ h) rfl

theorem Enters.inOrder (h : Enters s act task s' point) (horderly : s.Orderly none) :
    InOrder task s' point := by
  cases h with
  | start request => exact horderly.start.inOrder rfl
  | @answer task uri number stamp others answer hstage =>
    refine ⟨horderly.unpark hstage rfl, fun hpoint ↦ ?_⟩
    obtain ⟨rfl, rfl⟩ := Prod.mk.inj (Option.some.inj hpoint)
    exact horderly.holder_of_fetching hstage
  | resume hstage holds =>
    refine ⟨horderly.unpark hstage rfl, fun hpoint ↦ ?_⟩
    obtain ⟨rfl, rfl⟩ := Prod.mk.inj (Option.some.inj hpoint)
    exact holds

theorem orderly_new (suite : Suite) (config : Config) : (new suite config).Orderly none where
  tidy _ := Lock.tidy_free
  nodup _ := List.nodup_nil
  mem_tasks number task := by simp [lock, new, Lock.tasks, Lock.free, At]
  holder_of_fetching h := nomatch h
  lockOf_lt h := nomatch h

/-- Locks and tasks agree after any run. -/
theorem Orderly.run (h : s.Orderly none) (acts : List Act) : (s.run acts).Orderly none :=
  @keeps_run s [] (fun s _ ↦ s.Orderly none) (fun task s point _ ↦ InOrder task s point) acts
    (fun _ henters h ↦ henters.inOrder h) (fun hmove running h ↦ hmove.inOrder running h)
    (fun h ↦ h.orderly) h

end Keeping

/-! ### Each lock belongs to one document -/

/-- Whoever is at a lock is there for the document that owns it, and so is its entry in the table.
One task is running, at the given point. -/
structure Owned (owner : Nat → String) (session : Session) (point : Point) : Prop where
  table : ∀ uri number, session.lockOf.get? uri = some number → owner number = uri
  waiting : ∀ task number uri, session.At task number uri → owner number = uri
  running : ∀ number uri, point.target? = some (number, uri) → owner number = uri

section Owners

variable {s s' : Session} {task : TaskId} {point point' : Point} {act : Act}
variable {effects : List Effect} {owner : Nat → String}

theorem At.of_setStage {other : TaskId} {number : Nat} {uri : String} {stage : Stage}
    (h : (s.setStage task stage).At other number uri) :
    s.At other number uri ∨ stage.target? = some (number, uri) := by
  by_cases hother : other = task
  · subst hother
    obtain ⟨found, hfound, htarget⟩ := h
    rw [setStage, List.getElem?_set] at hfound
    simp only [if_true] at hfound
    split at hfound
    · obtain rfl := Option.some.inj hfound
      exact Or.inr htarget
    · cases hfound
  · exact Or.inl ((at_setStage_of_ne hother).1 h)

theorem Owned.frame (h : Owned owner s point)
    (hlockOf : ∀ uri number, s'.lockOf.get? uri = some number →
      s.lockOf.get? uri = some number)
    (hat : ∀ task number uri, s'.At task number uri →
      s.At task number uri ∨ point.target? = some (number, uri))
    (hpoint : ∀ number uri, point'.target? = some (number, uri) →
      point.target? = some (number, uri)) : Owned owner s' point' where
  table uri number hentry := h.table uri number (hlockOf uri number hentry)
  waiting task number uri hwaiting :=
    (hat task number uri hwaiting).elim (h.waiting task number uri) (h.running number uri)
  running number uri htarget := h.running number uri (hpoint number uri htarget)

/-- A lock that is new belongs to the document that it was made for. -/
theorem Owned.ask {job : Job} (h : Owned owner s (.ask job)) (horderly : s.Orderly none)
    (task : TaskId) :
    Owned (fun number ↦ if number = (s.lockFor job.uri).1 then job.uri else owner number)
      (s.ask task job.uri) (.hold (s.lockFor job.uri).1 job) := by
  have hsame : ∀ number uri, owner number = uri → number < s.locks.length →
      (if number = (s.lockFor job.uri).1 then job.uri else owner number) = uri := by
    intro number uri howner hlt
    split
    · -- the number is that of an entry of the table, or it is new and nobody can be there
      rename_i heq
      simp only [lockFor] at heq
      split at heq
      · rename_i found hfound
        rw [← howner, heq, h.table job.uri found hfound]
      · exact absurd hlt (by omega)
    · exact howner
  refine ⟨fun uri number hentry ↦ ?_, fun other number uri hat ↦ ?_, fun number uri htarget ↦ ?_⟩
  · rw [get?_lockOf_ask] at hentry
    split at hentry
    · rename_i huri
      obtain rfl := Option.some.inj hentry
      rw [if_pos rfl, huri]
    · exact hsame number uri (h.table uri number hentry) (horderly.lockOf_lt hentry)
  · have hwaiting : s.At other number uri := by simpa [At] using hat
    have hmem := (horderly.mem_tasks number other).2 (Or.inr ⟨uri, hwaiting⟩)
    exact hsame number uri (h.waiting other number uri hwaiting) (lt_of_mem_tasks hmem)
  · obtain ⟨rfl, rfl⟩ := Prod.mk.inj (Option.some.inj htarget)
    exact if_pos rfl

/-- **Each move leaves the owners of locks as they are.** -/
theorem Move.owned (h : Move task s point effects s' point') (horder : InOrder task s point)
    (howned : Owned owner s point) : ∃ owner, Owned owner s' point' := by
  cases h with
  | @wait job held =>
    refine ⟨_, (howned.ask horder.orderly task).frame (fun _ _ h ↦ h) ?_ nofun⟩
    exact fun _ _ _ hat ↦ hat.of_setStage
  | take free => exact ⟨_, howned.ask horder.orderly task⟩
  | fetch number others opened missing =>
    exact ⟨owner, howned.frame (fun _ _ h ↦ h) (fun _ _ _ hat ↦ hat.of_setStage) nofun⟩
  | publish number settings others opened =>
    exact ⟨owner, howned.frame (by simp) (fun _ _ _ hat ↦ Or.inl (by simpa [At] using hat)) nofun⟩
  | forget number uri =>
    refine ⟨owner, howned.frame (fun other number hentry ↦ ?_) (fun _ _ _ hat ↦ Or.inl hat) nofun⟩
    rw [forget_lockOf, Table.get?_erase] at hentry
    split at hentry
    · cases hentry
    · exact hentry
  | hit number others opened entry =>
    exact ⟨owner, howned.frame (fun _ _ h ↦ h) (fun _ _ _ hat ↦ Or.inl hat) fun _ _ h ↦ h⟩
  | answer uri number stamp others answer =>
    exact ⟨owner, howned.frame (fun _ _ h ↦ h) (fun _ _ _ hat ↦ Or.inl hat) fun _ _ h ↦ h⟩
  | _ => exact ⟨owner, howned.frame (fun _ _ h ↦ h) (fun _ _ _ hat ↦ Or.inl hat) nofun⟩

theorem Enters.owned (h : Enters s act task s' point) (howned : Owned owner s .parked) :
    Owned owner s' point := by
  cases h with
  | start request =>
    exact howned.frame (fun _ _ h ↦ h) (fun _ _ _ hat ↦ Or.inl (at_start.1 hat)) nofun
  | answer answer hstage =>
    refine ⟨howned.table, fun other number uri hat ↦ ?_, fun number uri htarget ↦ ?_⟩
    · exact howned.waiting other number uri (hat.of_setStage.resolve_right nofun)
    · exact howned.waiting task number uri ⟨_, hstage, htarget⟩
  | resume hstage holds =>
    refine ⟨howned.table, fun other number uri hat ↦ ?_, fun number uri htarget ↦ ?_⟩
    · exact howned.waiting other number uri (hat.of_setStage.resolve_right nofun)
    · exact howned.waiting task number uri ⟨_, hstage, htarget⟩

theorem owned_new (suite : Suite) (config : Config) :
    Owned (fun _ ↦ "") (new suite config) .parked where
  table _ _ h := nomatch h
  waiting _ _ _ h := by simp [At, new] at h
  running _ _ h := nomatch h

/-- Each lock belongs to one document, throughout every run. -/
theorem exists_owned_run (horderly : s.Orderly none) (howned : ∃ owner, Owned owner s .parked)
    (acts : List Act) : ∃ owner, Owned owner (s.run acts) .parked :=
  (@keeps_run s [] (fun s _ ↦ s.Orderly none ∧ ∃ owner, Owned owner s .parked)
    (fun task s point _ ↦ InOrder task s point ∧ ∃ owner, Owned owner s point) acts
    (fun _ henters h ↦ ⟨henters.inOrder h.1, h.2.imp fun _ h ↦ henters.owned h⟩)
    (fun hmove running h ↦
      ⟨hmove.inOrder running h.1, h.2.elim fun _ howned ↦ hmove.owned h.1 howned⟩)
    (fun h ↦ ⟨h.1.orderly, h.2⟩) ⟨horderly, howned⟩).2

end Owners

end Session

end RuleLint
