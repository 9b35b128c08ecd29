/-!
# Fair locks

A lock is held by at most one task. Tasks that want it while it is held wait in a queue, and when
the holder releases it the first of them holds it at once, so nobody who comes later can get it
first.
-/

namespace RuleLint

/-- The number of a task. -/
abbrev TaskId := Nat

/-- A fair lock. -/
structure Lock where
  /-- The task that holds the lock. -/
  holder : Option TaskId
  /-- The tasks that wait for the lock, the first of them first. -/
  queue : List TaskId
deriving DecidableEq, Repr

namespace Lock

/-- The lock that nobody holds. -/
def free : Lock :=
  ⟨none, []⟩

/-- Whether nobody holds the lock. -/
def isFree (lock : Lock) : Bool :=
  lock.holder.isNone

/-- The lock when a task asks for it: held by the task if it was free, else with the task at the end
of the queue. -/
def request (lock : Lock) (task : TaskId) : Lock :=
  if lock.isFree then { lock with holder := some task }
  else { lock with queue := lock.queue ++ [task] }

/-- The lock after its holder releases it. -/
def release (lock : Lock) : Lock :=
  match lock.queue with
  | [] => free
  | next :: queue => ⟨some next, queue⟩

@[simp] theorem request_of_isFree {lock : Lock} (h : lock.isFree = true) (task : TaskId) :
    (lock.request task).holder = some task := by
  simp [request, h]

@[simp] theorem holder_request_of_held {lock : Lock} (h : lock.isFree = false) (task : TaskId) :
    (lock.request task).holder = lock.holder := by
  simp [request, h]

@[simp] theorem release_cons (holder : Option TaskId) (next : TaskId) (queue : List TaskId) :
    (Lock.mk holder (next :: queue)).release = ⟨some next, queue⟩ := rfl

end Lock

end RuleLint
