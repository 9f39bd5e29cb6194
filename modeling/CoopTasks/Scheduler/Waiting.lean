import CoopTasks.Scheduler.Lifecycle

/-!
Signals and joins.

Each attempt to wait either takes what it wants or tells the caller to switch
and try again.  A parked attempt has marked the caller asleep until a wake; a
busy one has not, because another task holds the place of the waiter.
-/

namespace CoopTasks.Scheduler

variable {H : Type}

def post [Hardware H] (s : Scheduler H) (w : Signal) :
    Except Fault (Scheduler H × Signal) := do
  let (w, waiter) := w.post
  return (← s.wakeWaiter waiter, w)

def attemptWait (s : Scheduler H) (w : Signal) :
    Except Fault (Scheduler H × Signal × WaitResult) := do
  let (w, taken) := w.tryTake
  if taken then
    return (s, w, .acquired)
  else
    let id ← demand s.current .waitOutsideTask
    match w.enlist id with
    | .ok w => return (← s.markAsleep Instant.never, w, .parked)
    | .error _ => return (s, w, .busy)

def requireStarted (s : Scheduler H) (target : TaskId) : Except Fault Unit :=
  require (target.isMainline = false ∧ (s.record target).state ≠ .vacant)
    (.joinNeverStarted target)

def attemptJoin (s : Scheduler H) (target : TaskId) :
    Except Fault (Scheduler H × WaitResult) := do
  require (s.current ≠ some target) (.joinSelf target)
  requireSlot target
  s.requireStarted target
  let (s, completion, result) ← s.attemptWait (s.record target).completion
  return (s.update target fun t => { t with completion }, result)

def tryJoin (s : Scheduler H) (target : TaskId) :
    Except Fault (Scheduler H × Option UInt32) := do
  requireSlot target
  s.requireStarted target
  let t := s.record target
  let (completion, finished) := t.completion.tryTake
  let s := s.update target fun t => { t with completion }
  return (s, if finished then some t.exitCode else none)

end CoopTasks.Scheduler
