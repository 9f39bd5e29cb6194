import CoopTasks.Scheduler.Wake

/-!
The decision who executes next.

`reschedule` takes the executing task from the head of the run queue and saves
where it was suspended.  It then retires the task, puts it to sleep or queues
it again, sees to the alarm, and picks the new head.  With no task ready there
is nothing to do until an interrupt, unless no task sleeps either: then the
mainline goes on.
-/

namespace CoopTasks

inductive Decision where
  | resume (pointer : Address)
  /-- Nobody yet: tasks sleep and none is ready. -/
  | idle
  deriving DecidableEq, Repr

namespace Scheduler

variable {H : Type}

/-- The timer queue with a task in its place: by its deadline, or at the end if it has none. -/
def timersWith (s : Scheduler H) (id : TaskId) : Except Fault (TaskQueue × Cells slotCount) :=
  if (s.record id).wakeAt.isNever then
    s.timers.enqueue s.tasks.cells id
  else
    s.timers.insertByKey s.tasks.cells id fun other => (s.record other).wakeAt

def putToSleep (s : Scheduler H) (id : TaskId) : Except Fault (Scheduler H) := do
  let s := s.update id fun t => { t with state := .sleeping }
  let (timers, cells) ← s.timersWith id
  return { s with timers, tasks := { s.tasks with cells } }

def requeue (s : Scheduler H) (id : TaskId) : Except Fault (Scheduler H) :=
  (s.update id fun t => { t with state := .ready }).enqueue id

variable [Hardware H]

def account (s : Scheduler H) (id : TaskId) : Except Fault (Scheduler H) := do
  let now := s.now
  let spent := now.since s.resumedAt
  let total := (s.record id).busyTime
  require (total.toNat + spent.toNat < UInt64.size) (.overflow .add)
  return { s.update id fun t => { t with busyTime := total + spent } with resumedAt := now }

def unguard (s : Scheduler H) : Option UInt8 → Except Fault (Scheduler H)
  | some region => do
      let hardware ← Hardware.unguardStack s.hardware region
      return { s with hardware }
  | none => .ok s

def finish (s : Scheduler H) (id : TaskId) : Except Fault (Scheduler H) := do
  let t := s.record id
  require (t.isSleeping = false) (.exitWhileAsleep id)
  let s ← (s.update id TaskRecord.finished).unguard t.guardRegion
  (s.note (.exited id t.exitCode)).wakeWaiter t.completion.latch.2

/--
Gives the processor to the head of the run queue, if there is one.  While
nobody executes, this is repeated after every interrupt.
-/
def dispatch (s : Scheduler H) : Except Fault (Scheduler H × Decision) := do
  match s.ready.head with
  | some next =>
      let t := s.record next
      require (next.isMainline = true ∨ t.isLive = true)
        (.resumedOutside next t.pointer t.stack)
      let s := s.update next fun t => { t with state := .running }
      return ({ s with resumedAt := s.now }, .resume t.pointer)
  | none =>
      if ← s.timers.isEmpty then
        let pointer := (s.record .mainline).pointer
        require (pointer ≠ 0) .noMainline
        let s := s.update .mainline fun t => { t with state := .running }
        return (s.note .drained, .resume pointer)
      else
        return (s, .idle)

def settle (s : Scheduler H) (id : TaskId) : Except Fault (Scheduler H) := do
  if id.isMainline then
    return s.update id fun t => { t with state := .parked }
  else
    let t := s.record id
    require (t.isLive = true) (.suspendedOutside id t.pointer t.stack)
    if t.exiting then
      s.finish id
    else if t.isSleeping then
      s.putToSleep id
    else
      s.requeue id

def suspend (s : Scheduler H) (pointer : Address) : Except Fault (Scheduler H × TaskId) := do
  let (ready, cells, previous) := s.ready.dequeue s.tasks.cells
  let id ← demand previous .emptyRunQueue
  let s ← { s with ready, tasks := { s.tasks with cells } }.account id
  return (s.update id fun t => { t with pointer }, id)

def reschedule (s : Scheduler H) (pointer : Address) :
    Except Fault (Scheduler H × Decision) := do
  let (s, id) ← s.suspend pointer
  let s ← s.settle id
  let s ← s.rearm
  s.dispatch

end Scheduler

end CoopTasks
