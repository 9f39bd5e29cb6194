import CoopTasks.Scheduler.Basic

/-!
Waking sleepers, and keeping the alarm armed for the soonest deadline.

A wake moves a sleeping task from the timer queue to the end of the run queue.
A wake that comes before its task sleeps only lowers the sleep count, so that
the next sleep is cancelled.  None of these operations switches.
-/

namespace CoopTasks.Scheduler

variable {H : Type}

def countWake (s : Scheduler H) (id : TaskId) : Scheduler H :=
  (s.update id TaskRecord.countWake).note (.woken id ((s.record id).sleepCount - 1))

def leaveTimers (s : Scheduler H) (id : TaskId) : Scheduler H :=
  let (timers, cells, _) := s.timers.erase s.tasks.cells id
  { s with timers, tasks := { s.tasks with cells } }.update id fun t => { t with state := .ready }

/--
The wake proper, which leaves the alarm alone.  It tells whether the task was
the first of the timer queue.
-/
def wakeTask (s : Scheduler H) (id : TaskId) : Except Fault (Scheduler H × Bool) := do
  let t := s.record id
  require (id.generation = t.generation) (.staleWake id t.generation)
  require (id.isMainline = false ∧ t.isLive = true) (.wakeNotLive id)
  require (sleepCountMin < t.sleepCount) .wakeCountUnderflow
  match t.state with
  | .sleeping =>
      let s' ← ((s.countWake id).leaveTimers id).enqueue id
      return (s', decide (s.timers.head = some id))
  | .running | .ready => return (s.countWake id, false)
  | state => .error (.wakeInState id state)

def armedBy (s : Scheduler H) (deadline : Instant) : Bool :=
  s.armed.any fun armed => decide (armed ≤ deadline)

variable [Hardware H]

def rearmSteps : Nat → Scheduler H → Except Fault (Scheduler H)
  | 0, s => .ok s
  | steps + 1, s =>
      match s.timers.head with
      | none => .ok s
      | some head =>
          let deadline := (s.record head).wakeAt
          if deadline.isNever || s.armedBy deadline then
            .ok s
          else
            let (hardware, accepted) := Hardware.setAlarm s.hardware deadline
            if accepted then
              .ok ({ s with hardware, armed := some deadline }.note (.alarmArmed head deadline))
            else do
              let (s, _) ← { s with hardware, armed := none }.wakeTask head
              rearmSteps steps s

/--
Arms the alarm for the first deadline of the timer queue, unless it is armed
for that one or a sooner one.  A deadline that the alarm refuses has passed:
its task is woken at once.  A woken task has no deadline any more, so there are
no more passes than slots.
-/
def rearm (s : Scheduler H) : Except Fault (Scheduler H) :=
  rearmSteps (slotCount + 1) s

/-- Ends the sleep of a task, or cancels its next one. -/
def wake (s : Scheduler H) (id : TaskId) : Except Fault (Scheduler H) := do
  requireSlot id
  let deadline := (s.record id).wakeAt
  let (s, wasHead) ← s.wakeTask id
  if wasHead ∧ s.armed = some deadline then
    let s := { s with hardware := Hardware.clearAlarm s.hardware, armed := none }
    s.rearm
  else
    return s

def wakeWaiter (s : Scheduler H) : Option TaskId → Except Fault (Scheduler H)
  | some id => s.wake id
  | none => .ok s

def wakeExpired (now : Instant) : Nat → Scheduler H → Except Fault (Scheduler H)
  | 0, s => .ok s
  | steps + 1, s =>
      match s.timers.head with
      | none => .ok s
      | some head =>
          let deadline := (s.record head).wakeAt
          if deadline.isNever ∨ now < deadline then
            .ok s
          else do
            let (s, _) ← s.wakeTask head
            wakeExpired now steps s

/-- What to do when the alarm goes off; harmless when it has not. -/
def handleAlarm (s : Scheduler H) : Except Fault (Scheduler H) := do
  let s := { s with armed := none }
  let s ← wakeExpired s.now (slotCount + 1) s
  s.rearm

end CoopTasks.Scheduler
