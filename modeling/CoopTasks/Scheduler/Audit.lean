import CoopTasks.Scheduler.Basic

/-!
A check that the queues agree with the states of the tasks and the alarm with
the timer queue.
-/

namespace CoopTasks.Scheduler

variable {H : Type}

def placementAllowed (state : TaskState) (inReady inTimers isHead : Bool) : Bool :=
  match state with
  | .running => isHead && !inTimers
  | .ready => inReady && !isHead && !inTimers
  | .sleeping => inTimers && !inReady
  | .vacant | .exited | .parked => !inReady && !inTimers

def auditSlot (s : Scheduler H) (slot : Nat) : Except Fault Unit :=
  let id := s.idOf slot
  let state := (s.tasks.record slot).state
  let inReady := s.ready.contains s.tasks.cells id
  let inTimers := s.timers.contains s.tasks.cells id
  let isHead := decide (s.ready.head = some id)
  require (placementAllowed state inReady inTimers isHead = true)
    (.misplaced id state inReady inTimers isHead)

def auditOrder (s : Scheduler H) (last : Instant) : List TaskId → Except Fault Unit
  | [] => .ok ()
  | id :: rest => do
      let deadline := (s.record id).wakeAt
      require (last ≤ deadline) (.timersOutOfOrder id)
      s.auditOrder deadline rest

def auditAlarm (s : Scheduler H) : Except Fault Unit :=
  match s.timers.head with
  | none => .ok ()
  | some head =>
      let deadline := (s.record head).wakeAt
      require (deadline.isNever = true ∨ s.armed = some deadline)
        (.alarmElsewhere s.armed deadline)

def audit (s : Scheduler H) : Except Fault Unit := do
  slots.forM s.auditSlot
  s.auditOrder Instant.zero s.sleepers
  s.auditAlarm

end CoopTasks.Scheduler
