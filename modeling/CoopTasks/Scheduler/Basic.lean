import CoopTasks.Hardware
import CoopTasks.Scheduler.Notice
import CoopTasks.Task.Table

/-!
The state of the scheduler.

The run queue is served in the order of arrival, and its head is the task that
executes.  The timer queue holds the sleeping tasks, soonest deadline first and
those without one at the end.  Every live task is in one of the two.  The
mainline stands at the head of the run queue only while it starts the first
task; afterwards it is in no queue until all tasks have exited.
-/

namespace CoopTasks

structure Scheduler (H : Type) where
  tasks : TaskTable slotCount
  ready : TaskQueue
  timers : TaskQueue
  hardware : H
  armed : Option Instant
  /-- Number of starts so far, which orders the slots by age. -/
  generation : UInt32
  resumedAt : Instant
  journal : List Notice

namespace Scheduler

variable {H : Type}

def new (hardware : H) : Scheduler H where
  tasks := TaskTable.vacant slotCount
  ready := TaskQueue.empty
  timers := TaskQueue.empty
  hardware := hardware
  armed := none
  generation := 0
  resumedAt := Instant.zero
  journal := []

def now [Hardware H] (s : Scheduler H) : Instant :=
  Hardware.now s.hardware

def runQueue (s : Scheduler H) : List TaskId :=
  s.ready.members s.tasks.cells

def sleepers (s : Scheduler H) : List TaskId :=
  s.timers.members s.tasks.cells

/-- The task that executes, none while the mainline does. -/
def current (s : Scheduler H) : Option TaskId :=
  s.ready.head.filter fun id => !id.isMainline

def record (s : Scheduler H) (id : TaskId) : TaskRecord :=
  s.tasks.record id.index

def update (s : Scheduler H) (id : TaskId) (change : TaskRecord → TaskRecord) : Scheduler H :=
  { s with tasks := s.tasks.update id.index change }

def note (s : Scheduler H) (notice : Notice) : Scheduler H :=
  { s with journal := notice :: s.journal }

def enqueue (s : Scheduler H) (id : TaskId) : Except Fault (Scheduler H) := do
  let (ready, cells) ← s.ready.enqueue s.tasks.cells id
  return { s with ready, tasks := { s.tasks with cells } }

def requireSlot (id : TaskId) : Except Fault Unit :=
  TaskTable.requireSlot slotCount id.index

/-! ## Stacks -/

def slots : List Nat :=
  (List.range slotCount).tail

def idOf (s : Scheduler H) (slot : Nat) : TaskId :=
  ⟨UInt8.ofNat slot, (s.tasks.record slot).generation⟩

def boundTo (s : Scheduler H) (stack : StackRange) (slot : Nat) : Bool :=
  let t := s.tasks.record slot
  decide (t.state ≠ .vacant ∧ t.stack = stack)

def taskOn (s : Scheduler H) (stack : StackRange) : Option TaskId :=
  (slots.find? (s.boundTo stack)).map s.idOf

def stackInUse (s : Scheduler H) (stack : StackRange) : Bool :=
  (s.taskOn stack).any fun id => (s.record id).isLive

def reportOn (s : Scheduler H) (stack : StackRange) : Option TaskReport :=
  (s.taskOn stack).map s.tasks.report

end Scheduler

end CoopTasks
