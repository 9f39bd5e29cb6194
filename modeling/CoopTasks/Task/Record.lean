import CoopTasks.Fault
import CoopTasks.Signal

/-!
What the scheduler keeps about a task, and the report that others get of it.
-/

namespace CoopTasks

structure TaskRecord where
  /-- Where the context was saved; of no meaning while the task runs. -/
  pointer : Address
  stack : StackRange
  state : TaskState
  /-- Whether the next switch retires the task. -/
  exiting : Bool
  /--
  Sleeps less wakes.  It is positive while the task sleeps; early wakes drive
  it below zero and cancel the sleeps to come.
  -/
  sleepCount : Int
  wakeAt : Instant
  exitCode : UInt32
  completion : Signal
  guardRegion : Option UInt8
  /-- Number of the start that the slot was last used for. -/
  generation : UInt32
  busyTime : UInt64
  deriving DecidableEq, Repr

structure TaskReport where
  id : TaskId
  state : TaskState
  exitCode : Option UInt32
  wakeAt : Option Instant
  busyTime : UInt64
  deriving DecidableEq, Repr

namespace TaskRecord

def vacant : TaskRecord where
  pointer := 0
  stack := StackRange.empty
  state := .vacant
  exiting := false
  sleepCount := 0
  wakeAt := Instant.never
  exitCode := 0
  completion := Signal.idle
  guardRegion := none
  generation := 0
  busyTime := 0

def started (stack : StackRange) (pointer : Address) (generation : UInt32) : TaskRecord :=
  { vacant with pointer, stack, generation, state := .ready }

/-- Whether the task was started and has not exited, judged by its saved pointer. -/
def isLive (t : TaskRecord) : Bool :=
  t.stack.holds t.pointer

def isSleeping (t : TaskRecord) : Bool :=
  decide (0 < t.sleepCount)

def countSleep (t : TaskRecord) (deadline : Instant) : TaskRecord :=
  { t with sleepCount := t.sleepCount + 1, wakeAt := deadline }

def countWake (t : TaskRecord) : TaskRecord :=
  { t with sleepCount := t.sleepCount - 1, wakeAt := Instant.never }

def finished (t : TaskRecord) : TaskRecord :=
  { t with
    pointer := exitedPointer
    state := .exited
    completion := t.completion.latch.1
    guardRegion := none }

def report (t : TaskRecord) (id : TaskId) : TaskReport where
  id := id
  state := t.state
  exitCode := if t.state = .exited then some t.exitCode else none
  wakeAt := if t.state = .sleeping then some t.wakeAt else none
  busyTime := t.busyTime

end TaskRecord

namespace TaskReport

def isLive (r : TaskReport) : Bool :=
  decide (r.state ≠ .vacant ∧ r.state ≠ .exited)

def text (r : TaskReport) : String :=
  let exitCode := optionText (fun c : UInt32 => s!"{c}") r.exitCode
  let wakeAt := optionText Instant.fullText r.wakeAt
  s!"TaskHandle \x7b id: {r.id.fullText}, state: {r.state.text}, exit_code: {exitCode}, " ++
    s!"wake_at: {wakeAt}, time_executing: {r.busyTime} \x7d"

end TaskReport

end CoopTasks
