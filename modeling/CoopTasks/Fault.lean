import CoopTasks.Instant
import CoopTasks.Stack.Range
import CoopTasks.Task.State
import CoopTasks.TaskId

/-!
Why the kernel gives up.

A fault ends a run: a caller broke the contract of an operation, or a counter
reached its limit.  Operations return `Except Fault`, and `Fault.message` is
the one place that words them.
-/

namespace CoopTasks

inductive Arithmetic where
  | add
  | subtract
  | shiftLeft
  deriving DecidableEq, Repr

inductive StartError where
  | allSlotsLive
  deriving DecidableEq, Repr

def StartError.message : StartError → String
  | .allSlotsLive => s!"all {slotCount - 1} task slots are live"

inductive Fault where
  /-- The result of an operation on fixed-width integers does not fit. -/
  | overflow (operation : Arithmetic)
  /-- A position outside an arena of `size` places. -/
  | outOfBounds (size index : Nat)
  | slotTooLarge
  | tailWithoutHead
  | headWithoutTail
  /-- A task added behind the end of a queue that begins but does not end. -/
  | appendWithoutTail
  /-- A queue whose last member by its links is not the one that it names. -/
  | tailElsewhere (named last : Option TaskId)
  | alreadyQueued (id : TaskId)
  | slotStillQueued
  | stackTooSmall
  /-- A stack whose bottom lies `excess` bytes above a guard boundary. -/
  | guardMisaligned (excess : Nat)
  | regionNotClaimed (region : UInt8)
  | stackInUse
  | exitOutsideTask
  | sleepOutsideTask
  | waitOutsideTask
  | sleepCountOverflow
  | wakeCountUnderflow
  /-- A wake of a run that the slot's current run, of another start, has followed. -/
  | staleWake (id : TaskId) (current : UInt32)
  | wakeNotLive (id : TaskId)
  /-- A wake of a task that is neither asleep nor in the run queue. -/
  | wakeInState (id : TaskId) (state : TaskState)
  | joinSelf (id : TaskId)
  | joinNeverStarted (id : TaskId)
  | joinUnusedStack
  | emptyRunQueue
  | suspendedOutside (id : TaskId) (pointer : Address) (stack : StackRange)
  | resumedOutside (id : TaskId) (pointer : Address) (stack : StackRange)
  | noMainline
  | exitWhileAsleep (id : TaskId)
  | misplaced (id : TaskId) (state : TaskState) (inReady inTimers isHead : Bool)
  | timersOutOfOrder (id : TaskId)
  /-- The alarm is armed for another instant than the soonest deadline, or not at all. -/
  | alarmElsewhere (armed : Option Instant) (deadline : Instant)
  | cannotStart (reason : StartError)
  /-- The context of a task is resumed after its exit. -/
  | exitedResumed
  deriving DecidableEq, Repr

def optionText (text : α → String) : Option α → String
  | none => "None"
  | some a => s!"Some({text a})"

def Instant.fullText (t : Instant) : String :=
  s!"Instant({t.micros})"

namespace Fault

def differText (reason left right : String) : String :=
  s!"assertion `left == right` failed{reason}\n  left: {left}\n right: {right}"

def message : Fault → String
  | .overflow .add => "attempt to add with overflow"
  | .overflow .subtract => "attempt to subtract with overflow"
  | .overflow .shiftLeft => "attempt to shift left with overflow"
  | .outOfBounds size index =>
      s!"index out of bounds: the len is {size} but the index is {index}"
  | .slotTooLarge => "assertion failed: index <= u8::MAX as usize"
  | .tailWithoutHead => "list has a tail but no head"
  | .headWithoutTail => "list has a head but no tail"
  | .appendWithoutTail => "assertion failed: self.head.is_none()"
  | .tailElsewhere named last =>
      differText "" (optionText TaskId.fullText named) (optionText TaskId.fullText last)
  | .alreadyQueued id => s!"task {id.text} is already in a list"
  | .slotStillQueued => "assertion failed: !self.link.is_linked()"
  | .stackTooSmall => "stack too small for a frame"
  | .guardMisaligned excess => differText ": stack bottom not guard-aligned" s!"{excess}" "0"
  | .regionNotClaimed region => s!"guard region {region} not claimed"
  | .stackInUse => "stack already holds a live task"
  | .exitOutsideTask => "exit() outside a task"
  | .sleepOutsideTask => "wait_until() outside a task"
  | .waitOutsideTask => "wait() outside a task"
  | .sleepCountOverflow => "sleep counter overflow"
  | .wakeCountUnderflow => "wake counter underflow"
  | .staleWake id current =>
      differText s!": wake of task {id.text} from an earlier run of its slot"
        s!"{id.generation}" s!"{current}"
  | .wakeNotLive id => s!"wake of task {id.text} which is not live"
  | .wakeInState id state => s!"wake of task {id.text} in state {state.text}"
  | .joinSelf id => s!"task {id.text} cannot join itself"
  | .joinNeverStarted id => s!"join of task {id.text} which was never started"
  | .joinUnusedStack => "join of a stack that never ran a task"
  | .emptyRunQueue => "switch with an empty run queue"
  | .suspendedOutside id pointer stack =>
      s!"task {id.text} suspended with sp {pointer.text} outside its stack {stack.text}"
  | .resumedOutside id pointer stack =>
      s!"task {id.text} resumed with sp {pointer.text} outside its stack {stack.text}"
  | .noMainline => "nothing to run and no mainline to return to"
  | .exitWhileAsleep id => s!"task {id.text} exits while asleep"
  | .misplaced id state inReady inTimers isHead =>
      s!"task {id.text} is {state.text} but in_ready={inReady} in_timers={inTimers} head={isHead}"
  | .timersOutOfOrder id => s!"timer queue out of order at {id.text}"
  | .alarmElsewhere armed deadline =>
      differText ": alarm not armed for the soonest deadline"
        (optionText Instant.fullText armed) s!"Some({deadline.fullText})"
  | .cannotStart reason => s!"cannot start task: {reason.message}"
  | .exitedResumed => "internal error: entered unreachable code: exited task was resumed"

end Fault

def require (condition : Prop) [Decidable condition] (fault : Fault) : Except Fault Unit :=
  if condition then .ok () else .error fault

@[simp] theorem require_eq_ok {condition : Prop} [Decidable condition] {fault : Fault} {u : Unit} :
    require condition fault = .ok u ↔ condition := by
  unfold require
  split <;> simp_all

@[simp] theorem require_eq_error {condition : Prop} [Decidable condition] {fault f : Fault} :
    require condition fault = .error f ↔ ¬condition ∧ f = fault := by
  unfold require
  split <;> simp_all [eq_comm]

def demand (value : Option α) (fault : Fault) : Except Fault α :=
  match value with
  | some a => .ok a
  | none => .error fault

@[simp] theorem demand_eq_ok {value : Option α} {fault : Fault} {a : α} :
    demand value fault = .ok a ↔ value = some a := by
  cases value <;> simp [demand]

@[simp] theorem demand_eq_error {value : Option α} {fault f : Fault} :
    demand value fault = .error f ↔ value = none ∧ f = fault := by
  cases value <;> simp [demand, eq_comm]

theorem bind_eq_ok {α β : Type} {x : Except Fault α} {f : α → Except Fault β} {b : β} :
    (x >>= f) = .ok b ↔ ∃ a, x = .ok a ∧ f a = .ok b := by
  cases x <;> simp [bind, Except.bind]

theorem pure_eq_ok {α : Type} {a b : α} : (pure a : Except Fault α) = .ok b ↔ a = b := by
  simp [pure, Except.pure]

theorem toOption_eq_some {ε α : Type} {x : Except ε α} {a : α} :
    x.toOption = some a ↔ x = .ok a := by
  cases x <;> simp [Except.toOption]

def StackRange.length (b : StackRange) : Except Fault UInt64 :=
  demand b.length? (.overflow .subtract)

def TaskId.ofSlot (slot : Nat) (generation : UInt32) : Except Fault TaskId :=
  demand (TaskId.ofSlot? slot generation) .slotTooLarge

end CoopTasks
