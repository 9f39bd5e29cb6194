import CoopTasks.Program.Flow
import CoopTasks.Scheduler.Audit
import CoopTasks.Simulation.Board

/-!
A machine that programs run on: the kernel on a simulated board, interrupts to
come, the suspended flows of control, and the remarks made so far.

Time passes only where a program works, where a switch costs, and while nobody
executes.  Interrupts and the alarm are delivered on the way, each at its time
or as soon after it as the clock allows.  The alarm is dealt with on the spot;
an interrupt is handed to the flow that it comes upon.
-/

namespace CoopTasks

structure Event (μ : Type) where
  time : Instant
  actor : Actor
  name : String
  remark : Remark μ

inductive Stop where
  | fault (fault : Fault)
  | deadlock
  | switchLimit
  /-- A decision to resume at a pointer where nobody was suspended. -/
  | lostContext (pointer : Address)
  deriving DecidableEq, Repr

structure Machine (μ : Type) where
  kernel : Kernel Board
  interrupts : List (Instant × Program μ Unit)
  kept : List (Option TaskId)
  switchCost : UInt64
  switches : Nat
  /-- At most one flow for each context. -/
  suspended : List (Flow μ)
  events : List (Event μ)

/-- Steps of a machine, which may stop it; what happened before stays on record. -/
abbrev MachineM (μ : Type) := EStateM Stop (Machine μ)

namespace Machine

variable {μ α : Type}

def places : Nat := 8

def blankStacks (lengths : List Nat) : List Stack :=
  lengths.mapIdx fun number length => Stack.blank (Board.pageBottom number) length

def start (now : Instant) (lengths : List Nat) (signals : Nat) (trampoline : UInt32)
    (switchCost : UInt64) (interrupts : List (Instant × Program μ Unit)) : Machine μ where
  kernel := {
    scheduler := Scheduler.new (Board.start now)
    signals := List.replicate signals Signal.idle
    memory := blankStacks lengths
    trampoline := trampoline }
  interrupts := interrupts
  kept := List.replicate places none
  switchCost := switchCost
  switches := 0
  suspended := []
  events := []

def board (m : Machine μ) : Board :=
  m.kernel.scheduler.hardware

def withScheduler (m : Machine μ) (scheduler : Scheduler Board) : Machine μ :=
  { m with kernel := { m.kernel with scheduler } }

def withBoard (m : Machine μ) (change : Board → Board) : Machine μ :=
  m.withScheduler { m.kernel.scheduler with hardware := change m.board }

def pointerOf (m : Machine μ) : Context → Address
  | .mainline => Board.mainlinePointer
  | .task stack => (m.kernel.rangeAt stack).framePointer

def ownerOf (m : Machine μ) (pointer : Address) : Option Context :=
  if pointer = Board.mainlinePointer then
    some .mainline
  else
    (m.kernel.memory.findIdx? fun stack => stack.range.framePointer = pointer).map .task

def runOf (m : Machine μ) : Context → Option TaskId
  | .mainline => none
  | .task stack => m.kernel.taskOn stack

def superseded (m : Machine μ) (f : Flow μ) : Bool :=
  (m.runOf f.context).any fun run => f.run ≠ some run

/-- The flow to go on with when a context is resumed, none if it is to begin. -/
def flowOf (m : Machine μ) (context : Context) : Option (Flow μ) :=
  (m.suspended.find? fun f => f.context = context).filter fun f => !m.superseded f

/-! ## What is delivered next -/

inductive Delivery (μ : Type) where
  | alarm
  | interrupt (handler : Program μ Unit)

/-- The next delivery and its time; an interrupt comes before an alarm of the same time. -/
def nextDelivery (m : Machine μ) : Option (Instant × Delivery μ) :=
  match m.interrupts, m.board.alarm with
  | [], none => none
  | [], some time => some (time, .alarm)
  | (time, handler) :: _, none => some (time, .interrupt handler)
  | (time, handler) :: _, some alarm =>
      if time ≤ alarm then some (time, .interrupt handler) else some (alarm, .alarm)

end Machine

namespace MachineM

variable {μ α : Type}

def onScheduler (operation : Scheduler Board → Except Fault (Scheduler Board × α)) :
    MachineM μ α := fun m =>
  match operation m.kernel.scheduler with
  | .ok (scheduler, a) => .ok a (m.withScheduler scheduler)
  | .error f => .error (.fault f) m

def attempt (call : Call) : MachineM μ (Progress call.Answer) := fun m =>
  match m.kernel.attempt call with
  | .ok (kernel, progress) => .ok progress { m with kernel }
  | .error f => .error (.fault f) m

def putOnRecord (actor : Actor) (name : String) (remark : Remark μ) : MachineM μ Unit :=
  modify fun m => { m with events := ⟨m.board.clock, actor, name, remark⟩ :: m.events }

def requirePlace (place : Nat) : MachineM μ Unit :=
  unless place < Machine.places do
    throw (.fault (.outOfBounds Machine.places place))

def moveClock (time : Instant) : MachineM μ Unit :=
  modify fun m => m.withBoard fun b => b.advanceTo time

def ringAlarm (time : Instant) : MachineM μ Unit := do
  moveClock time
  modify fun m => m.withBoard fun b => { b with alarm := none }
  onScheduler fun s => return (← s.handleAlarm, ())

def takeInterrupt (time : Instant) : MachineM μ Unit := do
  moveClock time
  modify fun m => { m with interrupts := m.interrupts.tail }

/-! ## Passing of time -/

def passSteps (limit : Instant) : Nat → MachineM μ (Option (Program μ Unit))
  | 0 => do
      moveClock limit
      return none
  | steps + 1 => do
      match (← get).nextDelivery.filter fun next => next.1 ≤ limit with
      | none =>
          moveClock limit
          return none
      | some (time, .alarm) =>
          ringAlarm time
          passSteps limit steps
      | some (time, .interrupt handler) =>
          takeInterrupt time
          return some handler

/--
Lets time pass until a limit or an interrupt, whose program is the result.
Without a switch nobody falls asleep and every alarm wakes a task, so there are
no more alarms than slots.
-/
def passUntil (limit : Instant) : MachineM μ (Option (Program μ Unit)) :=
  passSteps limit (slotCount + 1)

def instantAfter (micros : UInt64) : MachineM μ Instant := do
  return (← get).board.clock.after micros

/-! ## Waiting while nobody executes -/

inductive Awakening (μ : Type) where
  | resume (pointer : Address)
  | interrupt (handler : Program μ Unit)

def awaitSteps : Nat → MachineM μ (Awakening μ)
  | 0 => throw .deadlock
  | steps + 1 => do
      match (← get).nextDelivery with
      | none => throw .deadlock
      | some (time, .interrupt handler) =>
          takeInterrupt time
          return .interrupt handler
      | some (time, .alarm) =>
          ringAlarm time
          match ← onScheduler Scheduler.dispatch with
          | .resume pointer => return .resume pointer
          | .idle => awaitSteps steps

def await : Decision → MachineM μ (Awakening μ)
  | .resume pointer => return .resume pointer
  | .idle => awaitSteps (slotCount + 1)

end MachineM

end CoopTasks
