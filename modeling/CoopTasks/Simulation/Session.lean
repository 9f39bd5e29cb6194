import CoopTasks.Scheduler.Audit
import CoopTasks.Scheduler.Switch
import CoopTasks.Scheduler.Waiting
import CoopTasks.Simulation.Board

/-!
Driving a scheduler by hand.

A session is a scheduler on a simulated board, with signals and numbered
stacks.  Each command makes one call, in any order that the one who drives
likes: the rules of the kernel need not be kept.
-/

namespace CoopTasks

structure Session where
  scheduler : Scheduler Board
  signals : List Signal
  /-- Stacks other than the usual ones, by number. -/
  ranges : List StackRange

namespace Session

inductive Target where
  | id (id : TaskId)
  | stack (number : Nat)
  deriving DecidableEq, Repr

inductive Bedtime where
  | forMicros (micros : UInt64)
  | until (deadline : Instant)
  | unlimited
  deriving DecidableEq, Repr

inductive Command where
  | spawn (stack : Nat) (pointer : Option Address)
  | reschedule (pointer : Option Address)
  | dispatch
  | exit (code : UInt32)
  | sleep (bedtime : Bedtime)
  | wake (target : Target)
  | join (target : Target)
  | tryJoin (target : Target)
  | handleAlarm
  | fire
  | advance (micros : UInt64)
  | setNow (time : Instant)
  | signal (number : Nat)
  | wait (number : Nat)
  | tryTake (number : Nat)
  | latch (number : Nat)
  | find (stack : Nat)
  | report (stack : Nat)
  | audit
  deriving DecidableEq, Repr

inductive Reply where
  | nothing
  | started (id : TaskId)
  | refused (reason : StartError)
  | decision (decision : Decision)
  | waited (result : WaitResult)
  | code (code : Option UInt32)
  | flag (value : Bool)
  | member (id : Option TaskId)
  | found (id : Option TaskId) (live : Bool)
  | report (report : Option TaskReport)
  | consistent
  | noTask
  | noAlarm
  deriving DecidableEq, Repr

def start (board : Board) (signals : Nat) (ranges : List StackRange) : Session :=
  ⟨Scheduler.new board, List.replicate signals Signal.idle, ranges⟩

def stack (s : Session) (number : Nat) : StackRange :=
  let bottom := Board.pageBottom number
  s.ranges[number]?.getD ⟨bottom, bottom + 1024⟩

def usualPointer (s : Session) : Address :=
  match s.scheduler.current with
  | some id => (s.scheduler.record id).stack.framePointer
  | none => Board.mainlinePointer

def resolve (s : Session) : Target → Option TaskId
  | .id id => some id
  | .stack number => s.scheduler.taskOn (s.stack number)

def deadline (s : Session) : Bedtime → Instant
  | .forMicros micros => s.scheduler.now.after micros
  | .until deadline => deadline
  | .unlimited => Instant.never

def requireSignal (s : Session) (number : Nat) : Except Fault Signal :=
  demand s.signals[number]? (.outOfBounds s.signals.length number)

def withScheduler (s : Session) (scheduler : Scheduler Board) : Session :=
  { s with scheduler }

def withBoard (s : Session) (change : Board → Board) : Session :=
  s.withScheduler { s.scheduler with hardware := change s.scheduler.hardware }

def withSignal (s : Session) (number : Nat) (signal : Signal) : Session :=
  { s with signals := s.signals.set number signal }

def perform (s : Session) : Command → Except Fault (Session × Reply)
  | .spawn number pointer => do
      let stack := s.stack number
      let (scheduler, outcome) ← s.scheduler.spawn stack (pointer.getD stack.framePointer)
      match outcome with
      | .ok id => return (s.withScheduler scheduler, .started id)
      | .error reason => return (s.withScheduler scheduler, .refused reason)
  | .reschedule pointer => do
      let (scheduler, decision) ← s.scheduler.reschedule (pointer.getD s.usualPointer)
      return (s.withScheduler scheduler, .decision decision)
  | .dispatch => do
      let (scheduler, decision) ← s.scheduler.dispatch
      return (s.withScheduler scheduler, .decision decision)
  | .exit code => return (s.withScheduler (← s.scheduler.markExiting code), .nothing)
  | .sleep bedtime =>
      return (s.withScheduler (← s.scheduler.markAsleep (s.deadline bedtime)), .nothing)
  | .wake target =>
      match s.resolve target with
      | none => return (s, .noTask)
      | some id => return (s.withScheduler (← s.scheduler.wake id), .nothing)
  | .join target =>
      match s.resolve target with
      | none => return (s, .noTask)
      | some id => do
          let (scheduler, result) ← s.scheduler.attemptJoin id
          return (s.withScheduler scheduler, .waited result)
  | .tryJoin target =>
      match s.resolve target with
      | none => return (s, .noTask)
      | some id => do
          let (scheduler, code) ← s.scheduler.tryJoin id
          return (s.withScheduler scheduler, .code code)
  | .handleAlarm => return (s.withScheduler (← s.scheduler.handleAlarm), .nothing)
  | .fire =>
      match s.scheduler.hardware.alarm with
      | none => return (s, .noAlarm)
      | some time => do
          let s := s.withBoard fun b => { b with alarm := none }.advanceTo time
          return (s.withScheduler (← s.scheduler.handleAlarm), .nothing)
  | .advance micros =>
      return (s.withBoard fun b => { b with clock := b.clock.after micros }, .nothing)
  | .setNow time => return (s.withBoard fun b => { b with clock := time }, .nothing)
  | .signal number => do
      let (scheduler, signal) ← s.scheduler.post (← s.requireSignal number)
      return ((s.withScheduler scheduler).withSignal number signal, .nothing)
  | .wait number => do
      let (scheduler, signal, result) ← s.scheduler.attemptWait (← s.requireSignal number)
      return ((s.withScheduler scheduler).withSignal number signal, .waited result)
  | .tryTake number => do
      let (signal, taken) := (← s.requireSignal number).tryTake
      return (s.withSignal number signal, .flag taken)
  | .latch number => do
      let (signal, waiter) := (← s.requireSignal number).latch
      return (s.withSignal number signal, .member waiter)
  | .find number =>
      let stack := s.stack number
      return (s, .found (s.scheduler.taskOn stack) (s.scheduler.stackInUse stack))
  | .report number => return (s, .report (s.scheduler.reportOn (s.stack number)))
  | .audit => do
      s.scheduler.audit
      return (s, .consistent)

def performTimes (command : Command) : Nat → Session → Reply → Except Fault (Session × Reply)
  | 0, s, last => .ok (s, last)
  | times + 1, s, _ => do
      let (s, reply) ← s.perform command
      performTimes command times s reply

def clearRecords (s : Session) : Session :=
  s.withScheduler {
    s.scheduler with
    journal := []
    hardware := { s.scheduler.hardware with events := [] } }

def step (s : Session) (command : Command) (times : Nat) : Except Fault (Session × Reply) :=
  performTimes command times s.clearRecords .nothing

end Session

end CoopTasks
