import CoopTasks.Kernel.Basic

/-!
The calls that tasks and interrupts make.

A call is made in attempts.  Each attempt looks at the shared state and changes
it in one go, and then either the call is over or the caller gives up the
processor: to get an answer afterwards, to make the attempt again, or for good.
`Kernel.attempt` is one attempt, and `Progress` is how far the call got.
-/

namespace CoopTasks

inductive Call where
  /-- Starts a task on a stack, and gives way to those that are ready. -/
  | start (entry param : UInt32) (stack : Nat)
  | giveWay
  | exit (code : UInt32)
  | sleepUntil (deadline : Instant)
  | wait (signal : Nat)
  | join (stack : Nat)
  | wake (id : TaskId)
  | post (signal : Nat)
  | tryTake (signal : Nat)
  /-- The exit code of the task last started on a stack, if it has finished. -/
  | tryJoin (stack : Nat)
  | taskOn (stack : Nat)
  | current
  | now
  | signalState (signal : Nat)
  | headroom (stack : Nat)
  | overwrite (stack index : Nat) (word : UInt32)
  deriving DecidableEq, Repr

abbrev Call.Answer : Call → Type
  | .start .. | .giveWay | .sleepUntil _ | .wait _ | .wake _ | .post _ | .overwrite .. => Unit
  | .exit _ => Empty
  | .join _ => UInt32
  | .tryTake _ => Bool
  | .tryJoin _ => Option UInt32
  | .taskOn _ => Option TaskReport
  | .current => Option TaskId
  | .now => Instant
  | .signalState _ => Signal
  | .headroom _ => Nat

inductive Progress (α : Type) where
  | done (answer : α)
  /-- The caller gives up the processor, and the call is over when it gets it back. -/
  | switchThen (answer : α)
  /-- The caller gives up the processor and makes the attempt again afterwards. -/
  | switchRetry
  /-- The caller gives up the processor for good. -/
  | leave
  deriving DecidableEq, Repr

def WaitResult.progress (result : WaitResult) (answer : α) : Progress α :=
  match result with
  | .acquired => .done answer
  | .parked | .busy => .switchRetry

namespace Kernel

variable {H : Type} [Hardware H]

/-- Uses a stack that holds no live task for a new one; a live one is left alone. -/
def start (k : Kernel H) (entry param : UInt32) (number : Nat) :
    Except Fault (Kernel H × Progress Unit) := do
  let stack := k.stackAt number
  if k.scheduler.stackInUse stack.range then
    return (k, .switchThen ())
  else
    let scheduler := k.scheduler
    let hardware :=
      if scheduler.current.isNone then Hardware.readyDecisionStack scheduler.hardware
      else scheduler.hardware
    let (stack, pointer) ← stack.setUp ⟨entry, param, k.trampoline⟩
    let (scheduler, outcome) ← { scheduler with hardware }.spawn stack.range pointer
    match outcome with
    | .ok _ => return ({ k with scheduler }.setStack number stack, .switchThen ())
    | .error reason => .error (.cannotStart reason)

def giveWay (k : Kernel H) : Progress Unit :=
  if k.scheduler.current.isNone then .done () else .switchThen ()

def exit (k : Kernel H) (code : UInt32) : Except Fault (Kernel H × Progress Empty) := do
  return ({ k with scheduler := ← k.scheduler.markExiting code }, .leave)

def sleepUntil (k : Kernel H) (deadline : Instant) :
    Except Fault (Kernel H × Progress Unit) := do
  return ({ k with scheduler := ← k.scheduler.markAsleep deadline }, .switchThen ())

def wait (k : Kernel H) (number : Nat) : Except Fault (Kernel H × Progress Unit) := do
  let (scheduler, signal, result) ← k.scheduler.attemptWait (← k.requireSignal number)
  return ({ k with scheduler }.setSignal number signal, result.progress ())

def join (k : Kernel H) (number : Nat) : Except Fault (Kernel H × Progress UInt32) := do
  let target ← demand (k.taskOn number) .joinUnusedStack
  let (scheduler, result) ← k.scheduler.attemptJoin target
  return ({ k with scheduler }, result.progress (scheduler.record target).exitCode)

def wake (k : Kernel H) (id : TaskId) : Except Fault (Kernel H) := do
  return { k with scheduler := ← k.scheduler.wake id }

def post (k : Kernel H) (number : Nat) : Except Fault (Kernel H) := do
  let (scheduler, signal) ← k.scheduler.post (← k.requireSignal number)
  return { k with scheduler }.setSignal number signal

def tryTake (k : Kernel H) (number : Nat) : Except Fault (Kernel H × Bool) := do
  let (signal, taken) := (← k.requireSignal number).tryTake
  return (k.setSignal number signal, taken)

def tryJoin (k : Kernel H) (number : Nat) : Except Fault (Kernel H × Option UInt32) := do
  let target ← demand (k.taskOn number) .joinUnusedStack
  let (scheduler, code) ← k.scheduler.tryJoin target
  return ({ k with scheduler }, code)

def attempt (k : Kernel H) : (call : Call) → Except Fault (Kernel H × Progress call.Answer)
  | .start entry param stack => k.start entry param stack
  | .giveWay => return (k, k.giveWay)
  | .exit code => k.exit code
  | .sleepUntil deadline => k.sleepUntil deadline
  | .wait signal => k.wait signal
  | .join stack => k.join stack
  | .wake id => return (← k.wake id, .done ())
  | .post signal => return (← k.post signal, .done ())
  | .tryTake signal => do
      let (k, taken) ← k.tryTake signal
      return (k, .done taken)
  | .tryJoin stack => do
      let (k, code) ← k.tryJoin stack
      return (k, .done code)
  | .taskOn stack => return (k, .done (k.reportOn stack))
  | .current => return (k, .done k.scheduler.current)
  | .now => return (k, .done k.scheduler.now)
  | .signalState signal => return (k, .done (← k.requireSignal signal))
  | .headroom stack => return (k, .done (k.stackAt stack).headroom)
  | .overwrite stack index word =>
      return (k.setStack stack ((k.stackAt stack).write index word), .done ())

end Kernel

end CoopTasks
