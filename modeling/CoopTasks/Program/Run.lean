import CoopTasks.Program.Machine

/-!
Runs of programs on a machine.

A flow executes until a call gives up the processor; the machine switches, and
whoever was suspended at the pointer that comes out goes on.  A task that has
not run yet begins with the entry and the parameter of its first frame.  The
run is over when the mainline has nothing left to do.
-/

namespace CoopTasks

def usualSwitchLimit : Nat := 500

inductive Pause (μ : Type) where
  | finished
  | suspended (rest : Program μ Unit)
  | left
  /-- An interrupt came while the program worked, which it does until a limit. -/
  | interrupted (handler : Program μ Unit) (limit : Instant) (rest : Program μ Unit)

namespace MachineM

variable {μ : Type}

/-- An act of somebody, and the interrupt that came upon it, with the end of the work. -/
def act (actor : Actor) : (act : Act μ) →
    MachineM μ (act.Answer × Option (Program μ Unit × Instant))
  | .work micros => do
      let limit ← instantAfter micros
      return ((), (← passUntil limit).map fun handler => (handler, limit))
  | .remark name remark => do
      putOnRecord actor name remark
      return ((), none)
  | .keep place id => do
      requirePlace place
      modify fun m => { m with kept := m.kept.set place id }
      return ((), none)
  | .kept place => do
      requirePlace place
      return (((← get).kept[place]?).join, none)

def advance (actor : Actor) : Program μ Unit → MachineM μ (Pause μ)
  | .done _ => return .finished
  | .call call next => do
      match ← attempt call with
      | .done answer => advance actor (next answer)
      | .switchThen answer => return .suspended (next answer)
      | .switchRetry => return .suspended (.call call next)
      | .leave => return .left
  | .act a next => do
      match ← act actor a with
      | (answer, none) => advance actor (next answer)
      | (answer, some (handler, limit)) => return .interrupted handler limit (next answer)

def beginSwitch (switchLimit : Nat) : MachineM μ (List (Activity μ)) := do
  modify fun m => { m with switches := m.switches + 1 }
  let m ← get
  if switchLimit < m.switches then
    throw .switchLimit
  return [.pass (← instantAfter m.switchCost), .reschedule]

def takeUp (entries : UInt32 → UInt32 → Program μ UInt32) (context : Context) :
    MachineM μ (Flow μ) := do
  let m ← get
  match m.flowOf context, context with
  | some f, _ => return f
  | none, .mainline => throw (.lostContext Board.mainlinePointer)
  | none, .task stack =>
      match Frame.ofStack? (m.kernel.stackAt stack).words with
      | some frame =>
          return .task stack (m.runOf context) (entries frame.entry frame.param).thenExit
      | none => throw (.lostContext (m.pointerOf context))

def handOver (entries : UInt32 → UInt32 → Program μ UInt32) (f : Flow μ) (pointer : Address) :
    MachineM μ (Flow μ) := do
  onScheduler fun s => return (s, ← s.audit)
  modify fun m =>
    { m with suspended := f :: m.suspended.filter fun other => other.context ≠ f.context }
  match (← get).ownerOf pointer with
  | some context => takeUp entries context
  | none => throw (.lostContext pointer)

def decide (entries : UInt32 → UInt32 → Program μ UInt32) (f : Flow μ) (decision : Decision) :
    MachineM μ (Flow μ) := do
  match ← await decision with
  | .resume pointer => handOver entries (f.continueWith []) pointer
  | .interrupt handler => return (f.continueWith [.dispatch]).interrupt handler

def turn (entries : UInt32 → UInt32 → Program μ UInt32) (switchLimit : Nat) (f : Flow μ) :
    MachineM μ (Flow μ) := do
  match f.activities with
  | [] => return f
  | .execute program :: _ =>
      match ← advance f.actor program with
      | .finished => return f.finish
      | .suspended rest =>
          return f.continueWith ((← beginSwitch switchLimit) ++ [.execute rest])
      | .left => return { f with activities := (← beginSwitch switchLimit) ++ [.left] }
      | .interrupted handler limit rest =>
          return (f.continueWith [.pass limit, .execute rest]).interrupt handler
  | .pass limit :: _ =>
      match ← passUntil limit with
      | none => return f.continueWith []
      | some handler => return f.interrupt handler
  | .reschedule :: _ =>
      let own := (← get).pointerOf f.context
      decide entries f (← onScheduler fun s => s.reschedule own)
  | .dispatch :: _ => decide entries f (← onScheduler Scheduler.dispatch)
  | .left :: _ => throw (.fault .exitedResumed)

def turns (entries : UInt32 → UInt32 → Program μ UInt32) (switchLimit : Nat) :
    Nat → Flow μ → MachineM μ Unit
  | 0, _ => throw .switchLimit
  | steps + 1, f => do
      if f.activities.isEmpty then
        return
      else
        turns entries switchLimit steps (← turn entries switchLimit f)

end MachineM

/--
More turns than a run can have.  A switch brings at most three and an interrupt
at most four; two are for the end of the mainline.
-/
def Machine.turnLimit {μ : Type} (m : Machine μ) (switchLimit : Nat) : Nat :=
  4 * (switchLimit + m.interrupts.length + 2)

/--
Runs a mainline on a machine, with the reason if it is stopped.  The tasks'
programs are found by the entry and the parameter of their first frames.
-/
def Machine.run {μ : Type} (m : Machine μ) (entries : UInt32 → UInt32 → Program μ UInt32)
    (mainline : Program μ Unit) (switchLimit : Nat) : Machine μ × Option Stop :=
  match MachineM.turns entries switchLimit (m.turnLimit switchLimit) (.mainline mainline) m with
  | .ok _ m => (m, none)
  | .error stop m => (m, some stop)

end CoopTasks
