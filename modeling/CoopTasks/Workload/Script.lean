import CoopTasks.Program.Run

/-!
Scripted workloads.

A script is a list of steps.  Each step makes one call and then puts a remark
with the answer on record, under the name of the step.
-/

namespace CoopTasks

inductive Step (μ : Type) where
  | log (message : μ)
  | work (micros : UInt64)
  | start (entry param : UInt32) (stack : Nat)
  | giveWay
  | sleepForever
  | exit (code : UInt32)
  | sleepUntil (deadline : Instant)
  | sleep (duration : Duration)
  | wake (stack : Nat)
  | save (place stack : Nat)
  | wakeSaved (place : Nat)
  | signal (number : Nat)
  | wait (number : Nat)
  | check (number : Nat)
  | snapshot (number : Nat)
  | join (stack : Nat)
  | tryJoin (stack : Nat)
  | taskOf (stack : Nat)
  | current
  | now
  | unused (stack : Nat)
  | poke (stack index : Nat) (word : UInt32)
  | ret (code : UInt32)
  | repeat (times : Nat) (body : List (Step μ))
  deriving Repr

namespace Step

variable {μ : Type}

open Program (ask perform remark)

def wakeIfAny (name : String) : Option TaskId → Program μ Unit
  | none => remark name (.text "no task")
  | some id => do
      ask (.wake id)
      remark name .nothing

def plain (name : String) (program : Program μ Unit) : Program μ (Option UInt32) := do
  program
  remark name .nothing
  return none

def answered (name : String) (program : Program μ α) (describe : α → Remark μ) :
    Program μ (Option UInt32) := do
  let answer ← program
  remark name (describe answer)
  return none

mutual

def program : Step μ → Program μ (Option UInt32)
  | .log message => answered "log" (pure message) .message
  | .work micros => plain "work" (perform (.work micros))
  | .start entry param stack => plain "start" (ask (.start entry param stack))
  | .giveWay => plain "yield" (ask .giveWay)
  | .sleepForever => plain "wait_forever" Program.sleepForever
  | .exit code => Program.exit code
  | .sleepUntil deadline => plain "wait_until" (ask (.sleepUntil deadline))
  | .sleep duration => plain "sleep" (Program.sleepFor duration)
  | .wake stack => do
      let report ← ask (.taskOn stack)
      wakeIfAny "wake" (report.map TaskReport.id)
      return none
  | .save place stack => do
      let report ← ask (.taskOn stack)
      let id := report.map TaskReport.id
      perform (.keep place id)
      remark "save" (.ofOption .task id)
      return none
  | .wakeSaved place => do
      let id ← perform (.kept place)
      wakeIfAny "wake_saved" id
      return none
  | .signal number => plain "signal" (ask (.post number))
  | .wait number => plain "wait" (ask (.wait number))
  | .check number => answered "check" (Program.pollSignal number) .flag
  | .snapshot number => answered "snapshot" (ask (.signalState number)) .signal
  | .join stack => answered "join" (ask (.join stack)) .code
  | .tryJoin stack => answered "try_join" (Program.pollJoin stack) (.ofOption .code)
  | .taskOf stack => answered "task_of" (ask (.taskOn stack)) (.ofOption .report)
  | .current => answered "current" (ask .current) (.ofOption .task)
  | .now => answered "now" (ask .now) .time
  | .unused stack => answered "unused" (ask (.headroom stack)) .count
  | .poke stack index word => plain "poke" (ask (.overwrite stack index word))
  | .ret code => return some code
  | .repeat times body => Program.repeatUntil (script body) times

def script : List (Step μ) → Program μ (Option UInt32)
  | [] => return none
  | step :: rest => do
      match ← program step with
      | some code => return some code
      | none => script rest

end

def handler (step : Step μ) : Program μ Unit := do
  let _ ← step.program
  return

/--
The entry of a task that follows one of the scripts, none being an empty one.
A script that does not tell a code ends with the parameter.
-/
def entry (scripts : List (List (Step μ))) (number param : UInt32) : Program μ UInt32 := do
  remark "enter" (.entry number.toNat param)
  let code ← script (scripts[number.toNat]?.getD [])
  let code := code.getD param
  remark "return" (.code code)
  return code

def mainline (steps : List (Step μ)) : Program μ Unit := do
  let _ ← script steps
  return

end Step

end CoopTasks
