import CoopTasks.Program.Basic

/-!
Flows of control.

A flow belongs to a context: the mainline, or the task on a stack.  What it has
left to do is a list of activities, innermost first.  An interrupt runs on top
of the flow that it comes upon, also while that flow is in the middle of a
switch or waits for somebody to execute.  If its program gives up the processor,
the whole flow is suspended with it.

What a flow does is recorded under one name at a time.  An interrupt takes that
name, and at its end gives it back to the context, whatever the name was before:
what is left of an interrupt that was itself interrupted goes on record as the
context's.
-/

namespace CoopTasks

inductive Context where
  | mainline
  | task (stack : Nat)
  deriving DecidableEq, Repr

inductive Actor where
  | context (context : Context)
  | interrupt
  deriving DecidableEq, Repr

inductive Activity (μ : Type) where
  | execute (program : Program μ Unit)
  | pass (limit : Instant)
  | reschedule
  /-- While nobody executes: decides again, after an interrupt. -/
  | dispatch
  /-- What remains of a task that has exited; it must not be reached. -/
  | left

structure Flow (μ : Type) where
  context : Context
  /-- The run of the task that the flow began with. -/
  run : Option TaskId
  /-- Whose doing the record says it is. -/
  actor : Actor
  activities : List (Activity μ)

namespace Flow

variable {μ : Type}

def mainline (program : Program μ Unit) : Flow μ :=
  ⟨.mainline, none, .context .mainline, [.execute program]⟩

def task (stack : Nat) (run : Option TaskId) (program : Program μ Unit) : Flow μ :=
  ⟨.task stack, run, .context (.task stack), [.execute program]⟩

def continueWith (f : Flow μ) (activities : List (Activity μ)) : Flow μ :=
  { f with activities := activities ++ f.activities.tail }

def finish (f : Flow μ) : Flow μ :=
  { f.continueWith [] with actor := .context f.context }

def interrupt (f : Flow μ) (handler : Program μ Unit) : Flow μ :=
  { f with actor := .interrupt, activities := .execute handler :: f.activities }

end Flow

end CoopTasks
