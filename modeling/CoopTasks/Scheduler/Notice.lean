import CoopTasks.Fault

/-!
What the scheduler reports about its work.
-/

namespace CoopTasks

inductive Notice where
  | started (id : TaskId) (stack : StackRange)
  | woken (id : TaskId) (sleepCount : Int)
  | alarmArmed (id : TaskId) (deadline : Instant)
  | exited (id : TaskId) (code : UInt32)
  | drained
  deriving DecidableEq, Repr

def Notice.text : Notice → String
  | .started id stack => s!"DEBUG task {id.text} started, stack {stack.text}"
  | .woken id sleepCount => s!"TRACE wake {id.text} (sleep count {sleepCount})"
  | .alarmArmed id deadline => s!"TRACE alarm armed for {id.text} at {deadline.micros}us"
  | .exited id code => s!"DEBUG task {id.text} exited with code {code}"
  | .drained => "DEBUG all tasks drained, returning to mainline"

end CoopTasks
