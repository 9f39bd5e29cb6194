/-!
Where a task is between its start and its end.
-/

namespace CoopTasks

/--
Where a task is.  `running` is the head of the run queue, `ready` the rest of
it, and `sleeping` the timer queue; `parked` belongs to the mainline alone.
-/
inductive TaskState where
  | vacant
  | ready
  | running
  | sleeping
  | exited
  | parked
  deriving DecidableEq, Repr

def TaskState.text : TaskState → String
  | .vacant => "Vacant"
  | .ready => "Ready"
  | .running => "Running"
  | .sleeping => "Sleeping"
  | .exited => "Exited"
  | .parked => "Parked"

end CoopTasks
