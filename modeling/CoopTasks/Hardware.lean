import CoopTasks.Fault

/-!
What the scheduler needs of the machine: a clock, one alarm and, if there is
memory protection, stack guards.
-/

namespace CoopTasks

class Hardware (H : Type) where
  now : H → Instant
  /--
  Sets the alarm, replacing the one set before.  It fails, and leaves no alarm,
  if the instant has passed.
  -/
  setAlarm : H → Instant → H × Bool
  clearAlarm : H → H
  /-- Guards the bottom of a stack, in the region that comes with the result. -/
  guardStack : H → StackRange → H × Option UInt8
  unguardStack : H → UInt8 → Except Fault H
  /-- Readies the stack that decisions run on, before the mainline starts a task. -/
  readyDecisionStack : H → H

end CoopTasks
