import CoopTasks.Scheduler.Wake

/-!
The start of a task, and what the executing task decides about itself: to exit
or to sleep.  Both take effect at its next switch.
-/

namespace CoopTasks

def leastBy {α κ : Type} [LT κ] [DecidableLT κ] (key : α → κ) : List α → Option α
  | [] => none
  | a :: rest =>
      match leastBy key rest with
      | none => some a
      | some b => if key b < key a then some b else some a

namespace Scheduler

variable {H : Type}

/--
The slot for a stack: the one it had before, else the first vacant one, else,
of those whose task has exited, the one started longest ago.
-/
def chooseSlot (s : Scheduler H) (stack : StackRange) : Option Nat :=
  match s.taskOn stack with
  | some id => some id.index
  | none =>
      match slots.find? fun slot => (s.tasks.record slot).state = .vacant with
      | some slot => some slot
      | none =>
          leastBy (fun slot => (s.tasks.record slot).generation) <|
            slots.filter fun slot =>
              (s.tasks.record slot).state = .exited && !s.tasks.cells.linked slot

/-- Puts the mainline at the head of an empty run queue, where its context can be saved. -/
def admitMainline (s : Scheduler H) : Except Fault (Scheduler H) := do
  if ← s.ready.isEmpty then
    let s := s.update .mainline fun t => { t with state := .running }
    let (ready, cells) ← s.ready.prepend s.tasks.cells .mainline
    return { s with ready, tasks := { s.tasks with cells } }
  else
    return s

/--
Starts a task on a stack that has been prepared, at the end of the run queue.
The caller has to switch afterwards.
-/
def spawn [Hardware H] (s : Scheduler H) (stack : StackRange) (pointer : Address) :
    Except Fault (Scheduler H × Except StartError TaskId) := do
  require (s.stackInUse stack = false) .stackInUse
  match s.chooseSlot stack with
  | none => return (s, .error .allSlotsLive)
  | some slot =>
      let s ← s.admitMainline
      let generation := s.generation + 1
      let id : TaskId := ⟨UInt8.ofNat slot, generation⟩
      let tasks ← s.tasks.start slot stack pointer generation
      let (hardware, guardRegion) := Hardware.guardStack s.hardware stack
      let s := { s with tasks, hardware, generation }
      let s := s.update id fun t => { t with guardRegion }
      let s ← s.enqueue id
      return (s.note (.started id stack), .ok id)

def markExiting (s : Scheduler H) (code : UInt32) : Except Fault (Scheduler H) := do
  let id ← demand s.current .exitOutsideTask
  return s.update id fun t => { t with exiting := true, exitCode := code }

def markAsleep (s : Scheduler H) (deadline : Instant) : Except Fault (Scheduler H) := do
  let id ← demand s.current .sleepOutsideTask
  require ((s.record id).sleepCount < sleepCountMax) .sleepCountOverflow
  return s.update id fun t => t.countSleep deadline

end Scheduler

end CoopTasks
