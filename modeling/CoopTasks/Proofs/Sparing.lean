import CoopTasks.Scheduler.Lifecycle
import CoopTasks.Scheduler.Switch
import CoopTasks.Scheduler.Waiting

/-!
Faults that are not about the return of a region.

Only a switch that retires a task returns a region, and only that can fail
because the region was not granted.  Everything else fails for other reasons:
each operation has one lemma, which goes through its steps.
-/

namespace CoopTasks

def Fault.ofReturn : Fault → Bool
  | .regionNotClaimed _ | .overflow .shiftLeft => true
  | _ => false

/-- No fault of this is about the return of a region. -/
def Spares {α : Type} (x : Except Fault α) : Prop :=
  ∀ fault, x = .error fault → fault.ofReturn = false

section Spares

variable {α β : Type}

theorem spares_ok (a : α) : Spares (.ok a : Except Fault α) := by
  intro fault h
  cases h

theorem spares_pure (a : α) : Spares (pure a : Except Fault α) :=
  spares_ok a

theorem spares_error {fault : Fault} (h : fault.ofReturn = false) :
    Spares (.error fault : Except Fault α) := by
  intro other he
  obtain rfl := Except.error.inj he
  exact h

theorem Spares.bind {x : Except Fault α} {f : α → Except Fault β} (hx : Spares x)
    (hf : ∀ a, x = .ok a → Spares (f a)) : Spares (x >>= f) := by
  cases x with
  | error fault => exact spares_error (hx fault rfl)
  | ok a => exact hf a rfl

theorem spares_require {condition : Prop} [Decidable condition] {fault : Fault}
    (h : fault.ofReturn = false) : Spares (require condition fault) := by
  intro other he
  rw [(require_eq_error.mp he).2]
  exact h

theorem spares_demand {value : Option α} {fault : Fault} (h : fault.ofReturn = false) :
    Spares (demand value fault) := by
  intro other he
  rw [(demand_eq_error.mp he).2]
  exact h

end Spares

section Queues

variable {size : Nat} {q : TaskQueue} {cells : Cells size} {id : TaskId}

theorem Cells.spares_occupy : Spares (cells.occupy id) :=
  (spares_demand rfl).bind fun _ _ => (spares_require rfl).bind fun _ _ => spares_pure _

namespace TaskQueue

theorem spares_isEmpty : Spares q.isEmpty := by
  unfold isEmpty
  split
  · exact spares_ok _
  · exact spares_ok _
  · exact spares_error rfl
  · exact spares_error rfl

theorem spares_enqueue : Spares (q.enqueue cells id) := by
  refine Cells.spares_occupy.bind fun _ _ => ?_
  split
  · exact (spares_require rfl).bind fun _ _ => spares_pure _
  · exact spares_pure _

theorem spares_prepend : Spares (q.prepend cells id) :=
  Cells.spares_occupy.bind fun _ _ => spares_pure _

theorem spares_insertByKey {κ : Type} [LE κ] [DecidableLE κ] {key : TaskId → κ} :
    Spares (q.insertByKey cells id key) := by
  unfold insertByKey
  dsimp only
  split
  · exact spares_prepend
  · exact (spares_require rfl).bind fun _ _ => spares_enqueue
  · exact Cells.spares_occupy.bind fun _ _ => spares_pure _

end TaskQueue

end Queues

namespace Scheduler

section Spares

variable {H : Type} {s : Scheduler H} {id target : TaskId} {signal : Signal} {slot : Nat}
variable {stack : StackRange} {pointer : Address} {deadline : Instant}

theorem spares_enqueue : Spares (s.enqueue id) :=
  TaskQueue.spares_enqueue.bind fun _ _ => spares_pure _

theorem spares_wakeTask : Spares (s.wakeTask id) := by
  refine (spares_require rfl).bind fun _ _ => (spares_require rfl).bind fun _ _ =>
    (spares_require rfl).bind fun _ _ => ?_
  split
  · exact spares_enqueue.bind fun _ _ => spares_pure _
  · exact spares_pure _
  · exact spares_pure _
  · exact spares_error rfl

theorem spares_wakeExpired {now : Instant} {steps : Nat} : Spares (wakeExpired now steps s) := by
  induction steps generalizing s with
  | zero => exact spares_ok _
  | succ steps ih =>
      unfold wakeExpired
      split
      · exact spares_ok _
      · dsimp only
        split
        · exact spares_ok _
        · exact spares_wakeTask.bind fun _ _ => ih

theorem spares_markExiting {code : UInt32} : Spares (s.markExiting code) :=
  (spares_demand rfl).bind fun _ _ => spares_pure _

theorem spares_markAsleep : Spares (s.markAsleep deadline) :=
  (spares_demand rfl).bind fun _ _ => (spares_require rfl).bind fun _ _ => spares_pure _

theorem spares_attemptWait : Spares (s.attemptWait signal) := by
  unfold attemptWait
  dsimp only
  split
  · exact spares_pure _
  · refine (spares_demand rfl).bind fun _ _ => ?_
    split
    · exact spares_markAsleep.bind fun _ _ => spares_pure _
    · exact spares_pure _

theorem spares_requireStarted : Spares (s.requireStarted target) :=
  spares_require rfl

theorem spares_attemptJoin : Spares (s.attemptJoin target) :=
  (spares_require rfl).bind fun _ _ => (spares_require rfl).bind fun _ _ =>
    spares_requireStarted.bind fun _ _ => spares_attemptWait.bind fun _ _ => spares_pure _

theorem spares_tryJoin : Spares (s.tryJoin target) :=
  (spares_require rfl).bind fun _ _ => spares_requireStarted.bind fun _ _ => spares_pure _

theorem spares_admitMainline : Spares s.admitMainline := by
  refine TaskQueue.spares_isEmpty.bind fun empty _ => ?_
  split
  · exact TaskQueue.spares_prepend.bind fun _ _ => spares_pure _
  · exact spares_pure _

theorem spares_putToSleep : Spares (s.putToSleep id) := by
  refine Spares.bind ?_ fun _ _ => spares_pure _
  unfold timersWith
  split
  · exact TaskQueue.spares_enqueue
  · exact TaskQueue.spares_insertByKey

variable [Hardware H]

theorem spares_rearmSteps {steps : Nat} : Spares (s.rearmSteps steps) := by
  induction steps generalizing s with
  | zero => exact spares_ok _
  | succ steps ih =>
      unfold rearmSteps
      split
      · exact spares_ok _
      · dsimp only
        split
        · exact spares_ok _
        · split
          · exact spares_ok _
          · exact spares_wakeTask.bind fun _ _ => ih

theorem spares_wake : Spares (s.wake id) := by
  unfold wake
  refine (spares_require rfl).bind fun _ _ => spares_wakeTask.bind fun woken _ => ?_
  show Spares (if woken.2 = true ∧ woken.1.armed = some (s.record id).wakeAt then _ else _)
  split
  · exact spares_rearmSteps
  · exact spares_pure _

theorem spares_wakeWaiter {waiter : Option TaskId} : Spares (s.wakeWaiter waiter) := by
  cases waiter with
  | none => exact spares_ok _
  | some id => exact spares_wake

theorem spares_handleAlarm : Spares s.handleAlarm :=
  spares_wakeExpired.bind fun _ _ => spares_rearmSteps

theorem spares_spawn : Spares (s.spawn stack pointer) := by
  refine (spares_require rfl).bind fun _ _ => ?_
  split
  · exact spares_pure _
  · refine spares_admitMainline.bind fun _ _ => Spares.bind ?_ fun _ _ =>
      spares_enqueue.bind fun _ _ => spares_pure _
    exact (spares_require rfl).bind fun _ _ => spares_pure _

theorem spares_dispatch : Spares s.dispatch := by
  unfold dispatch
  split
  · exact (spares_require rfl).bind fun _ _ => spares_pure _
  · refine TaskQueue.spares_isEmpty.bind fun _ _ => ?_
    split
    · exact (spares_require rfl).bind fun _ _ => spares_pure _
    · exact spares_pure _

theorem spares_suspend : Spares (s.suspend pointer) :=
  (spares_demand rfl).bind fun _ _ =>
    ((spares_require rfl).bind fun _ _ => spares_pure _).bind fun _ _ => spares_pure _

theorem spares_settle (hregion : ∀ region, (s.record id).guardRegion = some region →
    Spares (Hardware.unguardStack s.hardware region)) : Spares (s.settle id) := by
  unfold settle
  split
  · exact spares_pure _
  · refine (spares_require rfl).bind fun _ _ => ?_
    split
    · refine (spares_require rfl).bind fun _ _ => Spares.bind ?_ fun _ _ => ?_
      · cases hguard : (s.record id).guardRegion with
        | none => exact spares_ok _
        | some region => exact (hregion region hguard).bind fun _ _ => spares_pure _
      · exact spares_wakeWaiter
    · split
      · exact spares_putToSleep
      · exact spares_enqueue

end Spares

end Scheduler

end CoopTasks
