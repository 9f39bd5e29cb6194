import CoopTasks.Kernel.Call
import CoopTasks.Proofs.Binding

/-!
A kernel together with those who use it.

The world has one flow of control.  Whoever executes makes calls; a call that
is not over makes it leave, that is, its next step is to give up the processor.
`World.inside` remembers in which wait or join the task of a slot is, because
such a task goes on with another attempt of the same call.  Interrupts wake
tasks and post signals at any point.
-/

namespace CoopTasks

inductive Blocking where
  | wait (signal : Nat)
  | join (stack : Nat)
  deriving DecidableEq, Repr

def Call.blocking : Call → Option Blocking
  | .wait signal => some (.wait signal)
  | .join stack => some (.join stack)
  | _ => none

inductive Control where
  | executing
  /-- An attempt is over, and its caller has not yet given up the processor. -/
  | leaving
  | idle
  deriving DecidableEq, Repr

def Progress.control {α : Type} : Progress α → Control
  | .done _ => .executing
  | .switchThen _ | .switchRetry | .leave => .leaving

theorem Progress.control_ne_idle {α : Type} (progress : Progress α) : progress.control ≠ .idle := by
  cases progress <;> simp [control]

def Progress.retries {α : Type} : Progress α → Bool
  | .switchRetry => true
  | .done _ | .switchThen _ | .leave => false

def Decision.control : Decision → Control
  | .resume _ => .executing
  | .idle => .idle

structure World (H : Type) where
  kernel : Kernel H
  control : Control
  inside : Nat → Option Blocking

namespace World

variable {H : Type}

def start (hardware : H) (signals : Nat) (memory : List Stack) (trampoline : UInt32) : World H where
  kernel :=
    { scheduler := Scheduler.new hardware
      signals := List.replicate signals Signal.idle
      memory := memory
      trampoline := trampoline }
  control := .executing
  inside := fun _ => none

def scheduler (w : World H) : Scheduler H :=
  w.kernel.scheduler

def record (w : World H) (slot : Nat) : TaskRecord :=
  w.scheduler.tasks.record slot

def withScheduler (w : World H) (scheduler : Scheduler H) : World H :=
  { w with kernel := { w.kernel with scheduler } }

/-- The caller is inside of a call if it has to repeat it. -/
def insideAfter (w : World H) (call : Call) (retries : Bool) (slot : Nat) : Option Blocking :=
  if w.scheduler.current.map TaskId.index = some slot then
    if retries then call.blocking else none
  else
    w.inside slot

def MayCall (w : World H) (call : Call) : Prop :=
  ∀ id blocking, w.scheduler.current = some id → w.inside id.index = some blocking →
    call.blocking = some blocking

instance (w : World H) (call : Call) : Decidable (w.MayCall call) :=
  match hcurrent : w.scheduler.current with
  | none => .isTrue fun id _ hid _ => by simp [hcurrent] at hid
  | some id =>
      match hinside : w.inside id.index with
      | none => .isTrue fun other _ hother hb => by
          obtain rfl := Option.some.inj (hcurrent.symm.trans hother)
          simp [hinside] at hb
      | some blocking =>
          decidable_of_iff (call.blocking = some blocking) ⟨fun h other b hother hb => by
            obtain rfl := Option.some.inj (hcurrent.symm.trans hother)
            rw [← hb, hinside, h], fun h => h id blocking hcurrent hinside⟩

inductive Step [Hardware H] : World H → World H → Prop
  | call {w : World H} {call : Call} {kernel : Kernel H} {progress : Progress call.Answer} :
      w.control = .executing →
      w.MayCall call →
      w.kernel.attempt call = .ok (kernel, progress) →
      Step w
        { kernel := kernel
          control := progress.control
          inside := w.insideAfter call progress.retries }
  | wake {w : World H} {id : TaskId} {kernel : Kernel H} :
      w.kernel.wake id = .ok kernel →
      Step w { w with kernel }
  | post {w : World H} {number : Nat} {kernel : Kernel H} :
      w.kernel.post number = .ok kernel →
      Step w { w with kernel }
  | alarm {w : World H} {scheduler : Scheduler H} :
      w.scheduler.handleAlarm = .ok scheduler →
      Step w (w.withScheduler scheduler)
  | elapse {w : World H} {hardware : H} :
      Step w (w.withScheduler { w.scheduler with hardware })
  | reschedule {w : World H} {pointer : Address} {scheduler : Scheduler H} {decision : Decision} :
      w.control = .leaving →
      w.scheduler.reschedule pointer = .ok (scheduler, decision) →
      Step w { w.withScheduler scheduler with control := decision.control }
  | dispatch {w : World H} {scheduler : Scheduler H} {decision : Decision} :
      w.control = .idle →
      w.scheduler.dispatch = .ok (scheduler, decision) →
      Step w { w.withScheduler scheduler with control := decision.control }

inductive Reached [Hardware H] : World H → Prop
  | start (hardware : H) (signals : Nat) (memory : List Stack) (trampoline : UInt32) :
      Reached (World.start hardware signals memory trampoline)
  | step {w w' : World H} : Reached w → Step w w' → Reached w'

/-! ## Steps that are computed -/

inductive Action where
  | call (call : Call)
  | reschedule (pointer : Address)
  deriving DecidableEq, Repr

def act [Hardware H] (w : World H) : Action → Option (World H)
  | .call call =>
      if w.control = .executing ∧ w.MayCall call then
        (w.kernel.attempt call).toOption.map fun r =>
          { kernel := r.1, control := r.2.control, inside := w.insideAfter call r.2.retries }
      else
        none
  | .reschedule pointer =>
      if w.control = .leaving then
        (w.scheduler.reschedule pointer).toOption.map fun r =>
          { w.withScheduler r.1 with control := r.2.control }
      else
        none

def run [Hardware H] (w : World H) : List Action → Option (World H)
  | [] => some w
  | action :: actions => (w.act action).bind fun w => w.run actions

theorem Step.of_act [Hardware H] {w w' : World H} {action : Action}
    (h : w.act action = some w') : Step w w' := by
  cases action with
  | call call =>
      simp only [act, Option.ite_none_right_eq_some, Option.map_eq_some_iff] at h
      obtain ⟨⟨hexec, hmay⟩, ⟨kernel, progress⟩, hok, rfl⟩ := h
      exact .call hexec hmay (toOption_eq_some.mp hok)
  | reschedule pointer =>
      simp only [act, Option.ite_none_right_eq_some, Option.map_eq_some_iff] at h
      obtain ⟨hleaving, ⟨scheduler, decision⟩, hok, rfl⟩ := h
      exact .reschedule hleaving (toOption_eq_some.mp hok)

theorem Reached.run [Hardware H] {w w' : World H} {actions : List Action} (h : Reached w)
    (hrun : w.run actions = some w') : Reached w' := by
  induction actions generalizing w with
  | nil =>
      obtain rfl := Option.some.inj hrun
      exact h
  | cons action actions ih =>
      obtain ⟨u, hact, hrest⟩ := Option.bind_eq_some_iff.mp hrun
      exact ih (h.step (.of_act hact)) hrest

/-! ## Where tasks wait -/

inductive Place where
  | signal (number : Nat)
  | completion (slot : Nat)
  deriving DecidableEq, Repr

def signalAt (w : World H) : Place → Option Signal
  | .signal number => w.kernel.signals[number]?
  | .completion slot => if slot ∈ Scheduler.slots then some (w.record slot).completion else none

def place (w : World H) : Blocking → Option Place
  | .wait number => some (.signal number)
  | .join number => (w.kernel.taskOn number).map fun target => .completion target.index

structure Inside (w : World H) (id : TaskId) (blocking : Blocking) : Prop where
  slot : id.index ∈ Scheduler.slots
  current : id.generation = (w.record id.index).generation
  inside : w.inside id.index = some blocking

end World

/-! ## The calls -/

namespace Kernel

open Scheduler

variable {H : Type} {k k' : Kernel H}

def SameRanges (k k' : Kernel H) : Prop :=
  ∀ number, k'.rangeAt number = k.rangeAt number

theorem sameRanges_setStack {number : Nat} {stack : Stack}
    (h : stack.range = k.rangeAt number) : SameRanges k (k.setStack number stack) := by
  intro other
  unfold rangeAt stackAt setStack
  rw [List.getElem?_set]
  split
  · rename_i he
    subst he
    split
    · rw [Option.getD_some, h]
      rfl
    · rename_i hlt
      rw [List.getElem?_eq_none (by omega)]
  · rfl

/-- What an attempt of a call does, and whether its caller leaves and has to repeat it. -/
inductive Called [Hardware H] (k : Kernel H) : Call → Kernel H → Control → Bool → Prop
  | quiet {call : Call} {k' : Kernel H} {control : Control} :
      call.blocking = none →
      control ≠ .idle →
      k'.scheduler = k.scheduler →
      k'.signals = k.signals →
      SameRanges k k' →
      Called k call k' control false
  | started {call : Call} {k' : Kernel H} {hardware : H} {stack : StackRange} {pointer : Address}
      {id : TaskId} :
      call.blocking = none →
      Started { k.scheduler with hardware } stack pointer id k'.scheduler →
      k'.signals = k.signals →
      SameRanges k k' →
      Called k call k' .leaving false
  | exiting {call : Call} {t : Scheduler H} {code : UInt32} {id : TaskId} :
      call.blocking = none →
      k.scheduler.current = some id →
      Moved k.scheduler id (fun t => { t with exiting := true, exitCode := code })
        k.scheduler.runQueue k.scheduler.sleepers t →
      Called k call { k with scheduler := t } .leaving false
  | asleep {call : Call} {t : Scheduler H} {deadline : Instant} {id : TaskId} :
      call.blocking = none →
      k.scheduler.current = some id →
      Moved k.scheduler id (fun t => t.countSleep deadline)
        k.scheduler.runQueue k.scheduler.sleepers t →
      Called k call { k with scheduler := t } .leaving false
  | waited {number : Nat} {t : Scheduler H} {signal signal' : Signal} {result : WaitResult} :
      k.signals[number]? = some signal →
      Attempted k.scheduler signal t signal' result →
      Called k (.wait number) ({ k with scheduler := t }.setSignal number signal')
        (result.progress ()).control (result.progress ()).retries
  | joined {number : Nat} {target : TaskId} {t u : Scheduler H} {completion : Signal}
      {result : WaitResult} :
      k.taskOn number = some target →
      k.scheduler.current ≠ some target →
      Attempted k.scheduler (k.scheduler.record target).completion u completion result →
      Moved u target (fun t => { t with completion }) u.runQueue u.sleepers t →
      Called k (.join number) { k with scheduler := t }
        (result.progress ()).control (result.progress ()).retries
  | woken {id : TaskId} {k' : Kernel H} :
      k.wake id = .ok k' →
      Called k (.wake id) k' .executing false
  | posted {number : Nat} {k' : Kernel H} :
      k.post number = .ok k' →
      Called k (.post number) k' .executing false
  | took {number : Nat} {signal : Signal} :
      k.signals[number]? = some signal →
      Called k (.tryTake number) (k.setSignal number signal.tryTake.1) .executing false
  | tried {number : Nat} {target : TaskId} {t : Scheduler H} :
      k.taskOn number = some target →
      Moved k.scheduler target
        (fun t => { t with completion := (k.scheduler.record target).completion.tryTake.1 })
        k.scheduler.runQueue k.scheduler.sleepers t →
      Called k (.tryJoin number) { k with scheduler := t } .executing false

variable [Hardware H]

theorem called_of_start (hs : k.scheduler.Standing) {entry param : UInt32} {number : Nat}
    {progress : Progress Unit} (hok : k.start entry param number = .ok (k', progress)) :
    Called k (.start entry param number) k' progress.control progress.retries := by
  unfold start at hok
  dsimp only at hok
  split at hok
  · rw [pure_eq_ok, Prod.mk.injEq] at hok
    obtain ⟨rfl, rfl⟩ := hok
    exact .quiet rfl (Progress.control_ne_idle _) rfl rfl fun _ => rfl
  · simp only [bind_eq_ok, Prod.exists] at hok
    obtain ⟨stack, pointer, hsetUp, scheduler, outcome, hspawn, hok⟩ := hok
    cases outcome with
    | error reason => contradiction
    | ok id =>
        rw [pure_eq_ok, Prod.mk.injEq] at hok
        obtain ⟨rfl, rfl⟩ := hok
        have hready := (alarmMoved k.scheduler
          (if k.scheduler.current.isNone then Hardware.readyDecisionStack k.scheduler.hardware
          else k.scheduler.hardware) k.scheduler.armed).standing hs
        rcases hready.spawn hspawn with ⟨hrefused, _⟩ | ⟨id, _, hstarted⟩
        · contradiction
        · exact .started rfl hstarted rfl
            (sameRanges_setStack (k := { k with scheduler }) (Stack.range_setUp hsetUp))

theorem called_of_join (hs : k.scheduler.Standing) {number : Nat} {progress : Progress UInt32}
    (hok : k.join number = .ok (k', progress)) :
    Called k (.join number) k' progress.control progress.retries := by
  unfold join at hok
  simp only [bind_eq_ok, demand_eq_ok, pure_eq_ok, Prod.mk.injEq, Prod.exists] at hok
  obtain ⟨target, htarget, scheduler, result, hattempt, rfl, rfl⟩ := hok
  obtain ⟨hself, hjoinable, u, completion, hattempted, rfl⟩ := hs.attemptJoin hattempt
  have hmoved := (hattempted.standing hs).withCompletion hjoinable.index_lt completion
  have hcalled := Called.joined htarget hself hattempted hmoved
  cases result <;> exact hcalled

theorem called_of_attempt (hs : k.scheduler.Standing) {call : Call}
    {progress : Progress call.Answer} (hok : k.attempt call = .ok (k', progress)) :
    Called k call k' progress.control progress.retries := by
  cases call <;> simp only [attempt] at hok
  case start => exact called_of_start hs hok
  case giveWay =>
      rw [pure_eq_ok, Prod.mk.injEq] at hok
      obtain ⟨rfl, rfl⟩ := hok
      unfold giveWay
      split
      · exact .quiet rfl (Progress.control_ne_idle _) rfl rfl fun _ => rfl
      · exact .quiet rfl (Progress.control_ne_idle _) rfl rfl fun _ => rfl
  case exit =>
      simp only [exit, bind_eq_ok, pure_eq_ok, Prod.mk.injEq] at hok
      obtain ⟨scheduler, hmark, rfl, rfl⟩ := hok
      obtain ⟨id, hcurrent, _, hmoved⟩ := hs.markExiting hmark
      exact .exiting rfl hcurrent hmoved
  case sleepUntil =>
      simp only [sleepUntil, bind_eq_ok, pure_eq_ok, Prod.mk.injEq] at hok
      obtain ⟨scheduler, hmark, rfl, rfl⟩ := hok
      obtain ⟨id, hcurrent, _, _, hmoved⟩ := hs.markAsleep hmark
      exact .asleep rfl hcurrent hmoved
  case wait =>
      simp only [wait, requireSignal, bind_eq_ok, demand_eq_ok, pure_eq_ok, Prod.mk.injEq,
        Prod.exists] at hok
      obtain ⟨signal, hsignal, scheduler, signal', result, hattempt, rfl, rfl⟩ := hok
      exact .waited hsignal (hs.attemptWait hattempt)
  case join => exact called_of_join hs hok
  case wake =>
      simp only [bind_eq_ok, pure_eq_ok, Prod.mk.injEq] at hok
      obtain ⟨kernel, hwake, rfl, rfl⟩ := hok
      exact .woken hwake
  case post =>
      simp only [bind_eq_ok, pure_eq_ok, Prod.mk.injEq] at hok
      obtain ⟨kernel, hpost, rfl, rfl⟩ := hok
      exact .posted hpost
  case tryTake =>
      simp only [tryTake, requireSignal, bind_eq_ok, demand_eq_ok, pure_eq_ok, Prod.mk.injEq,
        Prod.exists] at hok
      obtain ⟨kernel, taken, ⟨signal, hsignal, rfl, rfl⟩, rfl, rfl⟩ := hok
      exact .took hsignal
  case tryJoin =>
      simp only [tryJoin, bind_eq_ok, demand_eq_ok, pure_eq_ok, Prod.mk.injEq, Prod.exists] at hok
      obtain ⟨kernel, code, ⟨target, htarget, scheduler, code', htry, rfl, rfl⟩, rfl, rfl⟩ := hok
      obtain ⟨hjoinable, rfl, _⟩ := tryJoin_eq_ok htry
      exact .tried htarget (hs.withCompletion hjoinable.index_lt _)
  case overwrite =>
      rw [pure_eq_ok, Prod.mk.injEq] at hok
      obtain ⟨rfl, rfl⟩ := hok
      exact .quiet rfl (Progress.control_ne_idle _) rfl rfl
        (sameRanges_setStack (Stack.range_write _ _ _))
  case signalState =>
      simp only [requireSignal, bind_eq_ok, demand_eq_ok, pure_eq_ok, Prod.mk.injEq] at hok
      obtain ⟨signal, _, rfl, rfl⟩ := hok
      exact .quiet rfl (Progress.control_ne_idle _) rfl rfl fun _ => rfl
  all_goals
    rw [pure_eq_ok, Prod.mk.injEq] at hok
    obtain ⟨rfl, rfl⟩ := hok
    exact .quiet rfl (Progress.control_ne_idle _) rfl rfl fun _ => rfl

end Kernel

end CoopTasks
