import CoopTasks.Proofs.Lifetimes
import CoopTasks.Proofs.SafeWakes

/-!
Programs that behave.

`World.Permits` is what the executing task or the mainline may call, and
`World.Behaves` are the steps in which nobody does anything else and interrupts
only post signals and handle the alarm.
-/

namespace CoopTasks

open Scheduler

def Notice.startedOn : Notice → Option StackRange
  | .started _ stack => some stack
  | .woken .. | .alarmArmed .. | .exited .. | .drained => none

namespace World

variable {H : Type} {w w' : World H} {arena : List StackRange}

def HasRun (w : World H) (number : Nat) : Prop :=
  ∃ id, .started id (w.kernel.rangeAt number) ∈ w.scheduler.chronicle

/--
What whoever executes may call: starts on the stacks of an arena, joins of
others that have been started, and from the mainline nothing that would have to
wait.  Nobody wakes a task but by a signal.
-/
def Permits (arena : List StackRange) (w : World H) : Call → Prop
  | .start _ _ number => w.kernel.rangeAt number ∈ arena
  | .exit _ | .sleepUntil _ => w.scheduler.current ≠ none
  | .wait number => ∃ signal, w.kernel.signals[number]? = some signal ∧
      (w.scheduler.current = none → signal.tryTake.2 = true)
  | .join number | .tryJoin number => w.HasRun number ∧
      ∀ id, w.scheduler.current = some id →
        (w.scheduler.record id).stack ≠ w.kernel.rangeAt number
  | .post number | .tryTake number | .signalState number => number < w.kernel.signals.length
  | .wake _ => False
  | .giveWay | .taskOn _ | .current | .now | .headroom _ | .overwrite .. => True

def Repeats (w : World H) (call : Call) : Prop :=
  ∃ id blocking, w.scheduler.current = some id ∧ w.inside id.index = some blocking ∧
    call.blocking = some blocking

/-- Where whoever executes may be suspended: inside of its stack, or anywhere but at zero. -/
structure Suspendable (w : World H) (pointer : Address) : Prop where
  task : ∀ id, w.scheduler.current = some id → (w.scheduler.record id).stack.holds pointer = true
  mainline : w.scheduler.current = none → pointer ≠ 0

/-- The steps in which everybody behaves and time does not go back. -/
inductive Behaves [GuardingHardware H] (arena : List StackRange) : World H → World H → Prop
  | call {w : World H} {call : Call} {kernel : Kernel H} {progress : Progress call.Answer} :
      w.control = .executing →
      w.MayCall call →
      w.Repeats call ∨ w.Permits arena call →
      w.kernel.attempt call = .ok (kernel, progress) →
      Behaves arena w
        { kernel := kernel
          control := progress.control
          inside := w.insideAfter call progress.retries }
  | post {w : World H} {number : Nat} {kernel : Kernel H} :
      w.kernel.post number = .ok kernel →
      Behaves arena w { w with kernel }
  | alarm {w : World H} {scheduler : Scheduler H} :
      w.scheduler.handleAlarm = .ok scheduler →
      Behaves arena w (w.withScheduler scheduler)
  | elapse {w : World H} {hardware : H} :
      Hardware.Onward w.scheduler.hardware hardware →
      Behaves arena w (w.withScheduler { w.scheduler with hardware })
  | reschedule {w : World H} {pointer : Address} {scheduler : Scheduler H} {decision : Decision} :
      w.control = .leaving →
      w.Suspendable pointer →
      w.scheduler.reschedule pointer = .ok (scheduler, decision) →
      Behaves arena w { w.withScheduler scheduler with control := decision.control }
  | dispatch {w : World H} {scheduler : Scheduler H} {decision : Decision} :
      w.control = .idle →
      w.scheduler.dispatch = .ok (scheduler, decision) →
      Behaves arena w { w.withScheduler scheduler with control := decision.control }

/-- The worlds that programs come to which use the stacks of an arena and behave. -/
inductive Behaved [GuardingHardware H] (arena : List StackRange) : World H → Prop
  | start (hardware : H) (signals : Nat) (memory : List Stack) (trampoline : UInt32) :
      Behaved arena (World.start hardware signals memory trampoline)
  | step {w w' : World H} : Behaved arena w → Behaves arena w w' → Behaved arena w'

theorem Behaves.step [GuardingHardware H] (h : Behaves arena w w') : Step w w' := by
  cases h with
  | call hexec hmay _ hok => exact .call hexec hmay hok
  | post hok => exact .post hok
  | alarm hok => exact .alarm hok
  | elapse _ => exact .elapse
  | reschedule hleaving _ hok => exact .reschedule hleaving hok
  | dispatch hidle hok => exact .dispatch hidle hok

theorem Behaves.passage [GuardingHardware H] (h : Behaves arena w w')
    (hs : w.scheduler.Standing) : Passage arena w.scheduler w'.scheduler := by
  cases h with
  | call _ _ hallowed hok =>
      refine Kernel.passage_of_attempt hs hok ?_
      rintro entry param number rfl _
      rcases hallowed with ⟨_, _, _, _, hblocking⟩ | hpermits
      · contradiction
      · exact hpermits
  | post hok => exact Kernel.passage_of_post hs hok
  | alarm hok => exact hs.passage_of_handleAlarm hok
  | elapse _ => exact .lasted rfl (.refl _)
  | reschedule _ _ hok => exact hs.passage_of_reschedule hok
  | dispatch _ hok => exact hs.passage_of_dispatch hok

theorem Behaved.reached [GuardingHardware H] (h : Behaved arena w) : Reached w := by
  induction h with
  | start hardware signals memory trampoline => exact .start hardware signals memory trampoline
  | step _ hstep ih => exact ih.step hstep.step

/-! ## Runs that are computed -/

instance (w : World H) (number : Nat) : Decidable (w.HasRun number) :=
  decidable_of_iff (∃ notice ∈ w.scheduler.chronicle,
      notice.startedOn = some (w.kernel.rangeAt number)) <| by
    constructor
    · rintro ⟨notice, hmem, hstarted⟩
      cases notice with
      | started id stack =>
          obtain rfl := Option.some.inj hstarted
          exact ⟨id, hmem⟩
      | _ => contradiction
    · rintro ⟨id, hmem⟩
      exact ⟨_, hmem, rfl⟩

instance (w : World H) (call : Call) : Decidable (w.Permits arena call) :=
  match call with
  | .start _ _ number => inferInstanceAs (Decidable (w.kernel.rangeAt number ∈ arena))
  | .exit _ | .sleepUntil _ => inferInstanceAs (Decidable (w.scheduler.current ≠ none))
  | .wait number => inferInstanceAs (Decidable (∃ signal ∈ w.kernel.signals[number]?,
      w.scheduler.current = none → signal.tryTake.2 = true))
  | .join number | .tryJoin number => inferInstanceAs (Decidable (w.HasRun number ∧
      ∀ id ∈ w.scheduler.current, (w.scheduler.record id).stack ≠ w.kernel.rangeAt number))
  | .post number | .tryTake number | .signalState number =>
      inferInstanceAs (Decidable (number < w.kernel.signals.length))
  | .wake _ => .isFalse id
  | .giveWay | .taskOn _ | .current | .now | .headroom _ | .overwrite .. => .isTrue trivial

instance (w : World H) (call : Call) : Decidable (w.Repeats call) :=
  decidable_of_iff (∃ id ∈ w.scheduler.current, ∃ blocking ∈ w.inside id.index,
      call.blocking = some blocking)
    ⟨fun ⟨id, hcurrent, blocking, hinside, h⟩ => ⟨id, blocking, hcurrent, hinside, h⟩,
      fun ⟨id, blocking, hcurrent, hinside, h⟩ => ⟨id, hcurrent, blocking, hinside, h⟩⟩

instance (w : World H) (pointer : Address) : Decidable (w.Suspendable pointer) :=
  decidable_of_iff ((∀ id ∈ w.scheduler.current,
      (w.scheduler.record id).stack.holds pointer = true) ∧
        (w.scheduler.current = none → pointer ≠ 0))
    ⟨fun h => ⟨h.1, h.2⟩, fun h => ⟨h.task, h.mainline⟩⟩

def Allows (arena : List StackRange) (w : World H) : Action → Prop
  | .call call => w.Repeats call ∨ w.Permits arena call
  | .reschedule pointer => w.Suspendable pointer

instance (w : World H) (action : Action) : Decidable (w.Allows arena action) :=
  match action with
  | .call call => inferInstanceAs (Decidable (w.Repeats call ∨ w.Permits arena call))
  | .reschedule pointer => inferInstanceAs (Decidable (w.Suspendable pointer))

def conduct [Hardware H] (arena : List StackRange) (w : World H) :
    List Action → Option (World H)
  | [] => some w
  | action :: actions =>
      if w.Allows arena action then (w.act action).bind fun w => w.conduct arena actions else none

variable [GuardingHardware H]

theorem Behaves.of_act {action : Action} (hallowed : w.Allows arena action)
    (h : w.act action = some w') : Behaves arena w w' := by
  cases action with
  | call call =>
      simp only [act, Option.ite_none_right_eq_some, Option.map_eq_some_iff] at h
      obtain ⟨⟨hexec, hmay⟩, ⟨kernel, progress⟩, hok, rfl⟩ := h
      exact .call hexec hmay hallowed (toOption_eq_some.mp hok)
  | reschedule pointer =>
      simp only [act, Option.ite_none_right_eq_some, Option.map_eq_some_iff] at h
      obtain ⟨hleaving, ⟨scheduler, decision⟩, hok, rfl⟩ := h
      exact .reschedule hleaving hallowed (toOption_eq_some.mp hok)

theorem Behaved.conduct {actions : List Action} (h : Behaved arena w)
    (hrun : w.conduct arena actions = some w') : Behaved arena w' := by
  induction actions generalizing w with
  | nil =>
      obtain rfl := Option.some.inj hrun
      exact h
  | cons action actions ih =>
      obtain ⟨hallowed, hrest⟩ := Option.ite_none_right_eq_some.mp hrun
      obtain ⟨u, hact, hrest⟩ := Option.bind_eq_some_iff.mp hrest
      exact ih (h.step (.of_act hallowed hact)) hrest

end World

end CoopTasks
