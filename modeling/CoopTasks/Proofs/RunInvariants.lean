import CoopTasks.Proofs.Accounting
import CoopTasks.Proofs.Expiry
import CoopTasks.Proofs.SlotSteps
import CoopTasks.Proofs.Guarding
import CoopTasks.Proofs.Liveness

/-!
Runs on hardware that keeps its word.

A step of a world has its scheduler perform an operation (`Kernel.Performs`),
so a run inherits what holds of all sequences of operations: the saved pointers
tell who lives, the guards of the tasks are granted, and the busy times fit the
clock.  `World.ProperlyReached` collects this for runs in which time does not go back
and everybody is suspended where they may be.  Wakes come as they like.
-/

namespace CoopTasks

open Scheduler

namespace Scheduler

section Driven

variable {H : Type} [Hardware H] {s t u v w : Scheduler H} {id : TaskId}
variable {run sleep rest woken : List TaskId} {pointer : Address}

theorem Settled.driven (h : Settled s id run sleep t) :
    Hardware.Driven s.hardware t.hardware := by
  cases h with
  | parked _ _ hhardware | asleep _ _ _ _ _ hhardware | requeued _ _ _ _ _ hhardware =>
      exact .of_eq hhardware
  | @finished u _ _ _ _ _ hmoved hhardware hwake =>
      have hunguarded : Hardware.Driven s.hardware u.hardware := by
        rcases hhardware with hsame | ⟨region, hunguard⟩
        · exact .of_eq hsame
        · exact Hardware.Driven.none.unguardStack hunguard
      exact hunguarded.trans (hmoved.standing.related_wakeWaiter alarmBlind_driven hwake)

theorem Switched.driven {decision : Decision}
    (h : Switched s pointer t decision id rest woken u v w) :
    Hardware.Driven s.hardware t.hardware := by
  have hsettled := h.settled.driven.trans h.rearmed.driven
  rwa [h.suspended.hardware, ← h.dispatched.hardware] at hsettled

theorem Performed.driven {op : Operation} {decision : Option Decision}
    (h : Performed s op t decision) (hs : s.Standing) : Hardware.Driven s.hardware t.hardware := by
  by_cases hspawns : op.spawns = true
  · cases h with
    | refused => exact .none
    | started hstarted =>
        rw [hstarted.hardware]
        exact Hardware.Driven.none.guardStack _
    | _ => contradiction
  · by_cases hswitches : op.switches = true
    · cases h with
      | switched hswitched => exact hswitched.driven
      | _ => contradiction
    · rw [Bool.not_eq_true] at hspawns hswitches
      exact h.related hs alarmBlind_driven hspawns hswitches

theorem Performed.now_eq {H : Type} [PromptHardware H] {s t : Scheduler H} {op : Operation}
    {decision : Option Decision} (h : Performed s op t decision) (hs : s.Standing) :
    t.now = s.now :=
  PromptHardware.now_driven (h.driven hs)

end Driven

end Scheduler

/-! ## Steps as operations -/

namespace Kernel

variable {H : Type} [Hardware H] {k k' : Kernel H}

/-- What a call may have the scheduler do, once its decision stack is ready. -/
inductive Performs (k k' : Kernel H) : Prop
  | nothing : k'.scheduler = k.scheduler → Performs k k'
  | operation {hardware : H} (op : Operation) :
      hardware = k.scheduler.hardware ∨
        hardware = Hardware.readyDecisionStack k.scheduler.hardware →
      (op.plain || op.spawns) = true →
      op.shelters = true →
      { k.scheduler with hardware }.perform op = .ok (k'.scheduler, none) →
      Performs k k'

theorem Performs.of_plain (op : Operation) (hplain : op.plain = true)
    (hok : k.scheduler.perform op = .ok (k'.scheduler, none)) : Performs k k' := by
  refine .operation op (.inl rfl) (by rw [hplain]; rfl) ?_ hok
  cases op <;> first | rfl | contradiction

theorem performs_of_start (husable : ∀ range ∈ k.ranges, range.Usable) {entry param : UInt32}
    {number : Nat} {progress : Progress Unit}
    (hok : k.start entry param number = .ok (k', progress)) : Performs k k' := by
  unfold start at hok
  dsimp only at hok
  split at hok
  · rw [pure_eq_ok, Prod.mk.injEq] at hok
    exact .nothing (by rw [hok.1])
  · simp only [bind_eq_ok, Prod.exists] at hok
    obtain ⟨stack, pointer, hsetUp, scheduler, outcome, hspawn, hok⟩ := hok
    cases outcome with
    | error reason => contradiction
    | ok id =>
        rw [pure_eq_ok, Prod.mk.injEq] at hok
        obtain ⟨rfl, _⟩ := hok
        obtain ⟨hle, rfl⟩ := setUp_eq_ok hsetUp
        have hlt : number < k.memory.length := by
          by_cases hlt : number < k.memory.length
          · exact hlt
          · rw [stackAt, List.getElem?_eq_none (by omega)] at hle
            simp [frameWords] at hle
        have hrange : (k.stackAt number).range.Usable := husable _ (rangeAt_mem hlt)
        rw [Stack.range_setUp hsetUp] at hspawn
        refine .operation (.spawn (k.stackAt number).range (k.stackAt number).freshPointer)
          ?_ rfl ?_ (perform_spawn_eq_ok.mpr ⟨⟨_, hspawn⟩, rfl⟩)
        · split
          · exact .inr rfl
          · exact .inl rfl
        · rw [Operation.shelters, Stack.holds_freshPointer hrange, decide_eq_true hrange.bottom]
          rfl

theorem perform_of_wake {id : TaskId} (hok : k.wake id = .ok k') :
    k.scheduler.perform (.wake id) = .ok (k'.scheduler, none) := by
  obtain ⟨scheduler, hwake, rfl⟩ := ok_wake hok
  exact bind_eq_ok.mpr ⟨scheduler, hwake, rfl⟩

theorem perform_of_post {number : Nat} (hok : k.post number = .ok k') :
    ∃ signal, k.scheduler.perform (.post signal) = .ok (k'.scheduler, none) := by
  simp only [post, bind_eq_ok, pure_eq_ok, Prod.exists] at hok
  obtain ⟨signal, _, scheduler, signal', hpost, rfl⟩ := hok
  exact ⟨signal, bind_eq_ok.mpr ⟨_, hpost, rfl⟩⟩

theorem performs_of_attempt (husable : ∀ range ∈ k.ranges, range.Usable) {call : Call}
    {progress : Progress call.Answer} (hok : k.attempt call = .ok (k', progress)) :
    Performs k k' := by
  cases call <;> simp only [attempt, exit, sleepUntil, wait, join, tryTake, tryJoin, bind_eq_ok,
    pure_eq_ok, Prod.mk.injEq, Prod.exists] at hok
  case start => exact performs_of_start husable hok
  case exit code =>
      obtain ⟨scheduler, hmark, rfl, _⟩ := hok
      exact .of_plain (.markExiting code) rfl (bind_eq_ok.mpr ⟨_, hmark, rfl⟩)
  case sleepUntil deadline =>
      obtain ⟨scheduler, hmark, rfl, _⟩ := hok
      exact .of_plain (.markAsleep deadline) rfl (bind_eq_ok.mpr ⟨_, hmark, rfl⟩)
  case wait =>
      obtain ⟨signal, _, scheduler, signal', result, hattempt, rfl, _⟩ := hok
      exact .of_plain (.attemptWait signal) rfl (bind_eq_ok.mpr ⟨_, hattempt, rfl⟩)
  case join =>
      obtain ⟨target, _, scheduler, result, hattempt, rfl, _⟩ := hok
      exact .of_plain (.attemptJoin target) rfl (bind_eq_ok.mpr ⟨_, hattempt, rfl⟩)
  case wake =>
      obtain ⟨kernel, hwake, rfl, _⟩ := hok
      exact .of_plain (.wake _) rfl (perform_of_wake hwake)
  case post =>
      obtain ⟨kernel, hpost, rfl, _⟩ := hok
      obtain ⟨signal, hperform⟩ := perform_of_post hpost
      exact .of_plain (.post signal) rfl hperform
  case tryTake =>
      obtain ⟨kernel, taken, ⟨_, _, rfl, _⟩, rfl, _⟩ := hok
      exact .nothing rfl
  case tryJoin =>
      obtain ⟨kernel, code, ⟨target, _, scheduler, _, htry, rfl, _⟩, rfl, _⟩ := hok
      exact .of_plain (.tryJoin target) rfl (bind_eq_ok.mpr ⟨_, htry, rfl⟩)
  case signalState =>
      obtain ⟨_, _, rfl, _⟩ := hok
      exact .nothing rfl
  all_goals
    obtain ⟨rfl, _⟩ := hok
    exact .nothing rfl

theorem Called.exiting_or_awake {call : Call} {control : Control} {retries : Bool} {slot : Nat}
    (h : Called k call k' control retries) (hs : k.scheduler.Standing) (hslot : slot ∈ slots)
    (hawake : ∀ id, k.scheduler.current = some id → (k.scheduler.record id).sleepCount ≤ 0) :
    (k'.scheduler.tasks.record slot).exiting = (k.scheduler.tasks.record slot).exiting ∨
      (k'.scheduler.tasks.record slot).sleepCount ≤ 0 := by
  have inert {α : Type} {part : TaskRecord → α} (hpart : TaskRecord.Inert part) {ids : List TaskId}
      (hwakes : Wakes k.scheduler ids k'.scheduler) :
      part (k'.scheduler.tasks.record slot) = part (k.scheduler.tasks.record slot) :=
    hwakes.inert hpart slot
  cases h with
  | quiet _ _ hscheduler _ _ => exact .inl (by rw [hscheduler])
  | @started _ _ hardware _ _ id _ hstarted _ _ =>
      by_cases he : slot = id.index
      · subst he
        right
        rw [show k'.scheduler.tasks.record id.index = _ from hstarted.self]
        exact Int.le_refl 0
      · left
        rw [hstarted.record_other hslot he]
  | @exiting _ t _ id _ hcurrent hmoved =>
      by_cases he : slot = id.index
      · subst he
        right
        change (t.record id).sleepCount ≤ 0
        rw [hmoved.self]
        exact hawake id hcurrent
      · left
        change (t.tasks.record slot).exiting = _
        rw [hmoved.other he]
  | asleep _ _ hmoved => exact .inl (hmoved.field TaskRecord.exiting (fun _ => rfl) slot)
  | waited _ hattempted =>
      exact .inl (congrArg Prod.fst (hattempted.inert TaskRecord.inert_exit slot))
  | joined _ _ hattempted hmoved =>
      exact .inl ((hmoved.field TaskRecord.exiting (fun _ => rfl) slot).trans
        (congrArg Prod.fst (hattempted.inert TaskRecord.inert_exit slot)))
  | woken hok =>
      obtain ⟨scheduler, hwake, rfl⟩ := ok_wake hok
      obtain ⟨ids, hwakes⟩ := hs.wakes_of_wake hwake
      exact .inl (congrArg Prod.fst (inert TaskRecord.inert_exit hwakes))
  | posted hok =>
      obtain ⟨signal, scheduler, _, hwake, rfl⟩ := ok_post hok
      obtain ⟨ids, hwakes⟩ := hs.wakes_of_wakeWaiter hwake
      exact .inl (congrArg Prod.fst (inert TaskRecord.inert_exit hwakes))
  | took _ => exact .inl rfl
  | tried _ hmoved => exact .inl (hmoved.field TaskRecord.exiting (fun _ => rfl) slot)

end Kernel

namespace World

/-! ## Sleeps of those who exit or wait -/

section WaitsUntimed

variable {H : Type} [Hardware H] {w w' : World H} {event : Event} {slot : Nat}

structure WaitsUntimed (w : World H) (slot : Nat) : Prop where
  exiting : (w.record slot).exiting = true → (w.record slot).sleepCount ≤ 0
  endless : w.inside slot ≠ none → 0 < (w.record slot).sleepCount →
    (w.record slot).wakeAt = Instant.never

theorem WaitersHeard.exiting_occurs (h : w.WaitersHeard) (hoccurs : Occurs w event w')
    (hslot : slot ∈ slots) :
    (w'.record slot).exiting = (w.record slot).exiting ∨ (w'.record slot).sleepCount ≤ 0 := by
  have hs := h.orderly.standing
  cases hoccurs.step.happened hs with
  | called hexec _ hok _ =>
      exact (Kernel.called_of_attempt hs hok).exiting_or_awake hs hslot fun id hcurrent =>
        (h.orderly.caller hexec hcurrent).count
  | interrupted hwakes _ => exact .inl (congrArg Prod.fst (hwakes.inert TaskRecord.inert_exit slot))
  | switched _ hswitched _ =>
      exact .inl ((congrArg Prod.fst
        (hswitched.inert TaskRecord.inert_exit fun _ _ _ => rfl)).trans
          (hswitched.suspended.field TaskRecord.exiting (fun _ => rfl) slot))
  | dispatched _ hdispatched _ =>
      exact .inl (hdispatched.field TaskRecord.exiting (fun _ _ => rfl) slot)

omit [Hardware H] in
theorem WaitersHeard.executes_awake (h : w.WaitersHeard) (hexecutes : w.Executes slot)
    (hslot : slot ∈ slots) :
    (w.record slot).sleepCount ≤ 0 ∧ (w.record slot).exiting = false := by
  have hcaller := h.orderly.caller hexecutes.1 hexecutes.2
  have hindex := index_idOf w.scheduler (mem_slots.mp hslot).2
  exact ⟨hindex ▸ hcaller.count, hindex ▸ hcaller.exiting⟩

theorem WaitsUntimed.occurs (h : w.WaitsUntimed slot) (hwaiters : w.WaitersHeard)
    (hoccurs : Occurs w event w') (hslot : slot ∈ slots) : w'.WaitsUntimed slot := by
  have hexiting := hwaiters.exiting_occurs hoccurs hslot
  cases hwaiters.fared hoccurs hslot with
  | kept hsame hinside _ =>
      refine ⟨fun he => ?_, fun hin hcount => ?_⟩
      · rcases hexiting with hkept | hawake
        · rw [hsame.count]
          exact h.exiting (hkept ▸ he)
        · exact hawake
      · rw [hsame.wakeAt]
        exact h.endless (hinside ▸ hin) (hsame.count ▸ hcount)
  | slept hexecutes _ hinside hsame =>
      refine ⟨fun he => ?_, fun hin => absurd hinside hin⟩
      rcases hexiting with hkept | hawake
      · rw [hkept, (hwaiters.executes_awake hexecutes hslot).2] at he
        contradiction
      · exact hawake
  | tried hexecutes hsame _ =>
      have hawake := (hwaiters.executes_awake hexecutes hslot).1
      rw [← hsame.count] at hawake
      exact ⟨fun _ => hawake, fun _ hcount => absurd hcount (Int.not_lt.mpr hawake)⟩
  | parked hexecutes hsame =>
      refine ⟨fun he => ?_, fun _ _ => hsame.wakeAt⟩
      rcases hexiting with hkept | hawake
      · rw [hkept, (hwaiters.executes_awake hexecutes hslot).2] at he
        contradiction
      · exact hawake
  | roused hsame _ _ _ =>
      refine ⟨fun he => ?_, fun _ _ => hsame.wakeAt⟩
      rcases hexiting with hkept | hawake
      · have hcount : (w'.record slot).sleepCount = (w.record slot).sleepCount - 1 := hsame.count
        have hle := h.exiting (hkept ▸ he)
        omega
      · exact hawake
  | started _ hcount hinside =>
      exact ⟨fun _ => Int.le_of_eq hcount, fun hin => absurd hinside hin⟩

end WaitsUntimed

/-! ## Runs -/

section Runs

variable {H : Type} [PromptHardware H] {s t : Scheduler H} {working : Bool} {op : Operation}
variable {w w' : World H} {event : Event} {events : List Event}

structure Operated (s : Scheduler H) (working : Bool) : Prop where
  sheltered : Sheltered s
  secured : s.Secured
  clocked : ∃ entries shift, Clocked false entries shift s ∧ shift.isWorking = working

theorem operated_new (hardware : H) : Operated (Scheduler.new hardware) true :=
  ⟨.new, secured_new hardware, _, _, .boot, rfl⟩

theorem Operated.standing (h : Operated s working) : s.Standing :=
  h.sheltered.reachable.invariants.1

theorem Operated.elapse (h : Operated s working) {hardware : H}
    (honward : Hardware.Onward s.hardware hardware) : Operated { s with hardware } working := by
  obtain ⟨entries, shift, hclocked, hworking⟩ := h.clocked
  exact ⟨h.sheltered.elapse, h.secured.onward (fun _ => rfl) honward, entries, shift,
    hclocked.elapse honward.now_le, hworking⟩

theorem Operated.perform (h : Operated s working) (hop : (op.plain || op.spawns) = true)
    (hshelters : op.shelters = true) (hturn : op.interrupts = true ∨ working = true)
    (hok : s.perform op = .ok (t, none)) : Operated t working := by
  obtain ⟨entries, shift, hclocked, rfl⟩ := h.clocked
  have hnow := (h.standing.perform hok).now_eq h.standing
  have hclock : ∃ added, clock shift s t op none = some (added, shift) := by
    cases op with
    | spawn stack pointer => exact ⟨_, if_pos (hturn.resolve_left nofun)⟩
    | reschedule pointer | dispatch => contradiction
    | wake | post | handleAlarm => exact ⟨[], rfl⟩
    | _ =>
        have hworking := hturn.resolve_left nofun
        exact ⟨[], if_pos (by rw [hworking, Bool.or_true])⟩
  obtain ⟨added, hclock⟩ := hclock
  refine ⟨h.sheltered.perform hshelters hok, h.secured.perform h.standing hok, _, shift,
    hclocked.perform hok ?_ nofun hclock, rfl⟩
  rw [hnow]
  exact Instant.le_refl _

theorem Operated.reschedule (h : Operated s true) {pointer : Address} {decision : Decision}
    (hok : s.reschedule pointer = .ok (t, decision)) :
    Operated t (decide (decision.control ≠ .idle)) := by
  obtain ⟨entries, shift, hclocked, hworking⟩ := h.clocked
  have hperform := perform_reschedule_eq_ok.mpr ⟨decision, hok, rfl⟩
  have hnow := (h.standing.perform hperform).now_eq h.standing
  cases shift with
  | idle since => contradiction
  | working id since =>
      refine ⟨h.sheltered.perform rfl hperform, h.secured.perform h.standing hperform, _, _,
        hclocked.perform hperform (hnow ▸ Instant.le_refl _) nofun rfl, ?_⟩
      cases decision with
      | idle => rfl
      | resume pointer =>
          show (if t.runQueue = [] then _ else _ : List TimeEntry × Shift).2.isWorking = true
          split <;> rfl

theorem Operated.dispatch (h : Operated s false) {decision : Decision}
    (hok : s.dispatch = .ok (t, decision)) :
    Operated t (decide (decision.control ≠ .idle)) := by
  obtain ⟨entries, shift, hclocked, hworking⟩ := h.clocked
  have hperform := perform_dispatch_eq_ok.mpr ⟨decision, hok, rfl⟩
  have hnow := (h.standing.perform hperform).now_eq h.standing
  cases shift with
  | working id since => contradiction
  | idle since =>
      cases decision with
      | idle | resume _ =>
          exact ⟨h.sheltered.perform rfl hperform, h.secured.perform h.standing hperform, _, _,
            hclocked.perform hperform (hnow ▸ Instant.le_refl _) nofun rfl, rfl⟩

theorem Operated.performs {k k' : Kernel H} (h : Operated k.scheduler true)
    (hperforms : k.Performs k') : Operated k'.scheduler true := by
  cases hperforms with
  | nothing hsame => exact hsame ▸ h
  | @operation hardware op hhardware hop hshelters hok =>
      refine Operated.perform (h.elapse ?_) hop hshelters (.inr rfl) hok
      rcases hhardware with rfl | rfl
      · exact .refl _
      · exact SteadyHardware.readyDecisionStack_onward _

/--
Time does not go back and takes no guard away, and whoever is suspended is
inside of its stack.
-/
def Properly (w : World H) : Event → World H → Prop
  | .elapse, w' => Hardware.Onward w.scheduler.hardware w'.scheduler.hardware
  | .reschedule pointer, _ => w.Suspendable pointer
  | _, _ => True

/-- What holds of every world that such a run on proper stacks comes to. -/
structure ProperlyReached (w : World H) : Prop where
  reached : Reached w
  usable : ∀ range ∈ w.kernel.ranges, range.Usable
  operated : Operated w.scheduler (decide (w.control ≠ .idle))
  saved : w.Saved
  waitsUntimed : ∀ slot ∈ slots, w.WaitsUntimed slot

theorem properlyReached_start (hardware : H) (signals : Nat) (memory : List Stack)
    (trampoline : UInt32) (husable : ∀ stack ∈ memory, stack.range.Usable) :
    (World.start hardware signals memory trampoline).ProperlyReached := by
  refine ⟨.start _ signals memory trampoline, ?usable, operated_new hardware, ?saved, ?waitsUntimed⟩
  case usable =>
    intro range hrange
    obtain ⟨stack, hstack, rfl⟩ := List.mem_map.mp hrange
    exact husable stack hstack
  case saved =>
    refine fun _ => ⟨nofun, ?_⟩
    show (Scheduler.new _).current = none
    unfold current
    rw [(placed_new _).ready_head]
    rfl
  case waitsUntimed =>
    refine fun slot _ => ⟨fun hexiting => ?_, fun hinside => absurd rfl hinside⟩
    have hvacant : ((TaskTable.vacant slotCount).record slot).exiting = false :=
      congrArg TaskRecord.exiting (TaskTable.record_vacant slot)
    exact absurd (hvacant.symm.trans hexiting) Bool.false_ne_true

theorem Operated.occurs (h : Operated w.scheduler (decide (w.control ≠ .idle)))
    (husable : ∀ range ∈ w.kernel.ranges, range.Usable) (hoccurs : Occurs w event w')
    (hproperly : Properly w event w') :
    Operated w'.scheduler (decide (w'.control ≠ .idle)) := by
  cases hoccurs with
  | call hexec _ hok =>
      rw [hexec] at h
      rw [decide_eq_true (Progress.control_ne_idle _)]
      exact h.performs (Kernel.performs_of_attempt husable hok)
  | wake hok => exact h.perform rfl rfl (.inl rfl) (Kernel.perform_of_wake hok)
  | post hok =>
      obtain ⟨signal, hperform⟩ := Kernel.perform_of_post hok
      exact h.perform rfl rfl (.inl rfl) hperform
  | alarm hok =>
      have hperform : w.scheduler.perform .handleAlarm = .ok (_, none) :=
        bind_eq_ok.mpr ⟨_, hok, rfl⟩
      exact h.perform rfl rfl (.inl rfl) hperform
  | elapse => exact h.elapse hproperly
  | reschedule hleaving hok =>
      rw [hleaving] at h
      exact h.reschedule hok
  | dispatch hidle hok =>
      rw [hidle] at h
      exact h.dispatch hok

theorem ProperlyReached.occurs (h : w.ProperlyReached) (hoccurs : Occurs w event w')
    (hproperly : Properly w event w') : w'.ProperlyReached := by
  have hwaiters := h.reached.waitersHeard
  have hbottoms : ∀ range ∈ w.kernel.ranges, range.bottom ≠ 0 := fun range hrange =>
    (h.usable range hrange).bottom
  refine ⟨h.reached.step hoccurs.step, hoccurs.step.ranges ▸ h.usable,
    h.operated.occurs h.usable hoccurs hproperly, ?saved,
    fun slot hslot => (h.waitsUntimed slot hslot).occurs hwaiters hoccurs hslot⟩
  case saved =>
    refine h.saved.occurs (h.reached.onlyTasksQueued hbottoms) hbottoms hoccurs
      (hoccurs.step.passage hwaiters.orderly.standing) ?_
    rintro pointer rfl
    exact hproperly

theorem Along.properlyReached (h : Along Properly w events w') (hw : w.ProperlyReached) :
    w'.ProperlyReached := by
  induction h with
  | none => exact hw
  | step _ hoccurs hproperly ih => exact ih.occurs hoccurs hproperly

end Runs

end World

end CoopTasks
