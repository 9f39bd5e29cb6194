import CoopTasks.Proofs.Deadlines
import CoopTasks.Simulation.Board

/-!
The alarm of the hardware against the deadline that the scheduler has armed.

`AlarmHardware` is hardware whose alarm can be seen, and `Ran` are the states
of a scheduler on it.  The clock, and whether a deadline is accepted, are up to
the hardware, which may change in every respect but its alarm between two
operations.
-/

namespace CoopTasks

class AlarmHardware (H : Type) extends Hardware H where
  alarm : H → Option Instant
  alarm_setAlarm : ∀ (h : H) (deadline : Instant), alarm (Hardware.setAlarm h deadline).1 =
    if (Hardware.setAlarm h deadline).2 then some deadline else none
  alarm_clearAlarm : ∀ h : H, alarm (Hardware.clearAlarm h) = none
  alarm_guardStack : ∀ (h : H) (stack : StackRange),
    alarm (Hardware.guardStack h stack).1 = alarm h
  alarm_unguardStack : ∀ (h h' : H) (region : UInt8),
    Hardware.unguardStack h region = .ok h' → alarm h' = alarm h

instance : AlarmHardware Board where
  alarm := Board.alarm
  alarm_setAlarm _ _ := rfl
  alarm_clearAlarm _ := rfl
  alarm_guardStack b stack := by
    change (b.guardStack stack).1.alarm = b.alarm
    unfold Board.guardStack
    split <;> rfl
  alarm_unguardStack b b' region hok := by
    change b.unguardStack region = .ok b' at hok
    simp only [Board.unguardStack, bind_eq_ok, pure_eq_ok] at hok
    obtain ⟨_, _, rfl⟩ := hok
    rfl

namespace Scheduler

open AlarmHardware

variable {H : Type} [AlarmHardware H] {s t u : Scheduler H} {id : TaskId}
variable {run sleep : List TaskId} {change : TaskRecord → TaskRecord} {faithful : Bool}

/--
The states of a scheduler.  In a faithful run the handler of the alarm is
called only when the alarm has gone off, which clears it.
-/
inductive Ran (faithful : Bool) : Scheduler H → Prop
  | new {hardware : H} :
      (faithful = true → alarm hardware = none) →
      Ran faithful (new hardware)
  | elapse {s : Scheduler H} {hardware : H} :
      Ran faithful s →
      alarm hardware = alarm s.hardware →
      Ran faithful { s with hardware }
  | perform {s t : Scheduler H} {op : Operation} {decision : Option Decision} :
      Ran faithful s →
      (op = .handleAlarm → faithful = false) →
      s.perform op = .ok (t, decision) →
      Ran faithful t
  | fire {s t : Scheduler H} {hardware : H} :
      Ran faithful s →
      alarm hardware = none →
      { s with hardware }.handleAlarm = .ok t →
      Ran faithful t

/-! ## The alarm is set for what is armed -/

structure Watched (faithful : Bool) (s : Scheduler H) : Prop where
  set : ∀ deadline, s.armed = some deadline → alarm s.hardware = some deadline
  only : faithful = true → alarm s.hardware = s.armed

theorem Watched.of_eq (h : alarm s.hardware = s.armed) : s.Watched faithful :=
  ⟨fun _ harmed => h.trans harmed, fun _ => h⟩

theorem Watched.congr (h : s.Watched faithful) (harmed : t.armed = s.armed)
    (halarm : alarm t.hardware = alarm s.hardware) : t.Watched faithful := by
  constructor
  · intro deadline hdeadline
    rw [halarm]
    exact h.set deadline (harmed.symm.trans hdeadline)
  · intro hfaithful
    rw [halarm, harmed]
    exact h.only hfaithful

theorem Woke.watched (h : Woke s id t) (hs : s.Watched faithful) : t.Watched faithful :=
  hs.congr h.armed (congrArg alarm h.hardware)

theorem Rearmed.watched {ids : List TaskId} (h : Rearmed s ids t) (hs : s.Watched faithful) :
    t.Watched faithful := by
  induction h with
  | empty _ => exact hs
  | kept _ _ => exact hs
  | @accepted s head hardware _ _ hset =>
      apply Watched.of_eq
      have halarm := alarm_setAlarm s.hardware (s.record head).wakeAt
      rw [hset] at halarm
      exact halarm
  | @refused s v u head hardware ids _ _ _ hset hwoke _ ih =>
      apply ih
      apply hwoke.watched
      apply Watched.of_eq
      have halarm := alarm_setAlarm s.hardware (s.record head).wakeAt
      rw [hset] at halarm
      exact halarm

theorem Watched.wake (h : s.Watched faithful) (hs : s.Standing) (hok : s.wake id = .ok t) :
    t.Watched faithful := by
  obtain ⟨_, u, hwoke, ⟨_, rfl⟩ | ⟨_, ids, hrearmed⟩⟩ := hs.wake hok
  · exact hwoke.watched h
  · exact hrearmed.watched (.of_eq (alarm_clearAlarm u.hardware))

theorem Watched.wakeWaiter (h : s.Watched faithful) (hs : s.Standing) {waiter : Option TaskId}
    (hok : s.wakeWaiter waiter = .ok t) : t.Watched faithful := by
  cases waiter with
  | none =>
      obtain rfl := Except.ok.inj hok
      exact h
  | some id => exact h.wake hs hok

theorem Standing.watched_handleAlarm (hs : s.Standing)
    (halarm : faithful = true → alarm s.hardware = none) (hok : s.handleAlarm = .ok t) :
    t.Watched faithful := by
  obtain ⟨_, u, ids, more, hexpired, hrearmed⟩ := hs.handleAlarm hok
  apply hrearmed.watched
  obtain ⟨harmed, hhardware⟩ := hexpired.alarm_kept
  constructor
  · intro deadline hdeadline
    rw [harmed] at hdeadline
    contradiction
  · intro hfaithful
    rw [harmed, hhardware]
    exact halarm hfaithful

/-! ## Every operation keeps the alarm set -/

theorem Moved.watched (h : Moved s id change run sleep t) (hhardware : t.hardware = s.hardware)
    (hs : s.Watched faithful) : t.Watched faithful :=
  hs.congr h.armed (congrArg alarm hhardware)

theorem Settled.watched (h : Settled s id run sleep t) (hs : s.Watched faithful) :
    t.Watched faithful := by
  cases h with
  | parked _ hmoved hhardware => exact hmoved.watched hhardware hs
  | @finished v _ _ _ _ _ hmoved hhardware hwake =>
      have hv : v.Watched faithful := by
        apply hs.congr hmoved.armed
        rcases hhardware with hhardware | ⟨region, hunguard⟩
        · rw [hhardware]
        · exact alarm_unguardStack _ _ region hunguard
      exact hv.wakeWaiter hmoved.standing hwake
  | asleep _ _ _ _ hmoved hhardware => exact hmoved.watched hhardware hs
  | requeued _ _ _ _ hmoved hhardware => exact hmoved.watched hhardware hs

theorem Dispatched.watched {decision : Decision} (h : Dispatched s t decision)
    (hs : s.Watched faithful) : t.Watched faithful := by
  cases h with
  | resumed _ _ hmoved hhardware => exact hmoved.watched hhardware hs
  | drained _ _ _ hmoved hhardware => exact hmoved.watched hhardware hs
  | idle _ _ => exact hs

theorem Attempted.watched {w w' : Signal} {result : WaitResult} (h : Attempted s w t w' result)
    (hs : s.Watched faithful) : t.Watched faithful := by
  cases h with
  | acquired _ => exact hs
  | parked _ _ _ _ _ hmoved hhardware => exact hmoved.watched hhardware hs
  | busy _ _ _ _ _ => exact hs

theorem Performed.watched {op : Operation} {decision : Option Decision}
    (h : Performed s op t decision) (hs : s.Standing)
    (halarm : op = .handleAlarm → faithful = true → alarm s.hardware = none)
    (hwatched : s.Watched faithful) : t.Watched faithful := by
  cases h with
  | refused => exact hwatched
  | @started _ stack _ _ hstarted =>
      apply hwatched.congr hstarted.armed
      rw [hstarted.hardware]
      exact alarm_guardStack s.hardware stack
  | switched hswitched =>
      apply hswitched.dispatched.watched
      apply hswitched.rearmed.watched
      apply hswitched.settled.watched
      exact hwatched.congr hswitched.suspended.armed (congrArg alarm hswitched.suspended.hardware)
  | dispatched hdispatched => exact hdispatched.watched hwatched
  | exiting _ hhardware hmoved => exact hmoved.watched hhardware hwatched
  | asleep _ hhardware hmoved => exact hmoved.watched hhardware hwatched
  | woken hwake => exact hwatched.wake hs hwake
  | posted hwake => exact hwatched.wakeWaiter hs hwake
  | attempted hattempted => exact hattempted.watched hwatched
  | joined hattempted hhardware hmoved =>
      exact hmoved.watched hhardware (hattempted.watched hwatched)
  | tried hhardware hmoved => exact hmoved.watched hhardware hwatched
  | handled halarmed => exact hs.watched_handleAlarm (halarm rfl) halarmed

/-! ## All runs -/

theorem Ran.invariants (h : Ran faithful s) : s.Standing ∧ s.Timely ∧ s.Watched faithful := by
  induction h with
  | @new hardware halarm =>
      refine ⟨standing_new hardware, timely_new hardware, ?_, halarm⟩
      intro deadline harmed
      contradiction
  | @elapse s hardware _ halarm ih =>
      obtain ⟨hs, htimely, hwatched⟩ := ih
      exact ⟨(alarmMoved s hardware s.armed).standing hs, htimely.congr rfl (fun _ _ => rfl) rfl,
        hwatched.congr rfl halarm⟩
  | perform _ hfaithful hok ih =>
      obtain ⟨hs, htimely, hwatched⟩ := ih
      have hperformed := hs.perform hok
      refine ⟨hperformed.standing hs, hperformed.timely hs htimely,
        hperformed.watched hs ?_ hwatched⟩
      intro hop htrue
      rw [hfaithful hop] at htrue
      contradiction
  | @fire s t hardware _ halarm hok ih =>
      obtain ⟨hs, htimely, _⟩ := ih
      have hs' := (alarmMoved s hardware s.armed).standing hs
      have htimely' : Timely { s with hardware } := htimely.congr rfl (fun _ _ => rfl) rfl
      exact ⟨(hs'.handleAlarm hok).1, htimely'.handleAlarm hs' hok,
        hs'.watched_handleAlarm (fun _ => halarm) hok⟩

theorem Ran.performAll (h : Ran faithful s) {ops : List Operation}
    (hops : Operation.handleAlarm ∉ ops) (hok : s.performAll ops = .ok t) : Ran faithful t := by
  refine performAll_preserves (P := Ran faithful) ?_ h hok
  intro s t op decision hmem hs hperform
  exact hs.perform (fun he => absurd (he ▸ hmem) hops) hperform

/-- The alarm is armed for the soonest deadline that a task sleeps until, and set for it. -/
theorem Ran.armed_soonest (h : Ran faithful s) :
    (s.sleepers.Pairwise fun a b => (s.record a).wakeAt ≤ (s.record b).wakeAt) ∧
      (∃ timed untimed, s.sleepers = timed ++ untimed ∧
        (∀ id ∈ timed, (s.record id).wakeAt ≠ Instant.never) ∧
        ∀ id ∈ untimed, (s.record id).wakeAt = Instant.never) ∧
      (∀ deadline, s.armed = some deadline ↔
        deadline ≠ Instant.never ∧ (∃ slot, s.SleepsUntil slot deadline) ∧
          ∀ slot other, s.SleepsUntil slot other → deadline ≤ other) ∧
      (s.armed = none ↔
        ∀ slot deadline, s.SleepsUntil slot deadline → deadline = Instant.never) ∧
      (∀ deadline, s.armed = some deadline → alarm s.hardware = some deadline) ∧
      (faithful = true → alarm s.hardware = s.armed) := by
  obtain ⟨hs, htimely, hwatched⟩ := h.invariants
  refine ⟨htimely.ordered, htimely.ordered.split, ?_, ?_, hwatched.set, hwatched.only⟩
  · intro deadline
    exact htimely.armed_eq_some_iff hs
  · exact htimely.armed_eq_none_iff hs

def oneSleeper : Except Fault (Scheduler Board) :=
  (new (Board.start Instant.zero)).performAll
    [.spawn ⟨0x20000000, 0x20000400⟩ 0x200003c8, .reschedule Board.mainlinePointer,
      .markAsleep ⟨500⟩, .reschedule 0x20000380]

theorem armed_soonest_oneSleeper :
    ∃ t : Scheduler Board, Ran true t ∧ t.SleepsUntil 1 ⟨500⟩ ∧ t.armed = some ⟨500⟩ ∧
      alarm t.hardware = some ⟨500⟩ := by
  cases hok : oneSleeper with
  | error fault =>
      have hsome : oneSleeper.toOption.isSome = true := by decide
      rw [hok] at hsome
      contradiction
  | ok t =>
      have hran : Ran true t := (Ran.new fun _ => rfl).performAll (by decide) hok
      obtain ⟨_, _, _, _, hset, _⟩ := hran.armed_soonest
      have harmed : oneSleeper.toOption.bind (fun t => t.armed) = some ⟨500⟩ := by decide
      have hstate : oneSleeper.toOption.map (fun t => (t.tasks.record 1).state) =
          some .sleeping := by decide
      have hwakeAt : oneSleeper.toOption.map (fun t => (t.tasks.record 1).wakeAt) =
          some ⟨500⟩ := by decide
      rw [hok] at harmed hstate hwakeAt
      exact ⟨t, hran, ⟨by decide, by decide, Option.some.inj hstate, Option.some.inj hwakeAt⟩,
        harmed, hset _ harmed⟩

end Scheduler

end CoopTasks
