import CoopTasks.Proofs.Exchange

/-!
Whom a switch leaves asleep although its deadline has passed.

A switch looks at no deadline as long as the alarm is armed for the first of
them.  If that one has passed and the alarm has not been handled yet, whoever
is due sleeps on (`Reachable.overdue_after_switch_iff`), unless the suspended
task has the alarm set anew (`Relieves`).
-/

namespace CoopTasks

open Scheduler

namespace Scheduler

variable {H : Type} {s t u v w : Scheduler H} {id joiner : TaskId}
variable {ids run sleep rest woken : List TaskId}
variable {change : TaskRecord → TaskRecord} {deadline : Instant} {pointer : Address}
variable {decision : Decision}

/-- What becomes of a suspended task has the alarm set anew, though it is armed for a deadline. -/
def Relieves (s : Scheduler H) (id : TaskId) (deadline : Instant) : Prop :=
  id.index ≠ 0 ∧
    ((s.record id).exiting = false ∧ 0 < (s.record id).sleepCount ∧
        (s.record id).wakeAt < deadline ∨
      (s.record id).exiting = true ∧ ∃ joiner, (s.record id).completion.waiter = some joiner ∧
        s.sleepers.head? = some joiner)

section Late

variable [Hardware H]

def Late (s : Scheduler H) : Prop :=
  ∃ m ∈ s.sleepers, s.overdue m = true

/-- The alarm is armed for the soonest deadline, and that one has passed. -/
structure Stuck (s : Scheduler H) (deadline : Instant) : Prop where
  armed : s.armed = some deadline
  soonest : s.soonest = some deadline
  passed : deadline ≤ s.now

theorem Late.congr (h : s.Late) (hnow : t.now = s.now) (hsleepers : t.sleepers = s.sleepers)
    (hwakeAt : ∀ m ∈ s.sleepers, (t.record m).wakeAt = (s.record m).wakeAt) : t.Late := by
  obtain ⟨m, hm, hpast⟩ := h
  refine ⟨m, by rwa [hsleepers], ?_⟩
  unfold overdue at hpast ⊢
  rwa [hnow, hwakeAt m hm]

theorem Stuck.congr (h : s.Stuck deadline) (harmed : t.armed = s.armed)
    (hsoonest : t.soonest = s.soonest) (hnow : t.now = s.now) : t.Stuck deadline :=
  ⟨harmed.trans h.armed, hsoonest.trans h.soonest, hnow ▸ h.passed⟩

theorem Timely.stuck_iff (h : s.Timely) :
    s.Stuck deadline ↔ s.armed = some deadline ∧ deadline ≤ s.now := by
  constructor
  · exact fun hstuck => ⟨hstuck.armed, hstuck.passed⟩
  · exact fun ⟨harmed, hpassed⟩ => ⟨harmed, h.armed ▸ harmed, hpassed⟩

theorem Stuck.late (h : s.Stuck deadline) : s.Late := by
  obtain ⟨head, hhead, rfl, hfinite⟩ := soonest_eq_some.mp h.soonest
  refine ⟨head, List.mem_of_head? hhead, overdue_iff.mpr ?_⟩
  have hpassed := h.passed
  rw [Instant.isNever_iff, Instant.lt_iff]
  rw [Instant.le_iff] at hpassed
  exact fun hkept => hkept.elim hfinite (by omega)

/-- If the alarm has not been set anew for the first of the late sleepers, it was armed for it. -/
theorem Armable.stuck_of_late (h : s.Armable) (hlate : s.Late) (htardy : s.tardy = false) :
    ∃ deadline, s.Stuck deadline := by
  obtain ⟨m, hm, hpast⟩ := hlate
  obtain ⟨head, hhead⟩ : ∃ head, s.sleepers.head? = some head :=
    ⟨_, List.head?_eq_some_head (List.ne_nil_of_mem hm)⟩
  have hle := h.ordered.head_le hhead hm
  rw [overdue_iff, not_or, Instant.isNever_iff, Instant.lt_iff] at hpast
  have hlast := (s.record m).wakeAt.le_never
  have hfinite : (s.record head).wakeAt ≠ Instant.never := by
    intro hnever
    rw [hnever] at hle
    rw [Instant.le_iff] at hle hlast
    exact hpast.1 (Instant.ext_iff_toNat.mpr (by omega))
  have hkept : s.armedBy (s.record head).wakeAt = true := by
    rw [tardy, hhead, Option.any_some, Bool.not_eq_false', Bool.or_eq_true,
      Instant.isNever_iff] at htardy
    exact htardy.resolve_left hfinite
  rw [armedBy, Option.any_eq_true] at hkept
  obtain ⟨deadline, harmed, hsoon⟩ := hkept
  rw [decide_eq_true_iff] at hsoon
  obtain ⟨hdeadline, other, hother, hwakeAt⟩ := h.armed deadline harmed
  have hfirst := h.ordered.head_le hhead hother
  rw [Instant.le_iff] at hle hsoon hfirst
  rw [hwakeAt] at hfirst
  refine ⟨deadline, harmed, soonest_eq_some.mpr ⟨head, hhead, ?_, hdeadline⟩, ?_⟩
  · exact Instant.ext_iff_toNat.mpr (by omega)
  · rw [Instant.le_iff]
    omega

theorem Stuck.tardy (h : s.Stuck deadline) : s.tardy = false := by
  obtain ⟨head, hhead, hwakeAt, _⟩ := soonest_eq_some.mp h.soonest
  have hkept : s.armedBy (s.record head).wakeAt = true := by
    rw [armedBy, h.armed, Option.any_some, hwakeAt, decide_eq_true_iff]
    exact Instant.le_iff.mpr (Nat.le_refl _)
  rw [Scheduler.tardy, hhead, Option.any_some, hkept, Bool.or_true, Bool.not_true]

theorem Rearmed.eq_of_not_tardy (h : Rearmed s ids t) (htardy : s.tardy = false) : t = s := by
  have hkept : ∀ head, s.sleepers.head? = some head →
      ((s.record head).wakeAt.isNever || s.armedBy (s.record head).wakeAt) = true := by
    intro head hhead
    rw [tardy, hhead, Option.any_some, Bool.not_eq_false'] at htardy
    exact htardy
  cases h with
  | empty _ | kept _ _ => rfl
  | accepted hhead hnew _ | refused hhead _ hnew _ _ _ =>
      rw [hkept _ hhead] at hnew
      contradiction

theorem Rearmed.record_sleeper (h : Rearmed s ids t) (hs : s.Standing) {m : TaskId}
    (hm : m ∈ t.sleepers) : t.record m = s.record m := by
  induction h with
  | empty _ | kept _ _ => rfl
  | accepted _ _ _ => rfl
  | @refused s u v head hardware ids _ _ _ _ hwoke hrest ih =>
      have hmem : m ∈ u.sleepers := by
        rw [hrest.queues.2]
        exact List.mem_append_right _ hm
      rw [ih hwoke.standing hm]
      exact (hwoke.record_sleeper ((alarmMoved s hardware none).standing hs) hmem).2

end Late

section Exact

variable [ExactHardware H]

theorem Rearmed.late_iff (h : Rearmed s ids t) (hs : s.Standing) (harmable : s.Armable) :
    t.Late ↔ ∃ deadline, s.Stuck deadline := by
  cases htardy : s.tardy with
  | false =>
      obtain rfl := h.eq_of_not_tardy htardy
      exact ⟨fun hlate => harmable.stuck_of_late hlate htardy, fun ⟨_, hstuck⟩ => hstuck.late⟩
  | true =>
      refine iff_of_false ?_ ?_
      · rintro ⟨m, hm, hpast⟩
        have hids : ids = s.sleepers.takeWhile s.overdue := by
          rw [h.eq_roused hs, Scheduler.roused, if_pos htardy]
        have hleft : t.sleepers = s.sleepers.filter fun id => !s.overdue id := by
          have hboth := List.takeWhile_append_dropWhile (p := s.overdue) (l := s.sleepers)
          rw [← hids, harmable.ordered.overdue_first.2] at hboth
          exact List.append_cancel_left (h.queues.2.symm.trans hboth.symm)
        have hlater : s.overdue m = false := by
          rw [hleft, List.mem_filter, Bool.not_eq_true'] at hm
          exact hm.2
        have hnow : t.now = s.now := ExactHardware.now_driven h.driven
        unfold overdue at hpast hlater
        rw [hnow, h.record_sleeper hs hm, hlater] at hpast
        contradiction
      · rintro ⟨deadline, hstuck⟩
        rw [hstuck.tardy] at htardy
        contradiction

theorem Timely.stuck_wake_iff (h : s.Timely) (hs : s.Standing) (hok : s.wake id = .ok t) :
    t.Stuck deadline ↔ s.Stuck deadline ∧ s.sleepers.head? ≠ some id := by
  have ht := h.wake hs hok
  have hnow : t.now = s.now := ExactHardware.now_driven (hs.related_wake alarmBlind_driven hok)
  obtain ⟨_, u, hwoke, ⟨hother, rfl⟩ | ⟨⟨hhead, _⟩, ids, hrearmed⟩⟩ := hs.wake hok
  · rw [ht.stuck_iff, h.stuck_iff, hnow, hwoke.armed]
    refine ⟨fun ⟨harmed, hpassed⟩ => ⟨⟨harmed, hpassed⟩, fun hhead => ?_⟩, And.left⟩
    obtain ⟨first, hfirst, hwakeAt, _⟩ := soonest_eq_some.mp (h.armed ▸ harmed)
    obtain rfl := Option.some.inj (hhead.symm.trans hfirst)
    exact hother ⟨hhead, harmed.trans (congrArg some hwakeAt.symm)⟩
  · refine iff_of_false (fun hstuck => ?_) fun hstuck => hstuck.2 hhead
    have hmoved := alarmMoved u (Hardware.clearAlarm u.hardware) none
    have hordered := hmoved.ordered (hwoke.ordered hs h.ordered)
    obtain ⟨_, hbefore⟩ := (hrearmed.late_iff (hmoved.standing hwoke.standing)
      (.of_none hordered rfl)).mp hstuck.late
    have harmed := hbefore.armed
    contradiction

theorem Moved.stuck_iff (h : Moved s id change run s.sleepers t) (hnow : t.now = s.now)
    (hwakeAt : ∀ r, (change r).wakeAt = r.wakeAt) : t.Stuck deadline ↔ s.Stuck deadline := by
  have hsoonest : t.soonest = s.soonest := soonest_congr h.sleepers fun m _ =>
    h.field TaskRecord.wakeAt hwakeAt m.index
  exact ⟨fun hstuck => hstuck.congr h.armed.symm hsoonest.symm hnow.symm,
    fun hstuck => hstuck.congr h.armed hsoonest hnow⟩

theorem Moved.stuck_bedded_iff (h : Moved s id change run (s.bedded id s.sleepers) t)
    (hs : s.Timely) (ht : t.Ordered) (hnow : t.now = s.now)
    (hwakeAt : ∀ r, (change r).wakeAt = r.wakeAt) :
    t.Stuck deadline ↔ s.Stuck deadline ∧ ¬(s.record id).wakeAt < deadline := by
  have hsame : ∀ m : TaskId, (t.record m).wakeAt = (s.record m).wakeAt := fun m =>
    h.field TaskRecord.wakeAt hwakeAt m.index
  have hmem : ∀ m, m ∈ t.sleepers ↔ m = id ∨ m ∈ s.sleepers := by
    intro m
    rw [h.sleepers, (s.perm_bedded id s.sleepers).mem_iff, List.mem_cons]
  rw [hs.stuck_iff]
  constructor
  · intro hstuck
    have hleast := (ht.soonest_eq_some_iff.mp hstuck.soonest).2.2 id ((hmem id).mpr (.inl rfl))
    rw [hsame, Instant.le_iff] at hleast
    refine ⟨⟨h.armed.symm.trans hstuck.armed, hnow ▸ hstuck.passed⟩, ?_⟩
    rw [Instant.lt_iff]
    omega
  · rintro ⟨⟨harmed, hpassed⟩, hlater⟩
    obtain ⟨hfinite, ⟨first, hfirst, hdeadline⟩, hleast⟩ :=
      hs.ordered.soonest_eq_some_iff.mp (hs.armed ▸ harmed)
    refine ⟨h.armed.trans harmed, ht.soonest_eq_some_iff.mpr ⟨hfinite, ?_, ?_⟩, hnow ▸ hpassed⟩
    · exact ⟨first, (hmem first).mpr (.inr hfirst), (hsame first).trans hdeadline⟩
    · intro m hm
      rw [hsame]
      rcases (hmem m).mp hm with rfl | hm
      · rw [Instant.lt_iff] at hlater
        rw [Instant.le_iff]
        omega
      · exact hleast m hm

theorem Settled.stuck_iff (h : Settled s id run s.sleepers t) (hs : s.Timely) :
    t.Stuck deadline ↔ s.Stuck deadline ∧ ¬s.Relieves id deadline := by
  have hordered := (h.armable hs).ordered
  have hnow : t.now = s.now := ExactHardware.now_driven h.driven
  cases h with
  | parked hid hmoved _ =>
      rw [hmoved.stuck_iff hnow fun _ => rfl]
      exact (and_iff_left fun hrelieves => hrelieves.1 hid).symm
  | @finished v _ hid _ hexiting _ hmoved hhardware hwake =>
      have hbefore : v.now = s.now := by
        rcases hhardware with hsame | ⟨region, hunguard⟩
        · exact congrArg Hardware.now hsame
        · exact ExactHardware.now_driven (Hardware.Driven.none.unguardStack hunguard)
      have hrule : s.Relieves id deadline ↔
          ∃ joiner, (s.record id).completion.waiter = some joiner ∧
            s.sleepers.head? = some joiner := by
        simp [Relieves, hid, hexiting]
      rw [hrule, ← hmoved.stuck_iff hbefore fun _ => rfl, ← hmoved.sleepers]
      cases hwaiter : (s.record id).completion.waiter with
      | none =>
          rw [hwaiter] at hwake
          obtain rfl := Except.ok.inj hwake
          simp
      | some joiner =>
          rw [hwaiter] at hwake
          have hv := hmoved.timely hs (.inl fun _ => rfl)
          rw [hv.stuck_wake_iff hmoved.standing hwake]
          simp
  | asleep hid _ hexiting hsleeping hmoved _ =>
      rw [hmoved.stuck_bedded_iff hs hordered hnow fun _ => rfl]
      refine and_congr_right fun _ => not_congr ?_
      simp [Relieves, hid, hexiting, of_decide_eq_true hsleeping]
  | requeued _ _ hexiting hsleeping hmoved _ =>
      rw [hmoved.stuck_iff hnow fun _ => rfl]
      refine (and_iff_left ?_).symm
      rintro ⟨_, ⟨_, hpending, _⟩ | ⟨hexits, _⟩⟩
      · exact of_decide_eq_false hsleeping hpending
      · rw [hexiting] at hexits
        contradiction

theorem Suspended.relieves_iff (h : Suspended s pointer id rest u) :
    u.Relieves id deadline ↔ s.Relieves id deadline := by
  unfold Relieves
  rw [h.self, h.placed.sleepers_eq]
  rfl

omit [ExactHardware H] in
theorem Dispatched.armed (h : Dispatched s t decision) : t.armed = s.armed := by
  cases h with
  | resumed _ _ hmoved _ | drained _ _ _ hmoved _ => exact hmoved.armed
  | idle _ _ => rfl

theorem Dispatched.late_iff (h : Dispatched s t decision) : t.Late ↔ s.Late := by
  have hnow : t.now = s.now := congrArg Hardware.now h.hardware
  have hwakeAt : ∀ m, (t.record m).wakeAt = (s.record m).wakeAt := fun m =>
    h.field TaskRecord.wakeAt (fun _ _ => rfl) m.index
  exact ⟨fun hlate => hlate.congr hnow.symm h.sleepers_eq.symm fun m _ => (hwakeAt m).symm,
    fun hlate => hlate.congr hnow h.sleepers_eq fun m _ => hwakeAt m⟩

theorem Switched.late_iff {v w : Scheduler H}
    (h : Switched s pointer t decision id rest woken u v w) (hs : s.Timely) :
    (t.Late ↔ ∃ deadline, s.armed = some deadline ∧ deadline ≤ s.now ∧
        ¬s.Relieves id deadline) ∧
      (t.Late → t.armed = s.armed) := by
  have hu := h.suspended.timely hs
  have hsettled := h.settled
  rw [← h.suspended.placed.sleepers_eq] at hsettled
  have hnow : u.now = s.now := congrArg Hardware.now h.suspended.hardware
  have hstuck : ∀ deadline, v.Stuck deadline ↔
      s.armed = some deadline ∧ deadline ≤ s.now ∧ ¬s.Relieves id deadline := by
    intro deadline
    rw [hsettled.stuck_iff hu, hu.stuck_iff, h.suspended.relieves_iff, h.suspended.armed, hnow,
      and_assoc]
  have hlate : t.Late ↔ ∃ deadline, v.Stuck deadline := by
    rw [h.dispatched.late_iff, h.rearmed.late_iff h.standing.1 (hsettled.armable hu)]
  refine ⟨hlate.trans (exists_congr hstuck), fun hleft => ?_⟩
  obtain ⟨deadline, hbefore⟩ := hlate.mp hleft
  obtain rfl := h.rearmed.eq_of_not_tardy hbefore.tardy
  rw [((hstuck deadline).mp hbefore).1, ← hbefore.armed]
  exact h.dispatched.armed

/--
A switch leaves a sleeper whose deadline has passed exactly if the alarm was
armed for a deadline that has passed and nothing has it set anew.  It then
stays armed for that deadline, so that to handle it wakes whoever is late.
-/
theorem Reachable.overdue_after_switch_iff (h : Reachable s) (hrun : s.runQueue = id :: rest)
    (hok : s.reschedule pointer = .ok (t, decision)) :
    ((∃ m ∈ t.sleepers, t.overdue m = true) ↔
      ∃ deadline, s.armed = some deadline ∧ deadline ≤ s.now ∧ ¬s.Relieves id deadline) ∧
    ((∃ m ∈ t.sleepers, t.overdue m = true) → t.armed = s.armed) := by
  obtain ⟨hs, htimely⟩ := h.invariants
  obtain ⟨head, behind, woken, u, v, w, hswitched⟩ := hs.reschedule hok
  obtain ⟨rfl, _⟩ := List.cons.inj (hrun.symm.trans hswitched.suspended.runQueue)
  exact hswitched.late_iff htimely

end Exact

def oversleeping : Except Fault (Scheduler PromptBoard) := do
  let s ← (new (PromptBoard.start Instant.zero)).performAll
    [.spawn ⟨0x20000000, 0x20000400⟩ 0x200003c8, .spawn ⟨0x20001000, 0x20001400⟩ 0x200013c8,
      .reschedule Board.mainlinePointer, .markAsleep ⟨5⟩, .reschedule 0x20000380]
  { s with hardware := PromptBoard.start ⟨7⟩ }.performAll [.markAsleep ⟨100⟩]

theorem overdue_after_switch_oversleeping :
    ∃ s t : Scheduler PromptBoard, Reachable s ∧ s.runQueue = [⟨2, 2⟩] ∧
      s.reschedule 0x20001380 = .ok (t, .idle) ∧ s.armed = some ⟨5⟩ ∧ s.now = ⟨7⟩ ∧
      (∃ m ∈ t.sleepers, t.overdue m = true) ∧ t.armed = some ⟨5⟩ := by
  cases hok : oversleeping with
  | error fault =>
      have hsome : oversleeping.toOption.isSome = true := by decide
      rw [hok] at hsome
      contradiction
  | ok s =>
      have hreachable : Reachable s := by
        obtain ⟨r, hrun, hlate⟩ := bind_eq_ok.mp hok
        exact (Reachable.elapse (Reachable.new.performAll hrun)).performAll hlate
      have hbefore : oversleeping.toOption.map (fun s => (s.armed, s.now, s.runQueue,
          (s.record ⟨2, 2⟩).exiting, decide ((s.record ⟨2, 2⟩).wakeAt < ⟨5⟩))) =
            some (some ⟨5⟩, ⟨7⟩, [⟨2, 2⟩], false, false) := by decide
      have hswitch : oversleeping.toOption.bind (fun s => (s.reschedule 0x20001380).toOption.map
          fun r => r.2) = some .idle := by decide
      rw [hok] at hbefore hswitch
      simp only [Except.toOption, Option.map_some, Option.some.injEq, Prod.mk.injEq,
        decide_eq_false_iff_not] at hbefore
      obtain ⟨harmed, hnow, hrun, hstays, hlater⟩ := hbefore
      change (s.reschedule 0x20001380).toOption.map (fun r => r.2) = _ at hswitch
      cases hidle : s.reschedule 0x20001380 with
      | error fault =>
          rw [hidle] at hswitch
          contradiction
      | ok r =>
          obtain ⟨t, decision⟩ := r
          rw [hidle] at hswitch
          obtain rfl := Option.some.inj hswitch
          obtain ⟨hleft, hkept⟩ := hreachable.overdue_after_switch_iff hrun hidle
          have hpast : ∃ m ∈ t.sleepers, t.overdue m = true := by
            refine hleft.mpr ⟨⟨5⟩, harmed, by rw [hnow]; decide, ?_⟩
            rintro ⟨_, ⟨_, _, hsooner⟩ | ⟨hexiting, _⟩⟩
            · exact hlater hsooner
            · rw [hstays] at hexiting
              contradiction
          exact ⟨s, t, hreachable, hrun, hidle, harmed, hnow, hpast, (hkept hpast).trans harmed⟩

end Scheduler

namespace World

def oneNap : List Event :=
  [.call (.start 0 0 0), .reschedule Board.mainlinePointer,
    .call (.start 0 0 1), .reschedule (Board.pageBottom 0 + 200),
    .call (.sleepUntil ⟨5⟩), .reschedule (Board.pageBottom 1 + 200)]

def lateSwitch : Option (World PromptBoard × World PromptBoard) :=
  (threeTasks.follow keepsRules oneNap).bind fun w =>
    ((w.atTime ⟨7⟩).follow keepsRules [.call (.sleepUntil ⟨100⟩)]).bind fun w =>
      (w.follow keepsRules [.reschedule (Board.pageBottom 0 + 200)]).map fun w' => (w, w')

/-- The processor is idle after a switch, and somebody sleeps whose deadline has passed. -/
theorem idle_with_late_sleeper :
    ∃ (events : List Event) (w w' : World PromptBoard), Along Properly threeTasks events w ∧
      Along Properly w [.reschedule (Board.pageBottom 0 + 200)] w' ∧ w'.control = .idle ∧
      w'.scheduler.now = ⟨7⟩ ∧ ⟨2, 2⟩ ∈ w'.scheduler.sleepers ∧
      (w'.scheduler.record ⟨2, 2⟩).wakeAt = ⟨5⟩ := by
  obtain ⟨⟨w, w'⟩, hw⟩ := Option.isSome_iff_exists.mp
    (show lateSwitch.isSome = true by decide +kernel)
  have hafter : lateSwitch.map (fun w => (w.2.control, w.2.scheduler.now, w.2.scheduler.sleepers,
      (w.2.scheduler.record ⟨2, 2⟩).wakeAt)) =
        some (.idle, ⟨7⟩, [⟨2, 2⟩, ⟨1, 1⟩], ⟨5⟩) := by decide +kernel
  have hclock : (threeTasks.follow keepsRules oneNap).all (fun w =>
      decide (w.scheduler.now ≤ ⟨7⟩)) = true := by decide +kernel
  simp only [hw, Option.map_some, Option.some.injEq, Prod.mk.injEq] at hafter
  obtain ⟨hidle, hnow, hsleep, hwakeAt⟩ := hafter
  obtain ⟨u, hu, hw⟩ := Option.bind_eq_some_iff.mp hw
  obtain ⟨v, hv, hw⟩ := Option.bind_eq_some_iff.mp hw
  obtain ⟨v', hv', hw⟩ := Option.map_eq_some_iff.mp hw
  obtain ⟨rfl, rfl⟩ := Prod.mk.inj hw
  rw [hu, Option.all_some, decide_eq_true_iff] at hclock
  have hlog := ((along_of_keepsRules hu).step (properly_atTime hclock).1
    (properly_atTime hclock).2).trans (along_of_keepsRules hv)
  exact ⟨_, v, v', hlog, along_of_keepsRules hv', hidle, hnow, hsleep ▸ List.mem_cons_self, hwakeAt⟩

end World

end CoopTasks
