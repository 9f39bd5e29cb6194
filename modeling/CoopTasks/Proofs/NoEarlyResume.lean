import CoopTasks.Proofs.SlotSteps

/-!
A task that sleeps until an instant is not resumed before.

`World.Dormant` is the state of a task from its call on.  No step that spares
the task ends it, whatever the other tasks, the signals and the alarm do:
`Dormant.spared`.  A task whose deadline has passed already gives up its turn
and no more, since the alarm refuses the deadline at the switch.
-/

namespace CoopTasks

open Scheduler Hardware

/-! ## Deadlines that have passed -/

namespace Scheduler

variable {H : Type} {s t u v : Scheduler H} {id : TaskId} {sleep rest ids : List TaskId}
variable {deadline : Instant}

theorem AlarmMoved.record (h : AlarmMoved s t) (id : TaskId) : t.record id = s.record id :=
  congrArg (fun tasks => tasks.record id.index) h.tasks

def SleepersLater (s : Scheduler H) (deadline : Instant) : Prop :=
  ∀ m ∈ s.sleepers, deadline < (s.record m).wakeAt

theorem Timely.sleepersLater (h : s.Timely) (htimed : deadline ≠ Instant.never)
    (harmed : s.armedBy deadline = false) : s.SleepersLater deadline := by
  intro m hm
  obtain ⟨head, hhead⟩ : ∃ head, s.sleepers.head? = some head := by
    cases hsleep : s.sleepers with
    | nil =>
        rw [hsleep] at hm
        contradiction
    | cons head rest => exact ⟨head, rfl⟩
  have hle := h.ordered.head_le hhead hm
  rw [Instant.le_iff] at hle
  suffices hlt : deadline < (s.record head).wakeAt by
    rw [Instant.lt_iff] at hlt ⊢
    omega
  by_cases hnever : (s.record head).wakeAt = Instant.never
  · rw [hnever, Instant.lt_iff]
    have hlast := deadline.le_never
    rw [Instant.le_iff] at hlast
    have hne : deadline.toNat ≠ Instant.never.toNat := fun he =>
      htimed (Instant.ext_iff_toNat.mpr he)
    omega
  · have harm : s.armed = some (s.record head).wakeAt :=
      h.armed.trans (soonest_eq_some.mpr ⟨head, hhead, rfl, hnever⟩)
    rw [armedBy, harm, Option.any_some, decide_eq_false_iff_not, Instant.le_iff] at harmed
    rw [Instant.lt_iff]
    omega

theorem Timely.armedBy_eq_false (h : s.Timely) (hlater : s.SleepersLater deadline) :
    s.armedBy deadline = false := by
  rw [armedBy, h.armed]
  cases hsoonest : s.soonest with
  | none => rfl
  | some first =>
      obtain ⟨head, hhead, rfl, _⟩ := soonest_eq_some.mp hsoonest
      have hlt := hlater head (List.mem_of_head? hhead)
      rw [Option.any_some, decide_eq_false_iff_not, Instant.le_iff]
      rw [Instant.lt_iff] at hlt
      omega

theorem Wakes.sleepersLater (h : Wakes s ids t) (hs : s.Standing)
    (hlater : s.SleepersLater deadline) : t.SleepersLater deadline := by
  refine (h.preserves (P := fun t => t.Standing ∧ t.SleepersLater deadline) ?_ ?_ ⟨hs, hlater⟩).2
  · intro t u hmoved ⟨ht, hlater⟩
    refine ⟨hmoved.standing ht, fun m hm => ?_⟩
    rw [hmoved.sleepers_eq] at hm
    rw [hmoved.record]
    exact hlater m hm
  · intro t id u hwoke ⟨ht, hlater⟩
    refine ⟨hwoke.standing, fun m hm => ?_⟩
    rw [hwoke.wakeAt ht hm]
    rw [hwoke.sleepers] at hm
    exact hlater m (List.mem_of_mem_erase hm)

theorem bedded_of_later (htimed : (s.record id).wakeAt ≠ Instant.never)
    (hlater : ∀ m ∈ sleep, (s.record id).wakeAt < (s.record m).wakeAt) :
    s.bedded id sleep = id :: sleep := by
  rw [bedded, if_neg (by rwa [Instant.isNever_iff])]
  unfold TaskQueue.Represents.insertedByKey
  cases sleep with
  | nil => rfl
  | cons head rest =>
      have hle : (s.record id).wakeAt ≤ (s.record head).wakeAt := by
        have hlt := hlater head List.mem_cons_self
        rw [Instant.lt_iff] at hlt
        rw [Instant.le_iff]
        omega
      simp [hle]

variable [Hardware H]

theorem Rearmed.requeues_first (h : Rearmed s ids t) (hhead : s.sleepers.head? = some id)
    (htimed : (s.record id).wakeAt ≠ Instant.never)
    (harmed : s.armedBy (s.record id).wakeAt = false)
    (hrefused : (Hardware.setAlarm s.hardware (s.record id).wakeAt).2 = false) :
    ∃ later, t.runQueue = s.runQueue ++ id :: later := by
  cases h with
  | empty hempty =>
      rw [hempty] at hhead
      contradiction
  | kept hfirst hkept =>
      obtain rfl := Option.some.inj (hhead.symm.trans hfirst)
      rw [harmed, Bool.or_false, Instant.isNever_iff] at hkept
      exact absurd hkept htimed
  | accepted hfirst _ hset =>
      obtain rfl := Option.some.inj (hhead.symm.trans hfirst)
      rw [hset] at hrefused
      contradiction
  | @refused _ u _ _ _ _ hfirst hasleep _ _ hwoke hrest =>
      obtain rfl := Option.some.inj (hhead.symm.trans hfirst)
      obtain ⟨later, hlater⟩ := hrest.wakes.extended.runQueue
      have hwaked : u.runQueue = s.runQueue ++ [id] :=
        hwoke.runQueue.trans (congrArg (s.runQueue ++ ·) (if_pos hasleep))
      refine ⟨later, ?_⟩
      rw [hlater, hwaked, List.append_assoc]
      rfl

theorem Switched.requeues_past {pointer : Address} {decision : Decision} {woken : List TaskId}
    {x : Scheduler H} (h : Switched s pointer t decision id rest woken u v x)
    (htimely : s.Timely) (htask : id.index ≠ 0) (hexiting : (s.record id).exiting = false)
    (hwakeAt : 0 < (s.record id).sleepCount → (s.record id).wakeAt = deadline)
    (htimed : deadline ≠ Instant.never) (harmed : s.armedBy deadline = false)
    (hrefused : (Hardware.setAlarm s.hardware deadline).2 = false) :
    ∃ later, t.runQueue = rest ++ id :: later := by
  have hself : u.record id = s.suspendedRecord pointer (s.record id) := h.suspended.self
  have hsame : ∀ m : TaskId, (u.record m).wakeAt = (s.record m).wakeAt := by
    intro m
    refine (congrArg TaskRecord.wakeAt (h.suspended.record m.index)).trans ?_
    split <;> rfl
  rw [h.dispatched.runQueue_eq]
  cases h.settled with
  | parked hid _ _ => exact absurd hid htask
  | finished _ _ hends _ _ _ _ =>
      rw [hself] at hends
      exact absurd (hends.symm.trans hexiting) (by simp)
  | requeued _ _ _ _ hmoved _ =>
      obtain ⟨later, hlater⟩ := h.rearmed.wakes.extended.runQueue
      refine ⟨later, ?_⟩
      rw [hlater, hmoved.runQueue, List.append_assoc]
      rfl
  | asleep _ _ _ hasleep hmoved hhardware =>
      rw [hself, TaskRecord.isSleeping, decide_eq_true_iff] at hasleep
      have hdeadline := hwakeAt hasleep
      have hlater := htimely.sleepersLater htimed harmed
      have hbedded : v.sleepers = id :: s.sleepers := by
        rw [hmoved.sleepers]
        apply bedded_of_later
        · rwa [hsame, hdeadline]
        · intro m hm
          rw [hsame, hsame, hdeadline]
          exact hlater m hm
      have hrecord : (v.record id).wakeAt = deadline :=
        (congrArg TaskRecord.wakeAt hmoved.self).trans ((hsame id).trans hdeadline)
      rw [← hmoved.runQueue]
      apply h.rearmed.requeues_first
      · rw [hbedded, List.head?_cons]
      · rwa [hrecord]
      · rw [hrecord, armedBy, hmoved.armed, h.suspended.armed]
        exact harmed
      · rw [hrecord, hhardware, h.suspended.hardware]
        exact hrefused

end Scheduler

/-! ## The world -/

namespace World

variable {H : Type} [Hardware H] {w w' u v : World H} {event : Event} {events log : List Event}
variable {id : TaskId} {deadline : Instant} {t : Scheduler H}

theorem Reached.timely (h : Reached w) : w.scheduler.Timely := by
  induction h with
  | start hardware _ _ _ => exact timely_new hardware
  | step hreached hstep ih => exact hstep.timely hreached.standing ih

/-! ## Between a call and the switch that follows -/

def Event.switches : Event → Bool
  | .reschedule _ => true
  | _ => false

theorem Occurs.interrupted (h : Occurs w event w') (hs : w.scheduler.Standing)
    (hevent : event.interrupts = true) :
    w'.control = w.control ∧ w'.inside = w.inside ∧ ∃ ids, Wakes w.scheduler ids w'.scheduler := by
  cases h with
  | call _ _ _ | reschedule _ _ | dispatch _ _ => contradiction
  | wake hok =>
      obtain ⟨t, hwake, rfl⟩ := Kernel.ok_wake hok
      obtain ⟨ids, hwakes⟩ := hs.wakes_of_wake hwake
      exact ⟨rfl, rfl, _, hwakes⟩
  | post hok =>
      obtain ⟨_, t, _, hwake, rfl⟩ := Kernel.ok_post hok
      exact ⟨rfl, rfl, hs.wakes_of_wakeWaiter hwake⟩
  | alarm hok => exact ⟨rfl, rfl, hs.wakes_of_handleAlarm hok⟩
  | elapse => exact ⟨rfl, rfl, [], .nil (alarmMoved _ _ _)⟩

theorem Occurs.interrupts (h : Occurs w event w') (hs : w.scheduler.Standing)
    (hleaving : w.control = .leaving) (hevent : event.switches = false) :
    w'.control = .leaving ∧ ∃ ids, Wakes w.scheduler ids w'.scheduler := by
  have hinterrupts : event.interrupts = true := by
    cases h with
    | call hexec _ _ => exact nomatch hleaving.symm.trans hexec
    | reschedule _ _ => contradiction
    | dispatch hidle _ => exact nomatch hleaving.symm.trans hidle
    | _ => rfl
  obtain ⟨hcontrol, _, hwakes⟩ := h.interrupted hs hinterrupts
  exact ⟨hcontrol.trans hleaving, hwakes⟩

omit [Hardware H] in
theorem Orderly.current_wakes (h : w.Orderly) (hcontrol : w.control ≠ .idle) {ids : List TaskId}
    (hwakes : Wakes w.scheduler ids t) : t.current = w.scheduler.current := by
  refine (hwakes.preserves (P := fun t => (w.withScheduler t).Orderly ∧
    t.current = w.scheduler.current) ?_ ?_ ⟨h, rfl⟩).2
  · intro s u hmoved ⟨hs, hcurrent⟩
    refine ⟨hs.alarmMoved hmoved, Eq.trans ?_ hcurrent⟩
    rw [Scheduler.current, hmoved.ready]
    rfl
  · intro s id u hwoke ⟨hs, hcurrent⟩
    exact ⟨hs.woke hwoke, (hs.current_woke hwoke hcontrol).trans hcurrent⟩

/-- The executing task has called for a sleep, and wakes may have cut it short. -/
structure Drowsy (s : Scheduler H) (id : TaskId) (deadline : Instant) : Prop where
  exiting : (s.record id).exiting = false
  count : (s.record id).sleepCount ≤ 1
  wakeAt : 0 < (s.record id).sleepCount → (s.record id).wakeAt = deadline

omit [Hardware H] in
theorem Drowsy.wakes {s : Scheduler H} (h : Drowsy s id deadline) {ids : List TaskId}
    (hwakes : Wakes s ids t) : Drowsy t id deadline := by
  refine hwakes.preserves (P := (Drowsy · id deadline)) ?_ ?_ h
  · intro t u hmoved ht
    have hrecord := hmoved.record id
    constructor <;> rw [hrecord]
    · exact ht.exiting
    · exact ht.count
    · exact ht.wakeAt
  · intro t m u hwoke ht
    by_cases he : id.index = m.index
    · have hrecord : u.record id = (t.record id).woken := (hwoke.record id.index).trans (if_pos he)
      have hcount : (t.record id).woken.sleepCount = (t.record id).sleepCount - 1 := rfl
      have hle := ht.count
      constructor <;> rw [hrecord]
      · exact ht.exiting
      · omega
      · omega
    · have hrecord : u.record id = t.record id := hwoke.record_other he
      constructor <;> rw [hrecord]
      · exact ht.exiting
      · exact ht.count
      · exact ht.wakeAt

theorem Drowsy.along (h : Drowsy u.scheduler id deadline) (hu : Reached u)
    (hleaving : u.control = .leaving) (hcurrent : u.scheduler.current = some id)
    (hlog : Along (fun _ event _ => event.switches = false) u log v) :
    v.scheduler.current = some id ∧ Drowsy v.scheduler id deadline ∧
      ∀ later, u.scheduler.SleepersLater later → v.scheduler.SleepersLater later := by
  suffices hstays : v.control = .leaving ∧ v.scheduler.current = some id ∧
      Drowsy v.scheduler id deadline ∧
      ∀ later, u.scheduler.SleepersLater later → v.scheduler.SleepersLater later from hstays.2
  induction hlog with
  | none => exact ⟨hleaving, hcurrent, h, fun _ hlater => hlater⟩
  | step hbefore hoccurs hevent ih =>
      obtain ⟨hleaving, hcurrent, hdrowsy, hlater⟩ := ih
      have ho := (hbefore.reached hu).waitersHeard.orderly
      obtain ⟨hleaving', ids, hwakes⟩ := hoccurs.interrupts ho.standing hleaving hevent
      refine ⟨hleaving', ?_, hdrowsy.wakes hwakes, fun later hsleepers =>
        hwakes.sleepersLater ho.standing (hlater later hsleepers)⟩
      rw [ho.current_wakes (by rw [hleaving]; decide) hwakes, hcurrent]

/-! ## Asleep until a deadline -/

/-- The task has been put to sleep until a deadline, or will be at its next switch. -/
structure Dormant (w : World H) (id : TaskId) (deadline : Instant) : Prop where
  slot : id.index ∈ slots
  current : id.generation = (w.scheduler.record id).generation
  count : (w.scheduler.record id).sleepCount = 1
  wakeAt : (w.scheduler.record id).wakeAt = deadline
  outside : w.inside id.index = none

/-- A step that neither wakes a task by its name nor shows the clock at its deadline. -/
def Spares (id : TaskId) (deadline : Instant) (w : World H) (event : Event) (w' : World H) :
    Prop :=
  event.wakes id = false ∧
    (deadline ≠ Instant.never →
      ¬Strikes w.scheduler.hardware w'.scheduler.hardware deadline)

omit [Hardware H] in
theorem Dormant.idOf (h : w.Dormant id deadline) : w.scheduler.idOf id.index = id :=
  TaskId.ext_of_index (index_idOf _ (mem_slots.mp h.slot).2) h.current.symm

omit [Hardware H] in
theorem Dormant.asleep (h : w.Dormant id deadline) (ho : w.Orderly) :
    (w.scheduler.record id).state = .sleeping ∨
      w.control = .leaving ∧ w.scheduler.current = some id := by
  have hpos : 0 < (w.record id.index).sleepCount := by
    rw [show (w.record id.index).sleepCount = 1 from h.count]
    decide
  refine ((ho.fits id.index h.slot).pending hpos).imp_right fun hleaves => ?_
  rw [Leaves, h.idOf] at hleaves
  exact hleaves

omit [Hardware H] in
theorem Dormant.not_executes (h : w.Dormant id deadline) (ho : w.Orderly)
    (hexecutes : w.Executes id.index) : False := by
  obtain ⟨hexec, hcurrent⟩ := hexecutes
  rw [h.idOf] at hcurrent
  have hle := (ho.caller hexec hcurrent).count
  rw [show (w.record id.index).sleepCount = 1 from h.count] at hle
  contradiction

end World

namespace World

variable {H : Type} [PunctualHardware H] {w w' u v : World H} {event : Event}
variable {log : List Event} {id : TaskId} {deadline : Instant} {t : Scheduler H}

theorem Dormant.spared (h : w.Dormant id deadline) (hw : w.WaitersHeard)
    (hoccurs : Occurs w event w') (hspares : Spares id deadline w event w') :
    w'.Dormant id deadline ∧ ((w.scheduler.record id).state = .sleeping →
      (w'.scheduler.record id).state = .sleeping) := by
  have ho := hw.orderly
  obtain ⟨hnamed, hdue⟩ := hspares
  cases hw.fared hoccurs h.slot with
  | kept hsame hinside _ =>
      exact ⟨⟨h.slot, h.current.trans hsame.generation.symm, hsame.count.trans h.count,
        hsame.wakeAt.trans h.wakeAt, hinside.trans h.outside⟩, hsame.asleep⟩
  | slept hexecutes _ _ _ | tried hexecutes _ _ | parked hexecutes _ =>
      exact (h.not_executes ho hexecutes).elim
  | roused _ _ _ hcause =>
      cases hcause with
      | named hwakes =>
          rw [h.idOf, hnamed] at hwakes
          contradiction
      | handedBack hawaited _ =>
          obtain ⟨p, hp⟩ := hawaited
          obtain ⟨blocking, hinside, _⟩ := hw.heard.inside_of_awaited hp
          rw [h.outside] at hinside
          contradiction
      | due _ htimed hstrikes =>
          rw [show (w.record id.index).wakeAt = deadline from h.wakeAt] at htimed hstrikes
          exact absurd hstrikes.strikes (hdue htimed)
  | started hgone _ _ =>
      rcases h.asleep ho with hasleep | ⟨_, hcurrent⟩
      · rw [show (w.record id.index).state = .sleeping from hasleep] at hgone
        rcases hgone with hgone | hgone <;> contradiction
      · have hoccupied : w.scheduler.Occupied id.index := ho.standing.occupied_current hcurrent
        exact absurd hgone hoccupied.not_gone

theorem Dormant.along (h : u.Dormant id deadline) (hu : Reached u)
    (hleaving : u.control = .leaving) (hcurrent : u.scheduler.current = some id)
    (hlog : Along (Spares id deadline) u log w) :
    w.Dormant id deadline ∧
      (log.any Event.switches = false →
        w.control = .leaving ∧ w.scheduler.current = some id) ∧
      (log.any Event.switches = true → (w.scheduler.record id).state = .sleeping) := by
  induction hlog with
  | none => exact ⟨h, fun _ => ⟨hleaving, hcurrent⟩, nofun⟩
  | @step log event v w hbefore hoccurs hspares ih =>
      obtain ⟨hdormant, hstays, hasleep⟩ := ih
      have hv := (hbefore.reached hu).waitersHeard
      obtain ⟨hdormant', hkept⟩ := hdormant.spared hv hoccurs hspares
      rw [List.any_append, List.any_cons, List.any_nil, Bool.or_false]
      refine ⟨hdormant', fun hnone => ?_, fun hsome => ?_⟩
      · obtain ⟨hlog, hevent⟩ := Bool.or_eq_false_iff.mp hnone
        obtain ⟨hleaving, hcurrent⟩ := hstays hlog
        obtain ⟨hleaving', ids, hwakes⟩ := hoccurs.interrupts hv.orderly.standing hleaving hevent
        refine ⟨hleaving', ?_⟩
        rw [hv.orderly.current_wakes (by rw [hleaving]; decide) hwakes, hcurrent]
      · cases hlog : log.any Event.switches with
        | true => exact hkept (hasleep hlog)
        | false =>
            rw [hlog, Bool.false_or] at hsome
            have hw := (hv.step hoccurs.step).orderly
            refine (hdormant'.asleep hw).resolve_right fun hleaves => ?_
            cases hoccurs with
            | @reschedule _ _ decision _ _ =>
                cases decision <;> exact nomatch hleaves.1
            | _ => contradiction

theorem WaitersHeard.sleepUntil (h : w.WaitersHeard) (hcurrent : w.scheduler.current = some id)
    (hcall : Occurs w (.call (.sleepUntil deadline)) u) :
    u.control = .leaving ∧ u.scheduler.current = some id ∧ u.inside id.index = none ∧
      w.Caller id ∧ Moved w.scheduler id (fun r => r.countSleep deadline)
        w.scheduler.runQueue w.scheduler.sleepers u.scheduler := by
  have hs := h.orderly.standing
  cases hcall with
  | call hexec hmay hok =>
      have hcaller := h.orderly.caller hexec hcurrent
      simp only [Kernel.attempt, Kernel.sleepUntil, bind_eq_ok, pure_eq_ok, Prod.mk.injEq] at hok
      obtain ⟨t, hmark, rfl, rfl⟩ := hok
      obtain ⟨caller, hcurrent', _, _, hmoved⟩ := hs.markAsleep hmark
      obtain rfl := Option.some.inj (hcurrent.symm.trans hcurrent')
      refine ⟨rfl, ?_, insideAfter_self hcurrent, hcaller, hmoved⟩
      exact (hs.current_congr hmoved.standing (congrArg List.head? hmoved.runQueue)).trans hcurrent

theorem Reached.slumbers (h : Reached w) (hcurrent : w.scheduler.current = some id)
    (hcount : (w.scheduler.record id).sleepCount = 0)
    (hcall : Occurs w (.call (.sleepUntil deadline)) u)
    (hlog : Along (Spares id deadline) u log w') :
    (log.any Event.switches = false →
      w'.control = .leaving ∧ w'.scheduler.current = some id) ∧
    (log.any Event.switches = true →
      (w'.scheduler.record id).state = .sleeping ∧ id ∈ w'.scheduler.sleepers ∧
        id ∉ w'.scheduler.runQueue ∧ w'.scheduler.current ≠ some id) := by
  obtain ⟨hleaving, hcurrent', houtside, hcaller, hmoved⟩ :=
    h.waitersHeard.sleepUntil hcurrent hcall
  have hu : Reached u := h.step hcall.step
  have hself : u.scheduler.record id = (w.scheduler.record id).countSleep deadline := hmoved.self
  have hdormant : u.Dormant id deadline := by
    refine ⟨hcaller.slot, ?_, ?_, ?_, houtside⟩ <;> rw [hself]
    · exact hcaller.generation
    · change (w.scheduler.record id).sleepCount + 1 = 1
      omega
    · rfl
  obtain ⟨hlast, hbefore, hafter⟩ := hdormant.along hu hleaving hcurrent' hlog
  refine ⟨hbefore, fun hswitched => ?_⟩
  have hs := (hlog.reached hu).standing
  have hasleep := hafter hswitched
  have hmem : id ∈ w'.scheduler.sleepers := by
    rw [← hlast.idOf]
    exact hs.mem_sleepers hlast.slot hasleep
  have hnot : id ∉ w'.scheduler.runQueue := by
    intro hqueued
    have hstate := hs.queued id hqueued (mem_slots.mp hlast.slot).1
    rw [hasleep] at hstate
    rcases hstate with hstate | hstate <;> contradiction
  exact ⟨hasleep, hmem, hnot, fun hcurrent => hnot (List.mem_of_head? (hs.current hcurrent).1)⟩

/--
The alarm refuses no instant to come.  A task that executes and calls for a
sleep is put to sleep by the switch that follows, and is neither queued nor
resumed after it, in whatever run, until the clock shows the deadline or
somebody wakes the task by its name.  If the deadline has passed at the switch,
and the alarm is not set for it or a sooner one, the switch queues the task
again, behind all others, however many wakes there have been.
-/
theorem Reached.no_early_resume (h : Reached w) (hcurrent : w.scheduler.current = some id)
    (hcount : (w.scheduler.record id).sleepCount = 0)
    (hcall : Occurs w (.call (.sleepUntil deadline)) u) :
    (∀ log w', Along (Spares id deadline) u log w' →
      (log.any Event.switches = false →
        w'.control = .leaving ∧ w'.scheduler.current = some id) ∧
      (log.any Event.switches = true →
        (w'.scheduler.record id).state = .sleeping ∧ id ∈ w'.scheduler.sleepers ∧
          id ∉ w'.scheduler.runQueue ∧ w'.scheduler.current ≠ some id)) ∧
    (deadline ≠ Instant.never →
      (∀ h : H, deadline ≤ Hardware.now h → (Hardware.setAlarm h deadline).2 = false) →
      ∀ log v, Along (fun _ event _ => event.switches = false) u log v →
        deadline ≤ v.scheduler.now →
        (w.scheduler.armedBy deadline = false ∨ v.scheduler.armedBy deadline = false) →
        ∀ pointer t decision, v.scheduler.reschedule pointer = .ok (t, decision) →
          ∃ rest later, v.scheduler.runQueue = id :: rest ∧ t.runQueue = rest ++ id :: later) := by
  refine ⟨fun log w' => h.slumbers hcurrent hcount hcall, ?_⟩
  intro htimed hpast log v hlog hnow harmed pointer t decision hok
  obtain ⟨hleaving, hcurrent', _, hcaller, hmoved⟩ := h.waitersHeard.sleepUntil hcurrent hcall
  have hu : Reached u := h.step hcall.step
  have hself : u.scheduler.record id = (w.scheduler.record id).countSleep deadline := hmoved.self
  have hdrowsy : Drowsy u.scheduler id deadline := by
    constructor <;> rw [hself]
    · exact hcaller.exiting
    · have hle := hcaller.count
      change (w.record id.index).sleepCount + 1 ≤ 1
      omega
    · exact fun _ => rfl
  have hv := hlog.reached hu
  have hs := hv.standing
  obtain ⟨hcurrent, hdrowsy, hlater⟩ := hdrowsy.along hu hleaving hcurrent' hlog
  have harmed : v.scheduler.armedBy deadline = false := by
    refine harmed.elim (fun hunarmed => ?_) fun hunarmed => hunarmed
    refine hv.timely.armedBy_eq_false (hlater deadline (hu.timely.sleepersLater htimed ?_))
    rwa [armedBy, hmoved.armed]
  obtain ⟨rest, woken, x, y, z, hswitched⟩ := hs.reschedule_current hcurrent hok
  obtain ⟨later, hrun⟩ := hswitched.requeues_past hv.timely (mem_slots.mp hcaller.slot).1
    hdrowsy.exiting hdrowsy.wakeAt htimed harmed (hpast _ hnow)
  exact ⟨rest, later, hswitched.suspended.runQueue, hrun⟩

/-! ### A nap -/

def twoAwake : Option (World PromptBoard) :=
  (World.start (PromptBoard.start Instant.zero) 1
    [Stack.blank (Board.pageBottom 0) 64, Stack.blank (Board.pageBottom 1) 64] 0).run
    [.call (.start 0 0 0), .reschedule Board.mainlinePointer,
      .call (.start 0 0 1), .reschedule (Board.pageBottom 0 + 200),
      .call .giveWay, .reschedule (Board.pageBottom 1 + 200)]

def aroundNap : List Event :=
  [.alarm, .reschedule (Board.pageBottom 0 + 200), .alarm, .call (.post 0), .post 0,
    .call .giveWay, .reschedule (Board.pageBottom 1 + 200)]

def sparing (id : TaskId) (deadline : Instant) (w : World PromptBoard) (event : Event) : Bool :=
  !event.wakes id && decide (w.scheduler.hardware.board.clock < deadline)

theorem spares_of_sparing {w w' : World PromptBoard} (h : sparing id deadline w event = true) :
    Spares id deadline w event w' := by
  obtain ⟨hnamed, hclock⟩ := Bool.and_eq_true_iff.mp h
  exact ⟨Bool.not_eq_true' _ ▸ hnamed, fun _ =>
    PromptBoard.not_strikes (of_decide_eq_true hclock)⟩

theorem no_early_resume_nap :
    (∃ w u w' : World PromptBoard, Reached w ∧ w.scheduler.current = some ⟨1, 1⟩ ∧
      Occurs w (.call (.sleepUntil ⟨100⟩)) u ∧ Along (Spares ⟨1, 1⟩ ⟨100⟩) u aroundNap w' ∧
      (w'.scheduler.record ⟨1, 1⟩).state = .sleeping ∧ ⟨1, 1⟩ ∉ w'.scheduler.runQueue) ∧
    ∃ (w u : World PromptBoard) (t : Scheduler PromptBoard) (decision : Decision)
      (rest later : List TaskId), Reached w ∧ Occurs w (.call (.sleepUntil Instant.zero)) u ∧
      u.scheduler.reschedule (Board.pageBottom 0 + 200) = .ok (t, decision) ∧
      u.scheduler.runQueue = ⟨1, 1⟩ :: rest ∧ t.runQueue = rest ++ ⟨1, 1⟩ :: later := by
  obtain ⟨w, hw⟩ := Option.isSome_iff_exists.mp (show twoAwake.isSome = true by decide +kernel)
  have hreached : Reached w := (Reached.start _ _ _ _).run hw
  have hfirst : (twoAwake.map fun w => (w.scheduler.current,
      (w.scheduler.record ⟨1, 1⟩).sleepCount, w.scheduler.armedBy Instant.zero)) =
        some (some ⟨1, 1⟩, 0, false) := by decide +kernel
  have hnap : (twoAwake.bind fun w => (w.occur (.call (.sleepUntil ⟨100⟩))).bind fun u =>
      u.follow (sparing ⟨1, 1⟩ ⟨100⟩) aroundNap).isSome = true := by decide +kernel
  have hyield : (twoAwake.bind fun w => (w.occur (.call (.sleepUntil Instant.zero))).bind fun u =>
      (u.scheduler.reschedule (Board.pageBottom 0 + 200)).toOption).isSome = true := by
    decide +kernel
  have hclock : (twoAwake.bind fun w => (w.occur (.call (.sleepUntil Instant.zero))).map fun u =>
      u.scheduler.now) = some Instant.zero := by decide +kernel
  rw [hw, Option.map_some, Option.some.injEq, Prod.mk.injEq, Prod.mk.injEq] at hfirst
  rw [hw, Option.bind_some] at hnap hyield hclock
  obtain ⟨hcurrent, hcount, hunarmed⟩ := hfirst
  constructor
  case left =>
    obtain ⟨w', hnap⟩ := Option.isSome_iff_exists.mp hnap
    obtain ⟨u, hu, hfollow⟩ := Option.bind_eq_some_iff.mp hnap
    have hcall := Occurs.of_occur hu
    have hlog : Along (Spares ⟨1, 1⟩ ⟨100⟩) u aroundNap w' :=
      .of_follow (fun _ _ _ hchecked _ => spares_of_sparing hchecked) hfollow
    obtain ⟨_, hafter⟩ := (hreached.no_early_resume hcurrent hcount hcall).1 _ _ hlog
    obtain ⟨hasleep, _, hnot, _⟩ := hafter (by decide)
    exact ⟨w, u, w', hreached, hcurrent, hcall, hlog, hasleep, hnot⟩
  case right =>
    obtain ⟨⟨t, decision⟩, hyield⟩ := Option.isSome_iff_exists.mp hyield
    obtain ⟨u, hu, hok⟩ := Option.bind_eq_some_iff.mp hyield
    rw [hu, Option.map_some, Option.some.injEq] at hclock
    rw [toOption_eq_some] at hok
    have hcall := Occurs.of_occur hu
    have hpast : Instant.zero ≤ u.scheduler.now := by
      rw [hclock]
      decide
    obtain ⟨rest, later, hbefore, hafter⟩ := (hreached.no_early_resume hcurrent hcount hcall).2
      (by decide) (fun b hle => b.refuses_past hle) [] u .none hpast (.inl hunarmed) _ t decision
      hok
    exact ⟨w, u, t, decision, rest, later, hreached, hcall, hok, hbefore, hafter⟩

end World

end CoopTasks
