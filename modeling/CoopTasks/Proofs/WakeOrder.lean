import CoopTasks.Proofs.Alarm
import CoopTasks.Proofs.AlarmHandler

/-!
The order of wakes makes no difference but to the order of the run queue.

As long as every deadline is still to come, a wake wakes one task and nobody
else (`WokeAlone`), whether or not it has the alarm set anew.  What a list of
wakes does is told by how often each task is in it (`WokenAll`), and whether
the list comes to its end as well (`Callable`).
-/

namespace CoopTasks

/-! ## Hardware and records -/

/-- Hardware whose alarm can be seen and takes exactly the instants to come. -/
class ExactAlarm (H : Type) extends AlarmHardware H, ExactHardware H

instance : AlarmHardware PromptBoard where
  alarm b := b.board.alarm
  alarm_setAlarm b deadline := AlarmHardware.alarm_setAlarm b.board deadline
  alarm_clearAlarm b := AlarmHardware.alarm_clearAlarm b.board
  alarm_guardStack b stack := AlarmHardware.alarm_guardStack b.board stack
  alarm_unguardStack b b' region hok := by
    simp only [Hardware.unguardStack] at hok
    split at hok
    · rename_i board hboard
      obtain rfl := Except.ok.inj hok
      exact AlarmHardware.alarm_unguardStack b.board board region hboard
    · contradiction

instance : ExactAlarm PromptBoard where
  accepts_iff := ExactHardware.accepts_iff
  now_driven := ExactHardware.now_driven

namespace TaskRecord

def wokenTimes : TaskRecord → Nat → TaskRecord
  | r, 0 => r
  | r, times + 1 => r.woken.wokenTimes times

theorem wakeable_woken (r : TaskRecord) :
    r.woken.state = .sleeping ∨ r.woken.state = .ready ∨ r.woken.state = .running ↔
      r.state = .sleeping ∨ r.state = .ready ∨ r.state = .running := by
  by_cases hasleep : r.state = .sleeping
  · simp [woken, hasleep]
  · simp [woken, hasleep, TaskRecord.countWake]

end TaskRecord

namespace Scheduler

variable {H : Type} {s t u v : Scheduler H} {id head : TaskId}
variable {ids ids' : List TaskId} {slot : Nat}

/-! ## Lists of wakes -/

def wakeAll [Hardware H] (s : Scheduler H) (ids : List TaskId) : Except Fault (Scheduler H) :=
  ids.foldlM wake s

def wakesOf (ids : List TaskId) (slot : Nat) : Nat :=
  ids.countP fun id => decide (id.index = slot)

/-- The sleeping ones of some tasks, in the order of their first mention. -/
def firstWakes (s : Scheduler H) (ids : List TaskId) : List TaskId :=
  (ids.filter fun id => decide ((s.record id).state = .sleeping)).eraseDups

/-- Each task can be woken as often as it is in the list. -/
def Callable (s : Scheduler H) (ids : List TaskId) : Prop :=
  ∀ id ∈ ids, s.Wakeable id ∧ sleepCountMin + wakesOf ids id.index ≤ (s.record id).sleepCount

theorem wakesOf_cons (id : TaskId) (ids : List TaskId) (slot : Nat) :
    wakesOf (id :: ids) slot = wakesOf ids slot + if id.index = slot then 1 else 0 := by
  simp [wakesOf, List.countP_cons]

theorem Callable.perm (h : s.Callable ids) (hperm : ids'.Perm ids) : s.Callable ids' := by
  intro id hid
  obtain ⟨hwakeable, hlimit⟩ := h id (hperm.mem_iff.mp hid)
  refine ⟨hwakeable, ?_⟩
  unfold wakesOf at hlimit ⊢
  rwa [hperm.countP_eq]

/-! ## One wake -/

theorem Woke.wakeable (h : Woke s id t) : s.Wakeable id := by
  refine ⟨mem_slots.mpr ⟨h.task, ?_⟩, h.current, h.live, h.state⟩
  apply index_lt_of_state
  rcases h.state with he | he | he <;> rw [he] <;> decide

section OneWake

variable [ExactHardware H]

structure OnTime (s : Scheduler H) : Prop where
  standing : s.Standing
  timely : s.Timely
  ahead : ∀ m ∈ s.sleepers, (s.record m).wakeAt ≠ Instant.never → s.now < (s.record m).wakeAt

theorem OnTime.not_overdue (h : s.OnTime) (hid : id ∈ s.sleepers) : s.overdue id = false := by
  rw [Bool.eq_false_iff, ne_eq, overdue_iff, Classical.not_not, Instant.isNever_iff]
  by_cases hnever : (s.record id).wakeAt = Instant.never
  · exact .inl hnever
  · exact .inr (h.ahead id hid hnever)

/-- A task has been woken and nobody else, and the alarm may have been set anew. -/
structure WokeAlone (s : Scheduler H) (id : TaskId) (t : Scheduler H) : Prop where
  wakeable : s.Wakeable id
  limit : sleepCountMin < (s.record id).sleepCount
  record : ∀ slot, t.tasks.record slot =
    if slot = id.index then (s.tasks.record slot).woken else s.tasks.record slot
  runQueue : t.runQueue =
    s.runQueue ++ if (s.record id).state = .sleeping then [id] else []
  sleepers : t.sleepers = s.sleepers.erase id
  onTime : t.OnTime

theorem Woke.alone (h : Woke s id u) (hs : s.OnTime) (hmoved : AlarmMoved u t)
    (hnow : t.now = s.now) (htimely : t.Timely) : WokeAlone s id t := by
  have hrecord : ∀ m, t.record m = u.record m := fun m =>
    congrArg (fun tasks => tasks.record m.index) hmoved.tasks
  refine ⟨h.wakeable, h.limit, fun slot => ?_, hmoved.runQueue_eq.trans h.runQueue,
    hmoved.sleepers_eq.trans h.sleepers, hmoved.standing h.standing, htimely,
    fun m hm hfinite => ?_⟩
  · rw [hmoved.tasks]
    exact h.record slot
  · obtain ⟨hbefore, hkept⟩ := h.record_sleeper hs.standing (hmoved.sleepers_eq ▸ hm)
    rw [hrecord, hkept] at hfinite ⊢
    rw [hnow]
    exact hs.ahead m hbefore hfinite

theorem OnTime.later_cleared (h : s.OnTime) (hwoke : Woke s id u) (hid : head ∈ u.sleepers) :
    Scheduler.overdue { u with hardware := Hardware.clearAlarm u.hardware, armed := none } head =
      false := by
  obtain ⟨hbefore, hkept⟩ := hwoke.record_sleeper h.standing hid
  have hnow : Hardware.now (Hardware.clearAlarm u.hardware) = s.now := by
    rw [hwoke.hardware]
    exact ExactHardware.now_driven Hardware.Driven.none.clearAlarm
  rw [← h.not_overdue hbefore]
  unfold Scheduler.overdue
  rw [← hkept, ← hnow]
  rfl

theorem Rearmed.moved (h : Rearmed s [] t) : AlarmMoved s t := by
  cases h <;> exact ⟨rfl, rfl, rfl, rfl, rfl⟩

theorem OnTime.wake (h : s.OnTime) (hok : s.wake id = .ok t) : WokeAlone s id t := by
  have hnow : t.now = s.now :=
    ExactHardware.now_driven (h.standing.related_wake alarmBlind_driven hok)
  have htimely := h.timely.wake h.standing hok
  obtain ⟨_, u, hwoke, ⟨_, rfl⟩ | ⟨_, ids, hrearmed⟩⟩ := h.standing.wake hok
  · exact hwoke.alone h (.refl t) hnow htimely
  · have hmoved := alarmMoved u (Hardware.clearAlarm u.hardware) none
    have hids : ids = [] := by
      rw [hrearmed.eq_roused (hmoved.standing hwoke.standing), roused_of_unarmed rfl,
        (hmoved.ordered (hwoke.ordered h.standing h.timely.ordered)).overdue_first.1,
        List.filter_eq_nil_iff]
      intro m hm
      rw [h.later_cleared hwoke hm]
      decide
    subst hids
    have hlast := hrearmed.moved
    exact hwoke.alone h ⟨hlast.tasks, hlast.ready, hlast.timers, hlast.generation, hlast.resumedAt⟩
      hnow htimely

theorem OnTime.wake_of_wakeable (h : s.OnTime) (hwakeable : s.Wakeable id)
    (hlimit : sleepCountMin < (s.record id).sleepCount) : ∃ t, s.wake id = .ok t := by
  obtain ⟨hne, hlt⟩ := mem_slots.mp hwakeable.slot
  obtain ⟨u, wasHead, hok⟩ := h.standing.wakeTask_of_live hwakeable.current hne hwakeable.live
    hlimit hwakeable.state
  have hwoke := (h.standing.wakeTask hok).1
  have hslot : requireSlot id = .ok () := require_eq_ok.mpr hlt
  unfold Scheduler.wake
  simp only [hslot, hok, bind, Except.bind]
  split
  · have hmoved := alarmMoved u (Hardware.clearAlarm u.hardware) none
    obtain ⟨t, hrearm, _⟩ := (hmoved.standing hwoke.standing).rearmSteps_of_later
      fun head hhead => h.later_cleared hwoke (List.mem_of_head? hhead)
    exact ⟨t, hrearm slotCount⟩
  · exact ⟨u, rfl⟩

end OneWake

/-! ## Many wakes -/

section ManyWakes

variable [ExactHardware H]

theorem WokeAlone.wakeable_iff (h : WokeAlone s id t) {m : TaskId} :
    t.Wakeable m ↔ s.Wakeable m := by
  have hkept : (t.record m).generation = (s.record m).generation ∧
      (t.record m).isLive = (s.record m).isLive ∧
        ((t.record m).state = .sleeping ∨ (t.record m).state = .ready ∨
            (t.record m).state = .running ↔
          (s.record m).state = .sleeping ∨ (s.record m).state = .ready ∨
            (s.record m).state = .running) := by
    unfold Scheduler.record
    rw [h.record m.index]
    split
    · exact ⟨rfl, rfl, TaskRecord.wakeable_woken _⟩
    · exact ⟨rfl, rfl, .rfl⟩
  obtain ⟨hgeneration, hlive, hstate⟩ := hkept
  constructor
  · exact fun hm => ⟨hm.slot, hgeneration ▸ hm.current, hlive ▸ hm.live, hstate.mp hm.state⟩
  · exact fun hm => ⟨hm.slot, hgeneration ▸ hm.current, hlive ▸ hm.live, hstate.mpr hm.state⟩

theorem WokeAlone.sleepCount (h : WokeAlone s id t) (slot : Nat) :
    (t.tasks.record slot).sleepCount =
      (s.tasks.record slot).sleepCount - (if id.index = slot then 1 else 0 : Nat) := by
  rw [h.record slot]
  by_cases hslot : slot = id.index
  · rw [if_pos hslot, if_pos hslot.symm]
    rfl
  · rw [if_neg hslot, if_neg (Ne.symm hslot), Int.natCast_zero, Int.sub_zero]

theorem WokeAlone.callable_cons (h : WokeAlone s id t) :
    s.Callable (id :: ids) ↔ t.Callable ids := by
  constructor
  · intro hall m hm
    obtain ⟨hwakeable, hlimit⟩ := hall m (List.mem_cons_of_mem id hm)
    refine ⟨h.wakeable_iff.mpr hwakeable, ?_⟩
    unfold Scheduler.record at hlimit ⊢
    rw [h.sleepCount m.index]
    rw [wakesOf_cons] at hlimit
    omega
  · intro hrest m hm
    have hcount := h.sleepCount m.index
    by_cases hslot : id.index = m.index
    · have hwakeable : s.Wakeable m := by
        rcases List.mem_cons.mp hm with rfl | hm
        · exact h.wakeable
        · exact h.wakeable_iff.mp (hrest m hm).1
      have hspare := h.limit
      unfold Scheduler.record at hspare ⊢
      rw [hslot] at hspare
      rw [if_pos hslot] at hcount
      rw [wakesOf_cons, if_pos hslot]
      refine ⟨hwakeable, ?_⟩
      by_cases hagain : wakesOf ids m.index = 0
      · omega
      · obtain ⟨other, hother, he⟩ := List.countP_pos_iff.mp (Nat.pos_of_ne_zero hagain)
        have hlimit := (hrest other hother).2
        unfold Scheduler.record at hlimit
        rw [of_decide_eq_true he] at hlimit
        omega
    · have hm : m ∈ ids := (List.mem_cons.mp hm).resolve_left fun he => hslot (he ▸ rfl)
      obtain ⟨hwakeable, hlimit⟩ := hrest m hm
      refine ⟨h.wakeable_iff.mp hwakeable, ?_⟩
      unfold Scheduler.record at hlimit ⊢
      rw [if_neg hslot] at hcount
      rw [wakesOf_cons, if_neg hslot]
      omega

theorem wakeAll_cons_eq_ok :
    s.wakeAll (id :: ids) = .ok t ↔ ∃ u, s.wake id = .ok u ∧ u.wakeAll ids = .ok t := by
  unfold wakeAll
  rw [List.foldlM_cons]
  exact bind_eq_ok

structure WokenAll (s : Scheduler H) (ids : List TaskId) (t : Scheduler H) : Prop where
  callable : s.Callable ids
  record : ∀ slot, t.tasks.record slot = (s.tasks.record slot).wokenTimes (wakesOf ids slot)
  runQueue : t.runQueue = s.runQueue ++ s.firstWakes ids
  sleepers : t.sleepers = s.sleepers.filter fun m => decide (m ∉ ids)
  onTime : t.OnTime

theorem OnTime.wakeAll_of_callable (h : s.OnTime) (hcallable : s.Callable ids) :
    ∃ t, s.wakeAll ids = .ok t := by
  induction ids generalizing s with
  | nil => exact ⟨s, rfl⟩
  | cons id ids ih =>
      obtain ⟨hwakeable, hlimit⟩ := hcallable id List.mem_cons_self
      rw [wakesOf_cons, if_pos rfl] at hlimit
      obtain ⟨u, hok⟩ := h.wake_of_wakeable hwakeable (by omega)
      have halone := h.wake hok
      obtain ⟨t, hrest⟩ := ih halone.onTime (halone.callable_cons.mp hcallable)
      exact ⟨t, wakeAll_cons_eq_ok.mpr ⟨u, hok, hrest⟩⟩

theorem WokeAlone.firstWakes_cons (h : WokeAlone s id u) (hcallable : s.Callable (id :: ids)) :
    s.firstWakes (id :: ids) =
      (if (s.record id).state = .sleeping then [id] else []) ++ u.firstWakes ids := by
  have hasleep : ∀ m ∈ ids, ((u.record m).state = .sleeping ↔
      (s.record m).state = .sleeping ∧ m ≠ id) := by
    intro m hm
    by_cases hslot : m.index = id.index
    · have hself : u.record m = (s.record m).woken := (h.record m.index).trans (if_pos hslot)
      have hsame : m = id := by
        refine TaskId.ext_of_index hslot ?_
        rw [(hcallable m (List.mem_cons_of_mem id hm)).1.current, h.wakeable.current]
        unfold Scheduler.record
        rw [hslot]
      rw [hself]
      exact iff_of_false (TaskRecord.awake_woken _) fun hother => hother.2 hsame
    · have hother : u.record m = s.record m := (h.record m.index).trans (if_neg hslot)
      rw [hother]
      exact (and_iff_left fun he => hslot (congrArg TaskId.index he)).symm
  have hrest : ids.filter (fun m => decide ((u.record m).state = .sleeping)) =
      (ids.filter fun m => decide ((s.record m).state = .sleeping)).filter fun m => !m == id := by
    rw [List.filter_filter]
    refine List.filter_congr fun m hm => ?_
    rw [Bool.eq_iff_iff]
    simp [hasleep m hm, and_comm]
  unfold firstWakes
  rw [hrest, List.filter_cons]
  by_cases hfirst : (s.record id).state = .sleeping
  · rw [if_pos (decide_eq_true hfirst), if_pos hfirst, List.eraseDups_cons]
    rfl
  · rw [if_neg (by simpa using hfirst), if_neg hfirst, List.nil_append]
    congr 1
    refine (List.filter_eq_self.mpr fun m hm => ?_).symm
    have hne : m ≠ id := by
      rintro rfl
      exact hfirst (of_decide_eq_true (List.mem_filter.mp hm).2)
    simpa using hne

theorem OnTime.wakeAll (h : s.OnTime) (hok : s.wakeAll ids = .ok t) : WokenAll s ids t := by
  induction ids generalizing s with
  | nil =>
      obtain rfl := Except.ok.inj hok
      refine ⟨nofun, fun _ => rfl, (List.append_nil _).symm, ?_, h⟩
      exact (List.filter_eq_self.mpr fun m _ => decide_eq_true List.not_mem_nil).symm
  | cons id ids ih =>
      obtain ⟨u, hwake, hrest⟩ := wakeAll_cons_eq_ok.mp hok
      have halone := h.wake hwake
      have hlater := ih halone.onTime hrest
      have hcallable := halone.callable_cons.mpr hlater.callable
      refine ⟨hcallable, fun slot => ?_, ?_, ?_, hlater.onTime⟩
      · rw [hlater.record, halone.record, wakesOf_cons]
        by_cases hslot : slot = id.index
        · rw [if_pos hslot, if_pos hslot.symm]
          rfl
        · rw [if_neg hslot, if_neg (Ne.symm hslot)]
          rfl
      · rw [hlater.runQueue, halone.runQueue, List.append_assoc, halone.firstWakes_cons hcallable]
      · rw [hlater.sleepers, halone.sleepers, h.standing.nodup_sleepers.erase_eq_filter,
          List.filter_filter]
        refine List.filter_congr fun m _ => ?_
        rw [Bool.eq_iff_iff]
        simp [and_comm]

theorem WokenAll.nodup_firstWakes (h : WokenAll s ids t) : (s.firstWakes ids).Nodup := by
  have hnodup := h.onTime.standing.nodup_runQueue
  rw [h.runQueue] at hnodup
  exact (List.nodup_append.mp hnodup).2.1

end ManyWakes

/-! ## The alarm of the hardware -/

section Alarms

variable [ExactAlarm H]

open AlarmHardware

def ArmedForOne (s : Scheduler H) (ids : List TaskId) : Prop :=
  s.armed ≠ none ∧ ∃ id ∈ ids, s.sleepers.head? = some id

theorem WokeAlone.head_kept (h : WokeAlone s id t) (hhead : s.sleepers.head? ≠ some id) :
    t.sleepers.head? = s.sleepers.head? := by
  rw [h.sleepers]
  cases hsleep : s.sleepers with
  | nil => rfl
  | cons first rest =>
      rw [hsleep, List.head?_cons, ne_eq, Option.some.injEq] at hhead
      rw [List.erase_cons_tail (by simpa using hhead), List.head?_cons, List.head?_cons]

theorem OnTime.alarm_wake (h : s.OnTime) (hok : s.wake id = .ok t) :
    (s.armed ≠ none ∧ s.sleepers.head? = some id ∧ t.Watched true) ∨
      ((s.armed ≠ none → s.sleepers.head? ≠ some id) ∧ t.hardware = s.hardware ∧
        t.armed = s.armed) := by
  obtain ⟨_, u, hwoke, ⟨hother, rfl⟩ | ⟨⟨hhead, harmed⟩, ids, hrearmed⟩⟩ := h.standing.wake hok
  · refine .inr ⟨fun harmed hhead => hother ⟨hhead, ?_⟩, hwoke.hardware, hwoke.armed⟩
    obtain ⟨deadline, hdeadline⟩ := Option.ne_none_iff_exists'.mp harmed
    obtain ⟨first, hfirst, hwakeAt, _⟩ := soonest_eq_some.mp (h.timely.armed ▸ hdeadline)
    obtain rfl := Option.some.inj (hhead.symm.trans hfirst)
    rw [hdeadline, hwakeAt]
  · exact .inl ⟨by rw [harmed]; exact nofun, hhead,
      hrearmed.watched (.of_eq (alarm_clearAlarm u.hardware))⟩

theorem OnTime.watched_wakeAll (h : s.OnTime) (hok : s.wakeAll ids = .ok t)
    (hwatched : s.Watched true) : t.Watched true := by
  induction ids generalizing s with
  | nil =>
      obtain rfl := Except.ok.inj hok
      exact hwatched
  | cons id ids ih =>
      obtain ⟨u, hwake, hrest⟩ := wakeAll_cons_eq_ok.mp hok
      exact ih (h.wake hwake).onTime hrest (hwatched.wake h.standing hwake)

theorem OnTime.alarm_wakeAll (h : s.OnTime) (hok : s.wakeAll ids = .ok t) :
    (s.ArmedForOne ids → alarm t.hardware = t.armed) ∧
      (¬s.ArmedForOne ids → t.hardware = s.hardware) := by
  induction ids generalizing s with
  | nil =>
      obtain rfl := Except.ok.inj hok
      refine ⟨fun hone => ?_, fun _ => rfl⟩
      obtain ⟨_, _, hmem, _⟩ := hone
      contradiction
  | cons id ids ih =>
      obtain ⟨u, hwake, hrest⟩ := wakeAll_cons_eq_ok.mp hok
      have halone := h.wake hwake
      rcases h.alarm_wake hwake with ⟨harmed, hhead, hwatched⟩ | ⟨hother, hhardware, harmed⟩
      · refine ⟨fun _ => (halone.onTime.watched_wakeAll hrest hwatched).only rfl, fun hnone => ?_⟩
        exact absurd ⟨harmed, id, List.mem_cons_self, hhead⟩ hnone
      · have hsame : s.ArmedForOne (id :: ids) ↔ u.ArmedForOne ids := by
          unfold ArmedForOne
          rw [harmed]
          refine and_congr_right fun hset => ?_
          rw [halone.head_kept (hother hset)]
          simp [hother hset]
        rw [hsame, ← hhardware]
        exact ih halone.onTime hrest

/--
Where every deadline is still to come, a list of wakes may be done in any
order.  What differs is the order in which those who slept are queued: that of
their first wakes.
-/
theorem Reachable.wakes_commute (h : Reachable s)
    (hahead : ∀ m ∈ s.sleepers, (s.record m).wakeAt ≠ Instant.never →
      s.now < (s.record m).wakeAt)
    (hok : s.wakeAll ids = .ok t) (hperm : ids'.Perm ids) :
    ∃ t', s.wakeAll ids' = .ok t' ∧ t'.sleepers = t.sleepers ∧ t'.armed = t.armed ∧
      alarm t'.hardware = alarm t.hardware ∧
      (∀ slot, t'.tasks.record slot = t.tasks.record slot) ∧
      t.runQueue = s.runQueue ++ s.firstWakes ids ∧
      t'.runQueue = s.runQueue ++ s.firstWakes ids' ∧
      (s.firstWakes ids').Perm (s.firstWakes ids) := by
  have hs : s.OnTime := ⟨h.invariants.1, h.invariants.2, hahead⟩
  have hwoken := hs.wakeAll hok
  obtain ⟨t', hok'⟩ := hs.wakeAll_of_callable (hwoken.callable.perm hperm)
  have hwoken' := hs.wakeAll hok'
  have hsleepers : t'.sleepers = t.sleepers := by
    rw [hwoken'.sleepers, hwoken.sleepers]
    simp only [hperm.mem_iff]
  have hrecord : ∀ slot, t'.tasks.record slot = t.tasks.record slot := by
    intro slot
    rw [hwoken'.record, hwoken.record]
    unfold wakesOf
    rw [hperm.countP_eq]
  have harmed : t'.armed = t.armed := by
    rw [hwoken'.onTime.timely.armed, hwoken.onTime.timely.armed]
    exact soonest_congr hsleepers fun m _ => congrArg TaskRecord.wakeAt (hrecord m.index)
  have halarm : alarm t'.hardware = alarm t.hardware := by
    obtain ⟨hset, hkept⟩ := hs.alarm_wakeAll hok
    obtain ⟨hset', hkept'⟩ := hs.alarm_wakeAll hok'
    have hsame : s.ArmedForOne ids' ↔ s.ArmedForOne ids := by
      unfold ArmedForOne
      simp only [hperm.mem_iff]
    by_cases hone : s.ArmedForOne ids
    · rw [hset hone, hset' (hsame.mpr hone), harmed]
    · rw [hkept hone, hkept' fun hone' => hone (hsame.mp hone')]
  refine ⟨t', hok', hsleepers, harmed, halarm, hrecord, hwoken.runQueue, hwoken'.runQueue, ?_⟩
  refine (List.perm_ext_iff_of_nodup hwoken'.nodup_firstWakes
    hwoken.nodup_firstWakes).mpr fun m => ?_
  unfold firstWakes
  rw [List.mem_eraseDups, List.mem_eraseDups, List.mem_filter, List.mem_filter, hperm.mem_iff]

end Alarms

theorem wakes_commute_threeSleepers :
    ∃ s t t' : Scheduler PromptBoard, Reachable s ∧
      s.wakeAll [⟨1, 1⟩, ⟨3, 3⟩, ⟨1, 1⟩] = .ok t ∧ s.wakeAll [⟨3, 3⟩, ⟨1, 1⟩, ⟨1, 1⟩] = .ok t' ∧
      (s.sleepers, s.armed, s.runQueue) = ([⟨1, 1⟩, ⟨2, 2⟩, ⟨3, 3⟩], some ⟨5⟩, [⟨4, 4⟩]) ∧
      (t.sleepers, t.armed, t.runQueue) = ([⟨2, 2⟩], some ⟨9⟩, [⟨4, 4⟩, ⟨1, 1⟩, ⟨3, 3⟩]) ∧
      (t'.sleepers, t'.armed, t'.runQueue) = ([⟨2, 2⟩], some ⟨9⟩, [⟨4, 4⟩, ⟨3, 3⟩, ⟨1, 1⟩]) ∧
      (t'.record ⟨1, 1⟩).sleepCount = -1 := by
  cases hrun : threeSleepers with
  | error fault =>
      have hsome : threeSleepers.toOption.isSome = true := by decide
      rw [hrun] at hsome
      contradiction
  | ok s =>
      have hreachable : Reachable s := Reachable.new.performAll hrun
      have hbefore : threeSleepers.toOption.map (fun s => (s.sleepers, s.armed, s.runQueue,
          s.firstWakes [⟨3, 3⟩, ⟨1, 1⟩, ⟨1, 1⟩],
          decide (∀ m ∈ s.sleepers, (s.record m).wakeAt ≠ Instant.never →
            s.now < (s.record m).wakeAt))) =
          some ([⟨1, 1⟩, ⟨2, 2⟩, ⟨3, 3⟩], some ⟨5⟩, [⟨4, 4⟩], [⟨3, 3⟩, ⟨1, 1⟩], true) := by
        decide
      have hafter : threeSleepers.toOption.bind (fun s =>
          (s.wakeAll [⟨1, 1⟩, ⟨3, 3⟩, ⟨1, 1⟩]).toOption.map fun t =>
            (t.sleepers, t.armed, t.runQueue, (t.record ⟨1, 1⟩).sleepCount)) =
          some ([⟨2, 2⟩], some ⟨9⟩, [⟨4, 4⟩, ⟨1, 1⟩, ⟨3, 3⟩], -1) := by decide
      rw [hrun] at hbefore hafter
      simp only [Except.toOption, Option.map_some, Option.some.injEq, Prod.mk.injEq,
        decide_eq_true_eq] at hbefore
      obtain ⟨hsleep, harmed, hready, hfirst, hahead⟩ := hbefore
      change (s.wakeAll [⟨1, 1⟩, ⟨3, 3⟩, ⟨1, 1⟩]).toOption.map (fun t =>
        (t.sleepers, t.armed, t.runQueue, (t.record ⟨1, 1⟩).sleepCount)) = _ at hafter
      cases hok : s.wakeAll [⟨1, 1⟩, ⟨3, 3⟩, ⟨1, 1⟩] with
      | error fault =>
          rw [hok] at hafter
          contradiction
      | ok t =>
          rw [hok] at hafter
          simp only [Except.toOption, Option.map_some, Option.some.injEq, Prod.mk.injEq] at hafter
          obtain ⟨hsleep', harmed', hready', hcount⟩ := hafter
          obtain ⟨t', hok', hsame, hset, _, hrecord, _, hqueue, _⟩ :=
            hreachable.wakes_commute hahead hok (.swap _ _ _)
          have hrecord' : t'.record ⟨1, 1⟩ = t.record ⟨1, 1⟩ := hrecord 1
          refine ⟨s, t, t', hreachable, hok, hok', ?_, ?_, ?_, ?_⟩
          · rw [hsleep, harmed, hready]
          · rw [hsleep', harmed', hready']
          · rw [hsame, hset, hqueue, hfirst, hsleep', harmed', hready]
            rfl
          · rw [hrecord', hcount]

end Scheduler

end CoopTasks
