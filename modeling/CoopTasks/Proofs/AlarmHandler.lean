import CoopTasks.Proofs.Exclusion
import CoopTasks.Proofs.Expiry

/-!
What the handler of the alarm does.

Every sleeper of a reachable state can be woken (`Reachable.rousable`).  So
neither loop of the handler can fail, and each of them ends by its own
condition.  Its outcome is `Handled`: whose deadline has passed is moved to the
run queue, and the alarm is armed for the first deadline that is left.
-/

namespace CoopTasks.Scheduler

variable {H : Type} {s t u : Scheduler H} {id head : TaskId} {ids run sleep : List TaskId}
variable {change : TaskRecord → TaskRecord} {slot : Nat}

/-! ## Every sleeper can be woken -/

theorem Rousable.congr (h : s.Rousable) (hsleepers : t.sleepers = s.sleepers)
    (hkeep : ∀ m ∈ s.sleepers, (t.record m).isLive = (s.record m).isLive ∧
      (t.record m).sleepCount = (s.record m).sleepCount) : t.Rousable := by
  intro m hm
  rw [hsleepers] at hm
  rw [(hkeep m hm).1, (hkeep m hm).2]
  exact h m hm

theorem Rousable.wakes (h : s.Rousable) (hs : s.Standing) (hwakes : Wakes s ids t) :
    t.Rousable := by
  refine (hwakes.preserves (P := fun t => t.Standing ∧ t.Rousable) ?_ ?_ ⟨hs, h⟩).2
  · intro t u hmoved ⟨ht, h⟩
    refine ⟨hmoved.standing ht, h.congr hmoved.sleepers_eq fun m _ => ?_⟩
    unfold Scheduler.record
    rw [hmoved.tasks]
    exact ⟨rfl, rfl⟩
  · intro t id u hwoke ⟨ht, h⟩
    exact ⟨hwoke.standing, h.woke ht hwoke⟩

theorem Moved.rousable (h : Moved s id change run s.sleepers t) (hs : s.Rousable)
    (hkeep : (∀ r, (change r).isLive = r.isLive ∧ (change r).sleepCount = r.sleepCount) ∨
      ∀ m ∈ s.sleepers, m.index ≠ id.index) : t.Rousable := by
  refine hs.congr h.sleepers fun m hm => ?_
  rcases hkeep with hkeep | haway
  · exact ⟨h.field TaskRecord.isLive (fun r => (hkeep r).1) m.index,
      h.field TaskRecord.sleepCount (fun r => (hkeep r).2) m.index⟩
  · have hsame : t.record m = s.record m := h.other (haway m hm)
    rw [hsame]
    exact ⟨rfl, rfl⟩

theorem Dispatched.rousable {decision : Decision} (h : Dispatched s t decision)
    (hs : s.Rousable) : t.Rousable := by
  cases h with
  | resumed _ _ hmoved _ => exact hmoved.rousable hs (.inl fun _ => ⟨rfl, rfl⟩)
  | drained _ hsleepers _ hmoved _ =>
      rw [← hsleepers] at hmoved
      exact hmoved.rousable hs (.inl fun _ => ⟨rfl, rfl⟩)
  | idle _ _ => exact hs

theorem Attempted.rousable {w w' : Signal} {result : WaitResult} (h : Attempted s w t w' result)
    (hs : s.Standing) (hrousable : s.Rousable) : t.Rousable := by
  cases h with
  | acquired _ => exact hrousable
  | parked hcurrent _ _ _ _ hmoved _ =>
      exact hmoved.rousable hrousable (.inr (hs.current_awake hcurrent))
  | busy _ _ _ _ _ => exact hrousable

section Operations

variable [Hardware H]

theorem Rousable.wakeWaiter (h : s.Rousable) (hs : s.Standing) {waiter : Option TaskId}
    (hok : s.wakeWaiter waiter = .ok t) : t.Rousable := by
  obtain ⟨ids, hwakes⟩ := hs.wakes_of_wakeWaiter hok
  exact h.wakes hs hwakes

theorem Suspended.away {pointer : Address} {rest : List TaskId}
    (h : Suspended s pointer id rest u) (hs : s.Standing) :
    ∀ m ∈ u.sleepers, m.index ≠ id.index := by
  intro m hm
  rw [h.placed.sleepers_eq] at hm
  refine Ne.symm (hs.apart id ?_ m hm)
  rw [h.runQueue]
  exact List.mem_cons_self

theorem Suspended.rousable {pointer : Address} {rest : List TaskId}
    (h : Suspended s pointer id rest u) (hs : s.Standing) (hrousable : s.Rousable) :
    u.Rousable := by
  refine hrousable.congr h.placed.sleepers_eq fun m hm => ?_
  have hsame : u.record m = s.record m :=
    h.other (h.away hs m (h.placed.sleepers_eq ▸ hm))
  rw [hsame]
  exact ⟨rfl, rfl⟩

theorem Settled.rousable (h : Settled s id run s.sleepers t) (hs : s.Rousable)
    (haway : ∀ m ∈ s.sleepers, m.index ≠ id.index) : t.Rousable := by
  cases h with
  | parked _ hmoved _ => exact hmoved.rousable hs (.inl fun _ => ⟨rfl, rfl⟩)
  | finished _ _ _ _ hmoved _ hwake =>
      exact (hmoved.rousable hs (.inr haway)).wakeWaiter hmoved.standing hwake
  | asleep _ hlive _ hsleeping hmoved _ =>
      intro m hm
      rw [hmoved.sleepers, (s.perm_bedded id s.sleepers).mem_iff] at hm
      have hkept : (t.record m).isLive = (s.record m).isLive ∧
          (t.record m).sleepCount = (s.record m).sleepCount :=
        ⟨hmoved.field TaskRecord.isLive (fun _ => rfl) m.index,
          hmoved.field TaskRecord.sleepCount (fun _ => rfl) m.index⟩
      rw [hkept.1, hkept.2]
      rcases List.mem_cons.mp hm with rfl | hm
      · exact ⟨hlive, of_decide_eq_true hsleeping⟩
      · exact hs m hm
  | requeued _ _ _ _ hmoved _ => exact hmoved.rousable hs (.inl fun _ => ⟨rfl, rfl⟩)

theorem Switched.rousable {pointer : Address} {decision : Decision} {rest woken : List TaskId}
    {u v w : Scheduler H} (h : Switched s pointer t decision id rest woken u v w)
    (hs : s.Standing) (hrousable : s.Rousable) : t.Rousable := by
  have hsettled := h.settled
  rw [← h.suspended.placed.sleepers_eq] at hsettled
  have hv := hsettled.rousable (h.suspended.rousable hs hrousable) (h.suspended.away hs)
  exact h.dispatched.rousable (hv.wakes h.standing.1 h.rearmed.wakes)

theorem Performed.rousable {op : Operation} {decision : Option Decision}
    (h : Performed s op t decision) (hs : s.Standing) (hrousable : s.Rousable) : t.Rousable := by
  cases h with
  | refused => exact hrousable
  | started hstarted =>
      refine hrousable.congr hstarted.sleepers fun m hm => ?_
      rw [hstarted.record_sleeper hs hm]
      exact ⟨rfl, rfl⟩
  | switched hswitched => exact hswitched.rousable hs hrousable
  | dispatched hdispatched => exact hdispatched.rousable hrousable
  | exiting _ _ hmoved => exact hmoved.rousable hrousable (.inl fun _ => ⟨rfl, rfl⟩)
  | asleep hcurrent _ hmoved => exact hmoved.rousable hrousable (.inr (hs.current_awake hcurrent))
  | woken hwake =>
      obtain ⟨ids, hwakes⟩ := hs.wakes_of_wake hwake
      exact hrousable.wakes hs hwakes
  | posted hwake => exact hrousable.wakeWaiter hs hwake
  | attempted hattempted => exact hattempted.rousable hs hrousable
  | joined hattempted _ hmoved =>
      exact hmoved.rousable (hattempted.rousable hs hrousable) (.inl fun _ => ⟨rfl, rfl⟩)
  | tried _ hmoved => exact hmoved.rousable hrousable (.inl fun _ => ⟨rfl, rfl⟩)
  | handled halarm =>
      obtain ⟨ids, hwakes⟩ := hs.wakes_of_handleAlarm halarm
      exact hrousable.wakes hs hwakes

theorem Reachable.rousable (h : Reachable s) : s.Rousable := by
  induction h with
  | @new hardware =>
      intro m hm
      rw [(placed_new hardware).sleepers_eq] at hm
      contradiction
  | elapse _ ih => exact ih
  | perform hbefore hok ih =>
      obtain ⟨hs, _⟩ := hbefore.invariants
      exact (hs.perform hok).rousable hs ih

end Operations

/-! ## The first loop -/

def wakeNotice (s : Scheduler H) (id : TaskId) : Notice :=
  .woken id ((s.record id).sleepCount - 1)

theorem wakeTask_journal {wasHead : Bool} (hok : s.wakeTask id = .ok (t, wasHead)) :
    t.journal = s.wakeNotice id :: s.journal := by
  unfold Scheduler.wakeTask at hok
  simp only [bind_eq_ok, require_eq_ok, exists_and_left, exists_const] at hok
  obtain ⟨_, _, _, hok⟩ := hok
  split at hok
  · simp only [Scheduler.enqueue, bind_eq_ok, pure_eq_ok, Prod.mk.injEq] at hok
    obtain ⟨u, ⟨queues, _, rfl⟩, rfl, _⟩ := hok
    rfl
  · obtain ⟨rfl, _⟩ := Prod.mk.inj (pure_eq_ok.mp hok)
    rfl
  · obtain ⟨rfl, _⟩ := Prod.mk.inj (pure_eq_ok.mp hok)
    rfl
  · contradiction

theorem Rousable.wakeTask (h : s.Rousable) (hs : s.Standing) (hmem : id ∈ s.sleepers) :
    ∃ t wasHead, s.wakeTask id = .ok (t, wasHead) ∧ Woke s id t ∧
      (s.record id).state = .sleeping := by
  obtain ⟨hlive, hpending⟩ := h id hmem
  obtain ⟨htask, hasleep⟩ := hs.asleep id hmem
  have hlimit : sleepCountMin < (s.record id).sleepCount := Int.lt_trans (by decide) hpending
  obtain ⟨t, wasHead, hok⟩ := hs.wakeTask_of_live
    (hs.generation id (List.mem_append_right _ hmem)) htask hlive hlimit (.inl hasleep)
  exact ⟨t, wasHead, hok, (hs.wakeTask hok).1, hasleep⟩

/-- Each pass but the last takes a sleeper, so more passes than sleepers make no difference. -/
theorem Rousable.wakeExpired (h : s.Rousable) (hs : s.Standing) (now : Instant) :
    ∃ t ids, (∀ passes, s.sleepers.length < passes →
        Scheduler.wakeExpired now passes s = .ok t) ∧
      Expired now s ids t ∧ t.journal = (ids.map s.wakeNotice).reverse ++ s.journal := by
  induction hlength : s.sleepers.length generalizing s with
  | zero =>
      have hempty := List.length_eq_zero_iff.mp hlength
      refine ⟨s, [], ?_, .empty hempty, rfl⟩
      intro passes hpasses
      obtain ⟨passes, rfl⟩ := Nat.exists_eq_succ_of_ne_zero (show passes ≠ 0 by omega)
      rw [Scheduler.wakeExpired, hs.timers_head, hempty, List.head?_nil]
  | succ length ih =>
      obtain ⟨head, hhead⟩ : ∃ head, s.sleepers.head? = some head := by
        cases hsleep : s.sleepers with
        | nil => rw [hsleep] at hlength; contradiction
        | cons head rest => exact ⟨head, rfl⟩
      by_cases hlater : (s.record head).wakeAt.isNever ∨ now < (s.record head).wakeAt
      · refine ⟨s, [], ?_, .later hhead hlater, rfl⟩
        intro passes hpasses
        obtain ⟨passes, rfl⟩ := Nat.exists_eq_succ_of_ne_zero (show passes ≠ 0 by omega)
        rw [Scheduler.wakeExpired, hs.timers_head, hhead]
        exact if_pos hlater
      · obtain ⟨u, wasHead, hwake, hwoke, hasleep⟩ := h.wakeTask hs (List.mem_of_head? hhead)
        have hshorter : u.sleepers.length = length := by
          have hless := hwoke.length_sleepers hhead
          omega
        obtain ⟨t, ids, hloop, hexpired, hjournal⟩ := ih (h.woke hs hwoke) hwoke.standing hshorter
        refine ⟨t, head :: ids, ?_, .due hhead hasleep hlater hwoke hexpired, ?_⟩
        · intro passes hpasses
          obtain ⟨passes, rfl⟩ := Nat.exists_eq_succ_of_ne_zero (show passes ≠ 0 by omega)
          rw [Scheduler.wakeExpired, hs.timers_head, hhead]
          refine (if_neg hlater).trans ?_
          rw [hwake]
          exact hloop passes (Nat.lt_of_succ_lt_succ hpasses)
        · have hsame : ids.map u.wakeNotice = ids.map s.wakeNotice := by
            refine List.map_congr_left fun m hm => ?_
            have hmem : m ∈ u.sleepers := by
              rw [hexpired.queues.2]
              exact List.mem_append_left _ hm
            unfold wakeNotice
            rw [(hwoke.record_sleeper hs hmem).2]
          rw [hjournal, hsame, wakeTask_journal hwake, List.map_cons, List.reverse_cons,
            List.append_assoc, List.singleton_append]

theorem Expired.woken {now : Instant} (h : Expired now s ids t) (hs : s.Standing)
    (hid : id ∈ ids) : t.record id = (s.record id).woken := by
  induction h with
  | empty _ | later _ _ => contradiction
  | @due s v u head ids hhead hstate _ hwoke hrest ih =>
      rcases List.mem_cons.mp hid with rfl | hid
      · refine ((hrest.undisturbed id.index).of_awake ?_).trans hwoke.record_self
        exact hwoke.awake
      · have hmem : id ∈ v.sleepers := by
          rw [hrest.queues.2]
          exact List.mem_append_left _ hid
        rw [ih hwoke.standing hid, (hwoke.record_sleeper hs hmem).2]

theorem Expired.other {now : Instant} (h : Expired now s ids t)
    (hslot : ∀ m ∈ ids, m.index ≠ slot) : t.tasks.record slot = s.tasks.record slot := by
  induction h with
  | empty _ | later _ _ => rfl
  | due _ _ _ hwoke _ ih =>
      obtain ⟨hhead, hrest⟩ := List.forall_mem_cons.mp hslot
      rw [ih hrest, hwoke.record_other hhead.symm]

theorem Expired.kept {now : Instant} (h : Expired now s ids t) :
    t.hardware = s.hardware ∧ t.generation = s.generation ∧ t.resumedAt = s.resumedAt := by
  induction h with
  | empty _ | later _ _ => exact ⟨rfl, rfl, rfl⟩
  | due _ _ _ hwoke _ ih =>
      obtain ⟨hhardware, hgeneration, hresumedAt⟩ := ih
      exact ⟨hhardware.trans hwoke.hardware, hgeneration.trans hwoke.generation,
        hresumedAt.trans hwoke.resumedAt⟩

/-! ## The first deadline -/

theorem find?_finite_eq_none {a : Instant} {l : List Instant} (hnever : a = Instant.never)
    (hle : ∀ b ∈ l, a ≤ b) : l.find? (fun deadline => !deadline.isNever) = none := by
  refine List.find?_eq_none.mpr fun b hb => ?_
  have hlast := b.le_never
  have hfirst := hle b hb
  rw [hnever] at hfirst
  rw [Instant.le_iff] at hfirst hlast
  have heq : b = Instant.never := Instant.ext_iff_toNat.mpr (by omega)
  rw [Instant.isNever_iff.mpr heq]
  decide

theorem Ordered.soonest_eq_find (h : s.Ordered) :
    s.soonest = (s.sleepers.map fun id => (s.record id).wakeAt).find?
      fun deadline => !deadline.isNever := by
  unfold Ordered at h
  unfold Scheduler.soonest
  cases hsleep : s.sleepers with
  | nil => rfl
  | cons head rest =>
      rw [hsleep, List.pairwise_cons] at h
      rw [List.head?_cons, Option.map_some, List.map_cons, List.find?_cons, Option.filter_some]
      cases hnever : (s.record head).wakeAt.isNever with
      | false => rfl
      | true =>
          refine (find?_finite_eq_none (Instant.isNever_iff.mp hnever) fun b hb => ?_).symm
          obtain ⟨m, hm, rfl⟩ := List.mem_map.mp hb
          exact h.1 m hm

/-! ## Both loops -/

section Handler

variable [Hardware H]

theorem Expired.eq_takeWhile (h : Expired s.now s ids t) (hs : s.Standing) :
    ids = s.sleepers.takeWhile s.overdue := by
  generalize hnow : s.now = now at h
  induction h with
  | empty hempty => rw [hempty, List.takeWhile_nil]
  | @later s head hhead hlater =>
      obtain ⟨rest, hrest⟩ := List.head?_eq_some_iff.mp hhead
      have hkept : ¬s.overdue head = true := by
        rw [overdue_iff, hnow]
        exact not_not_intro hlater
      rw [hrest, List.takeWhile_cons, if_neg hkept]
  | @due s v u head ids hhead hstate hdue hwoke hrest ih =>
      have hpast : s.overdue head = true := by
        rw [overdue_iff, hnow]
        exact hdue
      have hclock : v.now = s.now := congrArg Hardware.now hwoke.hardware
      rw [ih hwoke.standing (hclock.trans hnow), (hwoke.queues_head hhead hstate).2,
        List.takeWhile_cons, if_pos hpast]
      exact congrArg (head :: ·)
        (takeWhile_overdue_congr hclock fun m hm => hwoke.wakeAt hs hm)

/-- The outcome of handling the alarm. -/
structure Handled (s t : Scheduler H) : Prop where
  runQueue : t.runQueue = s.runQueue ++ s.sleepers.filter s.overdue
  sleepers : t.sleepers = s.sleepers.filter fun id => !s.overdue id
  woken : ∀ id ∈ s.sleepers, s.overdue id = true → t.record id =
    { s.record id with
      state := .ready
      sleepCount := (s.record id).sleepCount - 1
      wakeAt := Instant.never }
  kept : ∀ id ∈ t.sleepers, s.overdue id = false ∧ t.record id = s.record id
  other : ∀ slot, (∀ id ∈ s.sleepers, s.overdue id = true → id.index ≠ slot) →
    t.tasks.record slot = s.tasks.record slot
  head : ∀ id, s.runQueue.head? = some id →
    t.runQueue.head? = some id ∧ t.record id = s.record id
  armed : t.armed = (t.sleepers.map fun id => (t.record id).wakeAt).find?
    fun deadline => !deadline.isNever
  later : ∀ deadline, t.armed = some deadline → s.now < deadline
  hardware : t.hardware = t.armed.elim s.hardware fun deadline =>
    (Hardware.setAlarm s.hardware deadline).1
  generation : t.generation = s.generation
  resumedAt : t.resumedAt = s.resumedAt
  journal : t.journal =
    (t.armed.bind fun deadline => t.sleepers.head?.map (Notice.alarmArmed · deadline)).toList ++
      ((s.sleepers.filter s.overdue).map s.wakeNotice).reverse ++ s.journal

end Handler

/-! ## The whole handler -/

section Exact

variable [ExactHardware H]

def handleAlarmWithin (waking arming : Nat) (s : Scheduler H) : Except Fault (Scheduler H) := do
  let s ← Scheduler.wakeExpired s.now waking { s with armed := none }
  s.rearmSteps arming

/-- The state between the loops. -/
structure Cleared (s u : Scheduler H) : Prop where
  expired : Expired s.now { s with armed := none } (s.sleepers.filter s.overdue) u
  sleepers : u.sleepers = s.sleepers.filter fun id => !s.overdue id
  kept : ∀ m ∈ u.sleepers, s.overdue m = false ∧ u.record m = s.record m
  journal : u.journal = ((s.sleepers.filter s.overdue).map s.wakeNotice).reverse ++ s.journal

theorem Rousable.expire (h : s.Rousable) (hs : s.Standing) (hordered : s.Ordered) :
    ∃ u, (∀ passes, slotCount < passes →
        Scheduler.wakeExpired s.now passes { s with armed := none } = .ok u) ∧ Cleared s u := by
  have hs' := (alarmMoved s s.hardware none).standing hs
  obtain ⟨u, ids, hloop, hexpired, hjournal⟩ :=
    Rousable.wakeExpired (s := { s with armed := none }) h hs' s.now
  obtain ⟨hfirst, hothers⟩ := hordered.overdue_first
  obtain rfl : ids = s.sleepers.filter s.overdue := (hexpired.eq_takeWhile hs').trans hfirst
  have hleft : u.sleepers = s.sleepers.filter fun id => !s.overdue id := by
    have hsplit : s.sleepers = s.sleepers.filter s.overdue ++ u.sleepers := hexpired.queues.2
    have hboth := List.takeWhile_append_dropWhile (p := s.overdue) (l := s.sleepers)
    rw [hfirst, hothers] at hboth
    exact List.append_cancel_left (hsplit.symm.trans hboth.symm)
  refine ⟨u, fun passes hpasses => hloop passes (Nat.lt_of_le_of_lt hs.length_sleepers hpasses),
    hexpired, hleft, fun m hm => ?_, hjournal⟩
  rw [hleft, List.mem_filter, Bool.not_eq_true'] at hm
  refine ⟨hm.2, hexpired.other fun id hid he => ?_⟩
  obtain ⟨hid, hpast⟩ := List.mem_filter.mp hid
  have hsame : id = m := by
    rw [← hs.idOf_index (List.mem_append_right _ hid), he,
      hs.idOf_index (List.mem_append_right _ hm.1)]
  rw [hsame, hm.2] at hpast
  contradiction

theorem Cleared.later (h : Cleared s u) (hid : id ∈ u.sleepers) : u.overdue id = false := by
  obtain ⟨hlater, hsame⟩ := h.kept id hid
  have hclock : u.now = s.now := congrArg Hardware.now h.expired.kept.1
  unfold overdue at hlater ⊢
  rwa [hclock, hsame]

theorem Cleared.handled (h : Cleared s u) (hs : s.Standing) (ht : t.Timely)
    (hrearmed : Rearmed u [] t) : Handled s t := by
  have hs' := (alarmMoved s s.hardware none).standing hs
  have hexpired := h.expired
  have htasks : t.tasks = u.tasks := by cases hrearmed <;> rfl
  have hrecord : ∀ id, t.record id = u.record id := fun id =>
    congrArg (fun tasks => tasks.record id.index) htasks
  have hsleepers : t.sleepers = u.sleepers := hrearmed.queues.2.symm
  have hrunQueue : t.runQueue = s.runQueue ++ s.sleepers.filter s.overdue :=
    hrearmed.queues.1.trans ((List.append_nil _).trans hexpired.queues.1)
  have hother : ∀ slot, (∀ id ∈ s.sleepers, s.overdue id = true → id.index ≠ slot) →
      t.tasks.record slot = s.tasks.record slot := by
    intro slot hslot
    rw [htasks]
    exact hexpired.other fun m hm => hslot m (List.mem_filter.mp hm).1 (List.mem_filter.mp hm).2
  obtain ⟨hhardware, hgeneration, hresumedAt⟩ := hexpired.kept
  have hunarmed : u.armed = none := hexpired.alarm_kept.1
  have hkept : ∀ id ∈ t.sleepers, s.overdue id = false ∧ t.record id = s.record id := by
    intro id hid
    obtain ⟨hlater, hsame⟩ := h.kept id (hsleepers ▸ hid)
    exact ⟨hlater, (hrecord id).trans hsame⟩
  refine ⟨hrunQueue, hsleepers.trans h.sleepers, ?woken, hkept, hother, ?head, ?armed, ?later,
    ?hardware, ?generation, ?resumedAt, ?journal⟩
  case woken =>
    intro id hid hpast
    have hwoken : u.record id = (s.record id).woken :=
      hexpired.woken hs' (List.mem_filter.mpr ⟨hid, hpast⟩)
    rw [TaskRecord.woken_of_sleeping (hs.asleep id hid).2] at hwoken
    exact (hrecord id).trans hwoken
  case head =>
    intro id hhead
    refine ⟨?_, hother id.index fun m hm _ => Ne.symm (hs.apart id (List.mem_of_head? hhead) m hm)⟩
    rw [hrunQueue, List.head?_append]
    exact Option.or_eq_some_iff.mpr (.inl hhead)
  case armed =>
    rw [ht.armed]
    exact ht.ordered.soonest_eq_find
  case later =>
    intro deadline harmed
    rw [ht.armed, soonest_eq_some] at harmed
    obtain ⟨first, hfirst, hwakeAt, hfinite⟩ := harmed
    obtain ⟨hlater, hsame⟩ := hkept first (List.mem_of_head? hfirst)
    rw [Bool.eq_false_iff, ne_eq, overdue_iff, Classical.not_not, ← hsame, hwakeAt,
      Instant.isNever_iff] at hlater
    exact hlater.resolve_left hfinite
  case hardware =>
    cases hrearmed with
    | empty _ | kept _ _ =>
        rw [hunarmed]
        exact hhardware
    | accepted _ _ hset =>
        rw [← hhardware]
        exact (congrArg Prod.fst hset).symm
  case generation =>
    refine Eq.trans ?_ hgeneration
    cases hrearmed <;> rfl
  case resumedAt =>
    refine Eq.trans ?_ hresumedAt
    cases hrearmed <;> rfl
  case journal =>
    cases hrearmed with
    | empty _ | kept _ _ =>
        rw [hunarmed]
        exact h.journal
    | @accepted _ first _ hfirst _ _ =>
        change .alarmArmed first (u.record first).wakeAt :: u.journal =
          (u.sleepers.head?.map (Notice.alarmArmed · (u.record first).wakeAt)).toList ++ _ ++ _
        rw [hfirst, h.journal]
        rfl

theorem Cleared.tasks_eq (h : Cleared s u) (hnone : s.sleepers.filter s.overdue = [])
    (hrearmed : Rearmed u [] t) :
    t.tasks = s.tasks ∧ t.ready = s.ready ∧ t.timers = s.timers := by
  have hexpired := h.expired
  rw [hnone] at hexpired
  cases hexpired with
  | empty _ | later _ _ => cases hrearmed <;> exact ⟨rfl, rfl, rfl⟩

theorem Rousable.handleAlarm (h : s.Rousable) (hs : s.Standing) (htimely : s.Timely) :
    ∃ t, s.handleAlarm = .ok t ∧ Handled s t ∧
      (∀ waking arming, slotCount < waking → slotCount < arming →
        s.handleAlarmWithin waking arming = .ok t) ∧
      (s.sleepers.filter s.overdue = [] →
        t.tasks = s.tasks ∧ t.ready = s.ready ∧ t.timers = s.timers) := by
  obtain ⟨u, hwaking, hcleared⟩ := h.expire hs htimely.ordered
  have hu := hcleared.expired.standing ((alarmMoved s s.hardware none).standing hs)
  obtain ⟨t, harming, hrearmed⟩ :=
    hu.rearmSteps_of_later fun _ hhead => hcleared.later (List.mem_of_head? hhead)
  have hloops : ∀ waking arming, slotCount < waking → slotCount < arming →
      s.handleAlarmWithin waking arming = .ok t := by
    intro waking arming hwaking' harming'
    obtain ⟨arming, rfl⟩ := Nat.exists_eq_succ_of_ne_zero (show arming ≠ 0 by omega)
    exact bind_eq_ok.mpr ⟨u, hwaking waking hwaking', harming arming⟩
  have hok : s.handleAlarm = .ok t :=
    hloops (slotCount + 1) (slotCount + 1) (Nat.lt_succ_self _) (Nat.lt_succ_self _)
  exact ⟨t, hok, hcleared.handled hs (htimely.handleAlarm hs hok) hrearmed, hloops,
    fun hnone => hcleared.tasks_eq hnone hrearmed⟩

/--
In every reachable state, whatever the clock shows, the handler of the alarm
moves the sleepers whose deadlines have passed to the end of the run queue and
arms the alarm for the first deadline that is left.  To call it again at the
same time changes no task, no queue and no armed deadline.
-/
theorem Reachable.handles_alarm (h : Reachable s) :
    ∃ t, s.handleAlarm = .ok t ∧ Handled s t ∧
      (∀ waking arming, slotCount < waking → slotCount < arming →
        s.handleAlarmWithin waking arming = .ok t) ∧
      ∀ hardware : H, Hardware.now hardware = s.now →
        ∃ u, { t with hardware }.handleAlarm = .ok u ∧ u.tasks = t.tasks ∧ u.ready = t.ready ∧
          u.timers = t.timers ∧ u.armed = t.armed := by
  obtain ⟨hs, htimely⟩ := h.invariants
  obtain ⟨t, hok, hhandled, hloops, _⟩ := h.rousable.handleAlarm hs htimely
  refine ⟨t, hok, hhandled, hloops, fun hardware hclock => ?_⟩
  have hstep : s.perform .handleAlarm = .ok (t, none) := bind_eq_ok.mpr ⟨t, hok, rfl⟩
  have hreachable : Reachable { t with hardware } := .elapse (h.perform hstep)
  obtain ⟨ht, htimely'⟩ := hreachable.invariants
  obtain ⟨u, hagain, hhandled', _, hsame⟩ := hreachable.rousable.handleAlarm ht htimely'
  have hnone : t.sleepers.filter ({ t with hardware } : Scheduler H).overdue = [] := by
    refine List.filter_eq_nil_iff.mpr fun m hm => ?_
    obtain ⟨hlater, hkept⟩ := hhandled.kept m hm
    rw [Bool.not_eq_true, ← hlater]
    change (!(t.record m).wakeAt.isNever && decide ((t.record m).wakeAt ≤ Hardware.now hardware)) =
      _
    rw [hclock, hkept]
    rfl
  obtain ⟨htasks, hready, htimers⟩ := hsame hnone
  refine ⟨u, hagain, htasks, hready, htimers, ?_⟩
  rw [hhandled'.armed, hhandled.armed]
  unfold Scheduler.sleepers Scheduler.record
  rw [htasks, htimers]

end Exact

def threeSleepers : Except Fault (Scheduler PromptBoard) :=
  (new (PromptBoard.start Instant.zero)).performAll
    [.spawn ⟨0x20000000, 0x20000400⟩ 0x200003c8, .spawn ⟨0x20001000, 0x20001400⟩ 0x200013c8,
      .spawn ⟨0x20002000, 0x20002400⟩ 0x200023c8, .spawn ⟨0x20003000, 0x20003400⟩ 0x200033c8,
      .reschedule Board.mainlinePointer, .markAsleep ⟨5⟩, .reschedule 0x20000380,
      .markAsleep ⟨9⟩, .reschedule 0x20001380, .markAsleep Instant.never, .reschedule 0x20002380]

def oneLate : Except Fault (Scheduler PromptBoard) :=
  threeSleepers.map fun s => { s with hardware := PromptBoard.start ⟨7⟩ }

theorem handles_alarm_oneLate :
    ∃ s t : Scheduler PromptBoard, Reachable s ∧
      (s.now, s.armed, s.runQueue, s.sleepers) =
        (⟨7⟩, some ⟨5⟩, [⟨4, 4⟩], [⟨1, 1⟩, ⟨2, 2⟩, ⟨3, 3⟩]) ∧
      s.handleAlarm = .ok t ∧ Handled s t ∧
      (t.armed, t.runQueue, t.sleepers) = (some ⟨9⟩, [⟨4, 4⟩, ⟨1, 1⟩], [⟨2, 2⟩, ⟨3, 3⟩]) := by
  cases hrun : threeSleepers with
  | error fault =>
      have hsome : threeSleepers.toOption.isSome = true := by decide
      rw [hrun] at hsome
      contradiction
  | ok r =>
      have hbefore : oneLate.toOption.map (fun s => (s.now, s.armed, s.runQueue, s.sleepers)) =
          some (⟨7⟩, some ⟨5⟩, [⟨4, 4⟩], [⟨1, 1⟩, ⟨2, 2⟩, ⟨3, 3⟩]) := by decide
      have hafter : oneLate.toOption.bind (fun s => s.handleAlarm.toOption.map fun t =>
          (t.armed, t.runQueue, t.sleepers)) =
            some (some ⟨9⟩, [⟨4, 4⟩, ⟨1, 1⟩], [⟨2, 2⟩, ⟨3, 3⟩]) := by decide
      have hlate : oneLate = .ok { r with hardware := PromptBoard.start ⟨7⟩ } := by
        rw [oneLate, hrun]
        rfl
      have hreachable : Reachable { r with hardware := PromptBoard.start ⟨7⟩ } :=
        .elapse (Reachable.new.performAll hrun)
      obtain ⟨t, hhandle, hhandled, _⟩ := hreachable.handles_alarm
      rw [hlate] at hbefore hafter
      change (Scheduler.handleAlarm { r with hardware := PromptBoard.start ⟨7⟩ }).toOption.map
        (fun t => (t.armed, t.runQueue, t.sleepers)) = _ at hafter
      rw [hhandle] at hafter
      exact ⟨_, t, hreachable, Option.some.inj hbefore, hhandle, hhandled, Option.some.inj hafter⟩

end CoopTasks.Scheduler
