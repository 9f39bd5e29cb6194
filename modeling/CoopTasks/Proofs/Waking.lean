import CoopTasks.Proofs.Placement

/-!
What a wake does, and what the operations do that wake several tasks.

`Woke s id t` is a single wake.  Priming the alarm, the explicit wake and the
alarm handler are chains of such wakes with changes of the alarm between them:
`Wakes s ids t`.  Whatever a single wake and a change of the alarm preserve,
the chain preserves: `Wakes.preserves`.
-/

namespace CoopTasks

namespace TaskRecord

def woken (t : TaskRecord) : TaskRecord :=
  { t.countWake with state := if t.state = .sleeping then .ready else t.state }

@[simp] theorem isLive_woken (t : TaskRecord) : t.woken.isLive = t.isLive := rfl

theorem woken_of_sleeping {t : TaskRecord} (h : t.state = .sleeping) :
    t.woken = { t.countWake with state := .ready } := by
  simp [woken, h]

theorem woken_of_ne {t : TaskRecord} (h : t.state ≠ .sleeping) : t.woken = t.countWake := by
  simp only [woken, if_neg h]
  rfl

end TaskRecord

namespace Scheduler

variable {H : Type}

/-- Nothing but the alarm, the hardware and the journal differs. -/
structure AlarmMoved (s t : Scheduler H) : Prop where
  tasks : t.tasks = s.tasks
  ready : t.ready = s.ready
  timers : t.timers = s.timers
  generation : t.generation = s.generation
  resumedAt : t.resumedAt = s.resumedAt

structure Woke (s : Scheduler H) (id : TaskId) (t : Scheduler H) : Prop where
  current : id.generation = (s.record id).generation
  task : id.index ≠ 0
  live : (s.record id).isLive = true
  limit : sleepCountMin < (s.record id).sleepCount
  state : (s.record id).state = .sleeping ∨ (s.record id).state = .ready ∨
    (s.record id).state = .running
  record : ∀ slot, t.tasks.record slot =
    if slot = id.index then (s.tasks.record slot).woken else s.tasks.record slot
  runQueue : t.runQueue =
    s.runQueue ++ if (s.record id).state = .sleeping then [id] else []
  sleepers : t.sleepers = s.sleepers.erase id
  hardware : t.hardware = s.hardware
  armed : t.armed = s.armed
  generation : t.generation = s.generation
  resumedAt : t.resumedAt = s.resumedAt
  standing : t.Standing

/-! ## A single wake -/

theorem record_update (s : Scheduler H) {id : TaskId} (hid : id.index < slotCount)
    (change : TaskRecord → TaskRecord) (slot : Nat) :
    (s.update id change).tasks.record slot =
      if slot = id.index then change (s.tasks.record slot) else s.tasks.record slot := by
  have hrecord := s.tasks.record_update hid change slot
  by_cases hslot : slot = id.index
  · rw [if_pos hslot] at hrecord ⊢
    rw [hslot] at hrecord ⊢
    exact hrecord
  · rw [if_neg hslot] at hrecord ⊢
    exact hrecord

theorem record_update_twice (s : Scheduler H) {id : TaskId} (hlt : id.index < slotCount)
    (first second : TaskRecord → TaskRecord) (resumedAt : Instant) (slot : Nat) :
    (Scheduler.update { s.update id first with resumedAt } id second).tasks.record slot =
      if slot = id.index then second (first (s.tasks.record slot)) else s.tasks.record slot := by
  refine (record_update _ hlt second slot).trans ?_
  have hrecord := s.record_update hlt first slot
  by_cases hslot : slot = id.index
  · rw [if_pos hslot] at hrecord ⊢
    rw [if_pos hslot]
    exact congrArg second hrecord
  · rw [if_neg hslot] at hrecord ⊢
    rw [if_neg hslot]
    exact hrecord

theorem record_countWake (s : Scheduler H) {id : TaskId} (hid : id.index < slotCount)
    (slot : Nat) : (s.countWake id).tasks.record slot =
      if slot = id.index then (s.tasks.record slot).countWake else s.tasks.record slot :=
  s.record_update hid TaskRecord.countWake slot

theorem index_lt_of_state {s : Scheduler H} {id : TaskId}
    (hstate : (s.record id).state ≠ .vacant) : id.index < slotCount := by
  by_cases hid : id.index < slotCount
  · exact hid
  · have hnone : s.tasks.records[id.index]? = none := Vector.getElem?_eq_none (by omega)
    exact absurd (by simp [Scheduler.record, TaskTable.record, hnone, TaskRecord.vacant]) hstate

variable {s t : Scheduler H} {run sleep : List TaskId} {id : TaskId}

theorem Placed.countWake (h : s.Placed 0 run sleep) (id : TaskId) :
    (s.countWake id).Placed 0 run sleep := by
  have hkeep : ∀ slot, ((s.countWake id).tasks.record slot).state = (s.tasks.record slot).state ∧
      ((s.countWake id).tasks.record slot).generation = (s.tasks.record slot).generation := by
    intro slot
    by_cases hid : id.index < slotCount
    · rw [s.record_countWake hid]
      split <;> simp [TaskRecord.countWake]
    · have hsame : (s.countWake id).tasks = s.tasks := s.tasks.update_of_le (by omega) _
      simp [hsame]
  exact h.congr rfl rfl rfl (fun slot _ => (hkeep slot).1) fun slot => (hkeep slot).2

theorem Placed.woke_awake (h : s.Placed 0 run sleep)
    (hcurrent : id.generation = (s.record id).generation) (htask : id.index ≠ 0)
    (hlive : (s.record id).isLive = true) (hlimit : sleepCountMin < (s.record id).sleepCount)
    (hstate : (s.record id).state = .ready ∨ (s.record id).state = .running) :
    Woke s id (s.countWake id) ∧ (s.countWake id).Placed 0 run sleep ∧ id ∉ sleep := by
  have hcount := h.countWake id
  have hne : (s.record id).state ≠ .sleeping := by
    rcases hstate with he | he <;> rw [he] <;> decide
  have hid : id.index < slotCount := by
    apply index_lt_of_state
    rcases hstate with he | he <;> rw [he] <;> decide
  have hnot : id ∉ sleep := fun hmem => hne (h.asleep id hmem).2
  refine ⟨⟨hcurrent, htask, hlive, hlimit, .inr hstate, ?_, ?_, ?_, rfl, rfl, rfl, rfl,
    hcount.standing⟩, hcount, hnot⟩
  · intro slot
    rw [s.record_countWake hid]
    by_cases hslot : slot = id.index
    · subst hslot
      rw [if_pos rfl, if_pos rfl]
      exact (TaskRecord.woken_of_ne hne).symm
    · rw [if_neg hslot, if_neg hslot]
  · rw [hcount.runQueue_eq, h.runQueue_eq, if_neg hne, List.append_nil]
  · rw [hcount.sleepers_eq, h.sleepers_eq, List.erase_of_not_mem hnot]

theorem Placed.leaveTimers (h : s.Placed 0 run sleep) (htask : id.index ≠ 0) (hmem : id ∈ sleep) :
    ∃ timers cells, (s.leaveTimers id) =
        { s with timers := timers, tasks := { s.tasks with cells } }.update id
          (fun t => { t with state := .ready }) ∧
      (s.leaveTimers id).Placed id.index run (sleep.erase id) := by
  obtain ⟨timers, cells, herase, hopen⟩ := h.erase_sleeper hmem
  have hleave : s.leaveTimers id =
      { s with timers := timers, tasks := { s.tasks with cells } }.update id
        fun t => { t with state := .ready } := by
    simp only [Scheduler.leaveTimers, herase]
  refine ⟨timers, cells, hleave, ?_⟩
  rw [hleave]
  exact hopen.update_away htask rfl fun t => { t with state := .ready }

theorem Placed.woke_asleep (h : s.Placed 0 run sleep)
    (hcurrent : id.generation = (s.record id).generation) (htask : id.index ≠ 0)
    (hlive : (s.record id).isLive = true) (hlimit : sleepCountMin < (s.record id).sleepCount)
    (hstate : (s.record id).state = .sleeping) :
    ∃ t, ((s.countWake id).leaveTimers id).enqueue id = .ok t ∧
      Woke s id t ∧ t.Placed 0 (run ++ [id]) (sleep.erase id) := by
  have hmem : id ∈ sleep := h.mem_sleep_of_sleeping htask hcurrent hstate
  have hid : id.index < slotCount := h.index_lt (List.mem_append_right _ hmem)
  obtain ⟨timers, cells, hleave, haway⟩ := (h.countWake id).leaveTimers htask hmem
  have hrecord : ∀ slot, ((s.countWake id).leaveTimers id).tasks.record slot =
      if slot = id.index then (s.tasks.record slot).woken else s.tasks.record slot := by
    intro slot
    rw [hleave]
    refine (record_update _ hid _ slot).trans ?_
    have hcounted := s.record_countWake hid slot
    by_cases hslot : slot = id.index
    · subst hslot
      rw [if_pos rfl] at hcounted ⊢
      rw [if_pos rfl]
      refine Eq.trans ?_ (TaskRecord.woken_of_sleeping hstate).symm
      show { (s.countWake id).tasks.record id.index with state := .ready } = _
      rw [hcounted]
      rfl
    · rw [if_neg hslot] at hcounted ⊢
      rw [if_neg hslot]
      exact hcounted
  have hself : ((s.countWake id).leaveTimers id).record id = (s.record id).woken :=
    (hrecord id.index).trans (if_pos rfl)
  obtain ⟨ready, cells', hok, hplaced⟩ := haway.enqueue htask rfl hid
    (by rw [hself]; exact hcurrent)
    (by rw [hself, TaskRecord.woken_of_sleeping hstate])
  refine ⟨_, hok, ⟨hcurrent, htask, hlive, hlimit, .inl hstate, hrecord, ?_, ?_, ?_, ?_, ?_, ?_,
    hplaced.standing⟩, hplaced⟩
  · rw [hplaced.runQueue_eq, h.runQueue_eq, if_pos hstate]
  · rw [hplaced.sleepers_eq, h.sleepers_eq]
  all_goals
    rw [hleave]
    rfl

theorem Placed.wakeTask (h : s.Placed 0 run sleep) {wasHead : Bool}
    (hwake : s.wakeTask id = .ok (t, wasHead)) :
    Woke s id t ∧
      t.Placed 0 (run ++ if (s.record id).state = .sleeping then [id] else []) (sleep.erase id) ∧
      (wasHead = true ↔ sleep.head? = some id) := by
  unfold Scheduler.wakeTask at hwake
  simp only [bind_eq_ok, require_eq_ok, exists_and_left, exists_const] at hwake
  obtain ⟨hcurrent, ⟨hmainline, hlive⟩, hlimit, hwake⟩ := hwake
  have htask : id.index ≠ 0 := TaskId.isMainline_eq_false.mp hmainline
  have awake (hstate : (s.record id).state = .ready ∨ (s.record id).state = .running)
      (hok : s.countWake id = t) (hwas : wasHead = false) :
      Woke s id t ∧
        t.Placed 0 (run ++ if (s.record id).state = .sleeping then [id] else [])
          (sleep.erase id) ∧
        (wasHead = true ↔ sleep.head? = some id) := by
    subst hok
    subst hwas
    obtain ⟨hwoke, hcount, hnot⟩ := h.woke_awake hcurrent htask hlive hlimit hstate
    have hne : (s.record id).state ≠ .sleeping := by
      rcases hstate with he | he <;> rw [he] <;> decide
    refine ⟨hwoke, ?_, ?_⟩
    · rw [if_neg hne, List.append_nil, List.erase_of_not_mem hnot]
      exact hcount
    · constructor
      · intro hfalse
        contradiction
      · intro hhead
        exact absurd (List.mem_of_head? hhead) hnot
  cases hstate : (s.record id).state with
  | sleeping =>
      simp only [hstate, bind_eq_ok, pure_eq_ok, Prod.mk.injEq] at hwake
      obtain ⟨t, henqueue, rfl, rfl⟩ := hwake
      obtain ⟨t, hok, hwoke, hplaced⟩ := h.woke_asleep hcurrent htask hlive hlimit hstate
      obtain rfl := Except.ok.inj (henqueue.symm.trans hok)
      refine ⟨hwoke, ?_, ?_⟩
      · rw [if_pos rfl]
        exact hplaced
      · rw [decide_eq_true_iff, h.timers_head]
  | running =>
      simp only [hstate, pure_eq_ok, Prod.mk.injEq] at hwake
      rw [← hstate]
      exact awake (.inr hstate) hwake.1 hwake.2.symm
  | ready =>
      simp only [hstate, pure_eq_ok, Prod.mk.injEq] at hwake
      rw [← hstate]
      exact awake (.inl hstate) hwake.1 hwake.2.symm
  | vacant => simp [hstate] at hwake
  | exited => simp [hstate] at hwake
  | parked => simp [hstate] at hwake

theorem AlarmMoved.refl (s : Scheduler H) : AlarmMoved s s :=
  ⟨rfl, rfl, rfl, rfl, rfl⟩

theorem alarmMoved (s : Scheduler H) (hardware : H) (armed : Option Instant) :
    AlarmMoved s { s with hardware, armed } :=
  ⟨rfl, rfl, rfl, rfl, rfl⟩

theorem AlarmMoved.runQueue_eq (h : AlarmMoved s t) : t.runQueue = s.runQueue := by
  unfold runQueue
  rw [h.ready, h.tasks]

theorem AlarmMoved.sleepers_eq (h : AlarmMoved s t) : t.sleepers = s.sleepers := by
  unfold sleepers
  rw [h.timers, h.tasks]

theorem AlarmMoved.standing (h : AlarmMoved s t) (hs : s.Standing) : t.Standing := by
  unfold Standing at hs ⊢
  rw [h.runQueue_eq, h.sleepers_eq]
  apply hs.congr h.ready h.timers
  · rw [h.tasks]
  · rw [h.tasks]
    exact fun _ _ => rfl
  · rw [h.tasks]
    exact fun _ => rfl

theorem Standing.wakeTask (h : s.Standing) {wasHead : Bool}
    (hwake : s.wakeTask id = .ok (t, wasHead)) :
    Woke s id t ∧ (wasHead = true ↔ s.sleepers.head? = some id) := by
  obtain ⟨hwoke, _, hhead⟩ := Placed.wakeTask h hwake
  exact ⟨hwoke, hhead⟩

theorem Standing.wakeTask_of_live (h : s.Standing)
    (hcurrent : id.generation = (s.record id).generation) (htask : id.index ≠ 0)
    (hlive : (s.record id).isLive = true) (hlimit : sleepCountMin < (s.record id).sleepCount)
    (hstate : (s.record id).state = .sleeping ∨ (s.record id).state = .ready ∨
      (s.record id).state = .running) : ∃ t wasHead, s.wakeTask id = .ok (t, wasHead) := by
  have hname : require (id.generation = (s.record id).generation)
      (.staleWake id (s.record id).generation) = .ok () := require_eq_ok.mpr hcurrent
  have hmeant : require (id.isMainline = false ∧ (s.record id).isLive = true) (.wakeNotLive id) =
      .ok () := require_eq_ok.mpr ⟨TaskId.isMainline_eq_false.mpr htask, hlive⟩
  have hcounted : require (sleepCountMin < (s.record id).sleepCount) .wakeCountUnderflow =
      .ok () := require_eq_ok.mpr hlimit
  unfold Scheduler.wakeTask
  rcases hstate with hstate | hstate | hstate
  · obtain ⟨t, henqueue, _⟩ := Placed.woke_asleep h hcurrent htask hlive hlimit hstate
    refine ⟨t, decide (s.timers.head = some id), ?_⟩
    simp only [hname, hmeant, hcounted, hstate, henqueue, bind, Except.bind, pure, Except.pure]
  · refine ⟨s.countWake id, false, ?_⟩
    simp only [hname, hmeant, hcounted, hstate, bind, Except.bind, pure, Except.pure]
  · refine ⟨s.countWake id, false, ?_⟩
    simp only [hname, hmeant, hcounted, hstate, bind, Except.bind, pure, Except.pure]

/-! ## Several wakes -/

/-- Tasks are woken one after the other, and the alarm is moved before and after each. -/
inductive Wakes : Scheduler H → List TaskId → Scheduler H → Prop
  | nil {s t : Scheduler H} : AlarmMoved s t → Wakes s [] t
  | cons {s t u v : Scheduler H} {id : TaskId} {ids : List TaskId} :
      AlarmMoved s t → Woke t id u → Wakes u ids v → Wakes s (id :: ids) v

theorem Wakes.preserves {P : Scheduler H → Prop} {ids : List TaskId}
    (hmoved : ∀ s t, AlarmMoved s t → P s → P t) (hwoke : ∀ s id t, Woke s id t → P s → P t)
    (h : Wakes s ids t) (hs : P s) : P t := by
  induction h with
  | nil hm => exact hmoved _ _ hm hs
  | cons hm hw _ ih => exact ih (hwoke _ _ _ hw (hmoved _ _ hm hs))

theorem Wakes.moved_first {s t u : Scheduler H} {ids : List TaskId} (hm : AlarmMoved s t)
    (h : Wakes t ids u) : Wakes s ids u := by
  have htrans : ∀ {u : Scheduler H}, AlarmMoved t u → AlarmMoved s u := by
    intro u h
    exact ⟨h.tasks.trans hm.tasks, h.ready.trans hm.ready, h.timers.trans hm.timers,
      h.generation.trans hm.generation, h.resumedAt.trans hm.resumedAt⟩
  cases h with
  | nil h => exact .nil (htrans h)
  | cons h hw hrest => exact .cons (htrans h) hw hrest

theorem Wakes.append {s t u : Scheduler H} {ids more : List TaskId} (h : Wakes s ids t)
    (h' : Wakes t more u) : Wakes s (ids ++ more) u := by
  induction h with
  | nil hm => exact h'.moved_first hm
  | cons hm hw _ ih => exact .cons hm hw (ih h')

theorem Woke.sleepCount_le (h : Woke s id t) (slot : Nat) :
    (t.tasks.record slot).sleepCount ≤ (s.tasks.record slot).sleepCount := by
  rw [h.record slot]
  split
  · show (s.tasks.record slot).sleepCount - 1 ≤ _
    omega
  · exact Int.le_refl _

theorem Wakes.sleepCount_le {ids : List TaskId} (h : Wakes s ids t) (slot : Nat) :
    (t.tasks.record slot).sleepCount ≤ (s.tasks.record slot).sleepCount := by
  refine h.preserves (P := fun t =>
    (t.tasks.record slot).sleepCount ≤ (s.tasks.record slot).sleepCount) ?_ ?_ (Int.le_refl _)
  · intro u v hmoved hle
    rwa [hmoved.tasks]
  · intro u id v hwoke hle
    exact Int.le_trans (hwoke.sleepCount_le slot) hle

/-- How the handler of the alarm begins: it wakes the first sleepers as long as they are due. -/
inductive Expired (now : Instant) : Scheduler H → List TaskId → Scheduler H → Prop
  | empty {s : Scheduler H} : s.sleepers = [] → Expired now s [] s
  | later {s : Scheduler H} {head : TaskId} :
      s.sleepers.head? = some head →
      ((s.record head).wakeAt.isNever ∨ now < (s.record head).wakeAt) →
      Expired now s [] s
  | due {s t u : Scheduler H} {head : TaskId} {ids : List TaskId} :
      s.sleepers.head? = some head →
      (s.record head).state = .sleeping →
      ¬((s.record head).wakeAt.isNever ∨ now < (s.record head).wakeAt) →
      Woke s head t →
      Expired now t ids u →
      Expired now s (head :: ids) u

theorem Expired.wakes {now : Instant} {ids : List TaskId} (h : Expired now s ids t) :
    Wakes s ids t := by
  induction h with
  | empty _ => exact .nil (.refl _)
  | later _ _ => exact .nil (.refl _)
  | due _ _ _ hw _ ih => exact .cons (.refl _) hw ih

theorem Expired.standing {now : Instant} {ids : List TaskId} (h : Expired now s ids t)
    (hs : s.Standing) : t.Standing := by
  induction h with
  | empty _ => exact hs
  | later _ _ => exact hs
  | due _ _ _ hwoke _ ih => exact ih hwoke.standing

theorem Expired.alarm_kept {now : Instant} {ids : List TaskId} (h : Expired now s ids t) :
    t.armed = s.armed ∧ t.hardware = s.hardware := by
  induction h with
  | empty _ => exact ⟨rfl, rfl⟩
  | later _ _ => exact ⟨rfl, rfl⟩
  | due _ _ _ hwoke _ ih => exact ⟨ih.1.trans hwoke.armed, ih.2.trans hwoke.hardware⟩

theorem Standing.length_sleepers (h : s.Standing) : s.sleepers.length ≤ slotCount :=
  h.timers.length_le

theorem Woke.length_sleepers (h : Woke s id t) (hhead : s.sleepers.head? = some id) :
    t.sleepers.length + 1 = s.sleepers.length := by
  obtain ⟨rest, hrest⟩ := List.head?_eq_some_iff.mp hhead
  rw [h.sleepers, hrest, List.erase_cons_head, List.length_cons]

theorem Standing.wakeExpired {now : Instant} {steps : Nat} (h : s.Standing)
    (hsteps : s.sleepers.length < steps) (hok : wakeExpired now steps s = .ok t) :
    t.Standing ∧ ∃ ids, Expired now s ids t := by
  induction steps generalizing s with
  | zero => omega
  | succ steps ih =>
      unfold Scheduler.wakeExpired at hok
      have hhead := h.timers_head
      cases hsleep : s.sleepers.head? with
      | none =>
          rw [hhead, hsleep] at hok
          obtain rfl := Except.ok.inj hok
          exact ⟨h, [], .empty (List.head?_eq_none_iff.mp hsleep)⟩
      | some head =>
          rw [hhead, hsleep] at hok
          dsimp only at hok
          split at hok
          · rename_i hlater
            obtain rfl := Except.ok.inj hok
            exact ⟨h, [], .later hsleep hlater⟩
          · rename_i hdue
            simp only [bind_eq_ok, Prod.exists] at hok
            obtain ⟨u, wasHead, hwake, hok⟩ := hok
            obtain ⟨hwoke, _⟩ := h.wakeTask hwake
            have hlength := hwoke.length_sleepers hsleep
            obtain ⟨ht, ids, hexpired⟩ := ih hwoke.standing (by omega) hok
            have hstate := (h.asleep head (List.mem_of_head? hsleep)).2
            exact ⟨ht, head :: ids, .due hsleep hstate hdue hwoke hexpired⟩

section Alarm

variable [Hardware H]

/-- How the alarm is armed: each deadline that it refuses wakes the first sleeper. -/
inductive Rearmed : Scheduler H → List TaskId → Scheduler H → Prop
  | empty {s : Scheduler H} : s.sleepers = [] → Rearmed s [] s
  | kept {s : Scheduler H} {head : TaskId} :
      s.sleepers.head? = some head →
      ((s.record head).wakeAt.isNever || s.armedBy (s.record head).wakeAt) = true →
      Rearmed s [] s
  | accepted {s : Scheduler H} {head : TaskId} {hardware : H} :
      s.sleepers.head? = some head →
      ((s.record head).wakeAt.isNever || s.armedBy (s.record head).wakeAt) = false →
      Hardware.setAlarm s.hardware (s.record head).wakeAt = (hardware, true) →
      Rearmed s [] ({ s with hardware, armed := some (s.record head).wakeAt }.note
        (.alarmArmed head (s.record head).wakeAt))
  | refused {s t u : Scheduler H} {head : TaskId} {hardware : H} {ids : List TaskId} :
      s.sleepers.head? = some head →
      (s.record head).state = .sleeping →
      ((s.record head).wakeAt.isNever || s.armedBy (s.record head).wakeAt) = false →
      Hardware.setAlarm s.hardware (s.record head).wakeAt = (hardware, false) →
      Woke { s with hardware, armed := none } head t →
      Rearmed t ids u →
      Rearmed s (head :: ids) u

theorem Rearmed.wakes {ids : List TaskId} (h : Rearmed s ids t) : Wakes s ids t := by
  induction h with
  | empty _ => exact .nil (.refl _)
  | kept _ _ => exact .nil (.refl _)
  | accepted _ _ _ => exact .nil ⟨rfl, rfl, rfl, rfl, rfl⟩
  | refused _ _ _ _ hw _ ih => exact .cons (alarmMoved _ _ _) hw ih

theorem Standing.rearmSteps {steps : Nat} (h : s.Standing) (hsteps : s.sleepers.length < steps)
    (hok : s.rearmSteps steps = .ok t) : t.Standing ∧ ∃ ids, Rearmed s ids t := by
  induction steps generalizing s with
  | zero => omega
  | succ steps ih =>
      unfold Scheduler.rearmSteps at hok
      have hhead := h.timers_head
      cases hsleep : s.sleepers.head? with
      | none =>
          rw [hhead, hsleep] at hok
          obtain rfl := Except.ok.inj hok
          exact ⟨h, [], .empty (List.head?_eq_none_iff.mp hsleep)⟩
      | some head =>
          rw [hhead, hsleep] at hok
          dsimp only at hok
          split at hok
          · rename_i hkept
            obtain rfl := Except.ok.inj hok
            exact ⟨h, [], .kept hsleep hkept⟩
          · rename_i hkept
            rw [Bool.not_eq_true] at hkept
            have hset : Hardware.setAlarm s.hardware (s.record head).wakeAt =
                ((Hardware.setAlarm s.hardware (s.record head).wakeAt).1,
                  (Hardware.setAlarm s.hardware (s.record head).wakeAt).2) := rfl
            split at hok
            · rename_i haccepted
              obtain rfl := Except.ok.inj hok
              rw [haccepted] at hset
              exact ⟨AlarmMoved.standing (s := s) ⟨rfl, rfl, rfl, rfl, rfl⟩ h, [],
                .accepted hsleep hkept hset⟩
            · rename_i haccepted
              rw [Bool.not_eq_true] at haccepted
              rw [haccepted] at hset
              simp only [bind_eq_ok, Prod.exists] at hok
              obtain ⟨u, wasHead, hwake, hok⟩ := hok
              obtain ⟨hwoke, _⟩ := ((alarmMoved s _ none).standing h).wakeTask hwake
              have hlength := hwoke.length_sleepers hsleep
              have hle : u.sleepers.length + 1 = s.sleepers.length := hlength
              obtain ⟨ht, ids, hrearmed⟩ := ih hwoke.standing (by omega) hok
              have hstate := (h.asleep head (List.mem_of_head? hsleep)).2
              exact ⟨ht, head :: ids, .refused hsleep hstate hkept hset hwoke hrearmed⟩

theorem Standing.rearm (h : s.Standing) (hok : s.rearm = .ok t) :
    t.Standing ∧ ∃ ids, Rearmed s ids t :=
  h.rearmSteps (Nat.lt_succ_of_le h.length_sleepers) hok

theorem rearmSteps_of_wakes {P : Scheduler H → Prop} (hstanding : ∀ {s}, P s → s.Standing)
    (hmoved : ∀ {s t : Scheduler H} {deadline : Instant}, AlarmMoved s t →
      t.hardware = (Hardware.setAlarm s.hardware deadline).1 → P s → P t)
    (hwake : ∀ {s : Scheduler H} {head : TaskId}, P s → s.sleepers.head? = some head →
      (s.record head).wakeAt ≠ Instant.never →
        ∃ t wasHead, s.wakeTask head = .ok (t, wasHead) ∧ P t)
    (steps : Nat) (hs : P s) : ∃ t, s.rearmSteps steps = .ok t ∧ P t := by
  induction steps generalizing s with
  | zero => exact ⟨s, rfl, hs⟩
  | succ steps ih =>
      unfold Scheduler.rearmSteps
      rw [(hstanding hs).timers_head]
      cases hhead : s.sleepers.head? with
      | none => exact ⟨s, rfl, hs⟩
      | some head =>
          dsimp only
          split
          · exact ⟨s, rfl, hs⟩
          · rename_i hkept
            rw [Bool.not_eq_true, Bool.or_eq_false_iff, Bool.eq_false_iff, ne_eq,
              Instant.isNever_iff] at hkept
            split
            · exact ⟨_, rfl, hmoved (s := s) ⟨rfl, rfl, rfl, rfl, rfl⟩ rfl hs⟩
            · obtain ⟨u, wasHead, hok, hu⟩ := hwake
                (hmoved (alarmMoved s (Hardware.setAlarm s.hardware (s.record head).wakeAt).1 none)
                  rfl hs) hhead hkept.1
              obtain ⟨t, hrest, ht⟩ := ih hu
              refine ⟨t, ?_, ht⟩
              rw [hok]
              exact hrest

/-! ## The operations that wake -/

theorem Standing.wake (h : s.Standing) (hok : s.wake id = .ok t) :
    t.Standing ∧ ∃ u, Woke s id u ∧
      (¬(s.sleepers.head? = some id ∧ s.armed = some (s.record id).wakeAt) ∧ t = u ∨
        (s.sleepers.head? = some id ∧ s.armed = some (s.record id).wakeAt) ∧
          ∃ ids, Rearmed
            { u with hardware := Hardware.clearAlarm u.hardware, armed := none } ids t) := by
  unfold Scheduler.wake at hok
  simp only [bind_eq_ok, Prod.exists] at hok
  obtain ⟨_, _, u, wasHead, hwake, hok⟩ := hok
  obtain ⟨hwoke, hhead⟩ := h.wakeTask hwake
  simp only [hwoke.armed, hhead] at hok
  split at hok
  · rename_i hmoved
    obtain ⟨ht, ids, hrearmed⟩ := ((alarmMoved u _ none).standing hwoke.standing).rearm hok
    exact ⟨ht, u, hwoke, .inr ⟨hmoved, ids, hrearmed⟩⟩
  · rename_i hmoved
    rw [pure_eq_ok] at hok
    subst hok
    exact ⟨hwoke.standing, u, hwoke, .inl ⟨hmoved, rfl⟩⟩

theorem Standing.wakes_of_wake (h : s.Standing) (hok : s.wake id = .ok t) :
    ∃ ids, Wakes s (id :: ids) t := by
  obtain ⟨_, u, hwoke, ⟨_, rfl⟩ | ⟨_, ids, hrearmed⟩⟩ := h.wake hok
  · exact ⟨[], .cons (.refl _) hwoke (.nil (.refl _))⟩
  · exact ⟨ids, .cons (.refl _) hwoke (hrearmed.wakes.moved_first (alarmMoved _ _ _))⟩

theorem Standing.handleAlarm (h : s.Standing) (hok : s.handleAlarm = .ok t) :
    t.Standing ∧ ∃ u ids more, Expired s.now { s with armed := none } ids u ∧ Rearmed u more t := by
  unfold Scheduler.handleAlarm at hok
  simp only [bind_eq_ok] at hok
  obtain ⟨u, hexpired, hok⟩ := hok
  have hmoved := (alarmMoved s s.hardware none).standing h
  obtain ⟨hu, ids, hexpired⟩ :=
    hmoved.wakeExpired (Nat.lt_succ_of_le hmoved.length_sleepers) hexpired
  obtain ⟨ht, more, hrearmed⟩ := hu.rearm hok
  exact ⟨ht, u, ids, more, hexpired, hrearmed⟩

theorem Standing.wakes_of_handleAlarm (h : s.Standing) (hok : s.handleAlarm = .ok t) :
    ∃ ids, Wakes s ids t := by
  obtain ⟨_, u, ids, more, hexpired, hrearmed⟩ := h.handleAlarm hok
  exact ⟨ids ++ more, (hexpired.wakes.append hrearmed.wakes).moved_first (alarmMoved _ _ _)⟩

/-! ## What becomes of the hardware -/

/-- A relation between states of the hardware that moving the alarm does not leave. -/
structure AlarmBlind (rel : H → H → Prop) : Prop where
  refl : ∀ h, rel h h
  trans : ∀ {h h' h''}, rel h h' → rel h' h'' → rel h h''
  setAlarm : ∀ h deadline, rel h (Hardware.setAlarm h deadline).1
  clearAlarm : ∀ h, rel h (Hardware.clearAlarm h)

variable {rel : H → H → Prop}

theorem AlarmBlind.of_eq (h : AlarmBlind rel) {a b : H} (he : b = a) : rel a b := by
  rw [he]
  exact h.refl a

theorem Rearmed.related {ids : List TaskId} (h : Rearmed s ids t) (hrel : AlarmBlind rel) :
    rel s.hardware t.hardware := by
  have hset : ∀ {a b : H} {deadline : Instant} {accepted : Bool},
      Hardware.setAlarm a deadline = (b, accepted) → rel a b := by
    intro a b deadline accepted hset
    obtain ⟨rfl, -⟩ := Prod.mk.inj hset
    exact hrel.setAlarm a deadline
  induction h with
  | empty _ | kept _ _ => exact hrel.refl _
  | accepted _ _ haccepted => exact hset haccepted
  | refused _ _ _ hrefused hwoke _ ih =>
      exact hrel.trans (hset hrefused) (hrel.trans (hrel.of_eq hwoke.hardware) ih)

theorem Standing.related_wake (h : s.Standing) (hrel : AlarmBlind rel) (hok : s.wake id = .ok t) :
    rel s.hardware t.hardware := by
  obtain ⟨_, u, hwoke, ⟨_, rfl⟩ | ⟨_, ids, hrearmed⟩⟩ := h.wake hok
  · exact hrel.of_eq hwoke.hardware
  · exact hrel.trans (hrel.of_eq hwoke.hardware)
      (hrel.trans (hrel.clearAlarm u.hardware) (hrearmed.related hrel))

theorem Standing.related_wakeWaiter (h : s.Standing) (hrel : AlarmBlind rel)
    {waiter : Option TaskId} (hok : s.wakeWaiter waiter = .ok t) :
    rel s.hardware t.hardware := by
  cases waiter with
  | none =>
      obtain rfl := Except.ok.inj hok
      exact hrel.refl _
  | some id => exact h.related_wake hrel hok

theorem Standing.related_handleAlarm (h : s.Standing) (hrel : AlarmBlind rel)
    (hok : s.handleAlarm = .ok t) : rel s.hardware t.hardware := by
  obtain ⟨_, u, ids, more, hexpired, hrearmed⟩ := h.handleAlarm hok
  exact hrel.trans (hrel.of_eq hexpired.alarm_kept.2) (hrearmed.related hrel)

end Alarm

end Scheduler

end CoopTasks
