import CoopTasks.Proofs.Waking

/-!
What a switch does, one phase after the other.

The executing task is suspended (`Suspended`), it is settled by one of four
rules (`Settled`), the alarm is armed (`Rearmed`), and a successor is dispatched
(`Dispatched`).  Between the first two phases the task stands nowhere.
-/

namespace CoopTasks.Scheduler

variable {H : Type} {s t u : Scheduler H} {id : TaskId} {run sleep : List TaskId}
variable {change : TaskRecord → TaskRecord}

def Altered (s : Scheduler H) (id : TaskId) (change : TaskRecord → TaskRecord)
    (t : Scheduler H) : Prop :=
  ∀ slot, t.tasks.record slot =
    if slot = id.index then change (s.tasks.record slot) else s.tasks.record slot

theorem altered_update (s : Scheduler H) (hlt : id.index < slotCount)
    (change : TaskRecord → TaskRecord) : Altered s id change (s.update id change) :=
  s.record_update hlt change

/-- One record has changed and the queues are known. -/
structure Moved (s : Scheduler H) (id : TaskId) (change : TaskRecord → TaskRecord)
    (run sleep : List TaskId) (t : Scheduler H) : Prop where
  standing : t.Standing
  runQueue : t.runQueue = run
  sleepers : t.sleepers = sleep
  record : ∀ slot, t.tasks.record slot =
    if slot = id.index then change (s.tasks.record slot) else s.tasks.record slot
  armed : t.armed = s.armed
  generation : t.generation = s.generation

theorem Moved.of_placed (h : t.Placed 0 run sleep)
    (hrecord : ∀ slot, t.tasks.record slot =
      if slot = id.index then change (s.tasks.record slot) else s.tasks.record slot)
    (harmed : t.armed = s.armed) (hgeneration : t.generation = s.generation) :
    Moved s id change run sleep t :=
  ⟨h.standing, h.runQueue_eq, h.sleepers_eq, hrecord, harmed, hgeneration⟩

theorem Moved.altered (h : Moved s id change run sleep t) : Altered s id change t :=
  h.record

theorem Moved.self (h : Moved s id change run sleep t) : t.record id = change (s.record id) :=
  (h.record id.index).trans (if_pos rfl)

theorem Moved.other (h : Moved s id change run sleep t) {slot : Nat} (hslot : slot ≠ id.index) :
    t.tasks.record slot = s.tasks.record slot :=
  (h.record slot).trans (if_neg hslot)

theorem Moved.field {α : Type} (h : Moved s id change run sleep t) (field : TaskRecord → α)
    (hfield : ∀ r, field (change r) = field r) (slot : Nat) :
    field (t.tasks.record slot) = field (s.tasks.record slot) := by
  rw [h.record slot]
  split
  · exact hfield _
  · rfl

/-! ## Putting to sleep and queueing again -/

theorem Placed.enqueue_updated (h : s.Placed id.index run sleep) (hid : id.index ≠ 0)
    (hlt : id.index < slotCount) (hcurrent : id.generation = (change (s.record id)).generation)
    (hready : (change (s.record id)).state = .ready) :
    ∃ t, (s.update id change).enqueue id = .ok t ∧
      Moved s id change (run ++ [id]) sleep t ∧ t.hardware = s.hardware ∧
      t.resumedAt = s.resumedAt := by
  have hrecord := s.record_update hlt change
  have hself : (s.update id change).record id = change (s.record id) :=
    (hrecord id.index).trans (if_pos rfl)
  obtain ⟨q, cells, henqueue, hplaced⟩ := (h.update_away hid rfl change).enqueue hid rfl hlt
    (by rw [hself]; exact hcurrent) (by rw [hself]; exact hready)
  exact ⟨_, henqueue, .of_placed hplaced hrecord rfl rfl, rfl, rfl⟩

theorem Placed.requeue (h : s.Placed id.index run sleep) (hid : id.index ≠ 0)
    (hlt : id.index < slotCount) (hcurrent : id.generation = (s.record id).generation) :
    ∃ t, s.requeue id = .ok t ∧
      Moved s id (fun t => { t with state := .ready }) (run ++ [id]) sleep t ∧
      t.hardware = s.hardware ∧ t.resumedAt = s.resumedAt :=
  h.enqueue_updated hid hlt hcurrent rfl

def bedded (s : Scheduler H) (id : TaskId) (sleep : List TaskId) : List TaskId :=
  if (s.record id).wakeAt.isNever then sleep ++ [id]
  else TaskQueue.Represents.insertedByKey (fun other => (s.record other).wakeAt) id sleep

theorem perm_insertedByKey {κ : Type} [LE κ] [DecidableLE κ] (key : TaskId → κ) (id : TaskId)
    (l : List TaskId) : (TaskQueue.Represents.insertedByKey key id l).Perm (id :: l) := by
  unfold TaskQueue.Represents.insertedByKey
  refine List.perm_middle.trans ?_
  rw [List.takeWhile_append_dropWhile]

theorem perm_bedded (s : Scheduler H) (id : TaskId) (sleep : List TaskId) :
    (s.bedded id sleep).Perm (id :: sleep) := by
  unfold bedded
  split
  · exact List.perm_append_singleton id sleep
  · exact perm_insertedByKey _ _ _

theorem Placed.putToSleep (h : s.Placed id.index run sleep) (hid : id.index ≠ 0)
    (hlt : id.index < slotCount) (hcurrent : id.generation = (s.record id).generation) :
    ∃ t, s.putToSleep id = .ok t ∧
      Moved s id (fun t => { t with state := .sleeping }) run (s.bedded id sleep) t ∧
      t.hardware = s.hardware ∧ t.resumedAt = s.resumedAt := by
  have hrecord := s.record_update hlt fun t => { t with state := .sleeping }
  have haway := h.update_away hid rfl fun t => { t with state := .sleeping }
  have hself : (s.update id fun t => { t with state := .sleeping }).record id =
      { s.record id with state := .sleeping } := (hrecord id.index).trans (if_pos rfl)
  have hwakeAt : ∀ other, ((s.update id fun t => { t with state := .sleeping }).record other).wakeAt
      = (s.record other).wakeAt := by
    intro other
    refine (congrArg TaskRecord.wakeAt (hrecord other.index)).trans ?_
    split <;> rfl
  have hfree : (s.update id fun t => { t with state := .sleeping }).tasks.cells.linked id.index =
      false := haway.unlinked hid
  have hjoin : ∀ q cells sleep', q.Represents cells sleep' → sleep' = s.bedded id sleep →
      (∀ slot, cells.linked slot = (s.tasks.cells.linked slot || slot == id.index)) →
      (∀ slot, slot ≠ id.index → (∀ m ∈ sleep, m.index ≠ slot) →
        cells[slot]? = s.tasks.cells[slot]?) →
      Placed { s.update id fun t => { t with state := .sleeping } with
        timers := q
        tasks := { (s.update id fun t => { t with state := .sleeping }).tasks with cells } }
        0 run (s.bedded id sleep) := by
    intro q cells sleep' hrep hsleep hlinked hframe
    subst hsleep
    exact haway.join_sleepers hid rfl (by rw [hself]; exact hcurrent) (by rw [hself]) hrep
      (s.perm_bedded id sleep) hlinked hframe
  obtain ⟨q, cells, hinsert, hplaced⟩ : ∃ q cells,
      (s.update id fun t => { t with state := .sleeping }).timersWith id = .ok (q, cells) ∧
      Placed { s.update id fun t => { t with state := .sleeping } with
        timers := q
        tasks := { (s.update id fun t => { t with state := .sleeping }).tasks with cells } }
        0 run (s.bedded id sleep) := by
    unfold timersWith
    rw [hwakeAt id]
    cases hnever : (s.record id).wakeAt.isNever with
    | true =>
        obtain ⟨q, cells, hok, hrep, hlinked, hframe⟩ := haway.timers.enqueue hlt hfree
        rw [if_pos rfl]
        exact ⟨q, cells, hok, hjoin q cells _ hrep (by simp [bedded, hnever]) hlinked hframe⟩
    | false =>
        obtain ⟨q, cells, hok, hrep, hlinked, hframe⟩ := haway.timers.insertByKey
          (fun other => ((s.update id fun t => { t with state := .sleeping }).record other).wakeAt)
          hlt hfree
        rw [if_neg (by decide)]
        refine ⟨q, cells, hok, hjoin q cells _ hrep ?_ hlinked hframe⟩
        simp [bedded, hnever, hwakeAt]
  exact ⟨_, bind_eq_ok.mpr ⟨(q, cells), hinsert, rfl⟩, .of_placed hplaced hrecord rfl rfl, rfl, rfl⟩

/-! ## Marking the head -/

theorem Placed.run_head {rest : List TaskId} (h : s.Placed 0 (id :: rest) sleep) :
    (s.update id fun t => { t with state := .running }).Placed 0 (id :: rest) sleep := by
  have hlt : id.index < slotCount := h.index_lt (by simp)
  have hrecord := s.record_update hlt fun t => { t with state := .running }
  have hstate : ∀ slot, slot ≠ id.index →
      ((s.update id fun t => { t with state := .running }).tasks.record slot).state =
        (s.tasks.record slot).state := by
    intro slot hslot
    rw [hrecord, if_neg hslot]
  have hself :
      ((s.update id fun t => { t with state := .running }).record id).state = .running := by
    refine congrArg TaskRecord.state ((hrecord id.index).trans (if_pos rfl))
  have hgeneration : ∀ slot,
      ((s.update id fun t => { t with state := .running }).tasks.record slot).generation =
        (s.tasks.record slot).generation := by
    intro slot
    rw [hrecord]
    split <;> rfl
  refine ⟨h.ready, h.timers, h.apart, h.linked, ?generation, ?queued, ?asleep, h.behind, by simp,
    ?gone, ?first, ?mainline⟩
  case generation =>
    intro m hm
    exact (h.generation m hm).trans (hgeneration m.index).symm
  case queued =>
    intro m hm hindex
    by_cases hne : m.index = id.index
    · right
      unfold record at hself ⊢
      rwa [hne]
    · unfold record
      rw [hstate m.index hne]
      exact h.queued m hm hindex
  case asleep =>
    intro m hm
    unfold record
    rw [hstate m.index (Ne.symm (h.apart id List.mem_cons_self m hm))]
    exact h.asleep m hm
  case gone =>
    intro slot hslot _ hunlinked
    have hne : slot ≠ id.index := by
      intro he
      have hmem : id ∈ id :: rest ++ sleep := by simp
      have hlinked := h.linked_of_mem hmem
      rw [← he] at hlinked
      exact absurd (hlinked.symm.trans hunlinked) (by decide)
    rw [hstate slot hne]
    exact h.gone slot hslot hslot hunlinked
  case first =>
    intro slot hslot _ hrunning
    by_cases hne : slot = id.index
    · exact ⟨id, rfl, hne.symm⟩
    · rw [hstate slot hne] at hrunning
      exact h.first slot hslot hslot hrunning
  case mainline =>
    rw [hgeneration]
    exact h.mainline

inductive Dispatched (s : Scheduler H) : Scheduler H → Decision → Prop
  | resumed {t : Scheduler H} {next : TaskId} :
      s.runQueue.head? = some next →
      (next.index = 0 ∨ (s.record next).isLive = true) →
      Moved s next (fun t => { t with state := .running }) s.runQueue s.sleepers t →
      t.hardware = s.hardware →
      Dispatched s t (.resume (s.record next).pointer)
  | drained {t : Scheduler H} :
      s.runQueue = [] →
      s.sleepers = [] →
      (s.record .mainline).pointer ≠ 0 →
      Moved s .mainline (fun t => { t with state := .running }) [] [] t →
      t.hardware = s.hardware →
      Dispatched s t (.resume (s.record .mainline).pointer)
  | idle :
      s.runQueue = [] →
      s.sleepers ≠ [] →
      Dispatched s s .idle

theorem Dispatched.standing {decision : Decision} (h : Dispatched s t decision)
    (hs : s.Standing) : t.Standing := by
  cases h with
  | resumed _ _ hmoved _ => exact hmoved.standing
  | drained _ _ _ hmoved _ => exact hmoved.standing
  | idle _ _ => exact hs

/-! ## Suspending -/

def suspendedRecord (s : Scheduler H) [Hardware H] (pointer : Address) (t : TaskRecord) :
    TaskRecord :=
  { t with pointer, busyTime := t.busyTime + s.now.since s.resumedAt }

variable [Hardware H]

/-- The executing task has left the run queue and stands nowhere. -/
structure Suspended (s : Scheduler H) (pointer : Address) (id : TaskId) (rest : List TaskId)
    (t : Scheduler H) : Prop where
  runQueue : s.runQueue = id :: rest
  placed : t.Placed id.index rest s.sleepers
  record : ∀ slot, t.tasks.record slot =
    if slot = id.index then s.suspendedRecord pointer (s.tasks.record slot)
    else s.tasks.record slot
  hardware : t.hardware = s.hardware
  armed : t.armed = s.armed
  generation : t.generation = s.generation
  resumedAt : t.resumedAt = s.now

theorem Suspended.self {pointer : Address} {rest : List TaskId}
    (h : Suspended s pointer id rest u) : u.record id = s.suspendedRecord pointer (s.record id) :=
  (h.record id.index).trans (if_pos rfl)

theorem Suspended.other {pointer : Address} {rest : List TaskId}
    (h : Suspended s pointer id rest u) {slot : Nat} (hslot : slot ≠ id.index) :
    u.tasks.record slot = s.tasks.record slot :=
  (h.record slot).trans (if_neg hslot)

theorem Suspended.altered {pointer : Address} {rest : List TaskId}
    (h : Suspended s pointer id rest u) (hmoved : Moved u id change run sleep t) :
    Altered s id (fun r => change (s.suspendedRecord pointer r)) t := by
  intro slot
  rw [hmoved.record slot, h.record slot]
  by_cases hslot : slot = id.index
  · rw [if_pos hslot, if_pos hslot, if_pos hslot]
  · rw [if_neg hslot, if_neg hslot, if_neg hslot]

theorem Standing.suspend (h : s.Standing) {pointer : Address}
    (hok : s.suspend pointer = .ok (t, id)) : ∃ rest, Suspended s pointer id rest t := by
  unfold Scheduler.suspend at hok
  cases hrun : s.runQueue with
  | nil =>
      unfold Standing at h
      rw [hrun] at h
      rw [h.ready.dequeue_nil] at hok
      simp [demand, bind, Except.bind] at hok
  | cons head rest =>
      unfold Standing at h
      rw [hrun] at h
      obtain ⟨q, hdequeue, hplaced⟩ := h.dequeue
      have hlt : head.index < slotCount := h.index_lt (by simp)
      rw [hdequeue] at hok
      simp only [bind_eq_ok, demand_eq_ok, pure_eq_ok, Prod.mk.injEq, Option.some.injEq] at hok
      obtain ⟨_, rfl, v, haccount, rfl, rfl⟩ := hok
      unfold Scheduler.account at haccount
      simp only [bind_eq_ok, require_eq_ok, pure_eq_ok, exists_and_left, exists_const] at haccount
      obtain ⟨_, rfl⟩ := haccount
      have hrecord : ∀ slot, (Scheduler.update { Scheduler.update
          { s with ready := q, tasks := { s.tasks with cells := s.tasks.cells.vacate head } } head
            fun t => { t with busyTime := (s.record head).busyTime + s.now.since s.resumedAt } with
          resumedAt := s.now } head fun t => { t with pointer }).tasks.record slot =
          if slot = head.index then s.suspendedRecord pointer (s.tasks.record slot)
          else s.tasks.record slot := by
        intro slot
        refine (record_update_twice _ hlt _ _ _ slot).trans ?_
        by_cases hslot : slot = head.index
        · subst hslot
          rw [if_pos rfl, if_pos rfl]
          rfl
        · rw [if_neg hslot, if_neg hslot]
          rfl
      refine ⟨rest, hrun, ?_, hrecord, rfl, rfl, rfl, rfl⟩
      apply hplaced.congr
      · rfl
      · rfl
      · rfl
      · intro slot _
        refine (congrArg TaskRecord.state (hrecord slot)).trans ?_
        split <;> rfl
      · intro slot
        refine (congrArg TaskRecord.generation (hrecord slot)).trans ?_
        split <;> rfl

theorem Standing.suspend_of_fits (h : s.Standing) {rest : List TaskId}
    (hrun : s.runQueue = id :: rest)
    (hfits : (s.record id).busyTime.toNat + (s.now.since s.resumedAt).toNat < UInt64.size)
    (pointer : Address) :
    ∃ u, s.suspend pointer = .ok (u, id) ∧ Suspended s pointer id rest u := by
  obtain ⟨u, hok⟩ : ∃ u, s.suspend pointer = .ok (u, id) := by
    unfold Standing at h
    rw [hrun] at h
    obtain ⟨q, hdequeue, _⟩ := h.dequeue
    unfold Scheduler.suspend
    rw [hdequeue]
    exact ⟨_, bind_eq_ok.mpr ⟨id, rfl, bind_eq_ok.mpr ⟨_, bind_eq_ok.mpr
      ⟨(), require_eq_ok.mpr hfits, rfl⟩, rfl⟩⟩⟩
  obtain ⟨rest', hsuspended⟩ := h.suspend hok
  obtain ⟨_, rfl⟩ := List.cons.inj (hsuspended.runQueue.symm.trans hrun)
  exact ⟨u, hok, hsuspended⟩

/-! ## Settling -/

/-- What becomes of a task that stands nowhere. -/
inductive Settled (s : Scheduler H) (id : TaskId) (run sleep : List TaskId) :
    Scheduler H → Prop
  | parked {t : Scheduler H} :
      id.index = 0 →
      Moved s id (fun t => { t with state := .parked }) run sleep t →
      t.hardware = s.hardware →
      Settled s id run sleep t
  | finished {t u : Scheduler H} :
      id.index ≠ 0 →
      (s.record id).isLive = true →
      (s.record id).exiting = true →
      (s.record id).isSleeping = false →
      Moved s id TaskRecord.finished run sleep t →
      (t.hardware = s.hardware ∨
        ∃ region, Hardware.unguardStack s.hardware region = .ok t.hardware) →
      t.wakeWaiter (s.record id).completion.waiter = .ok u →
      Settled s id run sleep u
  | asleep {t : Scheduler H} :
      id.index ≠ 0 →
      (s.record id).isLive = true →
      (s.record id).exiting = false →
      (s.record id).isSleeping = true →
      Moved s id (fun t => { t with state := .sleeping }) run (s.bedded id sleep) t →
      t.hardware = s.hardware →
      Settled s id run sleep t
  | requeued {t : Scheduler H} :
      id.index ≠ 0 →
      (s.record id).isLive = true →
      (s.record id).exiting = false →
      (s.record id).isSleeping = false →
      Moved s id (fun t => { t with state := .ready }) (run ++ [id]) sleep t →
      t.hardware = s.hardware →
      Settled s id run sleep t

theorem unguard_eq_ok {region : Option UInt8} (hok : s.unguard region = .ok t) :
    ∃ hardware, t = { s with hardware } ∧ (hardware = s.hardware ∨
      ∃ region, Hardware.unguardStack s.hardware region = .ok hardware) := by
  cases region with
  | none =>
      obtain rfl := Except.ok.inj hok
      exact ⟨s.hardware, rfl, .inl rfl⟩
  | some region =>
      simp only [unguard, bind_eq_ok, pure_eq_ok] at hok
      obtain ⟨hardware, hgive, rfl⟩ := hok
      exact ⟨hardware, rfl, .inr ⟨region, hgive⟩⟩

omit [Hardware H] in
theorem Placed.finished (h : s.Placed id.index run sleep) (hid : id.index ≠ 0)
    (hlt : id.index < slotCount) (hardware : H) (notice : Notice) :
    Moved s id TaskRecord.finished run sleep
      ({ s.update id TaskRecord.finished with hardware }.note notice) := by
  have hrecord := s.record_update hlt TaskRecord.finished
  have hclosed : (s.update id TaskRecord.finished).Placed 0 run sleep := by
    apply (h.update_away hid rfl TaskRecord.finished).close
    right
    rw [hrecord, if_pos rfl]
    rfl
  exact .of_placed (hclosed.congr rfl rfl rfl (fun _ _ => rfl) fun _ => rfl) hrecord rfl rfl

theorem Placed.finish (h : s.Placed id.index run sleep) (hid : id.index ≠ 0)
    (hlt : id.index < slotCount) (hok : s.finish id = .ok u) :
    (s.record id).isSleeping = false ∧ ∃ t, Moved s id TaskRecord.finished run sleep t ∧
      (t.hardware = s.hardware ∨
        ∃ region, Hardware.unguardStack s.hardware region = .ok t.hardware) ∧
      t.wakeWaiter (s.record id).completion.waiter = .ok u := by
  unfold Scheduler.finish at hok
  simp only [bind_eq_ok, require_eq_ok, exists_and_left, exists_const] at hok
  obtain ⟨hawake, v, hunguard, hok⟩ := hok
  obtain ⟨hardware, rfl, hhardware⟩ := unguard_eq_ok hunguard
  exact ⟨hawake, _, h.finished hid hlt hardware _, hhardware, hok⟩

theorem Placed.settle (h : s.Placed id.index run sleep) (hlt : id.index < slotCount)
    (hcurrent : id.generation = (s.record id).generation) (hok : s.settle id = .ok t) :
    Settled s id run sleep t := by
  unfold Scheduler.settle at hok
  split at hok
  · rename_i hmainline
    have hid := TaskId.isMainline_iff.mp hmainline
    rw [pure_eq_ok] at hok
    subst hok
    have hrecord := s.record_update hlt fun t => { t with state := .parked }
    refine .parked hid (.of_placed ?_ hrecord rfl rfl) rfl
    rw [hid] at h
    apply h.congr
    · rfl
    · rfl
    · rfl
    · intro slot hslot
      rw [hrecord, if_neg]
      rw [hid]
      exact hslot
    · intro slot
      rw [hrecord]
      split <;> rfl
  · rename_i hmainline
    have hid : id.index ≠ 0 := fun he => hmainline (TaskId.isMainline_iff.mpr he)
    simp only [bind_eq_ok, require_eq_ok, exists_and_left, exists_const] at hok
    obtain ⟨hlive, hok⟩ := hok
    split at hok
    · rename_i hexiting
      obtain ⟨hawake, v, hmoved, hhardware, hwake⟩ := h.finish hid hlt hok
      exact .finished hid hlive hexiting hawake hmoved hhardware hwake
    · rename_i hexiting
      rw [Bool.not_eq_true] at hexiting
      split at hok
      · rename_i hsleeping
        obtain ⟨v, hv, hmoved, hhardware, _⟩ := h.putToSleep hid hlt hcurrent
        obtain rfl := Except.ok.inj (hv.symm.trans hok)
        exact .asleep hid hlive hexiting hsleeping hmoved hhardware
      · rename_i hsleeping
        rw [Bool.not_eq_true] at hsleeping
        obtain ⟨v, hv, hmoved, hhardware, _⟩ := h.requeue hid hlt hcurrent
        obtain rfl := Except.ok.inj (hv.symm.trans hok)
        exact .requeued hid hlive hexiting hsleeping hmoved hhardware

theorem Placed.settle_of_stays (h : s.Placed id.index run sleep) (hlt : id.index < slotCount)
    (hcurrent : id.generation = (s.record id).generation)
    (hlive : id.index ≠ 0 → (s.record id).isLive = true)
    (hstays : id.index ≠ 0 → (s.record id).exiting = false) : ∃ t, s.settle id = .ok t := by
  unfold Scheduler.settle
  by_cases hid : id.index = 0
  · rw [if_pos (TaskId.isMainline_iff.mpr hid)]
    exact ⟨_, rfl⟩
  · have hmainline : ¬id.isMainline = true := fun he => hid (TaskId.isMainline_iff.mp he)
    have hinside : require ((s.record id).isLive = true)
        (.suspendedOutside id (s.record id).pointer (s.record id).stack) = .ok () :=
      require_eq_ok.mpr (hlive hid)
    rw [if_neg hmainline]
    simp only [hinside, hstays hid, bind, Except.bind, Bool.false_eq_true, if_false]
    split
    · obtain ⟨t, hok, _⟩ := h.putToSleep hid hlt hcurrent
      exact ⟨t, hok⟩
    · obtain ⟨t, hok, _⟩ := h.requeue hid hlt hcurrent
      exact ⟨t, hok⟩

theorem Placed.settle_of_exiting (h : s.Placed id.index run sleep) (hid : id.index ≠ 0)
    (hlt : id.index < slotCount) (hlive : (s.record id).isLive = true)
    (hexiting : (s.record id).exiting = true) (hawake : (s.record id).isSleeping = false)
    {hardware : H} (hunguard : (s.update id TaskRecord.finished).unguard
      (s.record id).guardRegion = .ok { s.update id TaskRecord.finished with hardware }) :
    ∃ t, Moved s id TaskRecord.finished run sleep t ∧ t.hardware = hardware ∧
      t.resumedAt = s.resumedAt ∧
      s.settle id = t.wakeWaiter (s.record id).completion.waiter := by
  have hmainline : ¬id.isMainline = true := fun he => hid (TaskId.isMainline_iff.mp he)
  have hinside : require ((s.record id).isLive = true)
      (.suspendedOutside id (s.record id).pointer (s.record id).stack) = .ok () :=
    require_eq_ok.mpr hlive
  have hrested : require ((s.record id).isSleeping = false) (.exitWhileAsleep id) = .ok () :=
    require_eq_ok.mpr hawake
  refine ⟨_, h.finished hid hlt hardware (.exited id (s.record id).exitCode), rfl, rfl, ?_⟩
  unfold Scheduler.settle Scheduler.finish
  rw [if_neg hmainline]
  simp only [hinside, hexiting, hrested, hunguard, bind, Except.bind, if_true]
  rfl

/-! ## Dispatching -/

theorem Standing.dispatch (h : s.Standing) {decision : Decision}
    (hok : s.dispatch = .ok (t, decision)) : Dispatched s t decision := by
  unfold Scheduler.dispatch at hok
  rw [h.ready_head] at hok
  cases hrun : s.runQueue with
  | cons next rest =>
      rw [hrun, List.head?_cons] at hok
      simp only [bind_eq_ok, require_eq_ok, exists_and_left, exists_const, pure_eq_ok,
        Prod.mk.injEq] at hok
      obtain ⟨hlive, rfl, rfl⟩ := hok
      rw [TaskId.isMainline_iff] at hlive
      refine .resumed (by rw [hrun, List.head?_cons]) hlive ?_ rfl
      unfold Standing at h
      rw [hrun] at h ⊢
      have hlt : next.index < slotCount := h.index_lt (by simp)
      exact .of_placed (h.run_head.congr rfl rfl rfl (fun _ _ => rfl) fun _ => rfl)
        (s.record_update hlt fun t => { t with state := .running }) rfl rfl
  | nil =>
      rw [hrun, List.head?_nil] at hok
      simp only [h.timers.isEmpty_eq, bind_eq_ok, Except.ok.injEq, exists_eq_left'] at hok
      split at hok
      · rename_i hempty
        rw [List.isEmpty_iff] at hempty
        simp only [bind_eq_ok, require_eq_ok, exists_and_left, exists_const, pure_eq_ok,
          Prod.mk.injEq] at hok
        obtain ⟨hpointer, rfl, rfl⟩ := hok
        refine .drained hrun hempty hpointer ?_ rfl
        have hlt : TaskId.mainline.index < slotCount := by decide
        have hrecord := s.record_update hlt fun t => { t with state := .running }
        unfold Standing at h
        rw [hrun, hempty] at h
        refine .of_placed ?_ hrecord rfl rfl
        apply h.congr
        · rfl
        · rfl
        · rfl
        · intro slot hslot
          exact congrArg TaskRecord.state ((hrecord slot).trans (if_neg hslot))
        · intro slot
          refine (congrArg TaskRecord.generation (hrecord slot)).trans ?_
          split <;> rfl
      · rename_i hempty
        rw [List.isEmpty_iff] at hempty
        simp only [pure_eq_ok, Prod.mk.injEq] at hok
        obtain ⟨rfl, rfl⟩ := hok
        exact .idle hrun hempty

theorem Standing.dispatch_of_live (h : s.Standing)
    (hlive : ∀ next, s.runQueue.head? = some next → next.index ≠ 0 →
      (s.record next).isLive = true)
    (hmainline : (s.record .mainline).pointer ≠ 0) :
    ∃ t decision, s.dispatch = .ok (t, decision) := by
  unfold Scheduler.dispatch
  rw [h.ready_head]
  cases hhead : s.runQueue.head? with
  | some next =>
      have hinside : next.isMainline = true ∨ (s.record next).isLive = true := by
        by_cases hid : next.index = 0
        · exact .inl (TaskId.isMainline_iff.mpr hid)
        · exact .inr (hlive next hhead hid)
      exact ⟨_, _, bind_eq_ok.mpr ⟨(), require_eq_ok.mpr hinside, rfl⟩⟩
  | none =>
      have hisEmpty := h.timers.isEmpty_eq
      dsimp only
      simp only [hisEmpty, bind, Except.bind]
      split
      · have hpointer : require ((s.record .mainline).pointer ≠ 0) .noMainline = .ok () :=
          require_eq_ok.mpr hmainline
        simp only [hpointer]
        exact ⟨_, _, rfl⟩
      · exact ⟨s, .idle, rfl⟩

/-! ## The whole switch -/

theorem Standing.wakeWaiter (h : s.Standing) {waiter : Option TaskId}
    (hok : s.wakeWaiter waiter = .ok t) : t.Standing := by
  cases waiter with
  | none =>
      obtain rfl := Except.ok.inj hok
      exact h
  | some id => exact (h.wake hok).1

theorem Standing.wakes_of_wakeWaiter (h : s.Standing) {waiter : Option TaskId}
    (hok : s.wakeWaiter waiter = .ok t) : ∃ ids, Wakes s ids t := by
  cases waiter with
  | none =>
      obtain rfl := Except.ok.inj hok
      exact ⟨[], .nil (.refl _)⟩
  | some id =>
      obtain ⟨ids, hwakes⟩ := h.wakes_of_wake hok
      exact ⟨id :: ids, hwakes⟩

theorem Settled.standing (h : Settled s id run sleep t) : t.Standing := by
  cases h with
  | parked _ hmoved _ => exact hmoved.standing
  | finished _ _ _ _ hmoved _ hwake => exact hmoved.standing.wakeWaiter hwake
  | asleep _ _ _ _ hmoved _ => exact hmoved.standing
  | requeued _ _ _ _ hmoved _ => exact hmoved.standing

/-- The four phases of a switch, with the states between them. -/
structure Switched (s : Scheduler H) (pointer : Address) (t : Scheduler H)
    (decision : Decision) (id : TaskId) (rest woken : List TaskId) (u v w : Scheduler H) :
    Prop where
  suspended : Suspended s pointer id rest u
  settled : Settled u id rest s.sleepers v
  rearmed : Rearmed v woken w
  dispatched : Dispatched w t decision
  standing : v.Standing ∧ w.Standing ∧ t.Standing

theorem Suspended.index_lt {pointer : Address} {rest : List TaskId}
    (h : Suspended s pointer id rest t) (hs : s.Standing) : id.index < slotCount := by
  apply hs.index_lt
  rw [h.runQueue]
  simp

theorem Suspended.current {pointer : Address} {rest : List TaskId}
    (h : Suspended s pointer id rest t) (hs : s.Standing) :
    id.generation = (t.record id).generation := by
  have hmem : id ∈ s.runQueue ++ s.sleepers := by
    rw [h.runQueue]
    simp
  rw [hs.generation id hmem]
  exact (congrArg TaskRecord.generation h.self).symm

theorem Standing.reschedule (h : s.Standing) {pointer : Address} {decision : Decision}
    (hok : s.reschedule pointer = .ok (t, decision)) :
    ∃ id rest woken u v w, Switched s pointer t decision id rest woken u v w := by
  unfold Scheduler.reschedule at hok
  simp only [bind_eq_ok, Prod.exists] at hok
  obtain ⟨u, id, hsuspend, v, hsettle, w, hrearm, hdispatch⟩ := hok
  obtain ⟨rest, hsuspended⟩ := h.suspend hsuspend
  have hsettled := hsuspended.placed.settle (hsuspended.index_lt h) (hsuspended.current h) hsettle
  obtain ⟨hw, woken, hrearmed⟩ := hsettled.standing.rearm hrearm
  have hdispatched := hw.dispatch hdispatch
  exact ⟨id, rest, woken, u, v, w, hsuspended, hsettled, hrearmed, hdispatched,
    hsettled.standing, hw, hdispatched.standing hw⟩

end CoopTasks.Scheduler
