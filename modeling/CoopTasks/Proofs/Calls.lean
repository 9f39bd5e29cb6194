import CoopTasks.Proofs.Switching
import CoopTasks.Scheduler.Waiting

/-!
What the executing task does between two switches.

A start fills a free slot and puts its task at the end of the run queue
(`Started`).  Exits, sleeps, waits and joins change records only, and leave
every task where it stands.
-/

namespace CoopTasks

theorem leastBy_mem {α κ : Type} [LT κ] [DecidableLT κ] {key : α → κ} {l : List α} {a : α}
    (h : leastBy key l = some a) : a ∈ l := by
  induction l with
  | nil => simp [leastBy] at h
  | cons b rest ih =>
      unfold leastBy at h
      split at h
      · rw [Option.some.injEq] at h
        rw [h]
        exact List.mem_cons_self
      · rename_i c hc
        split at h
        · rw [Option.some.injEq] at h
          rw [h] at hc
          exact List.mem_cons_of_mem b (ih hc)
        · rw [Option.some.injEq] at h
          rw [h]
          exact List.mem_cons_self

namespace Scheduler

variable {H : Type} {s t u : Scheduler H} {id : TaskId} {run sleep : List TaskId}
variable {change : TaskRecord → TaskRecord}

/-! ## Slots -/

theorem mem_slots {slot : Nat} : slot ∈ slots ↔ slot ≠ 0 ∧ slot < slotCount := by
  have hcount : slotCount = 15 + 1 := rfl
  unfold slots
  rw [hcount, List.range_succ_eq_map, List.tail_cons, List.mem_map]
  constructor
  · rintro ⟨n, hn, rfl⟩
    have := List.mem_range.mp hn
    omega
  · rintro ⟨hne, hlt⟩
    exact ⟨slot - 1, List.mem_range.mpr (by omega), by omega⟩

theorem index_idOf (s : Scheduler H) {slot : Nat} (hslot : slot < slotCount) :
    (s.idOf slot).index = slot := by
  have hcount : slotCount = 16 := rfl
  exact TaskId.index_mk (by omega) _

theorem record_idOf (s : Scheduler H) {slot : Nat} (hslot : slot < slotCount) :
    s.record (s.idOf slot) = s.tasks.record slot := by
  unfold record
  rw [s.index_idOf hslot]

theorem idOf_eq {slot : Nat}
    (h : (t.tasks.record slot).generation = (s.tasks.record slot).generation) :
    t.idOf slot = s.idOf slot := by
  unfold idOf
  rw [h]

theorem Standing.idOf_index (h : s.Standing) (hid : id ∈ s.runQueue ++ s.sleepers) :
    s.idOf id.index = id := by
  have hlt := h.index_lt hid
  apply TaskId.ext_of_index (s.index_idOf hlt)
  exact (h.generation id hid).symm

theorem Standing.state_queued (h : s.Standing) {slot : Nat} (hslot : slot ∈ slots)
    (hmem : s.idOf slot ∈ s.runQueue) :
    (s.tasks.record slot).state = .ready ∨ (s.tasks.record slot).state = .running := by
  obtain ⟨hne, hlt⟩ := mem_slots.mp hslot
  rw [← s.record_idOf hlt]
  apply h.queued _ hmem
  rw [s.index_idOf hlt]
  exact hne

theorem Standing.state_asleep (h : s.Standing) {slot : Nat} (hlt : slot < slotCount)
    (hmem : s.idOf slot ∈ s.sleepers) : (s.tasks.record slot).state = .sleeping := by
  rw [← s.record_idOf hlt]
  exact (h.asleep _ hmem).2

theorem Standing.mem_sleepers (h : s.Standing) {slot : Nat} (hslot : slot ∈ slots)
    (hstate : (s.tasks.record slot).state = .sleeping) : s.idOf slot ∈ s.sleepers := by
  obtain ⟨hne, hlt⟩ := mem_slots.mp hslot
  apply Placed.mem_sleep_of_sleeping h
  · rwa [s.index_idOf hlt]
  · rw [s.record_idOf hlt]
    rfl
  · rwa [s.record_idOf hlt]

theorem Standing.mem_runQueue (h : s.Standing) {slot : Nat} (hslot : slot ∈ slots)
    (hstate : (s.tasks.record slot).state = .ready ∨ (s.tasks.record slot).state = .running) :
    s.idOf slot ∈ s.runQueue := by
  obtain ⟨hne, hlt⟩ := mem_slots.mp hslot
  apply Placed.mem_run_of_queued h
  · rwa [s.index_idOf hlt]
  · rw [s.record_idOf hlt]
    rfl
  · rwa [s.record_idOf hlt]

theorem Standing.head_of_running (h : s.Standing) {slot : Nat} (hslot : slot ∈ slots)
    (hstate : (s.tasks.record slot).state = .running) :
    s.runQueue.head? = some (s.idOf slot) := by
  obtain ⟨hne, _⟩ := mem_slots.mp hslot
  obtain ⟨id, hhead, rfl⟩ := h.first slot hne hne hstate
  rw [h.idOf_index (List.mem_append_left _ (List.mem_of_head? hhead)), hhead]

/-- A slot whose task has started and not ended. -/
def Occupied (s : Scheduler H) (slot : Nat) : Prop :=
  (s.tasks.record slot).state ≠ .vacant ∧ (s.tasks.record slot).state ≠ .exited

theorem Occupied.not_gone {slot : Nat} (h : s.Occupied slot) :
    ¬((s.tasks.record slot).state = .vacant ∨ (s.tasks.record slot).state = .exited) := by
  rintro (hvacant | hexited)
  · exact h.1 hvacant
  · exact h.2 hexited

theorem occupied_of_state {slot : Nat} {state : TaskState}
    (h : (s.tasks.record slot).state = state) (hstate : state ≠ .vacant ∧ state ≠ .exited) :
    s.Occupied slot := by
  unfold Occupied
  rwa [h]

theorem Standing.occupied (h : s.Standing) (hid : id ∈ s.runQueue) (hne : id.index ≠ 0) :
    s.Occupied id.index := by
  rcases h.queued id hid hne with hstate | hstate
  · exact occupied_of_state hstate (by decide)
  · exact occupied_of_state hstate (by decide)

theorem taskOn_eq_some {stack : StackRange} (h : s.taskOn stack = some id) :
    id.index ∈ slots ∧ s.boundTo stack id.index = true ∧ s.idOf id.index = id := by
  unfold taskOn at h
  obtain ⟨slot, hfind, rfl⟩ := Option.map_eq_some_iff.mp h
  have hmem := List.mem_of_find?_eq_some hfind
  rw [s.index_idOf (mem_slots.mp hmem).2]
  exact ⟨hmem, List.find?_some hfind, rfl⟩

theorem chooseSlot_mem {stack : StackRange} {slot : Nat} (h : s.chooseSlot stack = some slot) :
    slot ∈ slots := by
  unfold chooseSlot at h
  split at h
  · rename_i id htask
    rw [Option.some.injEq] at h
    rw [← h]
    exact (taskOn_eq_some htask).1
  · split at h
    · rename_i found hfind
      rw [Option.some.injEq] at h
      rw [← h]
      exact List.mem_of_find?_eq_some hfind
    · exact (List.mem_filter.mp (leastBy_mem h)).1

/-! ## Records that change in place -/

theorem Standing.update (h : s.Standing) (hid : id.index < slotCount)
    (hstate : ∀ r, (change r).state = r.state)
    (hgeneration : ∀ r, (change r).generation = r.generation) :
    Moved s id change s.runQueue s.sleepers (s.update id change) := by
  have hrecord := s.record_update hid change
  refine .of_placed ?_ hrecord rfl rfl
  apply Placed.congr h
  · rfl
  · rfl
  · rfl
  · intro slot _
    rw [hrecord]
    split
    · exact hstate _
    · rfl
  · intro slot
    rw [hrecord]
    split
    · exact hgeneration _
    · rfl

theorem Standing.current_eq_some_iff (h : s.Standing) :
    s.current = some id ↔ s.runQueue.head? = some id ∧ id.index ≠ 0 := by
  unfold Scheduler.current
  rw [h.ready_head, Option.filter_eq_some_iff, Bool.not_eq_true', TaskId.isMainline_eq_false]

theorem Standing.current (h : s.Standing) (hcurrent : s.current = some id) :
    s.runQueue.head? = some id ∧ id.index ≠ 0 ∧ id.index < slotCount := by
  obtain ⟨hhead, hne⟩ := h.current_eq_some_iff.mp hcurrent
  exact ⟨hhead, hne, h.index_lt (List.mem_append_left _ (List.mem_of_head? hhead))⟩

theorem Standing.reschedule_current [Hardware H] {pointer : Address} {decision : Decision}
    (h : s.Standing) (hcurrent : s.current = some id)
    (hok : s.reschedule pointer = .ok (t, decision)) :
    ∃ rest woken u v w, Switched s pointer t decision id rest woken u v w := by
  obtain ⟨head, rest, woken, u, v, w, hswitched⟩ := h.reschedule hok
  have hhead := (h.current hcurrent).1
  rw [hswitched.suspended.runQueue] at hhead
  obtain rfl := Option.some.inj hhead
  exact ⟨rest, woken, u, v, w, hswitched⟩

theorem Standing.current_awake (h : s.Standing) (hcurrent : s.current = some id) :
    ∀ m ∈ s.sleepers, m.index ≠ id.index := by
  intro m hm
  exact Ne.symm (h.apart id (List.mem_of_head? (h.current hcurrent).1) m hm)

theorem markExiting_eq_ok {code : UInt32} (hok : s.markExiting code = .ok t) :
    ∃ id, s.current = some id ∧
      t = s.update id fun t => { t with exiting := true, exitCode := code } := by
  unfold markExiting at hok
  simp only [bind_eq_ok, demand_eq_ok, pure_eq_ok] at hok
  obtain ⟨id, hcurrent, rfl⟩ := hok
  exact ⟨id, hcurrent, rfl⟩

theorem markAsleep_eq_ok {deadline : Instant} (hok : s.markAsleep deadline = .ok t) :
    ∃ id, s.current = some id ∧ (s.record id).sleepCount < sleepCountMax ∧
      t = s.update id fun t => t.countSleep deadline := by
  unfold markAsleep at hok
  simp only [bind_eq_ok, demand_eq_ok, require_eq_ok, pure_eq_ok, exists_and_left,
    exists_const] at hok
  obtain ⟨id, hcurrent, hlimit, rfl⟩ := hok
  exact ⟨id, hcurrent, hlimit, rfl⟩

theorem Standing.markExiting (h : s.Standing) {code : UInt32} (hok : s.markExiting code = .ok t) :
    ∃ id, s.current = some id ∧ t.hardware = s.hardware ∧
      Moved s id (fun t => { t with exiting := true, exitCode := code }) s.runQueue s.sleepers
        t := by
  obtain ⟨id, hcurrent, rfl⟩ := markExiting_eq_ok hok
  exact ⟨id, hcurrent, rfl, h.update (h.current hcurrent).2.2 (fun _ => rfl) fun _ => rfl⟩

theorem Standing.markAsleep (h : s.Standing) {deadline : Instant}
    (hok : s.markAsleep deadline = .ok t) :
    ∃ id, s.current = some id ∧ t.hardware = s.hardware ∧
      (s.record id).sleepCount < sleepCountMax ∧
      Moved s id (fun t => t.countSleep deadline) s.runQueue s.sleepers t := by
  obtain ⟨id, hcurrent, hlimit, rfl⟩ := markAsleep_eq_ok hok
  exact ⟨id, hcurrent, rfl, hlimit,
    h.update (h.current hcurrent).2.2 (fun _ => rfl) fun _ => rfl⟩

/-! ## Waiting -/

inductive Attempted (s : Scheduler H) (w : Signal) : Scheduler H → Signal → WaitResult → Prop
  | acquired {w' : Signal} :
      w.tryTake = (w', true) →
      Attempted s w s w' .acquired
  | parked {t : Scheduler H} {id : TaskId} :
      s.current = some id →
      w.latched = false →
      w.count = 0 →
      (w.waiter = none ∨ w.waiter = some id) →
      (s.record id).sleepCount < sleepCountMax →
      Moved s id (fun t => t.countSleep Instant.never) s.runQueue s.sleepers t →
      t.hardware = s.hardware →
      Attempted s w t { w with waiter := some id } .parked
  | busy {id other : TaskId} :
      s.current = some id →
      w.latched = false →
      w.count = 0 →
      w.waiter = some other →
      other ≠ id →
      Attempted s w s w .busy

theorem Standing.attemptWait (h : s.Standing) {w w' : Signal} {result : WaitResult}
    (hok : s.attemptWait w = .ok (t, w', result)) : Attempted s w t w' result := by
  unfold Scheduler.attemptWait at hok
  rcases htake : w.tryTake with ⟨w₁, taken⟩
  rw [htake] at hok
  cases taken with
  | true =>
      simp only [if_true, pure_eq_ok, Prod.mk.injEq] at hok
      obtain ⟨rfl, rfl, rfl⟩ := hok
      exact .acquired htake
  | false =>
      obtain ⟨hlatched, hcount, rfl⟩ := Signal.tryTake_eq_false.mp htake
      simp only [Bool.false_eq_true, if_false, bind_eq_ok, demand_eq_ok] at hok
      obtain ⟨id, hcurrent, hok⟩ := hok
      unfold Signal.enlist at hok
      cases hwaiter : w₁.waiter with
      | none =>
          simp only [hwaiter, bind_eq_ok, pure_eq_ok, Prod.mk.injEq] at hok
          obtain ⟨u, hasleep, rfl, rfl, rfl⟩ := hok
          obtain ⟨id', hcurrent', hhardware, hlimit, hmoved⟩ := h.markAsleep hasleep
          obtain rfl := Option.some.inj (hcurrent.symm.trans hcurrent')
          exact .parked hcurrent hlatched hcount (.inl hwaiter) hlimit hmoved hhardware
      | some other =>
          simp only [hwaiter] at hok
          by_cases hother : other = id
          · subst hother
            simp only [if_true, bind_eq_ok, pure_eq_ok, Prod.mk.injEq] at hok
            obtain ⟨u, hasleep, rfl, rfl, rfl⟩ := hok
            obtain ⟨id', hcurrent', hhardware, hlimit, hmoved⟩ := h.markAsleep hasleep
            obtain rfl := Option.some.inj (hcurrent.symm.trans hcurrent')
            have hsame : { w₁ with waiter := some other } = w₁ := by
              cases w₁
              simp_all
            have hparked :=
              Attempted.parked hcurrent hlatched hcount (.inr hwaiter) hlimit hmoved hhardware
            rwa [hsame] at hparked
          · simp only [if_neg hother, pure_eq_ok, Prod.mk.injEq] at hok
            obtain ⟨rfl, rfl, rfl⟩ := hok
            exact .busy hcurrent hlatched hcount hwaiter hother

theorem Attempted.standing {w w' : Signal} {result : WaitResult}
    (h : Attempted s w t w' result) (hs : s.Standing) : t.Standing := by
  cases h with
  | acquired _ => exact hs
  | parked _ _ _ _ _ hmoved _ => exact hmoved.standing
  | busy _ _ _ _ _ => exact hs

theorem Attempted.completion {w w' : Signal} {result : WaitResult}
    (h : Attempted s w t w' result) (slot : Nat) :
    (t.tasks.record slot).completion = (s.tasks.record slot).completion := by
  cases h with
  | acquired _ => rfl
  | parked _ _ _ _ _ hmoved _ => exact hmoved.field TaskRecord.completion (fun _ => rfl) slot
  | busy _ _ _ _ _ => rfl

def withCompletion (s : Scheduler H) (target : TaskId) (completion : Signal) : Scheduler H :=
  s.update target fun t => { t with completion }

theorem Standing.withCompletion (h : s.Standing) (hid : id.index < slotCount)
    (completion : Signal) :
    Moved s id (fun t => { t with completion }) s.runQueue s.sleepers
      (s.withCompletion id completion) :=
  h.update hid (fun _ => rfl) fun _ => rfl

structure Joinable (s : Scheduler H) (target : TaskId) : Prop where
  index_lt : target.index < slotCount
  task : target.index ≠ 0
  started : (s.record target).state ≠ .vacant

theorem joinable_of_required {target : TaskId} (hslot : requireSlot target = .ok ())
    (hstarted : s.requireStarted target = .ok ()) : s.Joinable target := by
  unfold requireSlot TaskTable.requireSlot at hslot
  unfold requireStarted at hstarted
  rw [require_eq_ok, TaskId.isMainline_eq_false] at hstarted
  rw [require_eq_ok] at hslot
  exact ⟨hslot, hstarted.1, hstarted.2⟩

theorem Joinable.required {target : TaskId} (h : s.Joinable target) :
    requireSlot target = .ok () ∧ s.requireStarted target = .ok () := by
  unfold requireSlot TaskTable.requireSlot requireStarted
  rw [require_eq_ok, require_eq_ok, TaskId.isMainline_eq_false]
  exact ⟨h.index_lt, h.task, h.started⟩

theorem Standing.attemptJoin (h : s.Standing) {target : TaskId} {result : WaitResult}
    (hok : s.attemptJoin target = .ok (t, result)) :
    s.current ≠ some target ∧ s.Joinable target ∧ ∃ u completion,
      Attempted s (s.record target).completion u completion result ∧
        t = u.withCompletion target completion := by
  unfold Scheduler.attemptJoin at hok
  simp only [bind_eq_ok, require_eq_ok, pure_eq_ok, Prod.mk.injEq, Prod.exists] at hok
  obtain ⟨_, hself, _, hslot, _, hstarted, u, completion, _, hattempt, rfl, rfl⟩ := hok
  exact ⟨hself, joinable_of_required hslot hstarted, u, completion, h.attemptWait hattempt, rfl⟩

theorem tryJoin_eq_ok {target : TaskId} {code : Option UInt32}
    (hok : s.tryJoin target = .ok (t, code)) :
    s.Joinable target ∧
      t = s.withCompletion target (s.record target).completion.tryTake.1 ∧
      code = if (s.record target).completion.tryTake.2 then some (s.record target).exitCode
        else none := by
  unfold Scheduler.tryJoin at hok
  simp only [bind_eq_ok, pure_eq_ok, Prod.mk.injEq] at hok
  obtain ⟨_, hslot, _, hstarted, rfl, rfl⟩ := hok
  exact ⟨joinable_of_required hslot hstarted, rfl, rfl⟩

/-! ## Starting a task -/

theorem Placed.start (h : s.Placed 0 run sleep) {slot : Nat} {stack : StackRange}
    {pointer : Address} {generation : UInt32} (hslot : slot ≠ 0) (hlt : slot < slotCount)
    (hfree : s.tasks.cells.linked slot = false) :
    ∃ tasks, s.tasks.start slot stack pointer generation = .ok tasks ∧
      Placed { s with tasks } slot run sleep := by
  obtain ⟨tasks, hok⟩ : ∃ tasks, s.tasks.start slot stack pointer generation = .ok tasks :=
    ⟨_, bind_eq_ok.mpr ⟨(), require_eq_ok.mpr hfree, rfl⟩⟩
  have hkeep := fun other (hother : other ≠ slot) =>
    (TaskTable.record_start hlt hok other).trans (if_neg hother)
  refine ⟨tasks, hok, ?_⟩
  unfold TaskTable.start at hok
  simp only [bind_eq_ok, require_eq_ok, exists_and_left, exists_const, pure_eq_ok] at hok
  obtain ⟨_, htasks⟩ := hok
  have hframe : ∀ other, other ≠ slot → tasks.cells[other]? = s.tasks.cells[other]? := by
    intro other hother
    rw [← htasks, Vector.getElem?_setIfInBounds, if_neg (Ne.symm hother)]
  have hlinked : ∀ other, tasks.cells.linked other = s.tasks.cells.linked other := by
    intro other
    by_cases hother : other = slot
    · subst hother
      rw [hfree, ← htasks]
      simp [Cells.linked, Link.free, hlt]
    · unfold Cells.linked
      rw [hframe other hother]
  have hne : ∀ m ∈ run ++ sleep, m.index ≠ slot := by
    intro m hm he
    have hm := h.linked_of_mem hm
    rw [he, hfree] at hm
    contradiction
  have hmember : ∀ m ∈ run ++ sleep, Scheduler.record { s with tasks } m = s.record m := by
    intro m hm
    exact hkeep m.index (hne m hm)
  refine ⟨?ready, ?timers, h.apart, ?linked, ?generation, ?queued, ?asleep, h.behind, ?unlinked,
    ?gone, ?first, ?mainline⟩
  case ready =>
    apply h.ready.congr
    intro m hm
    exact hframe _ (hne m (List.mem_append_left _ hm))
  case timers =>
    apply h.timers.congr
    intro m hm
    exact hframe _ (hne m (List.mem_append_right _ hm))
  case linked =>
    intro other hother
    rw [hlinked] at hother
    exact h.linked other hother
  case generation =>
    intro m hm
    rw [hmember m hm]
    exact h.generation m hm
  case queued =>
    intro m hm hindex
    rw [hmember m (List.mem_append_left _ hm)]
    exact h.queued m hm hindex
  case asleep =>
    intro m hm
    rw [hmember m (List.mem_append_right _ hm)]
    exact h.asleep m hm
  case unlinked =>
    intro _
    rw [hlinked]
    exact hfree
  case gone =>
    intro other hother haway hunlinked
    rw [hlinked] at hunlinked
    rw [hkeep other haway]
    exact h.gone other hother hother hunlinked
  case first =>
    intro other hother haway hrunning
    rw [hkeep other haway] at hrunning
    exact h.first other hother hother hrunning
  case mainline =>
    rw [hkeep 0 (Ne.symm hslot)]
    exact h.mainline

def admitted (s : Scheduler H) : List TaskId :=
  if s.runQueue = [] then [.mainline] else s.runQueue

theorem Standing.admitMainline (h : s.Standing) :
    ∃ t, s.admitMainline = .ok t ∧ t.Placed 0 s.admitted s.sleepers ∧ t.record .mainline =
        (if s.runQueue = [] then { s.record .mainline with state := .running }
        else s.record .mainline) ∧
      (∀ slot, slot ≠ 0 → t.tasks.record slot = s.tasks.record slot) ∧
      t.hardware = s.hardware ∧ t.armed = s.armed ∧ t.generation = s.generation ∧
      t.resumedAt = s.resumedAt := by
  have hisEmpty := h.ready.isEmpty_eq
  unfold Scheduler.admitMainline admitted
  by_cases hempty : s.runQueue = []
  · have hlt : TaskId.mainline.index < slotCount := by decide
    have hrecord := s.record_update hlt fun t => { t with state := .running }
    have hplaced : (s.update .mainline fun t => { t with state := .running }).Placed 0 []
        s.sleepers := by
      unfold Standing at h
      rw [hempty] at h
      apply h.congr
      · rfl
      · rfl
      · rfl
      · intro slot hslot
        exact congrArg TaskRecord.state ((hrecord slot).trans (if_neg hslot))
      · intro slot
        refine (congrArg TaskRecord.generation (hrecord slot)).trans ?_
        split <;> rfl
    obtain ⟨q, cells, hprepend, hadmitted⟩ := hplaced.prepend_mainline
    refine ⟨_, bind_eq_ok.mpr ⟨true, ?_, bind_eq_ok.mpr ⟨(q, cells), hprepend, rfl⟩⟩, ?_⟩
    · rw [hisEmpty, hempty]
      rfl
    · rw [if_pos hempty, if_pos hempty]
      refine ⟨hadmitted, (hrecord 0).trans (if_pos rfl), ?_, rfl, rfl, rfl, rfl⟩
      intro slot hslot
      exact (hrecord slot).trans (if_neg hslot)
  · refine ⟨s, bind_eq_ok.mpr ⟨false, ?_, rfl⟩, ?_⟩
    · rw [hisEmpty, Except.ok.injEq, Bool.eq_false_iff, ne_eq, List.isEmpty_iff]
      exact hempty
    · rw [if_neg hempty, if_neg hempty]
      exact ⟨h, rfl, fun _ _ => rfl, rfl, rfl, rfl, rfl⟩

theorem Standing.linked_admitted (h : s.Standing) (ht : t.Placed 0 s.admitted s.sleepers)
    {slot : Nat} (hslot : slot ≠ 0) : t.tasks.cells.linked slot = s.tasks.cells.linked slot := by
  have hmem : (∃ id ∈ s.admitted ++ s.sleepers, id.index = slot) ↔
      ∃ id ∈ s.runQueue ++ s.sleepers, id.index = slot := by
    unfold admitted
    split
    · rename_i hempty
      rw [hempty, List.nil_append, List.singleton_append]
      constructor
      · rintro ⟨id, hid, hindex⟩
        rcases List.mem_cons.mp hid with rfl | hid
        · exact absurd hindex.symm hslot
        · exact ⟨id, hid, hindex⟩
      · rintro ⟨id, hid, hindex⟩
        exact ⟨id, List.mem_cons_of_mem _ hid, hindex⟩
    · exact .rfl
  rw [Bool.eq_iff_iff, ht.linked_iff, Placed.linked_iff h, hmem]

variable [Hardware H]

def startedRecord (s : Scheduler H) (stack : StackRange) (pointer : Address) : TaskRecord :=
  { TaskRecord.started stack pointer (s.generation + 1) with
    guardRegion := (Hardware.guardStack s.hardware stack).2 }

structure Started (s : Scheduler H) (stack : StackRange) (pointer : Address) (id : TaskId)
    (t : Scheduler H) : Prop where
  unused : s.stackInUse stack = false
  chosen : s.chooseSlot stack = some id.index
  gone : (s.record id).state = .vacant ∨ (s.record id).state = .exited
  standing : t.Standing
  runQueue : t.runQueue = s.admitted ++ [id]
  sleepers : t.sleepers = s.sleepers
  self : t.record id = s.startedRecord stack pointer
  other : ∀ slot, slot ≠ 0 → slot ≠ id.index → t.tasks.record slot = s.tasks.record slot
  mainline : t.record .mainline =
    if s.runQueue = [] then { s.record .mainline with state := .running } else s.record .mainline
  hardware : t.hardware = (Hardware.guardStack s.hardware stack).1
  armed : t.armed = s.armed
  current : id.generation = s.generation + 1
  generation : t.generation = s.generation + 1
  resumedAt : t.resumedAt = s.resumedAt

theorem Started.mem_slots {stack : StackRange} {pointer : Address}
    (h : Started s stack pointer id t) : id.index ≠ 0 ∧ id.index < slotCount :=
  Scheduler.mem_slots.mp (chooseSlot_mem h.chosen)

theorem Started.record_other {stack : StackRange} {pointer : Address}
    (h : Started s stack pointer id t) {slot : Nat} (hslot : slot ∈ slots)
    (hne : slot ≠ id.index) : t.tasks.record slot = s.tasks.record slot :=
  h.other slot (Scheduler.mem_slots.mp hslot).1 hne

/-- A start in a free slot always comes about. -/
theorem Standing.spawn_chosen (h : s.Standing) {stack : StackRange} {pointer : Address} {slot : Nat}
    (hunused : s.stackInUse stack = false) (hchosen : s.chooseSlot stack = some slot)
    (hfree : s.tasks.cells.linked slot = false) :
    ∃ t id, s.spawn stack pointer = .ok (t, .ok id) ∧ Started s stack pointer id t := by
  obtain ⟨hslot, hlt⟩ := mem_slots.mp (chooseSlot_mem hchosen)
  obtain ⟨u, hadmit, hplaced, hmainline, hsame, hhardware, harmed, hgeneration, hresumedAt⟩ :=
    h.admitMainline
  have hunlinked : u.tasks.cells.linked slot = false := by
    rw [h.linked_admitted hplaced hslot]
    exact hfree
  have hindex : (⟨UInt8.ofNat slot, u.generation + 1⟩ : TaskId).index = slot := by
    have hcount : slotCount = 16 := rfl
    exact TaskId.index_mk (by omega) _
  generalize hid : (⟨UInt8.ofNat slot, u.generation + 1⟩ : TaskId) = id at hindex
  have hnumber : id.generation = u.generation + 1 := by rw [← hid]
  obtain ⟨tasks, hstart, hopen⟩ :
      ∃ tasks, u.tasks.start slot stack pointer (u.generation + 1) = .ok tasks ∧
        Placed { u with tasks } slot s.admitted s.sleepers := hplaced.start hslot hlt hunlinked
  have hstarted := TaskTable.record_start hlt hstart
  generalize hw : ({ u with
    tasks := tasks
    hardware := (Hardware.guardStack u.hardware stack).1
    generation := u.generation + 1 } : Scheduler H) = w
  have hopened : w.Placed id.index s.admitted s.sleepers := by
    rw [← hw, hindex]
    exact hopen.congr rfl rfl rfl (fun _ _ => rfl) fun _ => rfl
  have hrecord : w.record id = .started stack pointer (u.generation + 1) := by
    unfold Scheduler.record
    rw [hindex, ← hw, hstarted, if_pos rfl]
  have hother : ∀ other, other ≠ slot → w.tasks.record other = u.tasks.record other := by
    intro other hne
    rw [← hw, hstarted, if_neg hne]
  generalize hchange : (fun t : TaskRecord =>
    { t with guardRegion := (Hardware.guardStack u.hardware stack).2 }) = change
  obtain ⟨v, henqueue, hmoved, hboard, hresumed⟩ :
      ∃ v, (w.update id change).enqueue id = .ok v ∧
        Moved w id change (s.admitted ++ [id]) s.sleepers v ∧ v.hardware = w.hardware ∧
        v.resumedAt = w.resumedAt := by
    apply hopened.enqueue_updated
    · rwa [hindex]
    · rwa [hindex]
    · rw [← hchange, hrecord]
      exact hnumber
    · rw [← hchange, hrecord]
      rfl
  have hnoted := Placed.note hmoved.standing (.started id stack)
  refine ⟨v.note (.started id stack), id, ?spawned, hunused, ?chosen, ?gone, hnoted.standing,
    ?runQueue, ?sleepers, ?self, ?other, ?mainline, ?hardware, ?armed, ?current, ?generation,
    ?resumedAt⟩
  case spawned =>
    rw [← hw, ← hchange] at henqueue
    refine bind_eq_ok.mpr ⟨(), require_eq_ok.mpr hunused, ?_⟩
    rw [hchosen]
    refine bind_eq_ok.mpr ⟨u, hadmit, bind_eq_ok.mpr ⟨tasks, hstart, ?_⟩⟩
    rw [hid]
    exact bind_eq_ok.mpr ⟨v, henqueue, rfl⟩
  case chosen =>
    rw [hindex]
    exact hchosen
  case gone =>
    unfold Scheduler.record
    rw [hindex]
    exact Placed.gone h slot hslot hslot hfree
  case runQueue =>
    exact hnoted.runQueue_eq.trans hmoved.runQueue
  case sleepers =>
    exact hnoted.sleepers_eq.trans hmoved.sleepers
  case self =>
    refine hmoved.self.trans ?_
    rw [hrecord, ← hchange, hgeneration, hhardware]
    rfl
  case other =>
    intro other hne hnot
    refine (hmoved.other hnot).trans ?_
    rw [hindex] at hnot
    exact (hother other hnot).trans (hsame other hne)
  case mainline =>
    refine (hmoved.other ?_).trans ?_
    · rw [hindex]
      exact Ne.symm hslot
    · exact (hother 0 (Ne.symm hslot)).trans hmainline
  case hardware =>
    rw [← hw, hhardware] at hboard
    exact hboard
  case armed =>
    refine hmoved.armed.trans ?_
    rw [← hw]
    exact harmed
  case current =>
    rw [hnumber, hgeneration]
  case generation =>
    refine hmoved.generation.trans ?_
    rw [← hw]
    exact congrArg (· + 1) hgeneration
  case resumedAt =>
    refine hresumed.trans ?_
    rw [← hw]
    exact hresumedAt

theorem Standing.spawn (h : s.Standing) {stack : StackRange} {pointer : Address}
    {outcome : Except StartError TaskId} (hok : s.spawn stack pointer = .ok (t, outcome)) :
    outcome = .error .allSlotsLive ∧ t = s ∨
      ∃ id, outcome = .ok id ∧ Started s stack pointer id t := by
  have hspawn := hok
  unfold Scheduler.spawn at hok
  simp only [bind_eq_ok, require_eq_ok, exists_and_left, exists_const] at hok
  obtain ⟨hunused, hok⟩ := hok
  split at hok
  · rw [pure_eq_ok, Prod.mk.injEq] at hok
    exact .inl ⟨hok.2.symm, hok.1.symm⟩
  · rename_i slot hchosen
    simp only [bind_eq_ok] at hok
    obtain ⟨u, hadmit, tasks, hstart, _⟩ := hok
    have hslot := (mem_slots.mp (chooseSlot_mem hchosen)).1
    obtain ⟨u', hu', hplaced, _⟩ := h.admitMainline
    obtain rfl := Except.ok.inj (hu'.symm.trans hadmit)
    have hfree : s.tasks.cells.linked slot = false := by
      rw [← h.linked_admitted hplaced hslot]
      simp only [TaskTable.start, bind_eq_ok, require_eq_ok, exists_and_left] at hstart
      exact hstart.1
    obtain ⟨t', id, hok', hstarted⟩ :
        ∃ t id, s.spawn stack pointer = .ok (t, .ok id) ∧ Started s stack pointer id t :=
      h.spawn_chosen hunused hchosen hfree
    obtain ⟨rfl, rfl⟩ := Prod.mk.inj (Except.ok.inj (hok'.symm.trans hspawn))
    exact .inr ⟨id, rfl, hstarted⟩

theorem post_eq_ok {w w' : Signal} (hok : s.post w = .ok (t, w')) :
    s.wakeWaiter w.waiter = .ok t ∧ w' = w.post.1 := by
  unfold Scheduler.post at hok
  simp only [bind_eq_ok, pure_eq_ok, Prod.mk.injEq] at hok
  obtain ⟨u, hwake, rfl, rfl⟩ := hok
  exact ⟨hwake, rfl⟩

end Scheduler

end CoopTasks
