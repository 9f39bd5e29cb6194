import CoopTasks.Proofs.SafeWakes

/-!
Switches that cannot fail.

A task that is suspended inside of its stack can be settled by whichever rule
applies to it, and there is always somebody to resume, or nothing to do for the
moment.  The waiter of a task that ends is awaited before, and dozes after.
-/

namespace CoopTasks.Scheduler

open GuardingHardware SteadyHardware

variable {H : Type} {s t u : Scheduler H} {id : TaskId}
variable {awaited awaited' : Nat → Prop} {run sleep rest : List TaskId} {pointer : Address}

/-! ## What a switch leaves of a record -/

section Saved

theorem Wakes.record_mainline {ids : List TaskId} (h : Wakes s ids t) :
    t.record .mainline = s.record .mainline := by
  refine h.preserves (P := fun t => t.record .mainline = s.record .mainline) ?_ ?_ rfl
  · intro t u hmoved ht
    unfold Scheduler.record
    rw [hmoved.tasks]
    exact ht
  · intro t id u hwoke ht
    exact ((hwoke.record 0).trans (if_neg (Ne.symm hwoke.task))).trans ht

theorem Dispatched.field {α : Type} {decision : Decision} (h : Dispatched s t decision)
    (field : TaskRecord → α)
    (hfield : ∀ (r : TaskRecord) (state : TaskState), field { r with state } = field r)
    (slot : Nat) : field (t.tasks.record slot) = field (s.tasks.record slot) := by
  cases h with
  | resumed _ _ hmoved _ | drained _ _ _ hmoved _ => exact hmoved.field field (hfield · _) slot
  | idle _ _ => rfl

variable [Hardware H]

theorem Suspended.field {α : Type} (h : Suspended s pointer id rest u) (part : TaskRecord → α)
    (hpart : ∀ r, part (s.suspendedRecord pointer r) = part r) (slot : Nat) :
    part (u.tasks.record slot) = part (s.tasks.record slot) := by
  rw [h.record slot]
  split
  · exact hpart _
  · rfl

theorem Settled.pointer_mainline (h : Settled s id run sleep t) :
    (t.record .mainline).pointer = (s.record .mainline).pointer := by
  cases h with
  | parked _ hmoved _ | asleep _ _ _ _ hmoved _ | requeued _ _ _ _ hmoved _ =>
      exact hmoved.field TaskRecord.pointer (fun _ => rfl) 0
  | finished hid _ _ _ hmoved _ hwake =>
      obtain ⟨ids, hwakes⟩ := hmoved.standing.wakes_of_wakeWaiter hwake
      rw [hwakes.record_mainline]
      exact congrArg TaskRecord.pointer (hmoved.other (Ne.symm hid))

theorem Settled.pointer_suspended {v x : Scheduler H} {woken : List TaskId}
    (h : Settled u id rest sleep v) (hsuspended : Suspended s pointer id rest u)
    (hrearmed : Rearmed v woken x) :
    (x.record .mainline).pointer =
      if id.index = 0 then pointer else (s.record .mainline).pointer := by
  rw [hrearmed.wakes.record_mainline, h.pointer_mainline,
    show u.record .mainline = _ from hsuspended.record 0]
  by_cases hid : id.index = 0
  · rw [if_pos hid, if_pos hid.symm]
    rfl
  · rw [if_neg hid, if_neg (Ne.symm hid)]
    rfl

theorem Switched.pointer_mainline {decision : Decision} {woken : List TaskId}
    {v w : Scheduler H} (h : Switched s pointer t decision id rest woken u v w) :
    (t.record .mainline).pointer =
      if id.index = 0 then pointer else (s.record .mainline).pointer := by
  rw [← h.settled.pointer_suspended h.suspended h.rearmed]
  exact h.dispatched.field TaskRecord.pointer (fun _ _ => rfl) 0

end Saved

/-! ## The anchor of the accounts -/

section Anchor

theorem Wakes.resumedAt {ids : List TaskId} (h : Wakes s ids t) : t.resumedAt = s.resumedAt :=
  h.preserves (P := fun t => t.resumedAt = s.resumedAt)
    (fun _ _ hmoved ht => hmoved.resumedAt.trans ht)
    (fun _ _ _ hwoke ht => hwoke.resumedAt.trans ht) rfl

variable [Hardware H]

theorem Placed.resumedAt_settle (h : s.Placed id.index run sleep)
    (hlt : id.index < slotCount) (hok : s.settle id = .ok t) : t.resumedAt = s.resumedAt := by
  unfold Scheduler.settle at hok
  split at hok
  · obtain rfl := Except.ok.inj hok
    rfl
  · rename_i hmainline
    have hid : id.index ≠ 0 := fun he => hmainline (TaskId.isMainline_iff.mpr he)
    simp only [bind_eq_ok] at hok
    obtain ⟨_, _, hok⟩ := hok
    split at hok
    · unfold Scheduler.finish at hok
      simp only [bind_eq_ok] at hok
      obtain ⟨_, _, v, hunguard, hok⟩ := hok
      obtain ⟨hardware, rfl, _⟩ := unguard_eq_ok hunguard
      have hfinished := h.finished hid hlt hardware (.exited id (s.record id).exitCode)
      obtain ⟨ids, hwakes⟩ := hfinished.standing.wakes_of_wakeWaiter hok
      exact hwakes.resumedAt
    · split at hok
      · simp only [Scheduler.putToSleep, bind_eq_ok, pure_eq_ok, Prod.exists] at hok
        obtain ⟨_, _, _, rfl⟩ := hok
        rfl
      · simp only [Scheduler.requeue, Scheduler.enqueue, bind_eq_ok, pure_eq_ok, Prod.exists] at hok
        obtain ⟨_, _, _, rfl⟩ := hok
        rfl

theorem Standing.resumedAt_dispatch (hs : s.Standing) {decision : Decision}
    (hok : s.dispatch = .ok (t, decision)) :
    t.resumedAt = if s.runQueue = [] then s.resumedAt else s.now := by
  unfold Scheduler.dispatch at hok
  rw [hs.ready_head] at hok
  cases hrun : s.runQueue with
  | cons next rest =>
      rw [hrun, List.head?_cons] at hok
      simp only [bind_eq_ok, pure_eq_ok, Prod.mk.injEq] at hok
      obtain ⟨_, _, rfl, _⟩ := hok
      rfl
  | nil =>
      rw [hrun, List.head?_nil] at hok
      simp only [bind_eq_ok] at hok
      obtain ⟨_, _, hok⟩ := hok
      split at hok
      · simp only [bind_eq_ok, pure_eq_ok, Prod.mk.injEq] at hok
        obtain ⟨_, _, rfl, _⟩ := hok
        rfl
      · obtain ⟨rfl, _⟩ := Prod.mk.inj (Except.ok.inj hok)
        rfl

end Anchor

variable [SteadyHardware H]

/-! ## Suspending -/

theorem FaultFree.busy_le (h : s.FaultFree awaited) (slot : Nat) :
    (s.tasks.record slot).busyTime.toNat + (s.now.since s.resumedAt).toNat ≤ s.now.toNat := by
  have hbusy := h.busy slot
  have hresumed := Instant.le_iff.mp h.resumed
  rw [Instant.toNat_since]
  omega

theorem FaultFree.suspend (h : s.FaultFree awaited) (hs : s.Standing)
    (hrun : s.runQueue = id :: rest) (pointer : Address) :
    ∃ u, s.suspend pointer = .ok (u, id) ∧ Suspended s pointer id rest u :=
  hs.suspend_of_fits hrun (Nat.lt_of_le_of_lt (h.busy_le id.index) s.now.toNat_lt) pointer

theorem FaultFree.suspended (h : s.FaultFree awaited) (hsuspended : Suspended s pointer id rest u)
    (hlive : id.index ∈ slots → (s.record id).stack.holds pointer = true) :
    u.FaultFree awaited := by
  obtain ⟨hgranted, hunshared⟩ := h.secured.onward (t := u)
    (fun slot => hsuspended.field TaskRecord.guardRegion (fun _ => rfl) slot)
    (.of_eq hsuspended.hardware)
  refine ⟨?tasks, ?busy, ?resumed, hgranted, hunshared⟩
  case tasks =>
    intro slot hslot
    have hsturdy := h.tasks slot hslot
    rw [hsuspended.record slot]
    by_cases he : slot = id.index
    · subst he
      rw [if_pos rfl]
      exact ⟨hsturdy.count, hsturdy.asleep, fun _ => hlive hslot, hsturdy.exiting, hsturdy.awaited⟩
    · rw [if_neg he]
      exact hsturdy
  case busy =>
    intro slot
    have hle := h.busy_le slot
    rw [hsuspended.record slot, hsuspended.resumedAt]
    split
    · show ((s.tasks.record slot).busyTime + s.now.since s.resumedAt).toNat ≤ s.now.toNat
      have hlt := s.now.toNat_lt
      rw [UInt64.toNat_add, Nat.mod_eq_of_lt (Nat.lt_of_le_of_lt hle hlt)]
      exact hle
    · omega
  case resumed =>
    unfold Scheduler.now
    rw [hsuspended.resumedAt, hsuspended.hardware]
    exact Instant.le_refl _

/-! ## Settling -/

omit [SteadyHardware H] in
theorem Dozes.congr (h : s.Dozes awaited id)
    (hrecord : t.tasks.record id.index = s.tasks.record id.index) : t.Dozes awaited id := by
  have hself : t.record id = s.record id := hrecord
  exact ⟨h.slot, hself ▸ h.current, hself ▸ h.occupied, hself ▸ h.count, h.unawaited⟩

theorem FaultFree.finished (h : s.FaultFree awaited) (hslot : id.index ∈ slots)
    (hawaited : ∀ slot ∈ slots, awaited' slot → awaited slot)
    (hmoved : Moved s id TaskRecord.finished run sleep t) (hresumedAt : t.resumedAt = s.resumedAt)
    (hnow : s.now ≤ t.now)
    (hkept : ∀ region, s.guardAt id.index ≠ some region → holds s.hardware region →
      holds t.hardware region) : t.FaultFree awaited' := by
  have hself : t.tasks.record id.index = (s.tasks.record id.index).finished := hmoved.self
  obtain ⟨hgranted, hunshared⟩ := h.secured.released (t := t) hslot (fun slot => by
    unfold guardAt
    rw [hmoved.record slot]
    split <;> rfl) hkept
  refine ⟨?tasks, ?busy, ?resumed, hgranted, hunshared⟩
  case tasks =>
    intro slot hother
    have hsturdy := (h.tasks slot hother).mono (hawaited slot hother)
    by_cases he : slot = id.index
    · subst he
      rw [hself]
      exact hsturdy.finished
    · rw [hmoved.other he]
      exact hsturdy
  case busy =>
    intro slot
    rw [hmoved.field TaskRecord.busyTime (fun _ => rfl) slot, hresumedAt]
    exact h.busy slot
  case resumed =>
    rw [hresumedAt]
    exact Instant.le_trans h.resumed hnow

theorem FaultFree.settle_of_stays (h : s.FaultFree awaited) (hplaced : s.Placed id.index run sleep)
    (hlt : id.index < slotCount) (hcurrent : id.generation = (s.record id).generation)
    (hlive : id.index ∈ slots → (s.record id).isLive = true)
    (hawaited : ∀ slot ∈ slots, awaited' slot → awaited slot)
    (hstays : id.index ∈ slots → (s.record id).exiting = false) :
    ∃ t, s.settle id = .ok t ∧ t.Standing ∧ t.FaultFree awaited' := by
  have hslot : id.index ≠ 0 → id.index ∈ slots := fun hid => mem_slots.mpr ⟨hid, hlt⟩
  obtain ⟨t, hok⟩ := hplaced.settle_of_stays hlt hcurrent (fun hid => hlive (hslot hid))
    fun hid => hstays (hslot hid)
  have hsettled := hplaced.settle hlt hcurrent hok
  have hresumedAt := hplaced.resumedAt_settle hlt hok
  have settled {state : TaskState} {run' sleep' : List TaskId}
      (hmoved : Moved s id (fun t => { t with state }) run' sleep' t)
      (hhardware : t.hardware = s.hardware)
      (hasleep : id.index ∈ slots → state = .sleeping → (s.record id).sleepCount = 1) :
      t.FaultFree awaited' := by
    refine h.altered (.of_eq hresumedAt hhardware) hmoved.altered (fun _ => rfl) (fun _ => rfl) ?_
      fun slot hother _ => hawaited slot hother
    intro hslot
    exact ((h.tasks id.index hslot).mono (hawaited id.index hslot)).withState (hlive hslot)
      (hasleep hslot)
  refine ⟨t, hok, hsettled.standing, ?_⟩
  cases hsettled with
  | parked _ hmoved hhardware | requeued _ _ _ _ hmoved hhardware =>
      exact settled hmoved hhardware nofun
  | asleep _ _ _ hsleeping hmoved hhardware =>
      refine settled hmoved hhardware fun hslot _ => ?_
      rw [TaskRecord.isSleeping, decide_eq_true_iff] at hsleeping
      rcases (h.tasks id.index hslot).count with hzero | hone
      · change 0 < (s.tasks.record id.index).sleepCount at hsleeping
        omega
      · exact hone
  | finished hid _ hexiting _ _ _ _ =>
      exact absurd (hexiting.symm.trans (hstays (hslot hid))) (by decide)

theorem FaultFree.settle_of_exiting (h : s.FaultFree awaited)
    (hplaced : s.Placed id.index run sleep)
    (hslot : id.index ∈ slots) (hlive : (s.record id).isLive = true)
    (hexiting : (s.record id).exiting = true)
    (hawaited : ∀ slot ∈ slots, awaited' slot → awaited slot)
    (hwaiter : ∀ waiter, (s.record id).completion.waiter = some waiter →
      waiter.index ≠ id.index ∧ s.Dozes awaited' waiter) :
    ∃ t, s.settle id = .ok t ∧ t.Standing ∧ t.FaultFree awaited' := by
  obtain ⟨hid, hlt⟩ := mem_slots.mp hslot
  have hawake : (s.record id).isSleeping = false := by
    have hzero := (h.tasks id.index hslot).exiting hexiting
    rw [TaskRecord.isSleeping, decide_eq_false_iff_not]
    change ¬0 < (s.tasks.record id.index).sleepCount
    omega
  obtain ⟨hardware, hunguard, hnow, hkept⟩ := h.secured.unguard hslot TaskRecord.finished
  obtain ⟨u, hmoved, rfl, hresumedAt, hsettle⟩ :=
    hplaced.settle_of_exiting hid hlt hlive hexiting hawake hunguard
  obtain ⟨t, hwake, ht⟩ := (h.finished hslot hawaited hmoved hresumedAt hnow hkept).wakeWaiter
    hmoved.standing fun waiter hwaits => by
      obtain ⟨hother, hdozes⟩ := hwaiter waiter hwaits
      exact hdozes.congr (hmoved.other hother)
  exact ⟨t, hsettle.trans hwake, ht⟩

theorem FaultFree.settle (h : s.FaultFree awaited) (hplaced : s.Placed id.index run sleep)
    (hlt : id.index < slotCount) (hcurrent : id.generation = (s.record id).generation)
    (hlive : id.index ∈ slots → (s.record id).isLive = true)
    (hawaited : ∀ slot ∈ slots, awaited' slot → awaited slot)
    (hwaiter : id.index ∈ slots → (s.record id).exiting = true → ∀ waiter,
      (s.record id).completion.waiter = some waiter →
        waiter.index ≠ id.index ∧ s.Dozes awaited' waiter) :
    ∃ t, s.settle id = .ok t ∧ t.Standing ∧ t.FaultFree awaited' := by
  by_cases hends : id.index ∈ slots ∧ (s.record id).exiting = true
  · obtain ⟨hslot, hexiting⟩ := hends
    exact h.settle_of_exiting hplaced hslot (hlive hslot) hexiting hawaited
      (hwaiter hslot hexiting)
  · exact h.settle_of_stays hplaced hlt hcurrent hlive hawaited fun hslot =>
      Bool.eq_false_iff.mpr fun hexiting => hends ⟨hslot, hexiting⟩

/-! ## Dispatching -/

theorem FaultFree.resumedNow (h : s.FaultFree awaited) : FaultFree
    { s with resumedAt := s.now } awaited :=
  ⟨h.tasks, fun slot => Nat.le_trans (h.busy slot) (Instant.le_iff.mp h.resumed),
    Instant.le_refl _, h.guarded, h.unshared⟩

theorem FaultFree.executing (h : s.FaultFree awaited)
    (haltered : Altered s id (fun t => { t with state := .running }) t)
    (hresumedAt : t.resumedAt = s.resumedAt) (hhardware : t.hardware = s.hardware)
    (hlive : id.index ∈ slots → (s.record id).isLive = true) : t.FaultFree awaited := by
  refine h.altered (.of_eq hresumedAt hhardware) haltered (fun _ => rfl) (fun _ => rfl) ?_
    fun _ _ _ hawaited => hawaited
  intro hslot
  exact (h.tasks id.index hslot).withState (hlive hslot) nofun

theorem FaultFree.dispatch (h : s.FaultFree awaited) (hs : s.Standing)
    (hmainline : (s.record .mainline).pointer ≠ 0) :
    ∃ t decision, s.dispatch = .ok (t, decision) ∧ t.FaultFree awaited := by
  obtain ⟨t, decision, hok⟩ := hs.dispatch_of_live (fun next hhead hid =>
    have hmem := List.mem_of_head? hhead
    (h.tasks next.index (mem_slots.mpr ⟨hid, hs.index_lt (List.mem_append_left _ hmem)⟩)).live
      (hs.occupied hmem hid)) hmainline
  have hresumedAt := hs.resumedAt_dispatch hok
  refine ⟨t, decision, hok, ?_⟩
  cases hs.dispatch hok with
  | resumed hhead hlive hmoved hhardware =>
      rw [if_neg (List.ne_nil_of_mem (List.mem_of_head? hhead))] at hresumedAt
      exact h.resumedNow.executing hmoved.altered hresumedAt hhardware fun hslot =>
        hlive.resolve_left (mem_slots.mp hslot).1
  | drained hempty _ _ hmoved hhardware =>
      rw [if_pos hempty] at hresumedAt
      exact h.executing hmoved.altered hresumedAt hhardware fun hslot =>
        absurd rfl (mem_slots.mp hslot).1
  | idle => exact h

/-! ## The whole switch -/

theorem FaultFree.reschedule (h : s.FaultFree awaited) (hs : s.Standing)
    (hrun : s.runQueue = id :: rest)
    (hlive : id.index ∈ slots → (s.record id).stack.holds pointer = true)
    (hmainline : (if id.index = 0 then pointer else (s.record .mainline).pointer) ≠ 0)
    (hawaited : ∀ slot ∈ slots, awaited' slot → awaited slot)
    (hwaiter : id.index ∈ slots → (s.record id).exiting = true → ∀ waiter,
      (s.record id).completion.waiter = some waiter →
        waiter.index ≠ id.index ∧ s.Dozes awaited' waiter) :
    ∃ t decision, s.reschedule pointer = .ok (t, decision) ∧ t.FaultFree awaited' := by
  obtain ⟨u, hsuspend, hsuspended⟩ := h.suspend hs hrun pointer
  have hself := hsuspended.self
  have hu := h.suspended hsuspended hlive
  have hlt := hsuspended.index_lt hs
  have hcurrent := hsuspended.current hs
  obtain ⟨v, hsettle, hv, hfree⟩ := hu.settle hsuspended.placed hlt hcurrent
    (fun hslot => by rw [hself]; exact hlive hslot) hawaited fun hslot hexiting waiter hwaits => by
      rw [hself] at hexiting hwaits
      obtain ⟨hne, hdozes⟩ := hwaiter hslot hexiting waiter hwaits
      exact ⟨hne, hdozes.congr ((hsuspended.record waiter.index).trans (if_neg hne))⟩
  obtain ⟨x, hrearm, hx, hfree⟩ := hfree.rearm hv
  have hpointer : (x.record .mainline).pointer ≠ 0 := by
    have hsettled := hsuspended.placed.settle hlt hcurrent hsettle
    obtain ⟨_, _, hrearmed⟩ := hv.rearm hrearm
    rw [hsettled.pointer_suspended hsuspended hrearmed]
    exact hmainline
  obtain ⟨t, decision, hdispatch, ht⟩ := hfree.dispatch hx hpointer
  exact ⟨t, decision, bind_eq_ok.mpr ⟨(u, id), hsuspend, bind_eq_ok.mpr ⟨v, hsettle,
    bind_eq_ok.mpr ⟨x, hrearm, hdispatch⟩⟩⟩, ht⟩

end CoopTasks.Scheduler
