import CoopTasks.Proofs.NoEarlyResume

/-!
What a wait leaves of the wakes that end it.

A task that is woken by its name in the middle of a wait is still the waiter of
the signal.  A post that comes before the turn of the task therefore wakes it a
second time, and the wait returns with a wake left over, which cancels the next
sleep: `leftover_wake`.  One wake can be left at most, and none if the task is
woken by its name only while it sleeps outside of a wait or join.
-/

namespace CoopTasks

open Scheduler

namespace World

variable {H : Type} [Hardware H] {w w' : World H} {event : Event} {log : List Event}
variable {id : TaskId} {slot : Nat}

def OnlyAsleep (id : TaskId) (w : World H) (event : Event) (_ : World H) : Prop :=
  event.wakes id = true → (w.scheduler.record id).state = .sleeping

/-- A task is woken by its name only while it sleeps, and not to end a wait or a join. -/
def OnlyNapping (id : TaskId) (w : World H) (event : Event) (_ : World H) : Prop :=
  event.wakes id = true → (w.scheduler.record id).state = .sleeping ∧ w.inside id.index = none

instance (id : TaskId) (w : World H) (event : Event) (w' : World H) :
    Decidable (OnlyAsleep id w event w') :=
  inferInstanceAs (Decidable (event.wakes id = true → (w.scheduler.record id).state = .sleeping))

instance (id : TaskId) (w : World H) (event : Event) (w' : World H) :
    Decidable (OnlyNapping id w event w') :=
  inferInstanceAs (Decidable (event.wakes id = true →
    (w.scheduler.record id).state = .sleeping ∧ w.inside id.index = none))

/-- The wakes of a task exceed its sleeps by one at most, and by none while it is awaited. -/
structure LeavesOne (w : World H) (slot : Nat) : Prop where
  count : -1 ≤ (w.record slot).sleepCount
  awaited : w.Awaited slot → 0 ≤ (w.record slot).sleepCount

structure LeavesNone (w : World H) (slot : Nat) : Prop where
  count : 0 ≤ (w.record slot).sleepCount
  awaited : w.Awaited slot → (w.record slot).sleepCount = 1 ∧
    (w.record slot).wakeAt = Instant.never

omit [Hardware H] in
theorem Orderly.count_executes (h : w.Orderly) (hexecutes : w.Executes slot)
    (hslot : slot ∈ slots) : (w.record slot).sleepCount ≤ 0 := by
  have hcaller := h.caller hexecutes.1 hexecutes.2
  have hcount := hcaller.count
  rwa [index_idOf _ (mem_slots.mp hslot).2] at hcount

theorem LeavesOne.fared (h : w.LeavesOne slot) (hw : w.WaitersHeard) (hw' : w'.WaitersHeard)
    (hfared : Fared w event w' slot) (hslot : slot ∈ slots)
    (hrule : event.wakes (w.scheduler.idOf slot) = true → (w.record slot).state = .sleeping) :
    w'.LeavesOne slot := by
  have hcount := h.count
  cases hfared with
  | kept hsame _ hawaited | tried _ hsame hawaited =>
      rw [← hsame.count] at hcount
      exact ⟨hcount, fun hq => hsame.count ▸ h.awaited (hawaited hq)⟩
  | slept _ _ _ hsame | parked _ hsame =>
      have hafter : (w'.record slot).sleepCount = (w.record slot).sleepCount + 1 := hsame.count
      exact ⟨by omega, fun _ => by omega⟩
  | roused hsame hinside hawaited hcause =>
      have hafter : (w'.record slot).sleepCount = (w.record slot).sleepCount - 1 := hsame.count
      cases hcause with
      | named hevent =>
          have hone := hw.orderly.count_of_sleeping hslot (hrule hevent)
          exact ⟨by omega, fun _ => by omega⟩
      | handedBack hbefore hnone =>
          have hpos := h.awaited hbefore
          exact ⟨by omega, fun hq => absurd hq hnone⟩
      | due hone _ _ => exact ⟨by omega, fun _ => by omega⟩
  | started _ hzero houtside =>
      exact ⟨by omega, fun hq => absurd hq (hw'.not_awaited houtside)⟩

theorem LeavesNone.fared (h : w.LeavesNone slot) (hw : w.WaitersHeard) (hw' : w'.WaitersHeard)
    (hfared : Fared w event w' slot) (hslot : slot ∈ slots)
    (hrule : event.wakes (w.scheduler.idOf slot) = true →
      (w.record slot).state = .sleeping ∧ w.inside slot = none) :
    w'.LeavesNone slot := by
  have hcount := h.count
  cases hfared with
  | kept hsame _ hawaited =>
      rw [← hsame.count] at hcount
      exact ⟨hcount, fun hq => hsame.count ▸ hsame.wakeAt ▸ h.awaited (hawaited hq)⟩
  | tried hexecutes hsame hawaited =>
      have hle := hw.orderly.count_executes hexecutes hslot
      refine ⟨hsame.count ▸ hcount, fun hq => ?_⟩
      have hone := (h.awaited (hawaited hq)).1
      omega
  | slept _ _ houtside hsame =>
      have hafter : (w'.record slot).sleepCount = (w.record slot).sleepCount + 1 := hsame.count
      exact ⟨by omega, fun hq => absurd hq (hw'.not_awaited houtside)⟩
  | parked hexecutes hsame =>
      have hafter : (w'.record slot).sleepCount = (w.record slot).sleepCount + 1 := hsame.count
      have hle := hw.orderly.count_executes hexecutes hslot
      exact ⟨by omega, fun _ => ⟨by omega, hsame.wakeAt⟩⟩
  | roused hsame hinside hawaited hcause =>
      have hafter : (w'.record slot).sleepCount = (w.record slot).sleepCount - 1 := hsame.count
      cases hcause with
      | named hevent =>
          obtain ⟨hasleep, houtside⟩ := hrule hevent
          have hone := hw.orderly.count_of_sleeping hslot hasleep
          exact ⟨by omega, fun hq => absurd (hawaited hq) (hw.not_awaited houtside)⟩
      | handedBack hbefore hnone =>
          have hone := (h.awaited hbefore).1
          exact ⟨by omega, fun hq => absurd hq hnone⟩
      | due hone htimed _ =>
          exact ⟨by omega, fun hq => absurd (h.awaited (hawaited hq)).2 htimed⟩
  | started _ hzero houtside =>
      exact ⟨by omega, fun hq => absurd hq (hw'.not_awaited houtside)⟩

/-! ## Runs -/

theorem Fared.same_run (h : Fared w event w' slot) :
    w'.scheduler.idOf slot = w.scheduler.idOf slot ∨
      (w'.record slot).sleepCount = 0 ∧ w'.inside slot = none := by
  cases h with
  | kept hsame _ _ | slept _ _ _ hsame | tried _ hsame _ | parked _ hsame | roused hsame _ _ _ =>
      exact .inl (idOf_eq hsame.generation)
  | started _ hzero houtside => exact .inr ⟨hzero, houtside⟩

theorem Along.of_run {rule : World H → Event → World H → Prop} {P : World H → Prop}
    {hardware : H} {signals : Nat} {memory : List Stack} {trampoline : UInt32}
    (h : Along rule (World.start hardware signals memory trampoline) log w)
    (hslot : id.index ∈ slots)
    (hnew : ∀ w, w.WaitersHeard → (w.record id.index).sleepCount = 0 →
      w.inside id.index = Option.none → P w)
    (hstep : ∀ w event w', w.WaitersHeard → w'.WaitersHeard → Fared w event w' id.index →
      w.scheduler.idOf id.index = id → rule w event w' → P w → P w')
    (hrun : w.scheduler.idOf id.index = id) : P w := by
  have hreached := Reached.start hardware signals memory trampoline
  induction h with
  | none =>
      refine hnew _ hreached.waitersHeard ?_ rfl
      exact congrArg TaskRecord.sleepCount (TaskTable.record_vacant id.index)
  | step hbefore hoccurs hrule ih =>
      have hw := (hbefore.reached hreached).waitersHeard
      have hw' := hw.step hoccurs.step
      have hfared := hw.fared hoccurs hslot
      rcases hfared.same_run with hsame | ⟨hzero, houtside⟩
      · exact hstep _ _ _ hw hw' hfared (hsame ▸ hrun) hrule (ih (hsame ▸ hrun))
      · exact hnew _ hw' hzero houtside

end World

namespace World

variable {H : Type} [PunctualHardware H]

/--
At most one wake is left over from the waits and joins of a task that is woken
by its name only while it sleeps, and none while a signal awaits it.  If these
wakes end no wait and no join, nothing is left over: whenever the task has the
processor its sleep count is zero, so that its next sleep lasts until the clock
shows the deadline or until a wake by its name.
-/
theorem no_leftover_of_napping (hardware : H) (signals : Nat) (memory : List Stack)
    (trampoline : UInt32) {id : TaskId} (hslot : id.index ∈ slots) :
    (∀ log w, Along (OnlyAsleep id) (World.start hardware signals memory trampoline) log w →
      w.scheduler.idOf id.index = id →
      -1 ≤ (w.scheduler.record id).sleepCount ∧
        (w.Awaited id.index → 0 ≤ (w.scheduler.record id).sleepCount)) ∧
    ∀ log w, Along (OnlyNapping id) (World.start hardware signals memory trampoline) log w →
      w.scheduler.idOf id.index = id →
      0 ≤ (w.scheduler.record id).sleepCount ∧
      (w.control = .executing → w.scheduler.current = some id →
        (w.scheduler.record id).sleepCount = 0 ∧
        ∀ deadline u events w', Occurs w (.call (.sleepUntil deadline)) u →
          Along (Spares id deadline) u events w' → events.any Event.switches = true →
          (w'.scheduler.record id).state = .sleeping ∧ id ∈ w'.scheduler.sleepers ∧
            id ∉ w'.scheduler.runQueue ∧ w'.scheduler.current ≠ some id) := by
  constructor
  · intro log w hlog hrun
    have hleft : w.LeavesOne id.index := hlog.of_run (P := (LeavesOne · id.index)) hslot
      (fun w hw hzero houtside => ⟨by omega, fun _ => by omega⟩)
      (fun w event w' hw hw' hfared hid hrule h =>
        h.fared hw hw' hfared hslot (by rwa [hid])) hrun
    exact ⟨hleft.count, hleft.awaited⟩
  · intro log w hlog hrun
    have hleft : w.LeavesNone id.index := hlog.of_run (P := (LeavesNone · id.index)) hslot
      (fun w hw hzero houtside =>
        ⟨by omega, fun hq => absurd hq (hw.not_awaited houtside)⟩)
      (fun w event w' hw hw' hfared hid hrule h =>
        h.fared hw hw' hfared hslot (by rwa [hid])) hrun
    refine ⟨hleft.count, fun hexec hcurrent => ?_⟩
    have hreached := hlog.reached (.start hardware signals memory trampoline)
    have hzero : (w.scheduler.record id).sleepCount = 0 := by
      have hle := (hreached.waitersHeard.orderly.caller hexec hcurrent).count
      exact Int.le_antisymm hle hleft.count
    refine ⟨hzero, fun deadline u events w' hcall hevents hswitched => ?_⟩
    exact (hreached.slumbers hcurrent hzero hcall hevents).2 hswitched

/-! ### A wait that ends twice -/

def oneTask : World PromptBoard :=
  World.start (PromptBoard.start Instant.zero) 1 [Stack.blank (Board.pageBottom 0) 64] 0

def napAndWait : List Event :=
  [.call (.start 0 0 0), .reschedule Board.mainlinePointer,
    .call (.sleepUntil Instant.never), .reschedule (Board.pageBottom 0 + 200),
    .wake ⟨1, 1⟩, .dispatch,
    .call (.wait 0), .reschedule (Board.pageBottom 0 + 200),
    .post 0, .dispatch, .call (.wait 0)]

theorem no_leftover_of_napping_napAndWait :
    ∃ w u w' : World PromptBoard, (⟨1, 1⟩ : TaskId).index ∈ slots ∧
      Along (OnlyAsleep ⟨1, 1⟩) oneTask napAndWait w ∧
      Along (OnlyNapping ⟨1, 1⟩) oneTask napAndWait w ∧
      w.scheduler.current = some ⟨1, 1⟩ ∧ -1 ≤ (w.scheduler.record ⟨1, 1⟩).sleepCount ∧
      (w.scheduler.record ⟨1, 1⟩).sleepCount = 0 ∧ Occurs w (.call (.sleepUntil ⟨100⟩)) u ∧
      Along (Spares ⟨1, 1⟩ ⟨100⟩) u [.reschedule (Board.pageBottom 0 + 200), .post 0] w' ∧
      (w'.scheduler.record ⟨1, 1⟩).state = .sleeping := by
  obtain ⟨w, hw⟩ := Option.isSome_iff_exists.mp (show (oneTask.follow
    (fun w event => decide (OnlyNapping ⟨1, 1⟩ w event w)) napAndWait).isSome = true by
      decide +kernel)
  have hlast : (oneTask.follow (fun w event => decide (OnlyNapping ⟨1, 1⟩ w event w))
      napAndWait).map (fun w => (w.control, w.scheduler.current, w.scheduler.idOf 1)) =
        some (.executing, some ⟨1, 1⟩, ⟨1, 1⟩) := by decide +kernel
  have hsleep : ((oneTask.follow (fun w event => decide (OnlyNapping ⟨1, 1⟩ w event w))
      napAndWait).bind fun w => (w.occur (.call (.sleepUntil ⟨100⟩))).bind fun u =>
        u.follow (sparing ⟨1, 1⟩ ⟨100⟩)
          [.reschedule (Board.pageBottom 0 + 200), .post 0]).isSome = true := by decide +kernel
  rw [hw, Option.map_some, Option.some.injEq, Prod.mk.injEq, Prod.mk.injEq] at hlast
  rw [hw, Option.bind_some] at hsleep
  obtain ⟨hexec, hcurrent, hrun⟩ := hlast
  obtain ⟨w', hsleep⟩ := Option.isSome_iff_exists.mp hsleep
  obtain ⟨u, hu, hfollow⟩ := Option.bind_eq_some_iff.mp hsleep
  have hnapping : Along (OnlyNapping ⟨1, 1⟩) oneTask napAndWait w :=
    .of_follow (fun _ _ _ hchecked _ => of_decide_eq_true hchecked) hw
  have hasleep : Along (OnlyAsleep ⟨1, 1⟩) oneTask napAndWait w :=
    hnapping.mono fun _ _ _ hrule hevent => (hrule hevent).1
  have hevents : Along (Spares ⟨1, 1⟩ ⟨100⟩) u _ w' :=
    .of_follow (fun _ _ _ hchecked _ => spares_of_sparing hchecked) hfollow
  have hslot : (⟨1, 1⟩ : TaskId).index ∈ slots := by decide
  obtain ⟨hone, hnone⟩ := no_leftover_of_napping (PromptBoard.start Instant.zero) 1
    [Stack.blank (Board.pageBottom 0) 64] 0 hslot
  obtain ⟨hleast, _⟩ := hone _ _ hasleep hrun
  obtain ⟨_, hcaller⟩ := hnone _ _ hnapping hrun
  obtain ⟨hzero, hnext⟩ := hcaller hexec hcurrent
  obtain ⟨hstate, _⟩ := hnext _ _ _ _ (.of_occur hu) hevents (by decide)
  exact ⟨w, u, w', hslot, hasleep, hnapping, hcurrent, hleast, hzero, .of_occur hu, hevents,
    hstate⟩

def wokenWait : List Event :=
  [.call (.start 0 0 0), .reschedule Board.mainlinePointer,
    .call (.wait 0), .reschedule (Board.pageBottom 0 + 200),
    .wake ⟨1, 1⟩, .post 0, .dispatch, .call (.wait 0)]

/--
The wake comes while the task sleeps, and the wait is over; still the task does
not sleep until its deadline, which is to come, but goes on at once.
-/
theorem leftover_wake :
    ∃ (w u : World PromptBoard) (t : Scheduler PromptBoard) (decision : Decision),
      Along (OnlyAsleep ⟨1, 1⟩) oneTask wokenWait w ∧ w.control = .executing ∧
      w.scheduler.current = some ⟨1, 1⟩ ∧ w.inside 1 = none ∧
      (w.scheduler.record ⟨1, 1⟩).sleepCount = -1 ∧
      Occurs w (.call (.sleepUntil ⟨100⟩)) u ∧
      u.scheduler.reschedule (Board.pageBottom 0 + 200) = .ok (t, decision) ∧
      t.current = some ⟨1, 1⟩ ∧ t.now = Instant.zero := by
  obtain ⟨w, hw⟩ := Option.isSome_iff_exists.mp (show (oneTask.follow
    (fun w event => decide (OnlyAsleep ⟨1, 1⟩ w event w)) wokenWait).isSome = true by
      decide +kernel)
  have hlast : (oneTask.follow (fun w event => decide (OnlyAsleep ⟨1, 1⟩ w event w))
      wokenWait).map (fun w => (w.control, w.scheduler.current, w.inside 1,
        (w.scheduler.record ⟨1, 1⟩).sleepCount)) =
          some (.executing, some ⟨1, 1⟩, none, -1) := by decide +kernel
  have hnext : ((oneTask.follow (fun w event => decide (OnlyAsleep ⟨1, 1⟩ w event w))
      wokenWait).bind fun w => (w.occur (.call (.sleepUntil ⟨100⟩))).bind fun u =>
        (u.scheduler.reschedule (Board.pageBottom 0 + 200)).toOption.map fun r =>
          (r.1.current, r.1.now)) = some (some ⟨1, 1⟩, Instant.zero) := by decide +kernel
  rw [hw, Option.map_some, Option.some.injEq, Prod.mk.injEq, Prod.mk.injEq, Prod.mk.injEq] at hlast
  rw [hw, Option.bind_some] at hnext
  obtain ⟨hexec, hcurrent, houtside, hcount⟩ := hlast
  obtain ⟨u, hu, hswitch⟩ := Option.bind_eq_some_iff.mp hnext
  obtain ⟨⟨t, decision⟩, hok, hafter⟩ := Option.map_eq_some_iff.mp hswitch
  rw [toOption_eq_some] at hok
  obtain ⟨hresumed, hnow⟩ := Prod.mk.inj hafter
  have hasleep : Along (OnlyAsleep ⟨1, 1⟩) oneTask wokenWait w :=
    .of_follow (fun _ _ _ hchecked _ => of_decide_eq_true hchecked) hw
  exact ⟨w, u, t, decision, hasleep, hexec, hcurrent, houtside, hcount, .of_occur hu, hok,
    hresumed, hnow⟩

end World

end CoopTasks
