import CoopTasks.Proofs.SafeCalls
import CoopTasks.Proofs.BehavedPrograms
import CoopTasks.Proofs.Events
import CoopTasks.Proofs.Joining

/-!
Programs that behave never fail.

`World.Composed` is the invariant of the steps of those who behave.  It joins
what holds of every world (`World.OnlyTasksQueued`) with what only good conduct gives: the
tasks can be woken and switched to (`Scheduler.FaultFree`), there is a slot for
every stack (`Scheduler.Housed`), and whoever repeats a call may still make it.
-/

namespace CoopTasks

open Scheduler

/-! ## What a switch leaves behind -/

namespace Scheduler

variable {H : Type} {s t : Scheduler H} {id : TaskId} {arena : List StackRange}

theorem Attempted.pointer {w w' : Signal} {result : WaitResult} (h : Attempted s w t w' result)
    (slot : Nat) : (t.tasks.record slot).pointer = (s.tasks.record slot).pointer := by
  cases h with
  | acquired _ | busy _ _ _ _ _ => rfl
  | parked _ _ _ _ _ hmoved _ => exact hmoved.field TaskRecord.pointer (fun _ => rfl) slot

variable [Hardware H]

theorem Switched.completion {pointer : Address} {decision : Decision} {rest woken : List TaskId}
    {u v w : Scheduler H} (h : Switched s pointer t decision id rest woken u v w) (slot : Nat) :
    (t.tasks.record slot).completion =
      if slot = id.index ∧ id.index ≠ 0 ∧ (s.record id).exiting = true then
        (s.record id).completion.latch.1
      else (s.tasks.record slot).completion := by
  have hself : u.record id = s.suspendedRecord pointer (s.record id) := h.suspended.self
  have hsuspended : (u.tasks.record slot).completion = (s.tasks.record slot).completion := by
    rw [h.suspended.record slot]
    split <;> rfl
  rw [h.dispatched.field TaskRecord.completion (fun _ _ => rfl), h.rearmed.wakes.completion]
  cases h.settled with
  | parked hid hmoved _ =>
      rw [if_neg fun he => he.2.1 hid, ← hsuspended]
      exact hmoved.field TaskRecord.completion (fun _ => rfl) slot
  | @finished x _ hid _ hexiting _ hmoved _ hwake =>
      obtain ⟨ids, hwakes⟩ := hmoved.standing.wakes_of_wakeWaiter hwake
      rw [hself] at hexiting
      rw [hwakes.completion]
      by_cases hslot : slot = id.index
      · subst hslot
        rw [if_pos ⟨rfl, hid, hexiting⟩, show x.tasks.record id.index = _ from hmoved.self, hself]
        rfl
      · rw [if_neg fun he => hslot he.1, hmoved.other hslot, hsuspended]
  | asleep _ _ hexiting _ hmoved _ | requeued _ _ hexiting _ hmoved _ =>
      have hstays : (s.record id).exiting = false := by
        rw [hself] at hexiting
        exact hexiting
      rw [if_neg (by simp [hstays]), ← hsuspended]
      exact hmoved.field TaskRecord.completion (fun _ => rfl) slot

theorem Passage.stack (h : Passage arena s t) {slot : Nat} (hslot : slot ∈ slots)
    (hoccupied : s.Occupied slot) : (t.tasks.record slot).stack = (s.tasks.record slot).stack := by
  rcases h.bound with ⟨hbound, _⟩ | ⟨_, _, _, id, _, _, hstarted⟩
  · exact (hbound slot hslot).1
  · rw [hstarted.record_other hslot]
    rintro rfl
    exact hoccupied.not_gone hstarted.gone

theorem Passage.started_mem (h : Passage arena s t) {stack : StackRange}
    (hstarted : .started id stack ∈ s.chronicle) : .started id stack ∈ t.chronicle := by
  rcases h.bound with ⟨_, hsame⟩ | ⟨_, _, _, _, hchronicle, _⟩
  · exact (hsame id stack).mpr hstarted
  · rw [hchronicle]
    exact List.mem_cons_of_mem _ hstarted

theorem Passage.current_none (h : Passage arena s t) (ht : t.Standing) (hrun : s.runQueue = [])
    (hgone : ∀ slot ∈ slots, ¬s.Occupied slot) : t.current = none := by
  cases hcurrent : t.current with
  | none => rfl
  | some id =>
      have hoccupied := ht.occupied_current hcurrent
      obtain ⟨hhead, hne, hlt⟩ := ht.current hcurrent
      have hslot := Scheduler.mem_slots.mpr ⟨hne, hlt⟩
      cases h with
      | lasted _ hlasts => exact absurd ((hlasts.occupied hslot).mp hoccupied) (hgone _ hslot)
      | @began hardware _ _ _ _ _ hstarted =>
          have hadmitted : admitted { s with hardware } = [.mainline] := if_pos hrun
          rw [hstarted.runQueue, hadmitted] at hhead
          exact absurd (Option.some.inj hhead ▸ rfl) hne
      | ended _ hmem _ hbefore _ _ => exact absurd hbefore (hgone _ hmem)

end Scheduler

namespace Kernel

open Scheduler

variable {H : Type} [Hardware H] {k k' : Kernel H} {call : Call} {control : Control}
  {retries : Bool}

theorem Called.pointer_mainline (h : Called k call k' control retries)
    (hs : k.scheduler.Standing) :
    (k'.scheduler.record .mainline).pointer = (k.scheduler.record .mainline).pointer := by
  cases h with
  | quiet _ _ hscheduler _ _ => rw [hscheduler]
  | started _ hstarted _ _ =>
      rw [hstarted.mainline]
      split <;> rfl
  | exiting _ _ hmoved | asleep _ _ hmoved | tried _ hmoved =>
      exact hmoved.field TaskRecord.pointer (fun _ => rfl) 0
  | waited _ hattempted => exact hattempted.pointer 0
  | joined _ _ hattempted hmoved =>
      exact (hmoved.field TaskRecord.pointer (fun _ => rfl) 0).trans (hattempted.pointer 0)
  | woken hok =>
      obtain ⟨scheduler, hwake, rfl⟩ := ok_wake hok
      obtain ⟨ids, hwakes⟩ := hs.wakes_of_wake hwake
      exact congrArg TaskRecord.pointer hwakes.record_mainline
  | posted hok =>
      obtain ⟨signal, scheduler, _, hwake, rfl⟩ := ok_post hok
      obtain ⟨ids, hwakes⟩ := hs.wakes_of_wakeWaiter hwake
      exact congrArg TaskRecord.pointer hwakes.record_mainline
  | took _ => rfl

theorem Called.length_signals (h : Called k call k' control retries) :
    k'.signals.length = k.signals.length := by
  cases h with
  | quiet _ _ _ hsignals _ | started _ _ hsignals _ => rw [hsignals]
  | exiting _ _ _ | asleep _ _ _ | joined _ _ _ _ | tried _ _ => rfl
  | waited _ _ | took _ => exact List.length_set
  | woken hok =>
      obtain ⟨scheduler, _, rfl⟩ := ok_wake hok
      rfl
  | posted hok =>
      obtain ⟨signal, scheduler, _, _, rfl⟩ := ok_post hok
      exact List.length_set

end Kernel

namespace World

variable {H : Type} {w w' : World H} {arena : List StackRange}

/-! ## Where the mainline goes on -/

def Saved (w : World H) : Prop :=
  (w.scheduler.record .mainline).pointer = 0 →
    w.control ≠ .idle ∧ w.scheduler.current = none

theorem Saved.suspended (h : w.Saved) (hs : w.scheduler.Standing) {pointer : Address}
    {id : TaskId} {rest : List TaskId} (hpointer : w.Suspendable pointer)
    (hrun : w.scheduler.runQueue = id :: rest) :
    (if id.index = 0 then pointer else (w.scheduler.record .mainline).pointer) ≠ 0 := by
  have hhead : w.scheduler.runQueue.head? = some id := by rw [hrun, List.head?_cons]
  by_cases hid : id.index = 0
  · rw [if_pos hid]
    apply hpointer.mainline
    cases hcurrent : w.scheduler.current with
    | none => rfl
    | some other =>
        obtain ⟨hother, hne, _⟩ := hs.current hcurrent
        obtain rfl := Option.some.inj (hhead.symm.trans hother)
        exact absurd hid hne
  · rw [if_neg hid]
    intro hzero
    have hcurrent := hs.current_eq_some_iff.mpr ⟨hhead, hid⟩
    rw [(h hzero).2] at hcurrent
    contradiction

theorem Saved.occurs [Hardware H] {event : Event} (h : w.Saved) (hqueued : w.OnlyTasksQueued arena)
    (hbottoms : ∀ range ∈ arena, range.bottom ≠ 0) (hoccurs : Occurs w event w')
    (hpassage : Passage arena w.scheduler w'.scheduler)
    (hpointer : ∀ pointer, event = .reschedule pointer → w.Suspendable pointer) : w'.Saved := by
  intro hzero
  have hs := hqueued.waitersHeard.orderly.standing
  have hs' := (hqueued.waitersHeard.step hoccurs.step).orderly.standing
  have alone (hbefore : (w.scheduler.record .mainline).pointer = 0)
      (hexec : w.control = .executing) : w'.scheduler.current = none := by
    have hdrained := hqueued.drained hbottoms hexec (h hbefore).2
    exact hpassage.current_none hs' hdrained.runQueue
      (hqueued.gone hdrained.runQueue hdrained.sleepers)
  have interrupted {ids : List TaskId} (hwakes : Wakes w.scheduler ids w'.scheduler)
      (hcontrol : w'.control = w.control) :
      w'.control ≠ .idle ∧ w'.scheduler.current = none := by
    rw [hwakes.record_mainline] at hzero
    obtain ⟨hidle, hcurrent⟩ := h hzero
    refine ⟨hcontrol ▸ hidle, ?_⟩
    cases hwhere : w.control with
    | executing => exact alone hzero hwhere
    | leaving =>
        obtain ⟨first, rest, hrun⟩ := List.exists_cons_of_ne_nil (hqueued.leaving hwhere)
        obtain ⟨later, hlater⟩ := hwakes.extended.runQueue
        rw [hs.current_congr hs' (by rw [hlater, hrun]; rfl), hcurrent]
    | idle => exact absurd hwhere hidle
  cases hoccurs with
  | call hexec _ hok =>
      have hbefore := ((Kernel.called_of_attempt hs hok).pointer_mainline hs).symm.trans hzero
      exact ⟨Progress.control_ne_idle _, alone hbefore hexec⟩
  | wake hok =>
      obtain ⟨_, hwake, rfl⟩ := Kernel.ok_wake hok
      obtain ⟨ids, hwakes⟩ := hs.wakes_of_wake hwake
      exact interrupted hwakes rfl
  | post hok =>
      obtain ⟨_, _, _, hwake, rfl⟩ := Kernel.ok_post hok
      obtain ⟨ids, hwakes⟩ := hs.wakes_of_wakeWaiter hwake
      exact interrupted hwakes rfl
  | alarm hok =>
      obtain ⟨ids, hwakes⟩ := hs.wakes_of_handleAlarm hok
      exact interrupted hwakes rfl
  | @elapse hardware =>
      exact interrupted (.nil (alarmMoved w.scheduler hardware w.scheduler.armed)) rfl
  | reschedule _ hok =>
      obtain ⟨id, rest, woken, u, v, x, hswitched⟩ := hs.reschedule hok
      have hsaved := h.suspended hs (hpointer _ rfl) hswitched.suspended.runQueue
      exact absurd (hswitched.pointer_mainline.symm.trans hzero) hsaved
  | dispatch hidle hok =>
      have hsame := (hs.dispatch hok).field TaskRecord.pointer (fun _ _ => rfl) 0
      exact absurd hidle (h (hsame.symm.trans hzero)).1

/-! ## The invariant -/

/-- What a task that is inside of a call relies on, with the stack that it is on. -/
def Sensible (w : World H) (own : StackRange) : Blocking → Prop
  | .wait number => number < w.kernel.signals.length
  | .join number => w.HasRun number ∧ own ≠ w.kernel.rangeAt number

structure Composed [SteadyHardware H] (arena : List StackRange) (w : World H) : Prop where
  onlyTasksQueued : w.OnlyTasksQueued arena
  faultFree : w.scheduler.FaultFree w.Awaited
  housed : w.scheduler.Housed arena
  /-- The mainline has been saved as soon as anybody else has executed. -/
  saved : (w.scheduler.record .mainline).pointer = 0 →
    w.control ≠ .idle ∧ w.scheduler.current = none
  inside : ∀ slot ∈ slots, ∀ blocking, w.inside slot = some blocking →
    w.Sensible (w.record slot).stack blocking

variable [SteadyHardware H]

theorem composed_start (hardware : H) (signals : Nat) (memory : List Stack)
    (trampoline : UInt32) :
    (World.start hardware signals memory trampoline).Composed arena := by
  have hqueued : (World.start hardware signals memory trampoline).OnlyTasksQueued arena :=
    onlyTasksQueued_start hardware signals memory trampoline
  refine ⟨hqueued, ?faultFree, housed_new hardware, ?saved, fun _ _ _ => nofun⟩
  case faultFree =>
    apply (faultFree_new hardware).mono
    intro slot _ hawaited
    obtain ⟨p, hp⟩ := hawaited
    obtain ⟨blocking, hinside, _⟩ := hqueued.waitersHeard.heard.inside_of_awaited hp
    contradiction
  case saved =>
    have hmainline : (new hardware).current = none := by
      unfold current
      rw [(placed_new hardware).ready_head]
      rfl
    exact fun _ => ⟨nofun, hmainline⟩

theorem Composed.waitersHeard (h : w.Composed arena) : w.WaitersHeard :=
  h.onlyTasksQueued.waitersHeard

/-- Who is inside of a call has been permitted to make it, and may go on. -/
theorem Composed.permits (h : w.Composed arena) {call : Call} (hrepeats : w.Repeats call) :
    w.Permits arena call := by
  obtain ⟨id, blocking, hcurrent, hinside, hblocking⟩ := hrepeats
  obtain ⟨_, hne, hlt⟩ := h.waitersHeard.orderly.standing.current hcurrent
  have hsensible := h.inside id.index (mem_slots.mpr ⟨hne, hlt⟩) blocking hinside
  cases call with
  | wait number =>
      obtain rfl := Option.some.inj hblocking
      refine ⟨_, List.getElem?_eq_getElem hsensible, fun hnone => ?_⟩
      rw [hcurrent] at hnone
      contradiction
  | join number =>
      obtain rfl := Option.some.inj hblocking
      refine ⟨hsensible.1, fun other hother => ?_⟩
      obtain rfl := Option.some.inj (hcurrent.symm.trans hother)
      exact hsensible.2
  | _ => contradiction

omit [SteadyHardware H] in
theorem Permits.sensible {call : Call} {blocking : Blocking} {id : TaskId}
    (h : w.Permits arena call) (hblocking : call.blocking = some blocking)
    (hcurrent : w.scheduler.current = some id) :
    w.Sensible (w.scheduler.record id).stack blocking := by
  cases call with
  | wait number =>
      obtain rfl := Option.some.inj hblocking
      obtain ⟨signal, hsignal, _⟩ := h
      exact (List.getElem?_eq_some_iff.mp hsignal).1
  | join number =>
      obtain rfl := Option.some.inj hblocking
      exact ⟨h.1, h.2 id hcurrent⟩
  | _ => contradiction

/-! ## Attempts -/

theorem Composed.waitable (h : w.Composed arena) (hexec : w.control = .executing)
    {signal : Signal} (htask : w.scheduler.current = none → signal.tryTake.2 = true) :
    ∃ t signal' result, w.scheduler.attemptWait signal = .ok (t, signal', result) := by
  rcases htake : signal.tryTake with ⟨left, taken⟩
  cases taken with
  | true =>
      refine ⟨w.scheduler, left, .acquired, ?_⟩
      unfold attemptWait
      rw [htake]
      rfl
  | false =>
      rw [htake] at htask
      obtain ⟨id, hcurrent⟩ := Option.ne_none_iff_exists'.mp fun hnone => nomatch htask hnone
      obtain ⟨_, _, rfl⟩ := Signal.tryTake_eq_false.mp htake
      obtain ⟨t, signal', result, hwait, _⟩ :=
        (h.waitersHeard.orderly.caller hexec hcurrent).retries hcurrent htake
      exact ⟨t, signal', result, hwait⟩

theorem Composed.join (h : w.Composed arena) (husable : ∀ range ∈ arena, range.Usable)
    (hexec : w.control = .executing) {number : Nat} {target : TaskId}
    (htask : w.kernel.taskOn number = some target)
    (hself : w.scheduler.current ≠ some target) :
    ∃ kernel progress, w.kernel.attempt (.join number) = .ok (kernel, progress) := by
  have htaken : w.scheduler.current = none →
      (w.scheduler.record target).completion.tryTake.2 = true := by
    intro hmainline
    obtain ⟨hslot, _, hvacant, _⟩ := taskOn_spec htask
    have hdrained :=
      h.onlyTasksQueued.drained (fun range hrange => (husable range hrange).bottom) hexec hmainline
    have hexited := (hdrained.gone target.index hslot).resolve_left hvacant
    rw [h.onlyTasksQueued.lived.taken hslot hexited]
  obtain ⟨t, signal', result, hwait⟩ := h.waitable hexec htaken
  obtain ⟨kernel, hok⟩ := attempt_join htask hself hwait
  exact ⟨kernel, _, hok⟩

theorem Composed.attempt (h : w.Composed arena) (hcount : arena.length < slotCount)
    (husable : ∀ range ∈ arena, range.Usable) (hexec : w.control = .executing) {call : Call}
    (hpermits : w.Permits arena call) :
    ∃ kernel progress, w.kernel.attempt call = .ok (kernel, progress) := by
  have hs := h.waitersHeard.orderly.standing
  have required {number : Nat} (hlt : number < w.kernel.signals.length) :
      ∃ signal, w.kernel.requireSignal number = .ok signal :=
    ⟨_, demand_eq_ok.mpr (List.getElem?_eq_getElem hlt)⟩
  cases call with
  | start entry param number =>
      exact Kernel.started h.faultFree hs h.housed hcount hpermits (husable _ hpermits) entry param
  | exit code =>
      obtain ⟨id, hcurrent⟩ := Option.ne_none_iff_exists'.mp hpermits
      have hmark : w.scheduler.markExiting code = .ok _ :=
        bind_eq_ok.mpr ⟨id, demand_eq_ok.mpr hcurrent, rfl⟩
      exact ⟨_, _, bind_eq_ok.mpr ⟨_, hmark, rfl⟩⟩
  | sleepUntil deadline =>
      obtain ⟨id, hcurrent⟩ := Option.ne_none_iff_exists'.mp hpermits
      have hlimit : (w.scheduler.record id).sleepCount < sleepCountMax := by
        rw [(h.waitersHeard.caller_awake h.faultFree hexec hcurrent).1]
        decide
      have hmark : w.scheduler.markAsleep deadline = .ok _ :=
        bind_eq_ok.mpr ⟨id, demand_eq_ok.mpr hcurrent,
          bind_eq_ok.mpr ⟨(), require_eq_ok.mpr hlimit, rfl⟩⟩
      exact ⟨_, _, bind_eq_ok.mpr ⟨_, hmark, rfl⟩⟩
  | wait number =>
      obtain ⟨signal, hsignal, htask⟩ := hpermits
      have hrequired : w.kernel.requireSignal number = .ok signal := demand_eq_ok.mpr hsignal
      obtain ⟨t, signal', result, hwait⟩ := h.waitable hexec htask
      exact ⟨_, _, bind_eq_ok.mpr ⟨signal, hrequired, bind_eq_ok.mpr ⟨_, hwait, rfl⟩⟩⟩
  | join number =>
      obtain ⟨⟨id, hrun⟩, hother⟩ := hpermits
      obtain ⟨target, htask⟩ := h.housed.taskOn hrun
      exact h.join husable hexec htask fun hself => hother target hself (taskOn_spec htask).2.2.2
  | wake id => exact hpermits.elim
  | post number =>
      obtain ⟨kernel, hok, _⟩ := h.waitersHeard.posted h.faultFree hpermits
      exact ⟨kernel, _, bind_eq_ok.mpr ⟨kernel, hok, rfl⟩⟩
  | tryTake number =>
      obtain ⟨signal, hrequired⟩ := required hpermits
      exact ⟨_, _, bind_eq_ok.mpr ⟨_, bind_eq_ok.mpr ⟨signal, hrequired, rfl⟩, rfl⟩⟩
  | tryJoin number =>
      obtain ⟨⟨id, hrun⟩, _⟩ := hpermits
      obtain ⟨target, htask⟩ := h.housed.taskOn hrun
      rcases htake : (w.scheduler.record target).completion.tryTake with ⟨completion, taken⟩
      obtain ⟨kernel, hok⟩ := attempt_tryJoin htask htake
      exact ⟨kernel, _, hok⟩
  | signalState number =>
      obtain ⟨signal, hrequired⟩ := required hpermits
      exact ⟨_, _, bind_eq_ok.mpr ⟨signal, hrequired, rfl⟩⟩
  | giveWay | taskOn _ | current | now | headroom _ | overwrite _ _ _ => exact ⟨_, _, rfl⟩

/-! ## Switches -/

theorem awaited_of_switched {pointer : Address} {decision : Decision} {id : TaskId}
    {rest woken : List TaskId} {t u v x : Scheduler H} {slot : Nat}
    (hswitched : Switched w.scheduler pointer t decision id rest woken u v x)
    (h : Awaited (w.withScheduler t) slot) :
    w.Awaited slot ∧ (id.index ∈ slots → (w.scheduler.record id).exiting = true →
      w.AwaitedElsewhere (.completion id.index) slot) := by
  obtain ⟨q, signal, waiter, hsignal, hwaiter, rfl⟩ := h
  have hcompletion := hswitched.completion
  by_cases hended : q = .completion id.index ∧ id.index ≠ 0 ∧
      (w.scheduler.record id).exiting = true
  · obtain ⟨rfl, hends⟩ := hended
    have hself : ((w.withScheduler t).record id.index).completion =
        (w.scheduler.record id).completion.latch.1 :=
      (hcompletion id.index).trans (if_pos ⟨rfl, hends⟩)
    simp only [signalAt, hself, Option.ite_none_right_eq_some, Option.some.injEq] at hsignal
    obtain ⟨_, rfl⟩ := hsignal
    contradiction
  · have hsame : w.signalAt q = some signal := by
      cases q with
      | signal number => exact hsignal
      | completion other =>
          have hkept : ((w.withScheduler t).record other).completion =
              (w.record other).completion := by
            refine (hcompletion other).trans (if_neg ?_)
            rintro ⟨rfl, hends⟩
            exact hended ⟨rfl, hends⟩
          rw [← hsignal]
          simp only [signalAt, hkept]
    refine ⟨⟨q, signal, waiter, hsame, hwaiter, rfl⟩, fun hslot hexiting => ?_⟩
    refine ⟨q, fun hq => hended ⟨hq, ?_, hexiting⟩, signal, waiter, hsame, hwaiter, rfl⟩
    exact (Scheduler.mem_slots.mp hslot).1

theorem Composed.reschedule (h : w.Composed arena) (hleaving : w.control = .leaving)
    {pointer : Address} (hpointer : w.Suspendable pointer) {awaited : Nat → Prop}
    (hawaited : ∀ slot, awaited slot → w.Awaited slot)
    (hends : ∀ id, w.scheduler.runQueue.head? = some id → id.index ∈ slots →
      (w.scheduler.record id).exiting = true → ∀ slot, awaited slot →
        w.AwaitedElsewhere (.completion id.index) slot) :
    ∃ t decision, w.scheduler.reschedule pointer = .ok (t, decision) ∧ t.FaultFree awaited := by
  have ho := h.waitersHeard.orderly
  have hs := ho.standing
  obtain ⟨id, rest, hrun⟩ := List.exists_cons_of_ne_nil (h.onlyTasksQueued.leaving hleaving)
  have hhead : w.scheduler.runQueue.head? = some id := by rw [hrun, List.head?_cons]
  refine h.faultFree.reschedule hs hrun ?live (Saved.suspended h.saved hs hpointer hrun)
    (fun slot _ => hawaited slot) ?waiter
  case live =>
    intro hslot
    have hne := (Scheduler.mem_slots.mp hslot).1
    exact hpointer.task id (hs.current_eq_some_iff.mpr ⟨hhead, hne⟩)
  case waiter =>
    intro hslot hexiting waiter hwaits
    have hsignal : w.signalAt (.completion id.index) =
        some (w.scheduler.record id).completion := if_pos hslot
    refine ⟨?_, h.waitersHeard.dozes h.faultFree hsignal hwaits (hends id hhead hslot hexiting)⟩
    -- an exiting task is inside of no call, so it does not wait for itself
    intro he
    obtain ⟨_, _, blocking, hin, _⟩ := h.waitersHeard.heard.recorded _ _ waiter hsignal hwaits
    have houtside := ((ho.fits id.index hslot).exiting hexiting).1
    rw [← he, hin.inside] at houtside
    contradiction

theorem Composed.dispatch (h : w.Composed arena) (hidle : w.control = .idle) :
    ∃ t decision, w.scheduler.dispatch = .ok (t, decision) ∧ t.FaultFree w.Awaited :=
  h.faultFree.dispatch h.waitersHeard.orderly.standing fun hzero => (h.saved hzero).1 hidle

/-! ## Steps -/

omit [SteadyHardware H] in
theorem Behaves.occurs [GuardingHardware H] (h : Behaves arena w w') :
    ∃ event, Occurs w event w' ∧
      ∀ pointer, event = .reschedule pointer → w.Suspendable pointer := by
  cases h with
  | call hexec hmay _ hok => exact ⟨_, .call hexec hmay hok, nofun⟩
  | post hok => exact ⟨_, .post hok, nofun⟩
  | alarm hok => exact ⟨_, .alarm hok, nofun⟩
  | elapse _ => exact ⟨_, .elapse, nofun⟩
  | reschedule hleaving hpointer hok =>
      refine ⟨_, .reschedule hleaving hok, fun pointer he => ?_⟩
      obtain rfl := Event.reschedule.inj he
      exact hpointer
  | dispatch hidle hok => exact ⟨_, .dispatch hidle hok, nofun⟩

theorem Composed.faultFree_step (h : w.Composed arena) (husable : ∀ range ∈ arena, range.Usable)
    (hstep : Behaves arena w w') : w'.scheduler.FaultFree w'.Awaited := by
  have hs := h.waitersHeard.orderly.standing
  cases hstep with
  | @call call kernel progress hexec hmay hallowed hok =>
      have hpermits : w.Permits arena call := hallowed.elim h.permits id
      refine h.waitersHeard.attempted h.faultFree hexec hmay ?_ ?_ hok
      · rintro id rfl
        exact hpermits
      · rintro entry param number rfl
        exact husable _ hpermits
  | post hok => exact h.waitersHeard.faultFree_post h.faultFree hok
  | alarm hok =>
      obtain ⟨t, hok', _, hfree⟩ := h.faultFree.handleAlarm hs
      obtain rfl := Except.ok.inj (hok'.symm.trans hok)
      obtain ⟨ids, hwakes⟩ := hs.wakes_of_handleAlarm hok
      exact hfree.mono fun slot _ => awaited_of_same
        (signalAt_eq rfl fun slot _ => hwakes.completion slot)
  | @elapse hardware honward =>
      exact h.faultFree.moved (alarmMoved w.scheduler hardware w.scheduler.armed) honward
  | reschedule hleaving hpointer hok =>
      obtain ⟨id, rest, woken, u, v, x, hswitched⟩ := hs.reschedule hok
      have hhead : w.scheduler.runQueue.head? = some id := by
        rw [hswitched.suspended.runQueue, List.head?_cons]
      obtain ⟨t, _, hok', hfree⟩ := h.reschedule hleaving hpointer
        (fun slot hawaited => (awaited_of_switched hswitched hawaited).1) (by
          intro id' hhead' hslot hexiting slot hawaited
          obtain rfl := Option.some.inj (hhead.symm.trans hhead')
          exact (awaited_of_switched hswitched hawaited).2 hslot hexiting)
      obtain ⟨rfl, _⟩ := Prod.mk.inj (Except.ok.inj (hok'.symm.trans hok))
      exact hfree
  | dispatch hidle hok =>
      obtain ⟨t, _, hok', hfree⟩ := h.dispatch hidle
      obtain ⟨rfl, _⟩ := Prod.mk.inj (Except.ok.inj (hok'.symm.trans hok))
      exact hfree.mono fun slot _ => awaited_of_same (signalAt_eq rfl fun slot _ =>
        (hs.dispatch hok).field TaskRecord.completion (fun _ _ => rfl) slot)

theorem Sensible.step {own : StackRange} {blocking : Blocking} (h : w.Sensible own blocking)
    (hs : w.scheduler.Standing) (hstep : Behaves arena w w') : w'.Sensible own blocking := by
  cases blocking with
  | wait number =>
      have hlength : w'.kernel.signals.length = w.kernel.signals.length := by
        cases hstep with
        | call _ _ _ hok => exact (Kernel.called_of_attempt hs hok).length_signals
        | post hok =>
            obtain ⟨_, _, _, _, rfl⟩ := Kernel.ok_post hok
            exact List.length_set
        | alarm _ | elapse _ | reschedule _ _ _ | dispatch _ _ => rfl
      show number < w'.kernel.signals.length
      rw [hlength]
      exact h
  | join number =>
      obtain ⟨⟨id, hrun⟩, hother⟩ := h
      have hrange := Kernel.rangeAt_eq_of_ranges hstep.step.ranges number
      show w'.HasRun number ∧ own ≠ w'.kernel.rangeAt number
      unfold HasRun
      rw [hrange]
      exact ⟨⟨id, (hstep.passage hs).started_mem hrun⟩, hother⟩

theorem Composed.inside_step (h : w.Composed arena) (hstep : Behaves arena w w') {slot : Nat}
    (hslot : slot ∈ slots) {blocking : Blocking} (hinside : w'.inside slot = some blocking) :
    w'.Sensible (w'.record slot).stack blocking := by
  have ho := h.waitersHeard.orderly
  have hs := ho.standing
  have later (hoccupied : w.scheduler.Occupied slot)
      (hsensible : w.Sensible (w.record slot).stack blocking) :
      w'.Sensible (w'.record slot).stack blocking := by
    have hstack : (w'.record slot).stack = (w.record slot).stack :=
      (hstep.passage hs).stack hslot hoccupied
    rw [hstack]
    exact hsensible.step hs hstep
  have kept (hbefore : w.inside slot = some blocking) :
      w'.Sensible (w'.record slot).stack blocking :=
    later ((ho.fits slot hslot).live (by rw [hbefore]; simp)).2
      (h.inside slot hslot blocking hbefore)
  cases hstep with
  | @call call kernel progress hexec hmay hallowed hok =>
      by_cases hself : ∃ id, w.scheduler.current = some id ∧ slot = id.index
      · obtain ⟨id, hcurrent, rfl⟩ := hself
        change w.insideAfter call progress.retries id.index = some blocking at hinside
        rw [insideAfter_self hcurrent] at hinside
        split at hinside
        · exact later (hs.occupied_current hcurrent)
            ((hallowed.elim h.permits fun hpermits => hpermits).sensible hinside hcurrent)
        · contradiction
      · apply kept
        rw [← hinside]
        exact (insideAfter_of_ne fun id hcurrent he => hself ⟨id, hcurrent, he⟩).symm
  | post _ | alarm _ | elapse _ | reschedule _ _ _ | dispatch _ _ => exact kept hinside

theorem Composed.step (h : w.Composed arena) (hcount : arena.length < slotCount)
    (husable : ∀ range ∈ arena, range.Usable) (hstep : Behaves arena w w') :
    w'.Composed arena := by
  have hpassage := hstep.passage h.waitersHeard.orderly.standing
  have hbottoms : ∀ range ∈ arena, range.bottom ≠ 0 := fun range hrange =>
    (husable range hrange).bottom
  obtain ⟨event, hoccurs, hpointer⟩ := hstep.occurs
  exact ⟨h.onlyTasksQueued.step hbottoms hstep.step hpassage, h.faultFree_step husable hstep,
    hpassage.housed h.housed hcount,
    Saved.occurs h.saved h.onlyTasksQueued hbottoms hoccurs hpassage hpointer,
    fun _ hslot _ hinside => h.inside_step hstep hslot hinside⟩

theorem Behaved.composed (h : Behaved arena w) (hcount : arena.length < slotCount)
    (husable : ∀ range ∈ arena, range.Usable) : w.Composed arena := by
  induction h with
  | start hardware signals memory trampoline =>
      exact composed_start hardware signals memory trampoline
  | step _ hstep ih => exact ih.step hcount husable hstep

/-! ## No fault -/

/-- Whatever may happen next comes about without a fault. -/
structure Unfailing (arena : List StackRange) (w : World H) : Prop where
  attempt : w.control = .executing → ∀ call, w.MayCall call →
    w.Repeats call ∨ w.Permits arena call →
      ∃ kernel progress, w.kernel.attempt call = .ok (kernel, progress)
  post : ∀ number < w.kernel.signals.length, ∃ kernel, w.kernel.post number = .ok kernel
  alarm : ∃ t, w.scheduler.handleAlarm = .ok t
  reschedule : w.control = .leaving → ∀ pointer, w.Suspendable pointer →
    ∃ t decision, w.scheduler.reschedule pointer = .ok (t, decision)
  dispatch : w.control = .idle → ∃ t decision, w.scheduler.dispatch = .ok (t, decision)
  /-- No task executes again after its exit. -/
  staying : w.control = .executing → ∀ id, w.scheduler.current = some id →
    (w.scheduler.record id).exiting = false
  sleepCount : ∀ slot ∈ slots, (w.record slot).sleepCount = 0 ∨ (w.record slot).sleepCount = 1

/--
Programs that start tasks on no more stacks than there are slots for tasks, and
that otherwise keep to the permitted calls, never fail, whenever interrupts
come and for as long as the programs run.
-/
theorem Behaved.unfailing (h : Behaved arena w) (hcount : arena.length < slotCount)
    (husable : ∀ range ∈ arena, range.Usable) : w.Unfailing arena := by
  have hcomposed := h.composed hcount husable
  have hwaiters := hcomposed.waitersHeard
  refine ⟨?attempt, ?post, ?alarm, ?reschedule, ?dispatch, ?staying, ?sleepCount⟩
  case attempt =>
    intro hexec call _ hallowed
    exact hcomposed.attempt hcount husable hexec (hallowed.elim hcomposed.permits id)
  case post =>
    intro number hlt
    obtain ⟨kernel, hok, _⟩ := hwaiters.posted hcomposed.faultFree hlt
    exact ⟨kernel, hok⟩
  case alarm =>
    obtain ⟨t, hok, _⟩ := hcomposed.faultFree.handleAlarm hwaiters.orderly.standing
    exact ⟨t, hok⟩
  case reschedule =>
    intro hleaving pointer hpointer
    -- nobody needs to be awaited afterwards for the switch to come about
    obtain ⟨t, decision, hok, _⟩ : ∃ t decision, w.scheduler.reschedule pointer =
        .ok (t, decision) ∧ t.FaultFree fun _ => False :=
      hcomposed.reschedule hleaving hpointer (fun _ => False.elim) fun _ _ _ _ _ => False.elim
    exact ⟨t, decision, hok⟩
  case dispatch =>
    intro hidle
    obtain ⟨t, decision, hok, _⟩ := hcomposed.dispatch hidle
    exact ⟨t, decision, hok⟩
  case staying =>
    intro hexec id hcurrent
    exact (hwaiters.caller_awake hcomposed.faultFree hexec hcurrent).2
  case sleepCount =>
    intro slot hslot
    exact (hcomposed.faultFree.tasks slot hslot).count

def leastStack (number : Nat) : Stack :=
  .blank (Board.pageBottom number) (leastStackWords + guardedWords)

def pairArena : List StackRange :=
  [(leastStack 0).range, (leastStack 1).range]

def leavingPair : Option (World Board) :=
  (World.start (Board.start Instant.zero) 1 [leastStack 0, leastStack 1] 0).conduct pairArena
    [.call (.start 0 0 0), .reschedule Board.mainlinePointer,
      .call (.start 0 0 1), .reschedule (Board.pageBottom 0 + 200),
      .call (.wait 0), .reschedule (Board.pageBottom 1 + 200),
      .call (.post 0), .call (.join 1), .reschedule (Board.pageBottom 0 + 200),
      .call (.wait 0), .call (.exit 7)]

theorem unfailing_leavingPair :
    pairArena.length < slotCount ∧ (∀ range ∈ pairArena, range.Usable) ∧
      ∃ w : World Board, Behaved pairArena w ∧ w.control = .leaving ∧
        (w.record 2).exiting = true ∧ w.Suspendable (Board.pageBottom 1 + 200) ∧
        w.Unfailing pairArena ∧
        ∃ t decision, w.scheduler.reschedule (Board.pageBottom 1 + 200) = .ok (t, decision) := by
  have hcount : pairArena.length < slotCount := by decide
  have husable : ∀ range ∈ pairArena, range.Usable := by
    have hranges : ∀ range ∈ pairArena, range.bottom ≠ 0 ∧
        range.bottom.toNat + 4 * (leastStackWords + guardedWords) ≤ range.top.toNat := by
      decide +kernel
    exact fun range hrange => ⟨(hranges range hrange).1, (hranges range hrange).2⟩
  obtain ⟨w, hw⟩ := Option.isSome_iff_exists.mp
    (show leavingPair.isSome = true by decide +kernel)
  have hexit : leavingPair.map (fun w => (w.control, (w.record 2).exiting,
      decide (w.Suspendable (Board.pageBottom 1 + 200)))) = some (.leaving, true, true) := by
    decide +kernel
  simp only [hw, Option.map_some, Option.some.injEq, Prod.mk.injEq, decide_eq_true_eq] at hexit
  obtain ⟨hleaving, hexiting, hpointer⟩ := hexit
  have hbehaved : Behaved pairArena w := (Behaved.start _ _ _ _).conduct hw
  have hunfailing := hbehaved.unfailing hcount husable
  exact ⟨hcount, husable, w, hbehaved, hleaving, hexiting, hpointer, hunfailing,
    hunfailing.reschedule hleaving _ hpointer⟩

end World

end CoopTasks
