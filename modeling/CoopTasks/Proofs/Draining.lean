import CoopTasks.Proofs.Lifetimes
import CoopTasks.Proofs.Turns

/-!
The mainline goes on only when all tasks are done.

While tasks run the mainline stands in no queue, except between its start of a
task and the switch that follows.  So whenever nobody of the run queue executes
both queues are empty, and then every task has ended: `World.Drained`.
-/

namespace CoopTasks

open Scheduler

/-! ## Who stands in the run queue -/

namespace Scheduler

variable {H : Type} {s t u : Scheduler H} {id : TaskId} {run sleep rest : List TaskId}

/-- The mainline does not stand in the run queue. -/
def OnlyTasks (s : Scheduler H) : Prop :=
  ∀ id ∈ s.runQueue, id.index ≠ 0

theorem OnlyTasks.congr (h : s.OnlyTasks) (hrun : t.runQueue = s.runQueue) : t.OnlyTasks := by
  unfold OnlyTasks
  rw [hrun]
  exact h

theorem Wakes.onlyTasks {ids : List TaskId} (h : Wakes s ids t) (hs : s.OnlyTasks) :
    t.OnlyTasks := by
  refine h.preserves (P := OnlyTasks) ?_ ?_ hs
  · intro t u hmoved ht
    exact ht.congr hmoved.runQueue_eq
  · intro t id u hwoke ht m hm
    rw [hwoke.runQueue] at hm
    rcases List.mem_append.mp hm with hm | hm
    · exact ht m hm
    · split at hm
      · rw [List.mem_singleton.mp hm]
        exact hwoke.task
      · contradiction

theorem Extended.ne_nil (h : Extended s.runQueue s t) (hne : s.runQueue ≠ []) :
    t.runQueue ≠ [] := by
  obtain ⟨later, hlater⟩ := h.runQueue
  rw [hlater]
  exact List.append_ne_nil_of_left_ne_nil hne _

theorem Attempted.runQueue_eq {w w' : Signal} {result : WaitResult}
    (h : Attempted s w t w' result) : t.runQueue = s.runQueue := by
  cases h with
  | acquired _ => rfl
  | parked _ _ _ _ _ hmoved _ => exact hmoved.runQueue
  | busy _ _ _ _ _ => rfl

theorem Moved.onlyTasks {change : TaskRecord → TaskRecord} (h : Moved s id change run sleep t)
    (hrun : ∀ m ∈ run, m.index ≠ 0) : t.OnlyTasks := by
  unfold OnlyTasks
  rwa [h.runQueue]

variable [Hardware H]

theorem Settled.onlyTasks (h : Settled u id rest sleep t) (hrest : ∀ m ∈ rest, m.index ≠ 0) :
    t.OnlyTasks := by
  cases h with
  | parked _ hmoved _ => exact hmoved.onlyTasks hrest
  | finished _ _ _ _ hmoved _ hwake =>
      obtain ⟨ids, hwakes⟩ := hmoved.standing.wakes_of_wakeWaiter hwake
      exact hwakes.onlyTasks (hmoved.onlyTasks hrest)
  | asleep _ _ _ _ hmoved _ => exact hmoved.onlyTasks hrest
  | requeued hid _ _ _ hmoved _ =>
      apply hmoved.onlyTasks
      intro m hm
      rcases List.mem_append.mp hm with hm | hm
      · exact hrest m hm
      · rwa [List.mem_singleton.mp hm]

theorem Switched.onlyTasks {pointer : Address} {decision : Decision} {woken : List TaskId}
    {v w : Scheduler H} (h : Switched s pointer t decision id rest woken u v w)
    (hs : s.Standing) : w.OnlyTasks ∧ t.OnlyTasks := by
  have hrest : ∀ m ∈ rest, m.index ≠ 0 := by
    have hbehind := hs.behind
    rwa [h.suspended.runQueue, List.tail_cons] at hbehind
  have hw := h.rearmed.wakes.onlyTasks (h.settled.onlyTasks hrest)
  exact ⟨hw, hw.congr h.dispatched.runQueue_eq⟩

end Scheduler

/-! ## The stacks of a kernel -/

namespace Kernel

variable {H : Type} {k k' : Kernel H}

theorem ranges_setStack {number : Nat} {stack : Stack}
    (h : stack.range = k.rangeAt number) : (k.setStack number stack).ranges = k.ranges := by
  unfold ranges setStack
  rw [List.map_set, h]
  by_cases hlt : number < k.memory.length
  · have hlength : number < (k.memory.map Stack.range).length := by rwa [List.length_map]
    have hrange : k.rangeAt number = (k.memory.map Stack.range)[number] := by
      simp [rangeAt, stackAt, hlt]
    rw [hrange, List.set_getElem_self]
  · exact List.set_eq_of_length_le (by rw [List.length_map]; omega)

variable [Hardware H]

theorem ranges_start {entry param : UInt32} {number : Nat} {progress : Progress Unit}
    (hok : k.start entry param number = .ok (k', progress)) : k'.ranges = k.ranges := by
  unfold start at hok
  dsimp only at hok
  split at hok
  · rw [pure_eq_ok, Prod.mk.injEq] at hok
    rw [hok.1]
  · simp only [bind_eq_ok, Prod.exists] at hok
    obtain ⟨stack, pointer, hsetUp, scheduler, outcome, _, hok⟩ := hok
    cases outcome with
    | error reason => contradiction
    | ok id =>
        rw [pure_eq_ok, Prod.mk.injEq] at hok
        obtain ⟨rfl, rfl⟩ := hok
        exact ranges_setStack (k := { k with scheduler }) (Stack.range_setUp hsetUp)

theorem ranges_attempt {call : Call} {progress : Progress call.Answer}
    (hok : k.attempt call = .ok (k', progress)) : k'.ranges = k.ranges := by
  cases call <;> simp only [attempt, exit, sleepUntil, wait, join, tryTake, tryJoin, bind_eq_ok,
    pure_eq_ok, Prod.mk.injEq, Prod.exists] at hok
  case start => exact ranges_start hok
  case exit | sleepUntil =>
      obtain ⟨scheduler, _, rfl, _⟩ := hok
      rfl
  case wait =>
      obtain ⟨_, _, scheduler, signal, result, _, rfl, _⟩ := hok
      rfl
  case join =>
      obtain ⟨_, _, scheduler, result, _, rfl, _⟩ := hok
      rfl
  case wake =>
      obtain ⟨kernel, hwake, rfl, _⟩ := hok
      obtain ⟨scheduler, _, rfl⟩ := ok_wake hwake
      rfl
  case post =>
      obtain ⟨kernel, hpost, rfl, _⟩ := hok
      obtain ⟨signal, scheduler, _, _, rfl⟩ := ok_post hpost
      rfl
  case tryTake =>
      obtain ⟨kernel, taken, ⟨_, _, rfl, _⟩, rfl, _⟩ := hok
      rfl
  case tryJoin =>
      obtain ⟨kernel, code, ⟨_, _, scheduler, _, _, rfl, _⟩, rfl, _⟩ := hok
      rfl
  case signalState =>
      obtain ⟨signal, _, rfl, _⟩ := hok
      rfl
  case overwrite =>
      obtain ⟨rfl, _⟩ := hok
      exact ranges_setStack (Stack.range_write _ _ _)
  all_goals
    obtain ⟨rfl, _⟩ := hok
    rfl

theorem leaving_of_attempt (hs : k.scheduler.Standing) {call : Call}
    {progress : Progress call.Answer} (hok : k.attempt call = .ok (k', progress))
    (hleaving : progress.control = .leaving) (hmainline : k.scheduler.current = none) :
    (∃ number, k.scheduler.stackInUse (k.rangeAt number) = true) ∨ k'.scheduler.runQueue ≠ [] := by
  have noWait {α : Type} {signal signal' : Signal} {t : Scheduler H} {result : WaitResult}
      {answer : α}
      (hattempt : k.scheduler.attemptWait signal = .ok (t, signal', result))
      (hresult : (result.progress answer).control = .leaving) : False := by
    cases hs.attemptWait hattempt with
    | acquired _ => contradiction
    | parked hcurrent _ _ _ _ _ _ | busy hcurrent _ _ _ _ =>
        rw [hmainline] at hcurrent
        contradiction
  cases call <;> simp only [attempt, exit, sleepUntil, wait, join, bind_eq_ok, pure_eq_ok,
    Prod.mk.injEq, Prod.exists] at hok
  case start =>
      obtain ⟨_, ⟨hused, rfl⟩ | ⟨id, hbegun⟩⟩ := begun_of_start hs hok
      · exact .inl ⟨_, hused⟩
      · obtain ⟨hardware, _, hstarted⟩ := hbegun.started
        right
        rw [hstarted.runQueue]
        simp
  case giveWay =>
      obtain ⟨rfl, rfl⟩ := hok
      simp [giveWay, hmainline, Progress.control] at hleaving
  case exit =>
      obtain ⟨scheduler, hmark, _⟩ := hok
      obtain ⟨id, hcurrent, _⟩ := hs.markExiting hmark
      rw [hmainline] at hcurrent
      contradiction
  case sleepUntil =>
      obtain ⟨scheduler, hmark, _⟩ := hok
      obtain ⟨id, hcurrent, _⟩ := hs.markAsleep hmark
      rw [hmainline] at hcurrent
      contradiction
  case wait =>
      obtain ⟨_, _, scheduler, signal, result, hattempt, _, rfl⟩ := hok
      exact (noWait hattempt hleaving).elim
  case join =>
      obtain ⟨target, _, scheduler, result, hattempt, _, rfl⟩ := hok
      simp only [attemptJoin, bind_eq_ok, pure_eq_ok, Prod.mk.injEq, Prod.exists] at hattempt
      obtain ⟨_, _, _, _, _, _, u, completion, _, hattempt, _, rfl⟩ := hattempt
      exact (noWait hattempt hleaving).elim
  case wake =>
      obtain ⟨_, _, _, rfl⟩ := hok
      contradiction
  case post =>
      obtain ⟨_, _, _, rfl⟩ := hok
      contradiction
  case tryTake =>
      obtain ⟨_, _, _, _, rfl⟩ := hok
      contradiction
  case tryJoin =>
      obtain ⟨_, _, _, _, rfl⟩ := hok
      contradiction
  case signalState =>
      obtain ⟨_, _, _, rfl⟩ := hok
      contradiction
  all_goals
    obtain ⟨_, rfl⟩ := hok
    contradiction

theorem Called.queue {call : Call} {control : Control} {retries : Bool}
    (h : Called k call k' control retries) (hs : k.scheduler.Standing) :
    (k.scheduler.runQueue ≠ [] → k'.scheduler.runQueue ≠ []) ∧
      (control ≠ .leaving → k.scheduler.OnlyTasks → k'.scheduler.OnlyTasks) := by
  have same (hrun : k'.scheduler.runQueue = k.scheduler.runQueue) :
      (k.scheduler.runQueue ≠ [] → k'.scheduler.runQueue ≠ []) ∧
        (control ≠ .leaving → k.scheduler.OnlyTasks → k'.scheduler.OnlyTasks) := by
    rw [hrun]
    exact ⟨id, fun _ honly => honly.congr hrun⟩
  have waking {ids : List TaskId} (hwakes : Wakes k.scheduler ids k'.scheduler) :
      (k.scheduler.runQueue ≠ [] → k'.scheduler.runQueue ≠ []) ∧
        (control ≠ .leaving → k.scheduler.OnlyTasks → k'.scheduler.OnlyTasks) :=
    ⟨hwakes.extended.ne_nil, fun _ => hwakes.onlyTasks⟩
  cases h with
  | quiet _ _ hscheduler _ _ => exact same (by rw [hscheduler])
  | started _ hstarted _ _ =>
      refine ⟨fun _ => ?_, fun hne => absurd rfl hne⟩
      rw [hstarted.runQueue]
      simp
  | exiting _ _ hmoved | asleep _ _ hmoved => exact same hmoved.runQueue
  | waited _ hattempted => exact same hattempted.runQueue_eq
  | joined _ _ hattempted hmoved => exact same (hmoved.runQueue.trans hattempted.runQueue_eq)
  | woken hok =>
      obtain ⟨scheduler, hwake, rfl⟩ := ok_wake hok
      obtain ⟨ids, hwakes⟩ := hs.wakes_of_wake hwake
      exact waking hwakes
  | posted hok =>
      obtain ⟨signal, scheduler, _, hwake, rfl⟩ := ok_post hok
      obtain ⟨ids, hwakes⟩ := hs.wakes_of_wakeWaiter hwake
      exact waking hwakes
  | took _ => exact same rfl
  | tried _ hmoved => exact same hmoved.runQueue

theorem Called.timely {call : Call} {control : Control} {retries : Bool}
    (h : Called k call k' control retries) (hs : k.scheduler.Standing)
    (htimely : k.scheduler.Timely) : k'.scheduler.Timely := by
  cases h with
  | quiet _ _ hscheduler _ _ =>
      rw [hscheduler]
      exact htimely
  | @started _ _ hardware _ _ _ _ hstarted _ _ =>
      have hmoved := alarmMoved k.scheduler hardware k.scheduler.armed
      exact hstarted.timely (hmoved.standing hs) (htimely.congr rfl (fun _ _ => rfl) rfl)
  | exiting _ _ hmoved => exact hmoved.timely htimely (.inl fun _ => rfl)
  | asleep _ hcurrent hmoved => exact hmoved.timely htimely (.inr (hs.current_awake hcurrent))
  | waited _ hattempted => exact hattempted.timely hs htimely
  | joined _ _ hattempted hmoved =>
      exact hmoved.timely (hattempted.timely hs htimely) (.inl fun _ => rfl)
  | woken hok =>
      obtain ⟨scheduler, hwake, rfl⟩ := ok_wake hok
      exact htimely.wake hs hwake
  | posted hok =>
      obtain ⟨signal, scheduler, _, hwake, rfl⟩ := ok_post hok
      exact htimely.wakeWaiter hs hwake
  | took _ => exact htimely
  | tried _ hmoved => exact hmoved.timely htimely (.inl fun _ => rfl)

end Kernel

/-! ## The world -/

namespace World

variable {H : Type} {w w' : World H} {t : Scheduler H} {id : TaskId} {arena : List StackRange}

/-- The invariant: who may stand in the run queue, and on which stacks the tasks are. -/
structure OnlyTasksQueued (arena : List StackRange) (w : World H) : Prop where
  waitersHeard : w.WaitersHeard
  timely : w.scheduler.Timely
  lived : w.scheduler.Lived
  inArena : ∀ slot ∈ slots, (w.record slot).state ≠ .vacant →
    (w.record slot).stack ∈ arena
  leaving : w.control = .leaving → w.scheduler.runQueue ≠ []
  onlyTasks : w.control ≠ .leaving → w.scheduler.OnlyTasks

/-- What the mainline finds when it has the processor. -/
structure Drained (w : World H) : Prop where
  runQueue : w.scheduler.runQueue = []
  sleepers : w.scheduler.sleepers = []
  gone : ∀ slot ∈ slots, (w.record slot).state = .vacant ∨ (w.record slot).state = .exited
  unused : ∀ stack, w.scheduler.stackInUse stack = false
  unarmed : w.scheduler.armed = none
  unguarded : ∀ slot ∈ slots, (w.record slot).guardRegion = none
  unawaited : ∀ place signal, w.signalAt place = some signal → signal.waiter = none
  ended : ∀ newer id stack older, w.scheduler.journal = newer ++ .started id stack :: older →
    ∃ code, .exited id code ∈ newer

theorem OnlyTasksQueued.gone (h : w.OnlyTasksQueued arena) (hrun : w.scheduler.runQueue = [])
    (hsleep : w.scheduler.sleepers = []) : ∀ slot ∈ slots, ¬w.scheduler.Occupied slot := by
  intro slot hslot hoccupied
  have hgone := (h.waitersHeard.orderly.standing.exclusive.gone slot hslot).mpr
  rw [hrun, hsleep] at hgone
  exact hoccupied.not_gone (hgone ⟨List.not_mem_nil, List.not_mem_nil⟩)

theorem OnlyTasksQueued.unused (h : w.OnlyTasksQueued arena)
    (hbottoms : ∀ range ∈ arena, range.bottom ≠ 0)
    (hgone : ∀ slot ∈ slots, ¬w.scheduler.Occupied slot) (stack : StackRange) :
    w.scheduler.stackInUse stack = false := by
  unfold stackInUse
  cases htask : w.scheduler.taskOn stack with
  | none => rfl
  | some id =>
      obtain ⟨hslot, _, hvacant, hstack⟩ := taskOn_spec htask
      have hexited : (w.record id.index).state = .exited := by
        by_cases hexited : (w.record id.index).state = .exited
        · exact hexited
        · exact absurd ⟨hvacant, hexited⟩ (hgone id.index hslot)
      have hpointer : (w.record id.index).pointer = exitedPointer :=
        (h.lived.finished id.index hslot hexited).1
      show (w.record id.index).isLive = false
      unfold TaskRecord.isLive
      rw [hpointer]
      exact StackRange.holds_exitedPointer (hbottoms _ (h.inArena id.index hslot hvacant))

theorem OnlyTasksQueued.drained (h : w.OnlyTasksQueued arena)
    (hbottoms : ∀ range ∈ arena, range.bottom ≠ 0)
    (hexec : w.control = .executing) (hmainline : w.scheduler.current = none) : w.Drained := by
  have ho := h.waitersHeard.orderly
  have hrun : w.scheduler.runQueue = [] := by
    cases hqueue : w.scheduler.runQueue with
    | nil => rfl
    | cons head rest =>
        have htask := h.onlyTasks (by rw [hexec]; decide) head (by rw [hqueue]; simp)
        have hcurrent := ho.standing.current_eq_some_iff.mpr
          ⟨by rw [hqueue, List.head?_cons], htask⟩
        rw [hmainline] at hcurrent
        contradiction
  have hsleep := ho.attended (by rw [hexec]; decide) hrun
  have hgone := h.gone hrun hsleep
  refine ⟨hrun, hsleep, ?gone, h.unused hbottoms hgone, ?unarmed, ?unguarded, ?unawaited, ?ended⟩
  case gone =>
    intro slot hslot
    by_cases hvacant : (w.record slot).state = .vacant
    · exact .inl hvacant
    · by_cases hexited : (w.record slot).state = .exited
      · exact .inr hexited
      · exact absurd ⟨hvacant, hexited⟩ (hgone slot hslot)
  case unarmed =>
    rw [h.timely.armed, soonest, hsleep]
    rfl
  case unguarded =>
    intro slot hslot
    exact h.lived.unguarded slot hslot (hgone slot hslot)
  case unawaited =>
    intro place signal hsignal
    cases hwaiter : signal.waiter with
    | none => rfl
    | some id =>
        obtain ⟨_, _, blocking, hin, _⟩ :=
          h.waitersHeard.heard.recorded place signal id hsignal hwaiter
        obtain ⟨_, hvacant, hexited⟩ :=
          (ho.fits id.index hin.slot).live (by rw [hin.inside]; simp)
        exact absurd ⟨hvacant, hexited⟩ (hgone id.index hin.slot)
  case ended =>
    intro newer id stack older hjournal
    have hchronicle : w.scheduler.chronicle =
        newer.filter Notice.ofLife ++ .started id stack :: older.filter Notice.ofLife := by
      unfold chronicle
      rw [hjournal, List.filter_append, List.filter_cons_of_pos rfl]
    rcases h.lived.accounted _ id stack _ hchronicle with ⟨code, hcode⟩ | ⟨hslot, hoccupied, _⟩
    · exact ⟨code, (List.mem_filter.mp hcode).1⟩
    · exact absurd hoccupied (hgone id.index hslot)

theorem onlyTasksQueued_start (hardware : H) (signals : Nat) (memory : List Stack)
    (trampoline : UInt32) :
    (World.start hardware signals memory trampoline).OnlyTasksQueued arena where
  waitersHeard := waitersHeard_start hardware signals memory trampoline
  timely := timely_new hardware
  lived := lived_new hardware
  inArena := by
    intro slot _ hvacant
    exact absurd (congrArg TaskRecord.state (TaskTable.record_vacant slot)) hvacant
  leaving := by
    intro hleaving
    contradiction
  onlyTasks := by
    intro _ id hid
    have hrun : (new hardware).runQueue = [] := (placed_new hardware).runQueue_eq
    rw [show (World.start hardware signals memory trampoline).scheduler.runQueue = _ from hrun]
      at hid
    contradiction

/-! ## Steps -/

variable [Hardware H]

theorem Step.ranges (h : Step w w') : w'.kernel.ranges = w.kernel.ranges := by
  cases h with
  | call _ _ hok => exact Kernel.ranges_attempt hok
  | wake hok =>
      obtain ⟨scheduler, _, rfl⟩ := Kernel.ok_wake hok
      rfl
  | post hok =>
      obtain ⟨signal, scheduler, _, _, rfl⟩ := Kernel.ok_post hok
      rfl
  | alarm _ | elapse | reschedule _ _ | dispatch _ _ => rfl

theorem Step.timely (h : Step w w') (hs : w.scheduler.Standing) (htimely : w.scheduler.Timely) :
    w'.scheduler.Timely := by
  cases h with
  | call _ _ hok => exact (Kernel.called_of_attempt hs hok).timely hs htimely
  | wake hok =>
      obtain ⟨scheduler, hwake, rfl⟩ := Kernel.ok_wake hok
      exact htimely.wake hs hwake
  | post hok =>
      obtain ⟨signal, scheduler, _, hwake, rfl⟩ := Kernel.ok_post hok
      exact htimely.wakeWaiter hs hwake
  | alarm hok => exact htimely.handleAlarm hs hok
  | elapse => exact htimely.congr rfl (fun _ _ => rfl) rfl
  | reschedule _ hok =>
      obtain ⟨_, _, _, _, _, _, hswitched⟩ := hs.reschedule hok
      exact hswitched.timely htimely
  | dispatch _ hok => exact (hs.dispatch hok).timely htimely

theorem OnlyTasksQueued.step (h : w.OnlyTasksQueued arena)
    (hbottoms : ∀ range ∈ arena, range.bottom ≠ 0)
    (hstep : Step w w') (hpassage : Passage arena w.scheduler w'.scheduler) :
    w'.OnlyTasksQueued arena := by
  have hs := h.waitersHeard.orderly.standing
  refine ⟨h.waitersHeard.step hstep, hstep.timely hs h.timely, hpassage.lived h.lived,
    hpassage.inArena h.inArena, ?leaving, ?onlyTasks⟩
  case leaving =>
    intro hleaving
    cases hstep.happened hs with
    | called hexec _ hok hcontrol =>
        rw [hcontrol] at hleaving
        by_cases hmainline : w.scheduler.current = none
        · have hdrained := h.drained hbottoms hexec hmainline
          rcases Kernel.leaving_of_attempt hs hok hleaving hmainline with ⟨number, hused⟩ | hne
          · have hunused := hdrained.unused (w.kernel.rangeAt number)
            rw [show w.kernel.scheduler.stackInUse _ = _ from hunused] at hused
            contradiction
          · exact hne
        · apply ((Kernel.called_of_attempt hs hok).queue hs).1
          obtain ⟨id, hcurrent⟩ := Option.ne_none_iff_exists.mp hmainline
          exact List.ne_nil_of_mem (List.mem_of_head? (hs.current hcurrent.symm).1)
    | interrupted hwakes hcontrol =>
        rw [hcontrol] at hleaving
        exact hwakes.extended.ne_nil (h.leaving hleaving)
    | @switched _ decision _ _ _ _ _ _ _ _ hcontrol | @dispatched decision _ _ hcontrol =>
        rw [hcontrol] at hleaving
        cases decision <;> contradiction
  case onlyTasks =>
    intro hne
    cases hstep.happened hs with
    | called hexec _ hok hcontrol =>
        rw [hcontrol] at hne
        apply ((Kernel.called_of_attempt hs hok).queue hs).2 hne
        apply h.onlyTasks
        rw [hexec]
        decide
    | interrupted hwakes hcontrol =>
        rw [hcontrol] at hne
        exact hwakes.onlyTasks (h.onlyTasks hne)
    | switched _ hswitched _ => exact (hswitched.onlyTasks hs).2
    | dispatched hidle hdispatched _ =>
        apply (h.onlyTasks _).congr hdispatched.runQueue_eq
        rw [hidle]
        decide

theorem Reached.onlyTasksQueued (h : Reached w)
    (hbottoms : ∀ range ∈ w.kernel.ranges, range.bottom ≠ 0) :
    w.OnlyTasksQueued w.kernel.ranges := by
  induction h with
  | start hardware signals memory trampoline =>
      exact onlyTasksQueued_start hardware signals memory trampoline
  | step hreached hstep ih =>
      rw [hstep.ranges] at hbottoms ⊢
      exact (ih hbottoms).step hbottoms hstep (hstep.passage hreached.standing)

/-! ## The end of a switch -/

inductive ResumedAt (w : World H) (pointer : Address) : Prop
  | task {id : TaskId} :
      w.scheduler.current = some id →
      (w.scheduler.record id).isLive = true →
      pointer = (w.scheduler.record id).pointer →
      ResumedAt w pointer
  | mainline :
      w.scheduler.current = none →
      pointer = (w.scheduler.record .mainline).pointer →
      w.Drained →
      ResumedAt w pointer

omit [Hardware H] in
theorem OnlyTasksQueued.resumedAt (h : w'.OnlyTasksQueued arena)
    (hbottoms : ∀ range ∈ arena, range.bottom ≠ 0)
    {s : Scheduler H} {pointer : Address} (hs : s.OnlyTasks) (hexec : w'.control = .executing)
    (hdispatched : Dispatched s w'.scheduler (.resume pointer)) : w'.ResumedAt pointer := by
  generalize hdecision : Decision.resume pointer = decision at hdispatched
  cases hdispatched with
  | @resumed _ next hhead hlive hmoved _ =>
      obtain rfl := Decision.resume.inj hdecision
      have hnext := hs next (List.mem_of_head? hhead)
      have hself := hmoved.self
      have hcurrent : w'.scheduler.current = some next := by
        apply h.waitersHeard.orderly.standing.current_eq_some_iff.mpr
        rw [hmoved.runQueue]
        exact ⟨hhead, hnext⟩
      refine .task hcurrent ?_ ?_
      · rw [hself]
        exact hlive.resolve_left hnext
      · rw [hself]
  | drained hrun _ _ hmoved _ =>
      obtain rfl := Decision.resume.inj hdecision
      have hmainline : w'.scheduler.current = none := by
        unfold current
        rw [hmoved.standing.ready_head, hmoved.runQueue]
        rfl
      refine .mainline hmainline ?_ (h.drained hbottoms hexec hmainline)
      rw [hmoved.self]
  | idle _ _ => contradiction

/--
The mainline executes only in a drained world: there it gets the processor
back, and from there it never leaves with nobody to give way to.
-/
theorem Reached.drained_for_mainline (h : Reached w)
    (hbottoms : ∀ stack ∈ w.kernel.memory, stack.bottom ≠ 0) :
    (w.control = .executing → w.scheduler.current = none → w.Drained) ∧
      (w.control = .leaving → w.scheduler.runQueue ≠ []) ∧
      (∀ own pointer t, w.control = .leaving →
        w.scheduler.reschedule own = .ok (t, .resume pointer) →
        ResumedAt { w.withScheduler t with control := .executing } pointer) ∧
      ∀ pointer t, w.control = .idle → w.scheduler.dispatch = .ok (t, .resume pointer) →
        ResumedAt { w.withScheduler t with control := .executing } pointer := by
  have hranges : ∀ range ∈ w.kernel.ranges, range.bottom ≠ 0 := by
    intro range hrange
    obtain ⟨stack, hstack, rfl⟩ := List.mem_map.mp hrange
    exact hbottoms stack hstack
  have hqueued := h.onlyTasksQueued hranges
  have hs := hqueued.waitersHeard.orderly.standing
  refine ⟨hqueued.drained hranges, hqueued.leaving, ?_, ?_⟩
  · intro own pointer t hleaving hok
    have hqueued' := (h.step (.reschedule hleaving hok)).onlyTasksQueued hranges
    obtain ⟨_, _, _, _, _, _, hswitched⟩ := hs.reschedule hok
    exact hqueued'.resumedAt hranges (hswitched.onlyTasks hs).1 rfl hswitched.dispatched
  · intro pointer t hidle hok
    have hqueued' := (h.step (.dispatch hidle hok)).onlyTasksQueued hranges
    have honly := hqueued.onlyTasks (by rw [hidle]; decide)
    exact hqueued'.resumedAt hranges honly rfl (hs.dispatch hok)

def lastExit : Option (World Board) :=
  (World.start (Board.start Instant.zero) 0 [Stack.blank (Board.pageBottom 0) 64] 0).run
    [.call (.start 0 0 0), .reschedule Board.mainlinePointer, .call (.exit 7)]

theorem drained_for_mainline_lastExit :
    ∃ (w : World Board) (t : Scheduler Board), Reached w ∧ w.scheduler.current = some ⟨1, 1⟩ ∧
      w.scheduler.reschedule (Board.pageBottom 0 + 200) =
        .ok (t, .resume Board.mainlinePointer) ∧
      w.scheduler.runQueue ≠ [] ∧
      Drained { w.withScheduler t with control := .executing } := by
  obtain ⟨w, hw⟩ := Option.isSome_iff_exists.mp (show lastExit.isSome = true by decide)
  have hreached : Reached w := (Reached.start _ _ _ _).run hw
  have hbottoms : (lastExit.map fun w => w.kernel.memory.all fun stack => stack.bottom ≠ 0) =
      some true := by decide
  have hcontrol : lastExit.map (fun w => w.control) = some .leaving := by decide
  have hcurrent : lastExit.map (fun w => w.scheduler.current) = some (some ⟨1, 1⟩) := by decide
  have hswitched : (lastExit.bind fun w => (w.scheduler.reschedule
      (Board.pageBottom 0 + 200)).toOption.map fun r => r.2) =
        some (.resume Board.mainlinePointer) := by decide
  have hafter : (lastExit.bind fun w => (w.scheduler.reschedule
      (Board.pageBottom 0 + 200)).toOption.map fun r => r.1.current) = some none := by decide
  rw [hw] at hbottoms hcontrol hcurrent hswitched hafter
  rw [Option.map_some, Option.some.injEq] at hbottoms hcontrol hcurrent
  rw [Option.bind_some] at hswitched hafter
  obtain ⟨⟨t, _⟩, ht, rfl⟩ := Option.map_eq_some_iff.mp hswitched
  rw [ht, Option.map_some, Option.some.injEq] at hafter
  rw [toOption_eq_some] at ht
  obtain ⟨_, hqueue, hresumed, _⟩ := hreached.drained_for_mainline (by simpa using hbottoms)
  refine ⟨w, t, hreached, hcurrent, ht, hqueue hcontrol, ?_⟩
  cases hresumed _ _ t hcontrol ht with
  | task hsome _ _ => exact absurd (hsome.symm.trans hafter) (by simp)
  | mainline _ _ hdrained => exact hdrained

end World

end CoopTasks
