import CoopTasks.Proofs.Waiters
import CoopTasks.Simulation.Board

/-!
No wakeup is lost.

`World.WaitersHeard` is the invariant of all steps: the tasks are orderly and nobody
sleeps on a signal unheard.
-/

namespace CoopTasks

open Scheduler

/-- A wake of the task finds it alive, in the run that is meant. -/
structure Scheduler.Wakeable {H : Type} (s : Scheduler H) (id : TaskId) : Prop where
  slot : id.index ∈ slots
  current : id.generation = (s.record id).generation
  live : (s.record id).isLive = true
  state : (s.record id).state = .sleeping ∨ (s.record id).state = .ready ∨
    (s.record id).state = .running

theorem Scheduler.Wakeable.congr {H : Type} {s t : Scheduler H} {id : TaskId} (h : s.Wakeable id)
    (he : t.record id = s.record id) : t.Wakeable id :=
  ⟨h.slot, he ▸ h.current, he ▸ h.live, he ▸ h.state⟩

namespace World

variable {H : Type} {w w' : World H} {t u : Scheduler H} {id : TaskId}

structure WaitersHeard (w : World H) : Prop where
  orderly : w.Orderly
  heard : w.Heard none

theorem waitersHeard_start (hardware : H) (signals : Nat) (memory : List Stack)
    (trampoline : UInt32) :
    (World.start hardware signals memory trampoline).WaitersHeard := by
  have hplaced := placed_new hardware
  have hrecord : ∀ slot,
      (World.start hardware signals memory trampoline).record slot = TaskRecord.vacant :=
    TaskTable.record_vacant
  constructor
  case orderly =>
    refine ⟨hplaced.standing, fun _ _ => hplaced.sleepers_eq, ?current, ?fits⟩
    case current =>
      intro _ id hid
      have hhead := (hplaced.standing.current hid).1
      rw [hplaced.runQueue_eq] at hhead
      contradiction
    case fits =>
      intro slot _
      rw [hrecord]
      constructor <;> simp [TaskRecord.vacant, Signal.idle, World.start]
  case heard =>
    constructor
    case recorded =>
      intro p signal id hsignal hid
      have hidle : signal = Signal.idle := by
        cases p with
        | signal number =>
            have hmem := List.mem_of_getElem? hsignal
            exact List.eq_of_mem_replicate hmem
        | completion slot =>
            simp only [signalAt, hrecord] at hsignal
            split at hsignal
            · exact (Option.some.inj hsignal).symm
            · contradiction
      rw [hidle] at hid
      contradiction
    case asleep =>
      intro slot _ _ _ blocking hinside
      contradiction

def WaitsAt (w : World H) (id : TaskId) (p : Place) : Prop :=
  ∃ blocking, w.Inside id blocking ∧ w.place blocking = some p

theorem Orderly.wakeable (h : w.Orderly) {blocking : Blocking} (hin : w.Inside id blocking) :
    w.scheduler.Wakeable id := by
  obtain ⟨hlive, hvacant, hexited⟩ := (h.fits id.index hin.slot).live (by rw [hin.inside]; simp)
  refine ⟨hin.slot, hin.current, hlive, ?_⟩
  have hlinked := h.standing.linked_of_state (mem_slots.mp hin.slot).1 hvacant hexited
  rcases List.mem_append.mp (h.standing.mem_of_linked hin.current hlinked) with hmem | hmem
  · rcases h.standing.queued id hmem (mem_slots.mp hin.slot).1 with hready | hrunning
    · exact .inr (.inl hready)
    · exact .inr (.inr hrunning)
  · exact .inl (h.standing.asleep id hmem).2

/-! ## Calls -/

theorem Orderly.kept (h : w.Orderly) (hexec : w.control = .executing)
    (hscheduler : w'.scheduler = w.scheduler) (hinside : w'.inside = w.inside) : w'.Orderly := by
  have hrecord : ∀ slot, w'.record slot = w.record slot := by
    intro slot
    unfold record
    rw [hscheduler]
  refine h.of_kept ?_ ?_ ?_ ?_ ?_ ?_
  · intro _
    rw [hexec]
    decide
  · rw [hscheduler]
    exact h.standing
  · rw [hscheduler]
  · rw [hscheduler]
  · intro slot
    rw [hrecord]
  · intro slot hslot
    rw [hrecord, hinside]
    exact (h.fits_executing hexec hslot).mono False.elim

theorem Orderly.joined (h : w.Orderly) (hexec : w.control = .executing) {call : Call}
    {target : TaskId} {completion : Signal} {result : WaitResult}
    (hslot : target.index ∈ slots) (hidOf : w.scheduler.idOf target.index = target)
    (hstarted : (w.record target.index).state ≠ .vacant)
    (hself : w.scheduler.current ≠ some target)
    (hattempted : Attempted w.scheduler (w.record target.index).completion u completion result)
    (hmoved : Moved u target (fun t => { t with completion }) u.runQueue u.sleepers t) :
    Orderly ⟨(w.withScheduler t).kernel, (result.progress ()).control,
      w.insideAfter call (result.progress ()).retries⟩ := by
  have hmiddle : Orderly ⟨(w.withScheduler u).kernel, (result.progress ()).control,
      w.insideAfter call (result.progress ()).retries⟩ := h.attempted hexec hattempted
  have hfits := h.fits target.index hslot
  have hne : ∀ caller, w.scheduler.current = some caller → target.index ≠ caller.index := by
    intro caller hcaller he
    apply hself
    rw [hcaller, ← hidOf, he, (h.caller hexec hcaller).idOf]
  apply hmiddle.withCompletion hmoved
  · cases hattempted with
    | acquired htake =>
        have hsame := (w.record target.index).completion.latched_tryTake
        rw [htake] at hsame
        exact hsame
    | parked hcaller _ _ _ _ hcounted _ =>
        exact congrArg (fun r => r.completion.latched) (hcounted.other (hne _ hcaller)).symm
    | busy _ _ _ _ _ => rfl
  · intro hgone
    cases hattempted with
    | acquired htake =>
        have hsame := (w.record target.index).completion.waiter_tryTake
        rw [htake, hfits.gone hgone] at hsame
        exact hsame
    | parked hcaller hlatched _ _ _ hcounted _ =>
        have hsame : u.tasks.record target.index = w.record target.index :=
          hcounted.other (hne _ hcaller)
        -- a target that had ended would have been latched, and the attempt would have succeeded
        rcases hgone with hvacant | hexited
        · exact absurd ((congrArg TaskRecord.state hsame).symm.trans hvacant) hstarted
        · have hended := hfits.ended ((congrArg TaskRecord.state hsame).symm.trans hexited)
          exact absurd (hended.symm.trans hlatched) (by decide)
    | busy _ _ _ _ _ => exact hfits.gone hgone

theorem Heard.took (h : w.Heard none) {number : Nat} {signal : Signal}
    (hsignal : w.kernel.signals[number]? = some signal) :
    Heard { w with kernel := w.kernel.setSignal number signal.tryTake.1 } none :=
  h.take (p := .signal number) (same_of_scheduler rfl rfl fun _ => rfl) hsignal fun _ =>
    signalAt_setSignal hsignal rfl fun _ _ => rfl

theorem Heard.tried (h : w.Heard none) {target : TaskId} (hslot : target.index ∈ slots)
    (hmoved : Moved w.scheduler target
      (fun t => { t with completion := (w.record target.index).completion.tryTake.1 })
      w.scheduler.runQueue w.scheduler.sleepers t) : (w.withScheduler t).Heard none := by
  have hsignal : w.signalAt (.completion target.index) = some (w.record target.index).completion :=
    if_pos hslot
  refine h.take ?_ hsignal ?_
  · exact same_of_altered hmoved.altered (fun _ => rfl) (fun _ => rfl) (fun _ => Iff.rfl)
      fun _ _ => rfl
  · intro q
    refine signalAt_withCompletion hslot rfl ?_ ?_
    · exact congrArg TaskRecord.completion hmoved.self
    · intro slot he
      exact congrArg TaskRecord.completion (hmoved.other he)

theorem tried_of_waited {number : Nat} {signal signal' : Signal} {result : WaitResult}
    (hsignal : w.kernel.signals[number]? = some signal)
    (hattempted : Attempted w.scheduler signal t signal' result) :
    Tried w ⟨(w.withScheduler t).kernel.setSignal number signal', (result.progress ()).control,
      w.insideAfter (.wait number) (result.progress ()).retries⟩
      (.wait number) (.wait number) (.signal number) signal signal'
      (result.progress ()).retries := by
  refine ⟨rfl, rfl, hsignal, rfl, hattempted.bound, fun _ => rfl, fun q => ?_⟩
  exact signalAt_setSignal hsignal rfl fun slot _ => hattempted.completion slot

theorem tried_of_joined {number : Nat} {target : TaskId} {completion : Signal}
    {result : WaitResult} (htarget : w.kernel.taskOn number = some target)
    (hattempted : Attempted w.scheduler (w.record target.index).completion u completion result)
    (hmoved : Moved u target (fun t => { t with completion }) u.runQueue u.sleepers t) :
    Tried w ⟨(w.withScheduler t).kernel, (result.progress ()).control,
      w.insideAfter (.join number) (result.progress ()).retries⟩ (.join number) (.join number)
      (.completion target.index) (w.record target.index).completion completion
      (result.progress ()).retries := by
  obtain ⟨hslot, _⟩ := taskOn_spec htarget
  have hbound : Bound u t :=
    hmoved.altered.bound (fun _ => rfl) (fun _ => rfl) fun _ => Iff.rfl
  refine ⟨rfl, ?_, if_pos hslot, rfl, hattempted.bound.trans hbound, fun _ => rfl, fun q => ?_⟩
  · simp only [place, htarget, Option.map_some]
  · refine signalAt_withCompletion hslot rfl ?_ ?_
    · exact congrArg TaskRecord.completion hmoved.self
    · intro slot he
      exact (congrArg TaskRecord.completion (hmoved.other he)).trans (hattempted.completion slot)

theorem Heard.waited (h : w.Heard none) (ho : w.Orderly) (hexec : w.control = .executing)
    {number : Nat} {signal signal' : Signal} {result : WaitResult}
    (hmay : w.MayCall (.wait number)) (hsignal : w.kernel.signals[number]? = some signal)
    (hattempted : Attempted w.scheduler signal t signal' result) :
    Heard ⟨(w.withScheduler t).kernel.setSignal number signal', (result.progress ()).control,
      w.insideAfter (.wait number) (result.progress ()).retries⟩ none :=
  h.attempted ho hexec hmay (tried_of_waited hsignal hattempted) hattempted fun _ => rfl

theorem Heard.joined (h : w.Heard none) (ho : w.Orderly) (hexec : w.control = .executing)
    {number : Nat} {target : TaskId} {completion : Signal} {result : WaitResult}
    (hmay : w.MayCall (.join number)) (htarget : w.kernel.taskOn number = some target)
    (hattempted : Attempted w.scheduler (w.record target.index).completion u completion result)
    (hmoved : Moved u target (fun t => { t with completion }) u.runQueue u.sleepers t) :
    Heard ⟨(w.withScheduler t).kernel, (result.progress ()).control,
      w.insideAfter (.join number) (result.progress ()).retries⟩ none :=
  h.attempted ho hexec hmay (tried_of_joined htarget hattempted hmoved) hattempted
    (hmoved.field TaskRecord.sleepCount fun _ => rfl)

variable [Hardware H]

theorem Orderly.posted (h : w.Orderly) {number : Nat} {kernel : Kernel H}
    (hok : w.kernel.post number = .ok kernel) : Orderly { w with kernel } := by
  unfold Kernel.post Kernel.requireSignal at hok
  simp only [bind_eq_ok, demand_eq_ok, pure_eq_ok, Prod.exists] at hok
  obtain ⟨signal, _, scheduler, _, hpost, rfl⟩ := hok
  obtain ⟨hwake, _⟩ := post_eq_ok hpost
  exact (h.wakeWaiter hwake).of_scheduler rfl rfl rfl

theorem Orderly.woken (h : w.Orderly) {kernel : Kernel H}
    (hok : w.kernel.wake id = .ok kernel) : Orderly { w with kernel } := by
  unfold Kernel.wake at hok
  simp only [bind_eq_ok, pure_eq_ok] at hok
  obtain ⟨scheduler, hwake, rfl⟩ := hok
  obtain ⟨ids, hwakes⟩ := h.standing.wakes_of_wake hwake
  exact h.wakes hwakes

theorem Orderly.called (h : w.Orderly) (hexec : w.control = .executing) {call : Call}
    {kernel : Kernel H} {control : Control} {retries : Bool} (hmay : w.MayCall call)
    (hcalled : w.kernel.Called call kernel control retries) :
    Orderly ⟨kernel, control, w.insideAfter call retries⟩ := by
  cases hcalled with
  | quiet hcall _ hscheduler _ _ =>
      exact h.kept hexec hscheduler (insideAfter_of_none hmay hcall)
  | started hcall hstarted _ _ =>
      rw [insideAfter_of_none hmay hcall]
      exact (h.started hexec hstarted).of_scheduler rfl rfl rfl
  | exiting hcall hcurrent hmoved =>
      rw [insideAfter_of_none hmay hcall]
      exact h.exiting hexec hcurrent (hmay.inside_none hcall hcurrent) hmoved
  | asleep hcall hcurrent hmoved =>
      rw [insideAfter_of_none hmay hcall]
      exact h.asleep hexec hcurrent hmoved
  | waited _ hattempted => exact (h.attempted hexec hattempted).of_scheduler rfl rfl rfl
  | joined htarget hself hattempted hmoved =>
      obtain ⟨hslot, hidOf, hstarted, _⟩ := taskOn_spec htarget
      exact h.joined hexec hslot hidOf hstarted hself hattempted hmoved
  | woken hok =>
      rw [insideAfter_of_none hmay rfl]
      exact (h.woken hok).of_scheduler rfl hexec.symm rfl
  | posted hok =>
      rw [insideAfter_of_none hmay rfl]
      exact (h.posted hok).of_scheduler rfl hexec.symm rfl
  | took _ => exact h.kept hexec rfl (insideAfter_of_none hmay rfl)
  | tried htarget hmoved =>
      obtain ⟨hslot, _⟩ := taskOn_spec htarget
      rw [insideAfter_of_none hmay rfl]
      have hmoved := h.withCompletion hmoved (Signal.latched_tryTake _) fun hgone =>
        (Signal.waiter_tryTake _).trans ((h.fits _ hslot).gone hgone)
      exact hmoved.of_scheduler rfl hexec.symm rfl

/-! ## Who is heard after a call -/

theorem Heard.woken (h : w.Heard none) (ho : w.Orderly) {kernel : Kernel H}
    (hok : w.kernel.wake id = .ok kernel) : Heard { w with kernel } none := by
  unfold Kernel.wake at hok
  simp only [bind_eq_ok, pure_eq_ok] at hok
  obtain ⟨scheduler, hwake, rfl⟩ := hok
  obtain ⟨ids, hwakes⟩ := ho.standing.wakes_of_wake hwake
  exact h.wakes hwakes

theorem Heard.posted (h : w.Heard none) (ho : w.Orderly) {number : Nat} {kernel : Kernel H}
    (hok : w.kernel.post number = .ok kernel) : Heard { w with kernel } none := by
  unfold Kernel.post Kernel.requireSignal at hok
  simp only [bind_eq_ok, demand_eq_ok, pure_eq_ok, Prod.exists] at hok
  obtain ⟨signal, hsignal, scheduler, _, hpost, rfl⟩ := hok
  obtain ⟨hwake, rfl⟩ := post_eq_ok hpost
  have hsame : Same w { w with kernel := w.kernel.setSignal number signal.post.1 } :=
    same_of_scheduler rfl rfl fun _ => rfl
  have hcalled := h.replace (p := .signal number) hsame hsignal
    (fun _ => signalAt_setSignal hsignal rfl fun _ _ => rfl) rfl
  exact hcalled.wakeWaiter (ho.of_scheduler rfl rfl rfl) hwake

theorem Heard.called (h : w.Heard none) (ho : w.Orderly) (hexec : w.control = .executing)
    {call : Call} {kernel : Kernel H} {control : Control} {retries : Bool} (hmay : w.MayCall call)
    (hcalled : w.kernel.Called call kernel control retries) :
    Heard ⟨kernel, control, w.insideAfter call retries⟩ none := by
  cases hcalled with
  | quiet hcall _ hscheduler hsignals hranges =>
      refine h.same (same_of_scheduler hscheduler (insideAfter_of_none hmay hcall) hranges) ?_
      apply signalAt_eq hsignals
      intro slot _
      exact congrArg (fun s : Scheduler H => (s.tasks.record slot).completion) hscheduler
  | started hcall hstarted hsignals hranges =>
      exact h.began (ho.began hstarted rfl hsignals hranges (insideAfter_of_none hmay hcall))
  | exiting hcall hcurrent hmoved =>
      rw [insideAfter_of_none hmay hcall]
      have haltered := h.altered hmoved.altered (fun _ => rfl) (fun _ => rfl) (fun _ => rfl)
        (fun _ => Iff.rfl) fun _ _ => rfl
      exact haltered.withControl .leaving
  | asleep hcall hcurrent hmoved =>
      rw [insideAfter_of_none hmay hcall]
      have houtside := hmay.inside_none hcall hcurrent
      have haltered := h.altered hmoved.altered (fun _ => rfl) (fun _ => rfl) (fun _ => rfl)
        (fun _ => Iff.rfl) fun _ hinside => absurd houtside hinside
      exact haltered.withControl .leaving
  | waited hsignal hattempted => exact h.waited ho hexec hmay hsignal hattempted
  | joined htarget _ hattempted hmoved => exact h.joined ho hexec hmay htarget hattempted hmoved
  | woken hok =>
      rw [insideAfter_of_none hmay rfl]
      exact (h.woken ho hok).withControl .executing
  | posted hok =>
      rw [insideAfter_of_none hmay rfl]
      exact (h.posted ho hok).withControl .executing
  | took hsignal =>
      rw [insideAfter_of_none hmay rfl]
      exact (h.took hsignal).withControl .executing
  | tried htarget hmoved =>
      obtain ⟨hslot, _⟩ := taskOn_spec htarget
      rw [insideAfter_of_none hmay rfl]
      exact (h.tried hslot hmoved).withControl .executing

/-! ## Runs -/

theorem WaitersHeard.step (h : w.WaitersHeard) (hstep : Step w w') : w'.WaitersHeard := by
  obtain ⟨ho, hheard⟩ := h
  cases hstep with
  | call hexec hmay hok =>
      have hcalled := Kernel.called_of_attempt ho.standing hok
      exact ⟨ho.called hexec hmay hcalled, hheard.called ho hexec hmay hcalled⟩
  | wake hok => exact ⟨ho.woken hok, hheard.woken ho hok⟩
  | post hok => exact ⟨ho.posted hok, hheard.posted ho hok⟩
  | alarm hok =>
      obtain ⟨ids, hwakes⟩ := ho.standing.wakes_of_handleAlarm hok
      exact ⟨ho.wakes hwakes, hheard.wakes hwakes⟩
  | @elapse hardware =>
      have hmoved := alarmMoved w.scheduler hardware w.scheduler.armed
      exact ⟨ho.alarmMoved hmoved, hheard.alarmMoved hmoved⟩
  | reschedule _ hok =>
      obtain ⟨id, rest, woken, u, v, x, hswitched⟩ := ho.standing.reschedule hok
      exact ⟨ho.switched hswitched, hheard.switched ho hswitched⟩
  | dispatch hidle hok =>
      have hdispatched := ho.standing.dispatch hok
      exact ⟨ho.dispatched hidle hdispatched,
        (hheard.dispatched ho.standing hdispatched).withControl _⟩

theorem Reached.waitersHeard (h : Reached w) : w.WaitersHeard := by
  induction h with
  | start hardware signals memory trampoline =>
      exact waitersHeard_start hardware signals memory trampoline
  | step _ hstep ih => exact ih.step hstep

theorem Reached.standing (h : Reached w) : w.scheduler.Standing :=
  h.waitersHeard.orderly.standing

/-! ## What holds in every reachable state -/

theorem Heard.second (h : w.Heard none) {call : Call} {blocking : Blocking} {p : Place}
    {signal : Signal} {first : TaskId} {kernel : Kernel H} {control : Control} {retries : Bool}
    (hblocking : call.blocking = some blocking) (hplace : w.place blocking = some p)
    (hsignal : w.signalAt p = some signal) (hfirst : signal.waiter = some first)
    (hother : w.scheduler.current ≠ some first)
    (hcalled : w.kernel.Called call kernel control retries) :
    retries = true ∧ World.signalAt { w with kernel } p = some signal ∧
      ∀ slot, (kernel.scheduler.tasks.record slot).sleepCount = (w.record slot).sleepCount := by
  have hbusy : ∀ {s signal' result}, Attempted w.scheduler signal s signal' result →
      result = .busy ∧ s = w.scheduler ∧ signal' = signal := by
    intro s signal' result hattempted
    cases hattempted with
    | acquired htake => exact absurd (hfirst.symm.trans (h.not_taken hsignal htake)) (by simp)
    | parked hcurrent _ _ hwaiter _ _ _ =>
        rcases hwaiter with hwaiter | hwaiter
        · exact absurd (hfirst.symm.trans hwaiter) (by simp)
        · exact absurd (hcurrent.trans (hwaiter.symm.trans hfirst)) hother
    | busy _ _ _ _ _ => exact ⟨rfl, rfl, rfl⟩
  cases hcalled with
  | waited hfound hattempted =>
      obtain rfl := Option.some.inj hblocking
      obtain rfl := Option.some.inj hplace
      obtain rfl := Option.some.inj (hfound.symm.trans hsignal)
      obtain ⟨rfl, rfl, rfl⟩ := hbusy hattempted
      refine ⟨rfl, ?_, fun _ => rfl⟩
      exact List.getElem?_set_self (List.getElem?_eq_some_iff.mp hfound).1
  | joined htarget hself hattempted hmoved =>
      obtain rfl := Option.some.inj hblocking
      obtain ⟨hslot, _⟩ := taskOn_spec htarget
      simp only [place, htarget, Option.map_some, Option.some.injEq] at hplace
      subst hplace
      rw [signalAt, if_pos hslot, Option.some.injEq] at hsignal
      subst hsignal
      obtain ⟨rfl, rfl, rfl⟩ := hbusy hattempted
      refine ⟨rfl, ?_, hmoved.field TaskRecord.sleepCount fun _ => rfl⟩
      exact (if_pos hslot).trans (congrArg (fun r => some r.completion) hmoved.self)
  | quiet hcall | started hcall | exiting hcall | asleep hcall =>
      rw [hcall] at hblocking
      contradiction
  | woken | posted | took | tried => contradiction

theorem WaitersHeard.ended (h : w.WaitersHeard) {pointer : Address} {s t : Scheduler H}
    {waiter : TaskId}
    (hsuspend : w.scheduler.suspend pointer = .ok (s, id)) (htask : id.isMainline = false)
    (hexiting : (s.record id).exiting = true) {region : Option UInt8}
    (hunguard : (s.update id TaskRecord.finished).unguard region = .ok t)
    (hwaiter : (s.record id).completion.waiter = some waiter) : t.Wakeable waiter := by
  obtain ⟨rest, hsuspended⟩ := h.orderly.standing.suspend hsuspend
  have hlt := hsuspended.index_lt h.orderly.standing
  have hslot : id.index ∈ slots := mem_slots.mpr ⟨TaskId.isMainline_eq_false.mp htask, hlt⟩
  rw [hsuspended.self] at hexiting hwaiter
  obtain ⟨_, _, blocking, hin, _⟩ :=
    h.heard.recorded (.completion id.index) _ waiter (if_pos hslot) hwaiter
  -- an exiting task is inside of no call, so it does not wait for itself
  have hne : waiter.index ≠ id.index := by
    intro he
    have houtside := ((h.orderly.fits id.index hslot).exiting hexiting).1
    rw [← he, hin.inside] at houtside
    contradiction
  have hrecord : t.record waiter = w.scheduler.record waiter := by
    have hkept : t.tasks = (s.update id TaskRecord.finished).tasks := by
      cases region with
      | none =>
          obtain rfl := Except.ok.inj hunguard
          rfl
      | some region =>
          simp only [unguard, bind_eq_ok, pure_eq_ok] at hunguard
          obtain ⟨hardware, _, rfl⟩ := hunguard
          rfl
    unfold Scheduler.record
    rw [hkept]
    refine (TaskTable.record_update_ne _ hne _).trans ?_
    exact (hsuspended.record waiter.index).trans (if_neg hne)
  exact (h.orderly.wakeable hin).congr hrecord

/-- Nobody who waits is missed. -/
theorem Reached.no_lost_wakeup (h : Reached w) :
    (∀ p signal id, w.signalAt p = some signal → signal.waiter = some id →
      signal.count = 0 ∧ signal.latched = false ∧ w.scheduler.Wakeable id ∧ w.WaitsAt id p) ∧
    (∀ slot ∈ slots, (w.record slot).state = .sleeping → ∀ blocking,
      w.inside slot = some blocking → ∃ p signal, w.place blocking = some p ∧
        w.signalAt p = some signal ∧ signal.waiter = some (w.scheduler.idOf slot) ∧
        signal.count = 0 ∧ signal.latched = false) ∧
    (∀ call blocking p signal first kernel progress, call.blocking = some blocking →
      w.place blocking = some p → w.signalAt p = some signal → signal.waiter = some first →
      w.scheduler.current ≠ some first → w.kernel.attempt call = .ok (kernel, progress) →
      progress.retries = true ∧ World.signalAt { w with kernel } p = some signal ∧
        ∀ slot, (kernel.scheduler.tasks.record slot).sleepCount = (w.record slot).sleepCount) ∧
    (∀ pointer s id t waiter, w.scheduler.suspend pointer = .ok (s, id) → id.isMainline = false →
      (s.record id).exiting = true →
      (s.update id TaskRecord.finished).unguard (s.record id).guardRegion = .ok t →
      (s.record id).completion.waiter = some waiter → t.Wakeable waiter) := by
  have hwaiters := h.waitersHeard
  refine ⟨?_, ?_, ?_, ?_⟩
  · intro p signal id hsignal hid
    obtain ⟨hcount, hlatched, blocking, hin, hplace⟩ :=
      hwaiters.heard.recorded p signal id hsignal hid
    exact ⟨hcount, hlatched, hwaiters.orderly.wakeable hin, blocking, hin, hplace⟩
  · intro slot hslot hstate blocking hinside
    have hpending := (hwaiters.orderly.fits slot hslot).asleep hstate
    obtain ⟨p, signal, hplace, hsignal, hid⟩ :=
      hwaiters.heard.asleep slot hslot hpending (by simp) blocking hinside
    obtain ⟨hcount, hlatched, _⟩ := hwaiters.heard.recorded p signal _ hsignal hid
    exact ⟨p, signal, hplace, hsignal, hid, hcount, hlatched⟩
  · intro call blocking p signal first kernel progress hblocking hplace hsignal hfirst hother hok
    have hcalled := Kernel.called_of_attempt hwaiters.orderly.standing hok
    exact hwaiters.heard.second hblocking hplace hsignal hfirst hother hcalled
  · intro pointer s id t waiter hsuspend htask hexiting hunguard hwaiter
    exact hwaiters.ended hsuspend htask hexiting hunguard hwaiter

def twoWaiters : Option (World Board) :=
  (World.start (Board.start Instant.zero) 1
    [Stack.blank (Board.pageBottom 0) 64, Stack.blank (Board.pageBottom 1) 64] 0).run
    [.call (.start 0 0 0), .reschedule Board.mainlinePointer,
      .call (.start 0 0 1), .reschedule (Board.pageBottom 0 + 200),
      .call .giveWay, .reschedule (Board.pageBottom 1 + 200),
      .call (.wait 0), .reschedule (Board.pageBottom 0 + 200)]

theorem no_lost_wakeup_twoWaiters :
    ∃ (w : World Board) (kernel : Kernel Board) (progress : Progress Unit), Reached w ∧
      (w.record 1).state = .sleeping ∧ w.scheduler.Wakeable ⟨1, 1⟩ ∧
      w.scheduler.current = some ⟨2, 2⟩ ∧
      w.kernel.attempt (.wait 0) = .ok (kernel, progress) ∧ progress.retries = true ∧
      World.signalAt { w with kernel } (.signal 0) = some ⟨0, some ⟨1, 1⟩, false⟩ := by
  cases hrun : twoWaiters with
  | none =>
      have hsome : twoWaiters.isSome = true := by decide
      rw [hrun] at hsome
      contradiction
  | some w =>
      have hreached : Reached w := (Reached.start _ _ _ _).run hrun
      obtain ⟨hrecorded, _, hsecond, _⟩ := hreached.no_lost_wakeup
      have hstate : twoWaiters.map (fun w => (w.record 1).state) = some .sleeping := by decide
      have hcurrent : twoWaiters.map (fun w => w.scheduler.current) = some (some ⟨2, 2⟩) := by
        decide
      have hsignals : twoWaiters.map (fun w => w.kernel.signals) =
          some [⟨0, some ⟨1, 1⟩, false⟩] := by decide
      have hattempt : twoWaiters.map (fun w => (w.kernel.attempt (.wait 0)).toOption.isSome) =
          some true := by decide
      rw [hrun, Option.map_some, Option.some.injEq] at hstate hcurrent hsignals hattempt
      obtain ⟨⟨kernel, progress⟩, hok⟩ := Option.isSome_iff_exists.mp hattempt
      rw [toOption_eq_some] at hok
      have hsignal : w.signalAt (.signal 0) = some ⟨0, some ⟨1, 1⟩, false⟩ := by
        simp only [signalAt, hsignals]
        rfl
      obtain ⟨_, _, hwakeable, _⟩ := hrecorded _ _ _ hsignal rfl
      have hother : w.scheduler.current ≠ some ⟨1, 1⟩ := by
        rw [hcurrent]
        decide
      obtain ⟨hretries, hkept, _⟩ := hsecond (.wait 0) (.wait 0) _ _ _ _ _ rfl rfl hsignal rfl
        hother hok
      exact ⟨w, kernel, progress, hreached, hstate, hwakeable, hcurrent, hok, hretries, hkept⟩

end World

end CoopTasks
