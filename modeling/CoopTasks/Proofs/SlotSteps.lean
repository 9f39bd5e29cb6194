import CoopTasks.Proofs.FailureFree
import CoopTasks.Proofs.Events
import CoopTasks.Proofs.Refusals

/-!
What a step of the world does to the task of one slot.

`World.Fared` lists everything that can happen.  A task falls asleep, or tries
to take a signal, only while it executes.  It is roused only for a cause: by
its name, by a signal that hands it back, or because its deadline is due.
-/

namespace CoopTasks

open Scheduler

/-! ## One record -/

/-- Nothing about the sleep of a task differs, except that it may have fallen asleep. -/
structure TaskRecord.SameSleep (r r' : TaskRecord) : Prop where
  count : r'.sleepCount = r.sleepCount
  wakeAt : r'.wakeAt = r.wakeAt
  generation : r'.generation = r.generation
  asleep : r.state = .sleeping → r'.state = .sleeping

namespace TaskRecord.SameSleep

variable {r r' r'' : TaskRecord}

theorem refl (r : TaskRecord) : r.SameSleep r :=
  ⟨rfl, rfl, rfl, id⟩

theorem of_eq (he : r' = r) : r.SameSleep r' := by
  rw [he]
  exact refl r

theorem trans (h : r.SameSleep r') (h' : r'.SameSleep r'') : r.SameSleep r'' :=
  ⟨h'.count.trans h.count, h'.wakeAt.trans h.wakeAt, h'.generation.trans h.generation,
    fun hasleep => h'.asleep (h.asleep hasleep)⟩

theorem woken (h : r.SameSleep r') : r.woken.SameSleep r'.woken :=
  ⟨congrArg (· - 1) h.count, rfl, h.generation, fun hasleep => absurd hasleep r.awake_woken⟩

end TaskRecord.SameSleep

namespace Scheduler

variable {H : Type} {s t u v : Scheduler H} {id : TaskId} {run sleep rest : List TaskId}
variable {change : TaskRecord → TaskRecord} {slot : Nat} {decision : Decision}

theorem Moved.sameSleep (h : Moved s id change run sleep t)
    (hchange : ∀ r, TaskRecord.SameSleep r (change r)) (slot : Nat) :
    (s.tasks.record slot).SameSleep (t.tasks.record slot) := by
  rw [h.record slot]
  split
  · exact hchange _
  · exact .refl _

/-- Whoever is in the run queue does not sleep, so it loses nothing when its state changes. -/
theorem Standing.sameSleep_queued (hs : s.Standing) (hmem : id ∈ s.runQueue)
    (haltered : Altered s id change t)
    (hchange : ∀ r, (change r).sleepCount = r.sleepCount ∧ (change r).wakeAt = r.wakeAt ∧
      (change r).generation = r.generation) (hslot : slot ∈ slots) :
    (s.tasks.record slot).SameSleep (t.tasks.record slot) := by
  rw [haltered slot]
  split
  · rename_i he
    subst he
    obtain ⟨hcount, hwakeAt, hgeneration⟩ := hchange (s.tasks.record id.index)
    refine ⟨hcount, hwakeAt, hgeneration, fun hasleep => ?_⟩
    change (s.record id).state = .sleeping at hasleep
    rcases hs.queued id hmem (mem_slots.mp hslot).1 with hstate | hstate
    · rw [hasleep] at hstate
      contradiction
    · rw [hasleep] at hstate
      contradiction
  · exact .refl _

theorem Dispatched.sameSleep (h : Dispatched s t decision) (hs : s.Standing)
    (hslot : slot ∈ slots) : (s.tasks.record slot).SameSleep (t.tasks.record slot) := by
  cases h with
  | resumed hhead _ hmoved _ =>
      exact hs.sameSleep_queued (List.mem_of_head? hhead) hmoved.altered
        (fun _ => ⟨rfl, rfl, rfl⟩) hslot
  | drained _ _ _ hmoved _ =>
      exact .of_eq (hmoved.other (mem_slots.mp hslot).1)
  | idle _ _ => exact .refl _

theorem Dispatched.hardware (h : Dispatched s t decision) : t.hardware = s.hardware := by
  cases h with
  | resumed _ _ _ hhardware | drained _ _ _ _ hhardware => exact hhardware
  | idle _ _ => rfl

variable [Hardware H] {pointer : Address}

theorem Suspended.sameSleep (h : Suspended s pointer id rest u) (hs : s.Standing)
    (hmoved : Moved u id change run sleep v)
    (hchange : ∀ r, (change r).sleepCount = r.sleepCount ∧ (change r).wakeAt = r.wakeAt ∧
      (change r).generation = r.generation) (hslot : slot ∈ slots) :
    (s.tasks.record slot).SameSleep (v.tasks.record slot) := by
  have hmem : id ∈ s.runQueue := by
    rw [h.runQueue]
    exact List.mem_cons_self
  exact hs.sameSleep_queued hmem (h.altered hmoved) (fun r => hchange (s.suspendedRecord pointer r))
    hslot

end Scheduler

/-! ## One slot -/

namespace World

open Hardware

variable {H : Type} [Hardware H] {w w' : World H} {event : Event} {slot : Nat} {id : TaskId}
variable {s t u v x : Scheduler H} {a b : TaskRecord} {p : Place} {signal signal' : Signal}
variable {kernel : Kernel H} {control : Control} {call : Call}

def Executes (w : World H) (slot : Nat) : Prop :=
  w.control = .executing ∧ w.scheduler.current = some (w.scheduler.idOf slot)

inductive Cause (w : World H) (event : Event) (w' : World H) (slot : Nat) : Prop
  | named : event.wakes (w.scheduler.idOf slot) = true → Cause w event w' slot
  | handedBack : w.Awaited slot → ¬w'.Awaited slot → Cause w event w' slot
  | due :
      (w.record slot).sleepCount = 1 →
      (w.record slot).wakeAt ≠ Instant.never →
      Due w.scheduler.hardware w'.scheduler.hardware (w.record slot).wakeAt →
      Cause w event w' slot

inductive Fared (w : World H) (event : Event) (w' : World H) (slot : Nat) : Prop
  | kept :
      (w.record slot).SameSleep (w'.record slot) →
      w'.inside slot = w.inside slot →
      (w'.Awaited slot → w.Awaited slot) →
      Fared w event w' slot
  | slept {deadline : Instant} :
      w.Executes slot →
      w.inside slot = none →
      w'.inside slot = none →
      ((w.record slot).countSleep deadline).SameSleep (w'.record slot) →
      Fared w event w' slot
  | tried :
      w.Executes slot →
      (w.record slot).SameSleep (w'.record slot) →
      (w'.Awaited slot → w.Awaited slot) →
      Fared w event w' slot
  | parked :
      w.Executes slot →
      ((w.record slot).countSleep Instant.never).SameSleep (w'.record slot) →
      Fared w event w' slot
  | roused :
      (w.record slot).woken.SameSleep (w'.record slot) →
      w'.inside slot = w.inside slot →
      (w'.Awaited slot → w.Awaited slot) →
      Cause w event w' slot →
      Fared w event w' slot
  | started :
      (w.record slot).state = .vacant ∨ (w.record slot).state = .exited →
      (w'.record slot).sleepCount = 0 →
      w'.inside slot = none →
      Fared w event w' slot

omit [Hardware H] in
theorem Orderly.count_of_sleeping (h : w.Orderly) (hslot : slot ∈ slots)
    (hasleep : (w.record slot).state = .sleeping) : (w.record slot).sleepCount = 1 := by
  have hfits := h.fits slot hslot
  have hpos := hfits.asleep hasleep
  have hle := hfits.count_le
  omega

theorem Fared.of_undisturbed (hbefore : (w.record slot).SameSleep a)
    (hbetween : a.Undisturbed (Due w.scheduler.hardware w'.scheduler.hardware) b)
    (hafter : b.SameSleep (w'.record slot)) (hone : a.state = .sleeping → a.sleepCount = 1)
    (hinside : w'.inside slot = w.inside slot) (hawaited : w'.Awaited slot → w.Awaited slot) :
    Fared w event w' slot := by
  rcases hbetween with rfl | ⟨hstate, htimed, hdue, rfl⟩
  · exact .kept (hbefore.trans hafter) hinside hawaited
  · refine .roused (hbefore.woken.trans hafter) hinside hawaited (.due ?_ ?_ ?_)
    · exact hbefore.count.symm.trans (hone hstate)
    · rwa [← hbefore.wakeAt]
    · rwa [← hbefore.wakeAt]

theorem WaitersHeard.fared_wakeWaiter (h : w.WaitersHeard) (hsignal : w.signalAt p = some signal)
    (hsignalAt : ∀ q, w'.signalAt q = if q = p then some signal' else w.signalAt q)
    (hnone : signal'.waiter = none) (hs : s.Standing)
    (hok : s.wakeWaiter signal.waiter = .ok t)
    (hbefore : (w.record slot).SameSleep (s.tasks.record slot))
    (hone : (s.tasks.record slot).state = .sleeping → (s.tasks.record slot).sleepCount = 1)
    (hbetween : (t.tasks.record slot).Undisturbed (Refuses t.hardware w'.scheduler.hardware) b)
    (hafter : b.SameSleep (w'.record slot)) (hfirst : Driven w.scheduler.hardware s.hardware)
    (hlast : Driven t.hardware w'.scheduler.hardware)
    (hinside : w'.inside slot = w.inside slot) : Fared w event w' slot := by
  have helsewhere : w'.Awaited slot → w.AwaitedElsewhere p slot := fun hawaited =>
    (awaited_of_replaced hsignalAt hawaited).resolve_left (by simp [hnone])
  by_cases hwaiter : ∃ id, signal.waiter = some id ∧ slot = id.index
  · obtain ⟨id, hid, rfl⟩ := hwaiter
    have hp : w.AwaitedAt p id.index := ⟨signal, id, hsignal, hid, rfl⟩
    rw [hid] at hok
    have hwoken : t.tasks.record id.index = (s.tasks.record id.index).woken := hs.record_wake hok
    rw [hwoken] at hbetween
    rw [hbetween.of_awake (TaskRecord.awake_woken _)] at hafter
    refine .roused (hbefore.woken.trans hafter) hinside (fun hq => (helsewhere hq).awaited)
      (.handedBack ⟨p, hp⟩ fun hq => ?_)
    obtain ⟨q, hne, hq⟩ := helsewhere hq
    exact hne (h.heard.awaited_once hq hp)
  · have hne : ∀ id, signal.waiter = some id → slot ≠ id.index := fun id hid he =>
      hwaiter ⟨id, hid, he⟩
    have hwake := (hs.undisturbed_wakeWaiter hok hne).mono fun _ hrefuses =>
      Due.within (.inr hrefuses) hfirst hlast
    have hlater := hbetween.mono fun _ hrefuses =>
      Due.within (.inr hrefuses) (hfirst.trans (hs.related_wakeWaiter alarmBlind_driven hok)) .none
    exact .of_undisturbed hbefore (hwake.trans hlater) hafter hone hinside
      fun hq => (helsewhere hq).awaited

/-! ## Wakes, signals and the alarm -/

theorem Orderly.fared_wake (h : w.Orderly) (hok : w.kernel.wake id = .ok kernel)
    (hevent : event.wakes id = true) (hslot : slot ∈ slots) :
    Fared w event ⟨kernel, control, w.inside⟩ slot := by
  have hs := h.standing
  obtain ⟨t, hwake, rfl⟩ := Kernel.ok_wake hok
  have hawaited : Awaited (w.withScheduler t) slot → w.Awaited slot := by
    obtain ⟨ids, hwakes⟩ := hs.wakes_of_wake hwake
    exact awaited_of_same (signalAt_eq rfl fun slot _ => hwakes.completion slot)
  by_cases he : slot = id.index
  · subst he
    obtain ⟨_, u, hwoke, _⟩ := hs.wake hwake
    have hidOf : w.scheduler.idOf id.index = id :=
      TaskId.ext_of_index (index_idOf _ (mem_slots.mp hslot).2) hwoke.current.symm
    refine .roused (.of_eq (hs.record_wake hwake)) rfl hawaited (.named ?_)
    rwa [hidOf]
  · exact .of_undisturbed (.refl _) ((hs.undisturbed_wake hwake he).mono fun _ => .inr) (.refl _)
      (h.count_of_sleeping hslot) rfl hawaited

theorem WaitersHeard.fared_post (h : w.WaitersHeard) {number : Nat}
    (hok : w.kernel.post number = .ok kernel)
    (hslot : slot ∈ slots) : Fared w event ⟨kernel, control, w.inside⟩ slot := by
  have hs := h.orderly.standing
  obtain ⟨signal, t, hsignal, hwake, rfl⟩ := Kernel.ok_post hok
  obtain ⟨ids, hwakes⟩ := hs.wakes_of_wakeWaiter hwake
  exact h.fared_wakeWaiter (p := .signal number) hsignal
    (fun _ => signalAt_setSignal hsignal rfl fun slot _ => hwakes.completion slot) rfl hs hwake
    (.refl _) (h.orderly.count_of_sleeping hslot) (.refl _ _) (.refl _) .none .none rfl

theorem Orderly.fared_alarm (h : w.Orderly) (hok : w.scheduler.handleAlarm = .ok t)
    (hslot : slot ∈ slots) : Fared w event (w.withScheduler t) slot := by
  have hs := h.standing
  obtain ⟨ids, hwakes⟩ := hs.wakes_of_handleAlarm hok
  exact .of_undisturbed (.refl _) (hs.undisturbed_handleAlarm hok slot) (.refl _)
    (h.count_of_sleeping hslot) rfl
    (awaited_of_same (signalAt_eq rfl fun slot _ => hwakes.completion slot))

/-! ## Calls -/

theorem Orderly.fared_tried (h : w.Orderly) (hexec : w.control = .executing)
    {blocking : Blocking} {retries : Bool} {result : WaitResult}
    (htried : Tried w w' call blocking p signal signal' retries)
    (hattempted : Attempted w.scheduler signal t signal' result)
    (hafter : (t.tasks.record slot).SameSleep (w'.record slot)) (hslot : slot ∈ slots) :
    Fared w event w' slot := by
  have hkept : signal'.waiter = signal.waiter → w'.Awaited slot → w.Awaited slot :=
    awaited_of_kept htried.found htried.signalAt
  by_cases hself : w.scheduler.current = some (w.scheduler.idOf slot)
  · cases hattempted with
    | acquired htake =>
        refine .tried ⟨hexec, hself⟩ hafter (hkept ?_)
        have hwaiter := signal.waiter_tryTake
        rwa [htake] at hwaiter
    | busy _ _ _ _ _ => exact .tried ⟨hexec, hself⟩ hafter (hkept rfl)
    | @parked _ id hid _ _ _ _ hmoved _ =>
        obtain rfl := Option.some.inj (hself.symm.trans hid)
        have hrecord : t.tasks.record slot = (w.record slot).countSleep Instant.never := by
          refine (hmoved.record slot).trans (if_pos ?_)
          exact (index_idOf _ (mem_slots.mp hslot).2).symm
        rw [hrecord] at hafter
        exact .parked ⟨hexec, hself⟩ hafter
  · have hne : ∀ id, w.scheduler.current = some id → slot ≠ id.index := by
      rintro id hid rfl
      exact hself (hid.trans (congrArg some (h.caller hexec hid).idOf.symm))
    have hinside : w'.inside slot = w.inside slot := by
      rw [htried.inside, insideAfter_of_ne hne]
    cases hattempted with
    | acquired htake =>
        refine .kept hafter hinside (hkept ?_)
        have hwaiter := signal.waiter_tryTake
        rwa [htake] at hwaiter
    | busy _ _ _ _ _ => exact .kept hafter hinside (hkept rfl)
    | @parked _ id hid _ _ _ _ hmoved _ =>
        rw [hmoved.other (hne id hid)] at hafter
        refine .kept hafter hinside fun hawaited => ?_
        rcases awaited_of_replaced htried.signalAt hawaited with ⟨id', hid', rfl⟩ | helsewhere
        · obtain rfl := Option.some.inj hid'
          exact absurd rfl (hne _ hid)
        · exact helsewhere.awaited

theorem Orderly.fared_started (h : w.Orderly) {hardware : H} {stack : StackRange}
    {pointer : Address}
    (hstarted : Started { w.scheduler with hardware } stack pointer id kernel.scheduler)
    (hsignals : kernel.signals = w.kernel.signals)
    (hranges : Kernel.SameRanges w.kernel kernel) (hslot : slot ∈ slots) :
    Fared w event ⟨kernel, control, w.inside⟩ slot := by
  have hbegan : Began w ⟨kernel, control, w.inside⟩ id := h.began hstarted rfl hsignals hranges rfl
  by_cases he : slot = id.index
  · subst he
    exact .started hstarted.gone hbegan.sleepCount hbegan.outside
  · refine .kept (.of_eq (hbegan.record slot hslot he)) rfl ?_
    rintro ⟨q, signal, waiter, hsignal, hwaiter, rfl⟩
    have hq : q ≠ .completion id.index := by
      rintro rfl
      rw [World.signalAt, if_pos hbegan.slot, Option.some.injEq] at hsignal
      rw [← hsignal, hbegan.completion] at hwaiter
      contradiction
    exact ⟨q, signal, waiter, (hbegan.signalAt hq).symm.trans hsignal, hwaiter, rfl⟩

theorem WaitersHeard.fared_called (h : w.WaitersHeard) (hexec : w.control = .executing)
    (hmay : w.MayCall call) {retries : Bool} (hcalled : w.kernel.Called call kernel control retries)
    (hslot : slot ∈ slots) :
    Fared w (.call call) ⟨kernel, control, w.insideAfter call retries⟩ slot := by
  have ho := h.orderly
  cases hcalled with
  | quiet hcall _ hscheduler hsignals _ =>
      rw [insideAfter_of_none hmay hcall]
      have hrecord : ∀ slot, kernel.scheduler.tasks.record slot = w.record slot := fun slot =>
        congrArg (fun s : Scheduler H => s.tasks.record slot) hscheduler
      exact .kept (.of_eq (hrecord slot)) rfl (awaited_of_same (signalAt_eq hsignals fun slot _ =>
        congrArg TaskRecord.completion (hrecord slot)))
  | started hcall hstarted hsignals hranges =>
      rw [insideAfter_of_none hmay hcall]
      exact ho.fared_started hstarted hsignals hranges hslot
  | exiting hcall hcurrent hmoved =>
      rw [insideAfter_of_none hmay hcall]
      exact .kept (hmoved.sameSleep (fun _ => ⟨rfl, rfl, rfl, id⟩) slot) rfl
        (awaited_of_same (signalAt_eq rfl fun slot _ =>
          hmoved.field TaskRecord.completion (fun _ => rfl) slot))
  | @asleep _ t deadline id hcall hcurrent hmoved =>
      have houtside := hmay.inside_none hcall hcurrent
      rw [insideAfter_of_none hmay hcall]
      by_cases he : slot = id.index
      · subst he
        refine .slept ⟨hexec, ?_⟩ houtside houtside (.of_eq hmoved.self)
        exact hcurrent.trans (congrArg some (ho.caller hexec hcurrent).idOf.symm)
      · exact .kept (.of_eq (hmoved.other he)) rfl
          (awaited_of_same (signalAt_eq rfl fun slot _ =>
            hmoved.field TaskRecord.completion (fun _ => rfl) slot))
  | waited hsignal hattempted =>
      exact ho.fared_tried hexec (tried_of_waited hsignal hattempted) hattempted (.refl _) hslot
  | joined htarget _ hattempted hmoved =>
      exact ho.fared_tried hexec (tried_of_joined htarget hattempted hmoved) hattempted
        (hmoved.sameSleep (fun _ => ⟨rfl, rfl, rfl, id⟩) slot) hslot
  | woken hok =>
      rw [insideAfter_of_none hmay rfl]
      exact ho.fared_wake hok (decide_eq_true rfl) hslot
  | posted hok =>
      rw [insideAfter_of_none hmay rfl]
      exact h.fared_post hok hslot
  | @took number signal hsignal =>
      rw [insideAfter_of_none hmay rfl]
      exact .kept (.refl _) rfl (awaited_of_kept (p := .signal number) hsignal
        (fun _ => signalAt_setSignal hsignal rfl fun _ _ => rfl) signal.waiter_tryTake)
  | @tried _ target t htarget hmoved =>
      obtain ⟨htaken, _⟩ := taskOn_spec htarget
      rw [insideAfter_of_none hmay rfl]
      refine .kept (hmoved.sameSleep (fun _ => ⟨rfl, rfl, rfl, id⟩) slot) rfl
        (awaited_of_kept (p := .completion target.index) (if_pos htaken) (fun _ =>
          signalAt_withCompletion htaken rfl (congrArg TaskRecord.completion hmoved.self)
            fun slot he => congrArg TaskRecord.completion (hmoved.other he)) ?_)
      exact Signal.waiter_tryTake _

/-! ## Switches -/

theorem WaitersHeard.fared_switched (h : w.WaitersHeard) {pointer : Address} {decision : Decision}
    {rest woken : List TaskId}
    (hswitched : Switched w.scheduler pointer t decision id rest woken u v x)
    (hslot : slot ∈ slots) : Fared w event { w.withScheduler t with control } slot := by
  have hs := h.orderly.standing
  have hsuspended := hswitched.suspended
  have hv := h.orderly.settled hsuspended hswitched.settled
  have hafter := hswitched.dispatched.sameSleep hswitched.standing.2.1 hslot
  have hlast := hswitched.rearmed.driven
  have hrearmed := hswitched.rearmed.undisturbed slot
  rw [← hswitched.dispatched.hardware] at hlast hrearmed
  have hself : u.record id = w.scheduler.suspendedRecord pointer (w.record id.index) :=
    hsuspended.self
  have hkept (hstays : ¬(id.index ≠ 0 ∧ (w.record id.index).exiting = true)) :
      Awaited { w.withScheduler t with control } slot → w.Awaited slot :=
    awaited_of_same (signalAt_eq rfl fun m _ =>
      (hswitched.completion m).trans (if_neg fun he => hstays he.2))
  have settled {change : TaskRecord → TaskRecord} {run sleep : List TaskId}
      (hmoved : Moved u id change run sleep v)
      (hchange : ∀ r, (change r).sleepCount = r.sleepCount ∧ (change r).wakeAt = r.wakeAt ∧
        (change r).generation = r.generation)
      (hhardware : v.hardware = u.hardware)
      (hstays : ¬(id.index ≠ 0 ∧ (w.record id.index).exiting = true)) :
      Fared w event { w.withScheduler t with control } slot := by
    have hdriven : Driven w.scheduler.hardware v.hardware :=
      .of_eq (hhardware.trans hsuspended.hardware)
    have hdue := hrearmed.mono fun _ hrefuses => Due.within (.inr hrefuses) hdriven .none
    exact .of_undisturbed (hsuspended.sameSleep hs hmoved hchange hslot) hdue hafter
      (hv.count_of_sleeping hslot) rfl (hkept hstays)
  cases hswitched.settled with
  | parked hid hmoved hhardware =>
      exact settled hmoved (fun _ => ⟨rfl, rfl, rfl⟩) hhardware fun he => he.1 hid
  | asleep _ _ hexiting _ hmoved hhardware | requeued _ _ hexiting _ hmoved hhardware =>
      refine settled hmoved (fun _ => ⟨rfl, rfl, rfl⟩) hhardware fun he => ?_
      rw [hself] at hexiting
      exact Bool.false_ne_true (hexiting.symm.trans he.2)
  | @finished y _ hid hlive hexiting hawake hmoved hhardware hwake =>
      have hends : id.index ∈ slots := mem_slots.mpr ⟨hid, hsuspended.index_lt hs⟩
      have hy := h.orderly.finished hsuspended hlive hexiting hawake hmoved
      have hdriven : Driven w.scheduler.hardware y.hardware := by
        rw [← show u.hardware = w.scheduler.hardware from hsuspended.hardware]
        rcases hhardware with hsame | ⟨region, hunguard⟩
        · exact .of_eq hsame
        · exact Driven.none.unguardStack hunguard
      rw [hself] at hexiting hwake
      have hsignalAt (q : Place) : World.signalAt { w.withScheduler t with control } q =
          if q = .completion id.index then some (w.record id.index).completion.latch.1
          else w.signalAt q :=
        signalAt_withCompletion hends rfl
          ((hswitched.completion id.index).trans (if_pos ⟨rfl, hid, hexiting⟩))
          fun m hm => (hswitched.completion m).trans (if_neg fun he => hm he.1)
      have hfound : w.signalAt (.completion id.index) = some (w.record id.index).completion :=
        if_pos hends
      exact h.fared_wakeWaiter hfound hsignalAt rfl hmoved.standing hwake
        (hsuspended.sameSleep hs hmoved (fun _ => ⟨rfl, rfl, rfl⟩) hslot)
        (hy.count_of_sleeping hslot) hrearmed hafter hdriven hlast rfl

/-! ## Steps -/

theorem WaitersHeard.fared (h : w.WaitersHeard) (hoccurs : Occurs w event w')
    (hslot : slot ∈ slots) :
    Fared w event w' slot := by
  have ho := h.orderly
  cases hoccurs with
  | call hexec hmay hok =>
      exact h.fared_called hexec hmay (Kernel.called_of_attempt ho.standing hok) hslot
  | wake hok => exact ho.fared_wake hok (decide_eq_true rfl) hslot
  | post hok => exact h.fared_post hok hslot
  | alarm hok => exact ho.fared_alarm hok hslot
  | elapse => exact .kept (.refl _) rfl (awaited_of_same (signalAt_eq rfl fun _ _ => rfl))
  | reschedule _ hok =>
      obtain ⟨id, rest, woken, u, v, x, hswitched⟩ := ho.standing.reschedule hok
      exact h.fared_switched hswitched hslot
  | dispatch _ hok =>
      have hdispatched := ho.standing.dispatch hok
      exact .kept (hdispatched.sameSleep ho.standing hslot) rfl
        (awaited_of_same (signalAt_eq rfl fun m _ =>
          hdispatched.field TaskRecord.completion (fun _ _ => rfl) m))

end World

end CoopTasks
