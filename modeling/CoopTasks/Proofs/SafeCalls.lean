import CoopTasks.Proofs.Draining
import CoopTasks.Proofs.SafeStarts

/-!
Calls that cannot fail.

A slot is awaited while a signal has its task recorded as the waiter, and each
task is recorded once at most.  So the waiter that a signal hands back is
nobody's any more, and can be woken.
-/

namespace CoopTasks

open Scheduler

/-! ## Who is awaited -/

namespace World

variable {H : Type} {w w' : World H} {s t : Scheduler H} {id : TaskId} {called : Option TaskId}
variable {p q : Place} {signal signal' : Signal} {slot : Nat}

def AwaitedAt (w : World H) (p : Place) (slot : Nat) : Prop :=
  ∃ signal id, w.signalAt p = some signal ∧ signal.waiter = some id ∧ id.index = slot

def Awaited (w : World H) (slot : Nat) : Prop :=
  ∃ p, w.AwaitedAt p slot

def AwaitedElsewhere (w : World H) (p : Place) (slot : Nat) : Prop :=
  ∃ q, q ≠ p ∧ w.AwaitedAt q slot

theorem AwaitedElsewhere.awaited (h : w.AwaitedElsewhere p slot) : w.Awaited slot := by
  obtain ⟨q, _, hq⟩ := h
  exact ⟨q, hq⟩

theorem awaited_of_same (hsignalAt : ∀ q, w'.signalAt q = w.signalAt q) (h : w'.Awaited slot) :
    w.Awaited slot := by
  obtain ⟨q, signal, id, hsignal, hid⟩ := h
  exact ⟨q, signal, id, (hsignalAt q).symm.trans hsignal, hid⟩

theorem awaited_of_replaced
    (hsignalAt : ∀ q, w'.signalAt q = if q = p then some signal' else w.signalAt q)
    (h : w'.Awaited slot) :
    (∃ id, signal'.waiter = some id ∧ id.index = slot) ∨ w.AwaitedElsewhere p slot := by
  obtain ⟨q, signal, id, hsignal, hid⟩ := h
  rw [hsignalAt] at hsignal
  by_cases hq : q = p
  · rw [if_pos hq, Option.some.injEq] at hsignal
    exact .inl ⟨id, hsignal ▸ hid⟩
  · rw [if_neg hq] at hsignal
    exact .inr ⟨q, hq, signal, id, hsignal, hid⟩

theorem awaited_of_kept (hsignal : w.signalAt p = some signal)
    (hsignalAt : ∀ q, w'.signalAt q = if q = p then some signal' else w.signalAt q)
    (hwaiter : signal'.waiter = signal.waiter) (h : w'.Awaited slot) : w.Awaited slot := by
  rcases awaited_of_replaced hsignalAt h with ⟨id, hid, hslot⟩ | helsewhere
  · exact ⟨p, signal, id, hsignal, hwaiter ▸ hid, hslot⟩
  · exact helsewhere.awaited

theorem Heard.inside_of_awaited (h : w.Heard called) (hp : w.AwaitedAt p slot) :
    ∃ blocking, w.inside slot = some blocking ∧ w.place blocking = some p := by
  obtain ⟨signal, id, hsignal, hid, rfl⟩ := hp
  obtain ⟨_, _, blocking, hin, hplace⟩ := h.recorded p signal id hsignal hid
  exact ⟨blocking, hin.inside, hplace⟩

theorem WaitersHeard.not_awaited (h : w.WaitersHeard) (houtside : w.inside slot = none) :
    ¬w.Awaited slot := by
  rintro ⟨p, hp⟩
  obtain ⟨blocking, hinside, _⟩ := h.heard.inside_of_awaited hp
  rw [houtside] at hinside
  contradiction

theorem Heard.awaited_once (h : w.Heard called) (hp : w.AwaitedAt p slot)
    (hq : w.AwaitedAt q slot) : p = q := by
  obtain ⟨blocking, hinside, hplace⟩ := h.inside_of_awaited hp
  obtain ⟨other, hinside', hplace'⟩ := h.inside_of_awaited hq
  obtain rfl := Option.some.inj (hinside.symm.trans hinside')
  exact Option.some.inj (hplace.symm.trans hplace')

/-- The waiter of a signal sleeps, and nobody awaits it once the signal has handed it back. -/
theorem WaitersHeard.dozes [SteadyHardware H] (h : w.WaitersHeard) {awaited : Nat → Prop}
    (hfree : w.scheduler.FaultFree w.Awaited)
    (hsignal : w.signalAt p = some signal) (hwaiter : signal.waiter = some id)
    (hawaited : ∀ slot, awaited slot → w.AwaitedElsewhere p slot) :
    w.scheduler.Dozes awaited id := by
  have hp : w.AwaitedAt p id.index := ⟨signal, id, hsignal, hwaiter, rfl⟩
  obtain ⟨_, _, blocking, hin, _⟩ := h.heard.recorded p signal id hsignal hwaiter
  obtain ⟨_, hoccupied⟩ := (h.orderly.fits id.index hin.slot).live (by rw [hin.inside]; simp)
  refine ⟨hin.slot, hin.current, hoccupied, ((hfree.tasks id.index hin.slot).awaited ⟨p, hp⟩).1, ?_⟩
  intro helsewhere
  obtain ⟨q, hne, hq⟩ := hawaited id.index helsewhere
  exact hne (h.heard.awaited_once hq hp)

end World

/-! ## What the executing task does to itself -/

namespace Scheduler

variable {H : Type} {s t : Scheduler H} {id : TaskId} {signal signal' : Signal}
variable {awaited awaited' : Nat → Prop} {ids : List TaskId} {rest run sleep : List TaskId}

theorem Wakes.completion (h : Wakes s ids t) (slot : Nat) :
    (t.tasks.record slot).completion = (s.tasks.record slot).completion := by
  refine h.preserves (P := fun t =>
    (t.tasks.record slot).completion = (s.tasks.record slot).completion) ?_ ?_ rfl
  · intro t u hmoved ht
    rw [hmoved.tasks]
    exact ht
  · intro t id u hwoke ht
    refine Eq.trans (congrArg TaskRecord.completion (hwoke.record slot)) ?_
    split
    · exact ht
    · exact ht

theorem attemptWait_spec {result : WaitResult}
    (hok : s.attemptWait signal = .ok (t, signal', result)) :
    t = s ∧ signal'.waiter = signal.waiter ∨
      ∃ id, s.current = some id ∧ s.markAsleep Instant.never = .ok t ∧
        signal'.waiter = some id := by
  unfold attemptWait at hok
  have htaken := signal.waiter_tryTake
  rcases htake : signal.tryTake with ⟨left, taken⟩
  rw [htake] at hok htaken
  dsimp only at hok htaken
  split at hok
  · obtain ⟨rfl, he⟩ := Prod.mk.inj (Except.ok.inj hok)
    obtain ⟨rfl, _⟩ := Prod.mk.inj he
    exact .inl ⟨rfl, htaken⟩
  · simp only [bind_eq_ok, demand_eq_ok] at hok
    obtain ⟨id, hcurrent, hok⟩ := hok
    split at hok
    · rename_i enlisted henlist
      simp only [bind_eq_ok, pure_eq_ok, Prod.mk.injEq] at hok
      obtain ⟨u, hmark, rfl, rfl, _⟩ := hok
      refine .inr ⟨id, hcurrent, hmark, ?_⟩
      unfold Signal.enlist at henlist
      split at henlist
      · obtain rfl := Except.ok.inj henlist
        rfl
      · rename_i other hother
        split at henlist
        · rename_i he
          obtain rfl := Except.ok.inj henlist
          rw [hother, he]
        · contradiction
    · obtain ⟨rfl, he⟩ := Prod.mk.inj (Except.ok.inj hok)
      obtain ⟨rfl, _⟩ := Prod.mk.inj he
      exact .inl ⟨rfl, htaken⟩

section Steady

variable [SteadyHardware H]

theorem FaultFree.markExiting (h : s.FaultFree awaited) (hs : s.Standing) {code : UInt32}
    (hcaller : ∀ id, s.current = some id → (s.record id).sleepCount = 0)
    (hok : s.markExiting code = .ok t) : t.FaultFree awaited := by
  obtain ⟨id, hcurrent, rfl⟩ := markExiting_eq_ok hok
  refine h.altered (.of_eq rfl rfl) (altered_update s (hs.current hcurrent).2.2 _) (fun _ => rfl)
    (fun _ => rfl) ?_ fun _ _ _ hawaited => hawaited
  intro hslot
  exact (h.tasks id.index hslot).exit (hcaller id hcurrent) code

theorem FaultFree.markAsleep (h : s.FaultFree awaited) (hs : s.Standing) {deadline : Instant}
    (hcaller : ∀ id, s.current = some id →
      (s.record id).sleepCount = 0 ∧ (s.record id).exiting = false)
    (hself : ∀ id, s.current = some id → awaited' id.index → deadline = Instant.never)
    (hother : ∀ slot, (∀ id, s.current = some id → slot ≠ id.index) →
      awaited' slot → awaited slot)
    (hok : s.markAsleep deadline = .ok t) : t.FaultFree awaited' := by
  obtain ⟨id, hcurrent, _, rfl⟩ := markAsleep_eq_ok hok
  refine h.altered (.of_eq rfl rfl) (altered_update s (hs.current hcurrent).2.2 _) (fun _ => rfl)
    (fun _ => rfl) ?_ ?_
  · intro hslot
    obtain ⟨hzero, hexiting⟩ := hcaller id hcurrent
    exact (h.tasks id.index hslot).countSleep hzero hexiting (hself id hcurrent)
  · intro slot _ hne
    apply hother slot
    intro id' hcurrent'
    rw [← Option.some.inj (hcurrent.symm.trans hcurrent')]
    exact hne

theorem FaultFree.attemptWait (h : s.FaultFree awaited) (hs : s.Standing) {result : WaitResult}
    (hcaller : ∀ id, s.current = some id →
      (s.record id).sleepCount = 0 ∧ (s.record id).exiting = false)
    (hbefore : ∀ id, signal.waiter = some id → awaited id.index)
    (hafter : ∀ slot, awaited' slot →
      (∃ id, signal'.waiter = some id ∧ id.index = slot) ∨ awaited slot)
    (hok : s.attemptWait signal = .ok (t, signal', result)) : t.FaultFree awaited' := by
  rcases attemptWait_spec hok with ⟨rfl, hwaiter⟩ | ⟨id, hcurrent, hmark, hwaiter⟩
  · apply h.mono
    intro slot _ hawaited
    rcases hafter slot hawaited with ⟨id, hid, rfl⟩ | hawaited
    · exact hbefore id (hwaiter ▸ hid)
    · exact hawaited
  · refine h.markAsleep hs hcaller (fun _ _ _ => rfl) ?_ hmark
    intro slot hne hawaited
    rcases hafter slot hawaited with ⟨id', hid, rfl⟩ | hawaited
    · rw [hwaiter, Option.some.injEq] at hid
      exact absurd (hid ▸ rfl) (hne id hcurrent)
    · exact hawaited

theorem FaultFree.withCompletion (h : s.FaultFree awaited) (hlt : id.index < slotCount)
    (completion : Signal) : (s.withCompletion id completion).FaultFree awaited := by
  refine h.altered (.of_eq rfl rfl) (altered_update s hlt _) (fun _ => rfl) (fun _ => rfl) ?_
    fun _ _ _ hawaited => hawaited
  intro hslot
  exact (h.tasks id.index hslot).withCompletion completion

end Steady

end Scheduler

/-! ## The calls -/

namespace World

variable {H : Type} [SteadyHardware H] {w : World H} {kernel : Kernel H} {id : TaskId}

theorem WaitersHeard.caller_awake (h : w.WaitersHeard) (hfree : w.scheduler.FaultFree w.Awaited)
    (hexec : w.control = .executing) (hcurrent : w.scheduler.current = some id) :
    (w.scheduler.record id).sleepCount = 0 ∧ (w.scheduler.record id).exiting = false := by
  have hcaller := h.orderly.caller hexec hcurrent
  refine ⟨?_, hcaller.exiting⟩
  have hle : (w.scheduler.record id).sleepCount ≤ 0 := hcaller.count
  rcases (hfree.tasks id.index hcaller.slot).count with hzero | hone
  · exact hzero
  · change (w.scheduler.record id).sleepCount = 1 at hone
    omega

/-- A post never fails, and whom it has woken is not awaited any more. -/
theorem WaitersHeard.posted (h : w.WaitersHeard) (hfree : w.scheduler.FaultFree w.Awaited)
    {number : Nat} (hlt : number < w.kernel.signals.length) :
    ∃ kernel, w.kernel.post number = .ok kernel ∧
      kernel.scheduler.FaultFree (Awaited { w with kernel }) := by
  have hs := h.orderly.standing
  obtain ⟨signal, hsignal⟩ : ∃ signal, w.kernel.signals[number]? = some signal :=
    ⟨_, List.getElem?_eq_getElem hlt⟩
  have hsignalAt : w.signalAt (.signal number) = some signal := hsignal
  have helsewhere : w.scheduler.FaultFree (w.AwaitedElsewhere (.signal number)) :=
    hfree.mono fun _ _ hawaited => hawaited.awaited
  obtain ⟨t, hwake, _, ht⟩ := helsewhere.wakeWaiter hs fun id hid =>
    h.dozes hfree hsignalAt hid fun _ hawaited => hawaited
  refine ⟨(w.withScheduler t).kernel.setSignal number signal.post.1, ?_, ?_⟩
  · have hrequired : w.kernel.requireSignal number = .ok signal := demand_eq_ok.mpr hsignal
    have hposted : w.scheduler.post signal = .ok (t, signal.post.1) :=
      bind_eq_ok.mpr ⟨t, hwake, rfl⟩
    exact bind_eq_ok.mpr ⟨signal, hrequired, bind_eq_ok.mpr ⟨_, hposted, rfl⟩⟩
  · obtain ⟨ids, hwakes⟩ := hs.wakes_of_wakeWaiter hwake
    have hafter (q : Place) :
        World.signalAt
          { w with kernel := (w.withScheduler t).kernel.setSignal number signal.post.1 }
          q = if q = .signal number then some signal.post.1 else w.signalAt q :=
      signalAt_setSignal hsignal rfl fun slot _ => hwakes.completion slot
    apply ht.mono
    intro slot _ hawaited
    exact (awaited_of_replaced hafter hawaited).resolve_left nofun

theorem WaitersHeard.started (h : w.WaitersHeard) (hfree : w.scheduler.FaultFree w.Awaited)
    {number : Nat} (hbegun : Kernel.Begun w.kernel number kernel id)
    (hranges : Kernel.SameRanges w.kernel kernel) (husable : (w.kernel.rangeAt number).Usable) :
    kernel.scheduler.FaultFree (Awaited { w with kernel }) := by
  obtain ⟨hardware, hhardware, hstarted⟩ := hbegun.started
  have hbegan : Began w { w with kernel } id :=
    h.orderly.began hstarted rfl hbegun.signals hranges rfl
  have honward : Hardware.Onward w.scheduler.hardware hardware := by
    rcases hhardware with rfl | rfl
    · exact .refl _
    · exact SteadyHardware.readyDecisionStack_onward _
  have hawaited : ∀ slot, Awaited { w with kernel } slot → w.Awaited slot := by
    rintro slot ⟨q, signal, waiter, hsignal, hwaiter, rfl⟩
    have hq : q ≠ .completion id.index := by
      rintro rfl
      rw [World.signalAt, if_pos hbegan.slot, Option.some.injEq] at hsignal
      rw [← hsignal, hbegan.completion] at hwaiter
      contradiction
    exact ⟨q, signal, waiter, (hbegan.signalAt hq).symm.trans hsignal, hwaiter, rfl⟩
  refine hfree.began hstarted honward (Stack.holds_freshPointer husable) ?_
    fun slot _ _ => hawaited slot
  intro hself
  obtain ⟨p, hp⟩ := hawaited id.index hself
  obtain ⟨blocking, hinside, _⟩ := h.heard.inside_of_awaited hp
  rw [hbegan.outside] at hinside
  contradiction

theorem WaitersHeard.faultFree_exit (h : w.WaitersHeard) (hfree : w.scheduler.FaultFree w.Awaited)
    (hexec : w.control = .executing) {code : UInt32} {progress : Progress Empty}
    (hok : w.kernel.exit code = .ok (kernel, progress)) :
    kernel.scheduler.FaultFree (Awaited { w with kernel }) := by
  have hs := h.orderly.standing
  simp only [Kernel.exit, bind_eq_ok, pure_eq_ok, Prod.mk.injEq] at hok
  obtain ⟨t, hmark, rfl, _⟩ := hok
  have ht := hfree.markExiting hs (fun _ hid => (h.caller_awake hfree hexec hid).1) hmark
  obtain ⟨id, _, _, hmoved⟩ := hs.markExiting hmark
  refine ht.mono fun slot _ => awaited_of_same (signalAt_eq rfl fun slot _ => ?_)
  exact hmoved.field TaskRecord.completion (fun _ => rfl) slot

theorem WaitersHeard.faultFree_sleepUntil (h : w.WaitersHeard)
    (hfree : w.scheduler.FaultFree w.Awaited)
    (hexec : w.control = .executing) {deadline : Instant} {progress : Progress Unit}
    (hmay : w.MayCall (.sleepUntil deadline))
    (hok : w.kernel.sleepUntil deadline = .ok (kernel, progress)) :
    kernel.scheduler.FaultFree (Awaited { w with kernel }) := by
  have hs := h.orderly.standing
  simp only [Kernel.sleepUntil, bind_eq_ok, pure_eq_ok, Prod.mk.injEq] at hok
  obtain ⟨t, hmark, rfl, _⟩ := hok
  obtain ⟨id, _, _, _, hmoved⟩ := hs.markAsleep hmark
  have hsame : ∀ slot, Awaited (w.withScheduler t) slot → w.Awaited slot := fun slot =>
    awaited_of_same (signalAt_eq rfl fun slot _ =>
      hmoved.field TaskRecord.completion (fun _ => rfl) slot)
  refine hfree.markAsleep hs (fun _ => h.caller_awake hfree hexec) ?_ (fun slot _ => hsame slot)
    hmark
  intro id hcurrent hawaited
  obtain ⟨p, hp⟩ := hsame id.index hawaited
  obtain ⟨blocking, hinside, _⟩ := h.heard.inside_of_awaited hp
  rw [hmay.inside_none rfl hcurrent] at hinside
  contradiction

theorem WaitersHeard.faultFree_wait (h : w.WaitersHeard) (hfree : w.scheduler.FaultFree w.Awaited)
    (hexec : w.control = .executing) {number : Nat} {progress : Progress Unit}
    (hok : w.kernel.wait number = .ok (kernel, progress)) :
    kernel.scheduler.FaultFree (Awaited { w with kernel }) := by
  have hs := h.orderly.standing
  simp only [Kernel.wait, Kernel.requireSignal, bind_eq_ok, demand_eq_ok, pure_eq_ok,
    Prod.mk.injEq, Prod.exists] at hok
  obtain ⟨signal, hsignal, t, signal', result, hattempt, rfl, _⟩ := hok
  have htried := tried_of_waited hsignal (hs.attemptWait hattempt)
  refine hfree.attemptWait hs (fun _ => h.caller_awake hfree hexec) ?_ ?_ hattempt
  · exact fun id hid => ⟨.signal number, signal, id, hsignal, hid, rfl⟩
  · exact fun slot hawaited =>
      (awaited_of_replaced htried.signalAt hawaited).imp_right fun he => he.awaited

theorem WaitersHeard.faultFree_join (h : w.WaitersHeard) (hfree : w.scheduler.FaultFree w.Awaited)
    (hexec : w.control = .executing) {number : Nat} {progress : Progress UInt32}
    (hok : w.kernel.join number = .ok (kernel, progress)) :
    kernel.scheduler.FaultFree (Awaited { w with kernel }) := by
  have hs := h.orderly.standing
  simp only [Kernel.join, attemptJoin, bind_eq_ok, demand_eq_ok, pure_eq_ok, Prod.mk.injEq,
    Prod.exists] at hok
  obtain ⟨target, htarget, _, result, ⟨_, _, _, _, _, _, t, completion, _, hattempt, rfl, rfl⟩,
    rfl, _⟩ := hok
  obtain ⟨hslot, _⟩ := taskOn_spec htarget
  have hlt := (Scheduler.mem_slots.mp hslot).2
  have hattempted := hs.attemptWait hattempt
  have htried := tried_of_joined htarget hattempted
    ((hattempted.standing hs).withCompletion hlt completion)
  have ht : t.FaultFree (Awaited (w.withScheduler (t.withCompletion target completion))) := by
    refine hfree.attemptWait hs (fun _ => h.caller_awake hfree hexec) ?_ ?_ hattempt
    · exact fun id hid => ⟨.completion target.index, _, id, htried.found, hid, rfl⟩
    · exact fun slot hawaited =>
        (awaited_of_replaced htried.signalAt hawaited).imp_right fun he => he.awaited
  exact ht.withCompletion hlt completion

theorem WaitersHeard.faultFree_post (h : w.WaitersHeard) (hfree : w.scheduler.FaultFree w.Awaited)
    {number : Nat} (hok : w.kernel.post number = .ok kernel) :
    kernel.scheduler.FaultFree (Awaited { w with kernel }) := by
  obtain ⟨_, _, hsignal, _⟩ := Kernel.ok_post hok
  obtain ⟨kernel', hok', hposted⟩ := h.posted hfree (List.getElem?_eq_some_iff.mp hsignal).1
  obtain rfl := Except.ok.inj (hok'.symm.trans hok)
  exact hposted

theorem faultFree_tryTake (hfree : w.scheduler.FaultFree w.Awaited) {number : Nat}
    {taken : Bool} (hok : w.kernel.tryTake number = .ok (kernel, taken)) :
    kernel.scheduler.FaultFree (Awaited { w with kernel }) := by
  simp only [Kernel.tryTake, Kernel.requireSignal, bind_eq_ok, demand_eq_ok, pure_eq_ok,
    Prod.mk.injEq] at hok
  obtain ⟨signal, hsignal, rfl, rfl⟩ := hok
  apply hfree.mono
  intro slot _
  exact awaited_of_kept (p := .signal number) hsignal (fun q => signalAt_setSignal hsignal rfl
    fun _ _ => rfl) signal.waiter_tryTake

theorem WaitersHeard.faultFree_tryJoin (h : w.WaitersHeard)
    (hfree : w.scheduler.FaultFree w.Awaited) {number : Nat}
    {code : Option UInt32} (hok : w.kernel.tryJoin number = .ok (kernel, code)) :
    kernel.scheduler.FaultFree (Awaited { w with kernel }) := by
  simp only [Kernel.tryJoin, bind_eq_ok, demand_eq_ok, pure_eq_ok, Prod.mk.injEq,
    Prod.exists] at hok
  obtain ⟨target, htarget, _, _, htry, rfl, rfl⟩ := hok
  obtain ⟨hjoinable, rfl, _⟩ := tryJoin_eq_ok htry
  obtain ⟨hslot, _⟩ := taskOn_spec htarget
  have hmoved := h.orderly.standing.withCompletion hjoinable.index_lt
    (w.scheduler.record target).completion.tryTake.1
  refine (hfree.mono fun slot _ => ?_).withCompletion hjoinable.index_lt _
  refine awaited_of_kept (p := .completion target.index) (if_pos hslot) (fun q =>
    signalAt_withCompletion hslot rfl (congrArg TaskRecord.completion hmoved.self)
      fun slot he => congrArg TaskRecord.completion (hmoved.other he)) ?_
  exact Signal.waiter_tryTake _

theorem WaitersHeard.attempted (h : w.WaitersHeard) (hfree : w.scheduler.FaultFree w.Awaited)
    (hexec : w.control = .executing) {call : Call} {progress : Progress call.Answer}
    (hmay : w.MayCall call) (hwake : ∀ id, call ≠ .wake id)
    (husable : ∀ entry param number, call = .start entry param number →
      (w.kernel.rangeAt number).Usable)
    (hok : w.kernel.attempt call = .ok (kernel, progress)) :
    kernel.scheduler.FaultFree (Awaited { w with kernel }) := by
  have hranges := Kernel.ranges_attempt hok
  cases call with
  | start entry param number =>
      obtain ⟨_, ⟨_, rfl⟩ | ⟨id, hbegun⟩⟩ := Kernel.begun_of_start h.orderly.standing hok
      · exact hfree
      · exact h.started hfree hbegun (Kernel.rangeAt_eq_of_ranges hranges)
          (husable entry param number rfl)
  | exit _ => exact h.faultFree_exit hfree hexec hok
  | sleepUntil _ => exact h.faultFree_sleepUntil hfree hexec hmay hok
  | wait _ => exact h.faultFree_wait hfree hexec hok
  | join _ => exact h.faultFree_join hfree hexec hok
  | wake id => exact absurd rfl (hwake id)
  | post _ =>
      simp only [Kernel.attempt, bind_eq_ok, pure_eq_ok, Prod.mk.injEq] at hok
      obtain ⟨_, hpost, rfl, _⟩ := hok
      exact h.faultFree_post hfree hpost
  | tryTake _ =>
      simp only [Kernel.attempt, bind_eq_ok, pure_eq_ok, Prod.mk.injEq, Prod.exists] at hok
      obtain ⟨_, _, htry, rfl, _⟩ := hok
      exact faultFree_tryTake hfree htry
  | tryJoin _ =>
      simp only [Kernel.attempt, bind_eq_ok, pure_eq_ok, Prod.mk.injEq, Prod.exists] at hok
      obtain ⟨_, _, htry, rfl, _⟩ := hok
      exact h.faultFree_tryJoin hfree htry
  | signalState _ =>
      simp only [Kernel.attempt, bind_eq_ok, pure_eq_ok, Prod.mk.injEq] at hok
      obtain ⟨_, _, rfl, _⟩ := hok
      exact hfree
  | giveWay | taskOn _ | current | now | headroom _ | overwrite _ _ _ =>
      simp only [Kernel.attempt, pure_eq_ok, Prod.mk.injEq] at hok
      obtain ⟨rfl, _⟩ := hok
      exact hfree

end World

end CoopTasks
