import CoopTasks.Proofs.Order

/-!
Nobody sleeps on a signal unheard.

`World.Heard` ties the waiter of each signal to the task that is inside of a
wait or join for it, in both directions: who is recorded waits there, and who
sleeps there is recorded.  The second direction may fail for one task, which
has been handed back by its signal and is about to be woken.  Completion
signals are treated like the others, as the places where joins wait.
-/

namespace CoopTasks

open Scheduler

namespace World

variable {H : Type} {w w' : World H} {t u : Scheduler H} {id : TaskId} {called : Option TaskId}
variable {p : Place} {signal signal' : Signal}

structure Heard (w : World H) (called : Option TaskId) : Prop where
  recorded : ∀ p signal id, w.signalAt p = some signal → signal.waiter = some id →
    signal.count = 0 ∧ signal.latched = false ∧
      ∃ blocking, w.Inside id blocking ∧ w.place blocking = some p
  asleep : ∀ slot ∈ slots, 0 < (w.record slot).sleepCount →
    called ≠ some (w.scheduler.idOf slot) → ∀ blocking, w.inside slot = some blocking →
      ∃ p signal, w.place blocking = some p ∧ w.signalAt p = some signal ∧
        signal.waiter = some (w.scheduler.idOf slot)

theorem place_eq (hbound : Bound w.scheduler w'.scheduler)
    (hranges : Kernel.SameRanges w.kernel w'.kernel) (blocking : Blocking) :
    w'.place blocking = w.place blocking := by
  cases blocking with
  | wait number => rfl
  | join number =>
      have htask : w'.kernel.taskOn number = w.kernel.taskOn number := by
        unfold Kernel.taskOn
        rw [hranges number]
        exact hbound.taskOn _
      simp only [place, htask]

theorem signalAt_eq (hsignals : w'.kernel.signals = w.kernel.signals)
    (hcompletion : ∀ slot ∈ slots, (w'.record slot).completion = (w.record slot).completion)
    (p : Place) : w'.signalAt p = w.signalAt p := by
  cases p with
  | signal number => simp only [signalAt, hsignals]
  | completion slot =>
      by_cases hslot : slot ∈ slots
      · simp only [signalAt, if_pos hslot, hcompletion slot hslot]
      · simp only [signalAt, if_neg hslot]

theorem signalAt_setSignal {p : Place} {number : Nat} {signal signal' : Signal}
    (hsignal : w.kernel.signals[number]? = some signal)
    (hsignals : w'.kernel.signals = w.kernel.signals.set number signal')
    (hcompletion : ∀ slot ∈ slots, (w'.record slot).completion = (w.record slot).completion) :
    w'.signalAt p = if p = .signal number then some signal' else w.signalAt p := by
  cases p with
  | signal other =>
      have hlt := List.getElem?_eq_some_iff.mp hsignal |>.1
      simp only [signalAt, hsignals, List.getElem?_set, Place.signal.injEq]
      by_cases he : number = other
      · rw [if_pos he, if_pos (he ▸ hlt), if_pos he.symm]
      · rw [if_neg he, if_neg (Ne.symm he)]
  | completion slot =>
      rw [if_neg (by simp)]
      by_cases hslot : slot ∈ slots
      · simp only [signalAt, if_pos hslot, hcompletion slot hslot]
      · simp only [signalAt, if_neg hslot]

theorem signalAt_withCompletion {p : Place} {target : TaskId} {completion : Signal}
    (hslot : target.index ∈ slots) (hsignals : w'.kernel.signals = w.kernel.signals)
    (hself : (w'.record target.index).completion = completion)
    (hother : ∀ slot, slot ≠ target.index →
      (w'.record slot).completion = (w.record slot).completion) :
    w'.signalAt p = if p = .completion target.index then some completion else w.signalAt p := by
  cases p with
  | signal number =>
      rw [if_neg (by simp)]
      simp only [signalAt, hsignals]
  | completion slot =>
      by_cases he : slot = target.index
      · subst he
        rw [if_pos rfl]
        simp only [signalAt, if_pos hslot, hself]
      · rw [if_neg (by simpa using he)]
        simp only [signalAt, hother slot he]

theorem Inside.idOf (h : w.Inside id blocking) : w.scheduler.idOf id.index = id :=
  TaskId.ext_of_index (index_idOf _ (mem_slots.mp h.slot).2) h.current.symm

/-- The tasks, and who is inside of which call, as far as waiting is concerned. -/
structure Same (w w' : World H) : Prop where
  inside : w'.inside = w.inside
  bound : Bound w.scheduler w'.scheduler
  ranges : Kernel.SameRanges w.kernel w'.kernel
  count : ∀ slot ∈ slots, w.inside slot ≠ none → 0 < (w'.record slot).sleepCount →
    0 < (w.record slot).sleepCount

theorem same_of_scheduler (hscheduler : w'.scheduler = w.scheduler)
    (hinside : w'.inside = w.inside) (hranges : Kernel.SameRanges w.kernel w'.kernel) :
    Same w w' := by
  refine ⟨hinside, ?_, hranges, ?_⟩
  · rw [hscheduler]
    exact Bound.refl _
  · intro slot _ _ hpending
    unfold record at hpending
    rwa [hscheduler] at hpending

theorem Same.insideOf (h : Same w w') {blocking : Blocking} (hin : w.Inside id blocking) :
    w'.Inside id blocking := by
  refine ⟨hin.slot, hin.current.trans (h.bound id.index hin.slot).2.1.symm, ?_⟩
  rw [h.inside]
  exact hin.inside

/-- Every recorded waiter was there before, and only one that is called may be missing. -/
theorem Heard.transport (h : w.Heard called) (hsame : Same w w') {called' : Option TaskId}
    (hcalled : ∀ id, called' ≠ some id → called ≠ some id)
    (hkept : ∀ q signal id, w'.signalAt q = some signal → signal.waiter = some id →
      w.signalAt q = some signal)
    (hmissing : ∀ q signal id, w.signalAt q = some signal → signal.waiter = some id →
      called' ≠ some id → w'.signalAt q = some signal) :
    w'.Heard called' := by
  constructor
  case recorded =>
    intro q signal id hsignal hid
    obtain ⟨hcount, hlatched, blocking, hin, hplace⟩ :=
      h.recorded q signal id (hkept q signal id hsignal hid) hid
    refine ⟨hcount, hlatched, blocking, hsame.insideOf hin, ?_⟩
    rw [place_eq hsame.bound hsame.ranges, hplace]
  case asleep =>
    intro slot hslot hpending hnot blocking hinside
    rw [hsame.inside] at hinside
    rw [hsame.bound.idOf hslot] at hnot ⊢
    have hpending' := hsame.count slot hslot (by rw [hinside]; simp) hpending
    obtain ⟨q, signal, hplace, hsignal, hid⟩ :=
      h.asleep slot hslot hpending' (hcalled _ hnot) blocking hinside
    refine ⟨q, signal, ?_, hmissing q signal _ hsignal hid hnot, hid⟩
    rw [place_eq hsame.bound hsame.ranges, hplace]

theorem Heard.same (h : w.Heard called) (hsame : Same w w')
    (hsignalAt : ∀ q, w'.signalAt q = w.signalAt q) : w'.Heard called := by
  apply h.transport hsame (fun _ hnot => hnot)
  · intro q signal id hsignal _
    rwa [← hsignalAt]
  · intro q signal id hsignal _ _
    rwa [hsignalAt]

theorem Heard.replace (h : w.Heard none) (hsame : Same w w') (hsignal : w.signalAt p = some signal)
    (hsignalAt : ∀ q, w'.signalAt q = if q = p then some signal' else w.signalAt q)
    (hwaiter : signal'.waiter = none) : w'.Heard signal.waiter := by
  apply h.transport hsame (fun _ _ => by simp)
  · intro q other id hother hid
    rw [hsignalAt] at hother
    by_cases hq : q = p
    · rw [if_pos hq] at hother
      obtain rfl := Option.some.inj hother
      rw [hwaiter] at hid
      contradiction
    · rwa [if_neg hq] at hother
  · intro q other id hother hid hnot
    have hq : q ≠ p := by
      rintro rfl
      obtain rfl := Option.some.inj (hsignal.symm.trans hother)
      exact hnot hid
    rw [hsignalAt, if_neg hq, hother]

theorem Heard.take (h : w.Heard none) (hsame : Same w w') (hsignal : w.signalAt p = some signal)
    (hsignalAt : ∀ q, w'.signalAt q = if q = p then some signal.tryTake.1 else w.signalAt q) :
    w'.Heard none := by
  cases hwaiter : signal.waiter with
  | none =>
      have := h.replace hsame hsignal hsignalAt (by rw [Signal.waiter_tryTake, hwaiter])
      rwa [hwaiter] at this
  | some id =>
      obtain ⟨hcount, hlatched, _⟩ := h.recorded p signal id hsignal hwaiter
      have htake := Signal.tryTake_eq_false.mpr ⟨hlatched, hcount, rfl⟩
      apply h.same hsame
      intro q
      rw [hsignalAt, htake]
      split
      · rename_i hq
        rw [hq, hsignal]
      · rfl

/-! ## Wakes -/

theorem same_withScheduler (hbound : Bound w.scheduler t)
    (hcount : ∀ slot ∈ slots, w.inside slot ≠ none → 0 < (t.tasks.record slot).sleepCount →
      0 < (w.record slot).sleepCount) : Same w (w.withScheduler t) :=
  ⟨rfl, hbound, fun _ => rfl, hcount⟩

theorem Heard.alarmMoved (h : w.Heard called) (hmoved : AlarmMoved w.scheduler t) :
    (w.withScheduler t).Heard called := by
  have hrecord : ∀ slot, t.tasks.record slot = w.scheduler.tasks.record slot := by
    intro slot
    rw [hmoved.tasks]
  have hbound : Bound w.scheduler t := by
    intro slot _
    rw [hrecord]
    exact ⟨rfl, rfl, Iff.rfl⟩
  apply h.same (same_withScheduler hbound _)
  · refine signalAt_eq ?_ ?_
    · rfl
    · intro slot _
      exact congrArg TaskRecord.completion (hrecord slot)
  · intro slot _ _ hpending
    rwa [hrecord] at hpending

theorem Heard.woke (h : w.Heard called) (hwoke : Woke w.scheduler id t) :
    (w.withScheduler t).Heard called := by
  apply h.same (same_withScheduler hwoke.bound _)
  · refine signalAt_eq ?_ ?_
    · rfl
    · intro slot _
      refine (congrArg TaskRecord.completion (hwoke.record slot)).trans ?_
      split <;> rfl
  · intro slot _ _ hpending
    have hle : (t.tasks.record slot).sleepCount ≤ (w.record slot).sleepCount :=
      hwoke.sleepCount_le slot
    omega

theorem Heard.wakes (h : w.Heard called) {ids : List TaskId} (hwakes : Wakes w.scheduler ids t) :
    (w.withScheduler t).Heard called := by
  refine hwakes.preserves (P := fun t => (w.withScheduler t).Heard called) ?_ ?_ h
  · intro s u hmoved hs
    exact hs.alarmMoved hmoved
  · intro s id u hwoke hs
    exact hs.woke hwoke

theorem Heard.withControl (h : w.Heard called) (control : Control) :
    Heard { w with control } called := by
  have hsame : Same w { w with control } :=
    ⟨rfl, Bound.refl _, fun _ => rfl, fun _ _ _ hpending => hpending⟩
  exact h.same hsame (signalAt_eq rfl fun _ _ => rfl)

theorem Heard.answered (h : w.Heard (some id)) (hcount : (w.record id.index).sleepCount ≤ 0) :
    w.Heard none := by
  refine ⟨h.recorded, ?_⟩
  intro slot hslot hpending _ blocking hinside
  apply h.asleep slot hslot hpending _ blocking hinside
  intro he
  have hslot' : slot = id.index := by
    rw [Option.some.inj he, index_idOf _ (mem_slots.mp hslot).2]
  rw [hslot'] at hpending
  omega

theorem Orderly.count_le (h : w.Orderly) {slot : Nat} (hslot : slot ∈ slots) :
    (w.record slot).sleepCount ≤ 1 :=
  (h.fits slot hslot).count_le

/-! ## Attempts -/

theorem MayCall.elsewhere {call : Call} {blocking other : Blocking} (hmay : w.MayCall call)
    (hblocking : call.blocking = some blocking) (hplace : w.place blocking = some p)
    (hin : w.Inside id other) {q : Place} (hother : w.place other = some q) (hq : q ≠ p)
    (caller : TaskId) (hcaller : w.scheduler.current = some caller) :
    id.index ≠ caller.index := by
  intro he
  have hinside := hin.inside
  rw [he] at hinside
  have hsame := hmay caller other hcaller hinside
  rw [hblocking, Option.some.injEq] at hsame
  rw [← hsame, hplace, Option.some.injEq] at hother
  exact hq hother.symm

theorem Heard.not_taken (h : w.Heard called) (hsignal : w.signalAt p = some signal)
    (htake : signal.tryTake = (signal', true)) : signal.waiter = none := by
  cases hwaiter : signal.waiter with
  | none => rfl
  | some id =>
      obtain ⟨hcount, hlatched, _⟩ := h.recorded p signal id hsignal hwaiter
      rw [Signal.tryTake_eq_false.mpr ⟨hlatched, hcount, rfl⟩] at htake
      simp at htake

structure Tried (w w' : World H) (call : Call) (blocking : Blocking) (p : Place)
    (signal signal' : Signal) (retries : Bool) : Prop where
  repeated : call.blocking = some blocking
  target : w.place blocking = some p
  found : w.signalAt p = some signal
  inside : w'.inside = w.insideAfter call retries
  bound : Bound w.scheduler w'.scheduler
  ranges : Kernel.SameRanges w.kernel w'.kernel
  signalAt : ∀ q, w'.signalAt q = if q = p then some signal' else w.signalAt q

theorem Tried.insideOf {call : Call} {blocking other : Blocking} {retries : Bool}
    (htried : Tried w w' call blocking p signal signal' retries) (hin : w.Inside id other)
    (hne : ∀ caller, w.scheduler.current = some caller → id.index ≠ caller.index) :
    w'.Inside id other := by
  refine ⟨hin.slot, hin.current.trans (htried.bound id.index hin.slot).2.1.symm, ?_⟩
  rw [htried.inside, insideAfter_of_ne hne]
  exact hin.inside

theorem Heard.recorded_elsewhere (h : w.Heard none) {call : Call} {blocking : Blocking}
    {retries : Bool} (hmay : w.MayCall call)
    (htried : Tried w w' call blocking p signal signal' retries) {q : Place} (hq : q ≠ p)
    {other : Signal} (hother : w.signalAt q = some other) (hid : other.waiter = some id) :
    other.count = 0 ∧ other.latched = false ∧
      ∃ blocking, w'.Inside id blocking ∧ w'.place blocking = some q := by
  obtain ⟨hcount, hlatched, b, hin, hplace⟩ := h.recorded q other id hother hid
  refine ⟨hcount, hlatched, b, ?_, ?_⟩
  · exact htried.insideOf hin (hmay.elsewhere htried.repeated htried.target hin hplace hq)
  · rw [place_eq htried.bound htried.ranges, hplace]

theorem Heard.asleep_elsewhere (h : w.Heard none) {call : Call} {blocking : Blocking}
    {retries : Bool} (htried : Tried w w' call blocking p signal signal' retries) {slot : Nat}
    (hslot : slot ∈ slots) (hpending : 0 < (w.record slot).sleepCount)
    (hne : ∀ caller, w.scheduler.current = some caller → slot ≠ caller.index)
    (hkept : signal.waiter = some (w.scheduler.idOf slot) → signal' = signal)
    {b : Blocking} (hinside : w'.inside slot = some b) :
    ∃ q other, w'.place b = some q ∧ w'.signalAt q = some other ∧
      other.waiter = some (w'.scheduler.idOf slot) := by
  rw [htried.inside, insideAfter_of_ne hne] at hinside
  obtain ⟨q, other, hplace, hother, hid⟩ := h.asleep slot hslot hpending (by simp) b hinside
  rw [htried.bound.idOf hslot]
  refine ⟨q, other, ?_, ?_, hid⟩
  · rw [place_eq htried.bound htried.ranges, hplace]
  · rw [htried.signalAt]
    by_cases hq : q = p
    · rw [hq, htried.found, Option.some.injEq] at hother
      subst hother
      rw [if_pos hq, hkept hid]
    · rw [if_neg hq, hother]

theorem Heard.recorded_attempted (h : w.Heard none) (ho : w.Orderly)
    (hexec : w.control = .executing) {call : Call} {blocking : Blocking} {result : WaitResult}
    (htried : Tried w w' call blocking p signal signal' (result.progress ()).retries)
    (hattempted : Attempted w.scheduler signal t signal' result)
    (hid : signal'.waiter = some id) :
    signal'.count = 0 ∧ signal'.latched = false ∧
      ∃ blocking, w'.Inside id blocking ∧ w'.place blocking = some p := by
  cases hattempted with
  | acquired htake =>
      have hnone := h.not_taken htried.found htake
      have hsame := signal.waiter_tryTake
      rw [htake, hnone] at hsame
      exact absurd (hid.symm.trans hsame) (by simp)
  | @parked _ caller hcaller hlatched hzero _ _ _ _ =>
      obtain rfl := Option.some.inj hid
      have hspec := ho.caller hexec hcaller
      refine ⟨hzero, hlatched, blocking, ⟨hspec.slot, ?_, ?_⟩, ?_⟩
      · exact hspec.generation.trans (htried.bound caller.index hspec.slot).2.1.symm
      · rw [htried.inside, insideAfter_self hcaller]
        exact htried.repeated
      · rw [place_eq htried.bound htried.ranges, htried.target]
  | @busy caller other hcaller _ _ hwaiter hne =>
      -- the caller is not the recorded waiter, whose call therefore stays what it was
      obtain rfl := Option.some.inj (hwaiter.symm.trans hid)
      obtain ⟨hzero, hlatched, b, hin, hplace⟩ := h.recorded p signal other htried.found hid
      refine ⟨hzero, hlatched, b, htried.insideOf hin ?_, ?_⟩
      · intro caller' hcaller' he
        obtain rfl := Option.some.inj (hcaller.symm.trans hcaller')
        apply hne
        rw [← hin.idOf, he, (ho.caller hexec hcaller).idOf]
      · rw [place_eq htried.bound htried.ranges, hplace]

theorem Heard.asleep_attempted (h : w.Heard none) (ho : w.Orderly)
    (hexec : w.control = .executing) {call : Call} {blocking : Blocking} {result : WaitResult}
    (htried : Tried w w' call blocking p signal signal' (result.progress ()).retries)
    (hattempted : Attempted w.scheduler signal t signal' result) {slot : Nat}
    (hslot : slot ∈ slots) (hpending : 0 < (t.tasks.record slot).sleepCount) {b : Blocking}
    (hinside : w'.inside slot = some b) :
    ∃ q other, w'.place b = some q ∧ w'.signalAt q = some other ∧
      other.waiter = some (w'.scheduler.idOf slot) := by
  cases hattempted with
  | acquired htake =>
      have hnone := h.not_taken htried.found htake
      refine h.asleep_elsewhere htried hslot hpending ?_ ?_ hinside
      · intro caller hcaller he
        rw [htried.inside, he, insideAfter_self hcaller] at hinside
        contradiction
      · intro hid
        rw [hnone] at hid
        contradiction
  | @parked _ caller hcaller _ _ hwaiter _ hmoved _ =>
      have hspec := ho.caller hexec hcaller
      by_cases he : slot = caller.index
      · rw [htried.inside, he, insideAfter_self hcaller] at hinside
        have hb := hinside.symm.trans htried.repeated
        obtain rfl := Option.some.inj hb
        refine ⟨p, { signal with waiter := some caller }, ?_, ?_, ?_⟩
        · rw [place_eq htried.bound htried.ranges, htried.target]
        · rw [htried.signalAt, if_pos rfl]
        · rw [htried.bound.idOf hslot, he, hspec.idOf]
      · rw [hmoved.other he] at hpending
        refine h.asleep_elsewhere htried hslot hpending ?_ ?_ hinside
        · intro caller' hcaller'
          obtain rfl := Option.some.inj (hcaller.symm.trans hcaller')
          exact he
        · intro hid
          rcases hwaiter with hwaiter | hwaiter
          · rw [hwaiter] at hid
            contradiction
          · rw [hwaiter, Option.some.injEq] at hid
            apply absurd _ he
            rw [hid, index_idOf _ (mem_slots.mp hslot).2]
  | @busy caller _ hcaller _ _ _ _ =>
      have hspec := ho.caller hexec hcaller
      refine h.asleep_elsewhere htried hslot hpending ?_ (fun _ => rfl) hinside
      intro caller' hcaller' he
      obtain rfl := Option.some.inj (hcaller.symm.trans hcaller')
      -- a caller that is turned away has not been marked asleep
      have hzero := hspec.count
      rw [← he] at hzero
      exact absurd hpending (by
        show ¬0 < (w.record slot).sleepCount
        omega)

theorem Heard.attempted (h : w.Heard none) (ho : w.Orderly) (hexec : w.control = .executing)
    {call : Call} {blocking : Blocking} {result : WaitResult} (hmay : w.MayCall call)
    (htried : Tried w w' call blocking p signal signal' (result.progress ()).retries)
    (hattempted : Attempted w.scheduler signal t signal' result)
    (hcount : ∀ slot, (w'.record slot).sleepCount = (t.tasks.record slot).sleepCount) :
    w'.Heard none := by
  constructor
  case recorded =>
    intro q other id hother hid
    rw [htried.signalAt] at hother
    by_cases hq : q = p
    · rw [if_pos hq, Option.some.injEq] at hother
      subst hother hq
      exact h.recorded_attempted ho hexec htried hattempted hid
    · rw [if_neg hq] at hother
      exact h.recorded_elsewhere hmay htried hq hother hid
  case asleep =>
    intro slot hslot hpending _ b hinside
    rw [hcount] at hpending
    exact h.asleep_attempted ho hexec htried hattempted hslot hpending hinside

theorem Heard.wakeWaiter [Hardware H] (h : w.Heard called) (ho : w.Orderly)
    (hok : w.scheduler.wakeWaiter called = .ok t) : (w.withScheduler t).Heard none := by
  cases called with
  | none =>
      obtain rfl := Except.ok.inj hok
      exact h
  | some id =>
      obtain ⟨ids, hwakes⟩ := ho.standing.wakes_of_wake hok
      apply (h.wakes hwakes).answered
      cases hwakes with
      | @cons _ s u _ _ _ hmoved hwoke hrest =>
          have hslot : id.index ∈ slots := by
            refine Scheduler.mem_slots.mpr ⟨hwoke.task, index_lt_of_state (s := s) ?_⟩
            rcases hwoke.state with he | he | he <;> rw [he] <;> decide
          have hcount := ho.count_le hslot
          have hself : (u.tasks.record id.index).sleepCount =
              (w.record id.index).sleepCount - 1 := by
            rw [hwoke.record, if_pos rfl, hmoved.tasks]
            rfl
          have hle := hrest.sleepCount_le id.index
          -- no sleep is pending any more, so nothing is claimed about the waiter
          show (t.tasks.record id.index).sleepCount ≤ 0
          omega

/-! ## Starts -/

structure Began (w w' : World H) (id : TaskId) : Prop where
  slot : id.index ∈ slots
  unheard : (w.record id.index).completion.waiter = none
  outside : w.inside id.index = none
  completion : (w'.record id.index).completion.waiter = none
  sleepCount : (w'.record id.index).sleepCount = 0
  record : ∀ slot ∈ slots, slot ≠ id.index → w'.record slot = w.record slot
  signals : w'.kernel.signals = w.kernel.signals
  taskOn : ∀ number target, w.kernel.taskOn number = some target → target.index ≠ id.index →
    w'.kernel.taskOn number = some target
  inside : w'.inside = w.inside

theorem Began.signalAt (h : Began w w' id) {q : Place} (hq : q ≠ .completion id.index) :
    w'.signalAt q = w.signalAt q := by
  cases q with
  | signal number => simp only [World.signalAt, h.signals]
  | completion slot =>
      by_cases hmem : slot ∈ slots
      · have hne : slot ≠ id.index := fun he => hq (by rw [he])
        simp only [World.signalAt, if_pos hmem, h.record slot hmem hne]
      · simp only [World.signalAt, if_neg hmem]

theorem Began.place (h : Began w w' id) {b : Blocking} {q : Place} (hb : w.place b = some q)
    (hq : q ≠ .completion id.index) : w'.place b = some q := by
  cases b with
  | wait number => exact hb
  | join number =>
      obtain ⟨target, htarget, rfl⟩ := Option.map_eq_some_iff.mp hb
      have hne : target.index ≠ id.index := fun he => hq (by rw [he])
      simp only [World.place, h.taskOn number target htarget hne, Option.map_some]

theorem Heard.began (h : w.Heard none) (hbegan : Began w w' id) : w'.Heard none := by
  constructor
  case recorded =>
    intro q signal x hsignal hx
    have hq : q ≠ .completion id.index := by
      rintro rfl
      rw [World.signalAt, if_pos hbegan.slot, Option.some.injEq] at hsignal
      rw [← hsignal, hbegan.completion] at hx
      contradiction
    rw [hbegan.signalAt hq] at hsignal
    obtain ⟨hcount, hlatched, b, hin, hb⟩ := h.recorded q signal x hsignal hx
    have hne : x.index ≠ id.index := by
      intro he
      have hin := hin.inside
      rw [he, hbegan.outside] at hin
      contradiction
    refine ⟨hcount, hlatched, b, ⟨hin.slot, ?_, ?_⟩, hbegan.place hb hq⟩
    · rw [hbegan.record x.index hin.slot hne]
      exact hin.current
    · rw [hbegan.inside]
      exact hin.inside
  case asleep =>
    intro slot hmem hpending _ b hb
    have hne : slot ≠ id.index := by
      rintro rfl
      rw [hbegan.sleepCount] at hpending
      contradiction
    have hrecord := hbegan.record slot hmem hne
    rw [hrecord] at hpending
    rw [hbegan.inside] at hb
    obtain ⟨q, signal, hq, hsignal, hx⟩ := h.asleep slot hmem hpending (by simp) b hb
    -- the slot was free, and a free slot has no waiter that a start could drop
    have hnot : q ≠ .completion id.index := by
      rintro rfl
      rw [World.signalAt, if_pos hbegan.slot, Option.some.injEq] at hsignal
      rw [← hsignal, hbegan.unheard] at hx
      contradiction
    refine ⟨q, signal, hbegan.place hq hnot, ?_, ?_⟩
    · rw [hbegan.signalAt hnot, hsignal]
    · rw [hx]
      exact congrArg some (idOf_eq (congrArg TaskRecord.generation hrecord)).symm

theorem Orderly.began [Hardware H] (ho : w.Orderly) {hardware : H}
    {stack : StackRange} {pointer : Address}
    (hstarted : Started { w.scheduler with hardware } stack pointer id t)
    (hscheduler : w'.scheduler = t) (hsignals : w'.kernel.signals = w.kernel.signals)
    (hranges : Kernel.SameRanges w.kernel w'.kernel) (hinside : w'.inside = w.inside) :
    Began w w' id := by
  have hslot : id.index ∈ slots := Scheduler.mem_slots.mpr hstarted.mem_slots
  have hgone : (w.record id.index).state = .vacant ∨ (w.record id.index).state = .exited :=
    hstarted.gone
  have hself : w'.record id.index =
      Scheduler.startedRecord { w.scheduler with hardware } stack pointer := by
    unfold record
    rw [hscheduler]
    exact hstarted.self
  refine ⟨hslot, (ho.fits _ hslot).gone hgone, ho.outside_of_gone hslot hgone, ?completion,
    ?sleepCount, ?record, hsignals, ?taskOn, hinside⟩
  case completion =>
    rw [hself]
    rfl
  case sleepCount =>
    rw [hself]
    rfl
  case record =>
    intro slot hslot hne
    unfold record
    rw [hscheduler]
    exact hstarted.other slot (mem_slots.mp hslot).1 hne
  case taskOn =>
    intro number target htarget hne
    unfold Kernel.taskOn
    rw [hranges number]
    rw [show w'.kernel.scheduler = t from hscheduler]
    exact hstarted.taskOn htarget hne

/-! ## Records that change in place -/

section Record

variable {change : TaskRecord → TaskRecord} {rest run sleep : List TaskId} {pointer : Address}

theorem same_of_altered (haltered : Altered w.scheduler id change t)
    (hstack : ∀ r, (change r).stack = r.stack)
    (hgeneration : ∀ r, (change r).generation = r.generation)
    (hvacant : id.index ∈ slots →
      ((change (w.record id.index)).state = .vacant ↔ (w.record id.index).state = .vacant))
    (hcount : id.index ∈ slots → w.inside id.index ≠ none →
      (change (w.record id.index)).sleepCount = (w.record id.index).sleepCount) :
    Same w (w.withScheduler t) := by
  apply same_withScheduler (haltered.bound hstack hgeneration hvacant)
  intro slot hslot hinside hpending
  rw [haltered slot] at hpending
  by_cases he : slot = id.index
  · subst he
    rw [if_pos rfl] at hpending
    rw [← hcount hslot hinside]
    exact hpending
  · rwa [if_neg he] at hpending

theorem Heard.altered (h : w.Heard called) (haltered : Altered w.scheduler id change t)
    (hstack : ∀ r, (change r).stack = r.stack)
    (hgeneration : ∀ r, (change r).generation = r.generation)
    (hcompletion : ∀ r, (change r).completion = r.completion)
    (hvacant : id.index ∈ slots →
      ((change (w.record id.index)).state = .vacant ↔ (w.record id.index).state = .vacant))
    (hcount : id.index ∈ slots → w.inside id.index ≠ none →
      (change (w.record id.index)).sleepCount = (w.record id.index).sleepCount) :
    (w.withScheduler t).Heard called := by
  apply h.same (same_of_altered haltered hstack hgeneration hvacant hcount)
  refine signalAt_eq ?_ ?_
  · rfl
  · intro slot _
    refine (congrArg TaskRecord.completion (haltered slot)).trans ?_
    split
    · exact hcompletion _
    · rfl

theorem Heard.dispatched (h : w.Heard called) (hs : w.scheduler.Standing) {decision : Decision}
    (hdispatched : Dispatched w.scheduler t decision) : (w.withScheduler t).Heard called := by
  cases hdispatched with
  | resumed hhead _ hmoved _ =>
      refine h.altered hmoved.altered (fun _ => rfl) (fun _ => rfl) (fun _ => rfl) ?_
        (fun _ _ => rfl)
      intro hslot
      have hoccupied := hs.occupied (List.mem_of_head? hhead) (mem_slots.mp hslot).1
      exact ⟨fun he => by contradiction, fun he => absurd he hoccupied.1⟩
  | drained _ _ _ hmoved _ =>
      refine h.altered hmoved.altered (fun _ => rfl) (fun _ => rfl) (fun _ => rfl) ?_
        (fun _ _ => rfl)
      intro hslot
      exact absurd rfl (mem_slots.mp hslot).1
  | idle _ _ => exact h

variable [Hardware H]

theorem Heard.parked (h : w.Heard called) (hs : w.scheduler.Standing)
    (hsuspended : Suspended w.scheduler pointer id rest u) {state : TaskState}
    (hstate : state ≠ .vacant) (hmoved : Moved u id (fun t => { t with state }) run sleep t) :
    (w.withScheduler t).Heard called := by
  have hmem : id ∈ w.scheduler.runQueue := by
    rw [hsuspended.runQueue]
    exact List.mem_cons_self
  refine h.altered (hsuspended.altered hmoved) (fun _ => rfl) (fun _ => rfl)
    (fun _ => rfl) ?_ (fun _ _ => rfl)
  intro hslot
  have hoccupied := hs.occupied hmem (mem_slots.mp hslot).1
  exact ⟨fun he => absurd he hstate, fun he => absurd he hoccupied.1⟩

theorem Heard.finished (h : w.Heard none) (hs : w.scheduler.Standing) (hid : id.index ≠ 0)
    (hsuspended : Suspended w.scheduler pointer id rest u)
    (hmoved : Moved u id TaskRecord.finished run sleep t) :
    (w.withScheduler t).Heard (u.record id).completion.waiter := by
  have hmem : id ∈ w.scheduler.runQueue := by
    rw [hsuspended.runQueue]
    exact List.mem_cons_self
  have hslot : id.index ∈ slots := mem_slots.mpr ⟨hid, hsuspended.index_lt hs⟩
  have haltered := hsuspended.altered hmoved
  have hsame : Same w (w.withScheduler t) := by
    refine same_of_altered haltered (fun _ => rfl) (fun _ => rfl) ?_ (fun _ _ => rfl)
    intro _
    have hoccupied := hs.occupied hmem hid
    exact ⟨fun he => by contradiction, fun he => absurd he hoccupied.1⟩
  have hself : (u.record id).completion = (w.record id.index).completion := by
    rw [hsuspended.self]
    rfl
  rw [hself]
  have hsignal : w.signalAt (.completion id.index) = some (w.record id.index).completion :=
    if_pos hslot
  have hsignalAt : ∀ q, (w.withScheduler t).signalAt q =
      if q = .completion id.index then some (w.record id.index).completion.latch.1
      else w.signalAt q := by
    intro q
    refine signalAt_withCompletion hslot rfl ?_ ?_
    · exact congrArg TaskRecord.completion ((haltered id.index).trans (if_pos rfl))
    · intro slot he
      exact congrArg TaskRecord.completion ((haltered slot).trans (if_neg he))
  exact h.replace hsame hsignal hsignalAt rfl

end Record

variable [Hardware H]

theorem Heard.settled (h : w.Heard none) (ho : w.Orderly) {pointer : Address}
    {rest run sleep : List TaskId} (hsuspended : Suspended w.scheduler pointer id rest u)
    (hsettled : Settled u id run sleep t) :
    Heard { w.withScheduler t with control := .idle } none := by
  cases hsettled with
  | parked _ hmoved _ => exact (h.parked ho.standing hsuspended (by decide) hmoved).withControl _
  | asleep _ _ _ _ hmoved _ =>
      exact (h.parked ho.standing hsuspended (by decide) hmoved).withControl _
  | requeued _ _ _ _ hmoved _ =>
      exact (h.parked ho.standing hsuspended (by decide) hmoved).withControl _
  | @finished v _ hid hlive hexiting hawake hmoved _ hwake =>
      have hv := ho.finished hsuspended hlive hexiting hawake hmoved
      have hheard := h.finished ho.standing hid hsuspended hmoved
      exact (hheard.withControl .idle).wakeWaiter hv hwake

theorem Heard.switched (h : w.Heard none) (ho : w.Orderly) {pointer : Address}
    {decision : Decision} {rest woken : List TaskId} {v x y : Scheduler H}
    (hswitched : Switched w.scheduler pointer y decision id rest woken u v x) :
    Heard { w.withScheduler y with control := decision.control } none := by
  have hv := h.settled ho hswitched.suspended hswitched.settled
  have hx := hv.wakes hswitched.rearmed.wakes
  have hy := hx.dispatched hswitched.standing.2.1 hswitched.dispatched
  exact hy.withControl decision.control

end World

end CoopTasks
