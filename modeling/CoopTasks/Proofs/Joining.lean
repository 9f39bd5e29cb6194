import CoopTasks.Proofs.Draining

/-!
What a join answers.

A join looks up the task of its stack at each of its attempts, and a slot may
be used again as soon as its task has ended.  So a run answers for its stack as
long as no task is started in its slot: `Reached.join_answers`.
`recycled_slot` is a run in which one is, between the end of the task and the
turn of the one that waits for it.
-/

namespace CoopTasks

open Scheduler

namespace Scheduler

variable {H : Type} {s t : Scheduler H} {id target : TaskId} {stack own : StackRange}
  {newer : List Notice} {ranges : List StackRange}

structure Newest (s : Scheduler H) (id : TaskId) (stack : StackRange) (newer : List Notice) :
    Prop where
  chronicle : ∃ older, s.chronicle = newer ++ .started id stack :: older
  spared : ∀ other own, .started other own ∈ newer → other.index ≠ id.index

structure Keeps (s : Scheduler H) (id : TaskId) (stack : StackRange) (newer : List Notice) :
    Prop where
  taskOn : s.taskOn stack = some id
  running : (∀ code, .exited id code ∉ newer) → (s.record id).state ≠ .exited
  finished : ∀ code, .exited id code ∈ newer →
    (s.record id).state = .exited ∧ (s.record id).exitCode = code

theorem find_only {p q : Nat → Bool} {l : List Nat} {slot : Nat} (hslot : slot ∈ l)
    (hq : q slot = true) (hsame : ∀ m ∈ l, m ≠ slot → q m = p m)
    (hp : ∀ m, l.find? p = some m → m = slot) : l.find? q = some slot := by
  induction l with
  | nil => contradiction
  | cons m rest ih =>
      rw [List.find?_cons]
      by_cases he : m = slot
      · rw [he, hq]
      · have hpm : p m = false := by
          rw [Bool.eq_false_iff]
          intro htrue
          exact he (hp m (by rw [List.find?_cons, htrue]))
        rw [hsame m List.mem_cons_self he, hpm]
        have hrest := (List.mem_cons.mp hslot).resolve_left (Ne.symm he)
        apply ih hrest fun n hn => hsame n (List.mem_cons_of_mem m hn)
        intro n hn
        exact hp n (by rw [List.find?_cons, hpm, hn])

theorem Keeps.lasted {slot : Nat} (h : s.Keeps id stack newer) (hslot : id.index = slot)
    (htask : t.taskOn stack = some id)
    (hlasts : (s.tasks.record slot).Lasts (t.tasks.record slot)) : t.Keeps id stack newer := by
  subst hslot
  refine ⟨htask, fun hnone => mt hlasts.exited.mp (h.running hnone), fun code hcode => ?_⟩
  obtain ⟨hexited, rfl⟩ := h.finished code hcode
  exact ⟨hlasts.exited.mpr hexited, (hlasts.finished hexited).2⟩

theorem Keeps.cons (h : s.Keeps id stack newer) {notice : Notice}
    (hother : ∀ code, notice ≠ .exited id code) : s.Keeps id stack (notice :: newer) where
  taskOn := h.taskOn
  running hnone := h.running fun code hcode => hnone code (List.mem_cons_of_mem notice hcode)
  finished code hcode :=
    h.finished code ((List.mem_cons.mp hcode).resolve_left (Ne.symm (hother code)))

variable [Hardware H]

theorem Started.taskOn_self {pointer : Address} (h : Started s own pointer id t) :
    t.taskOn own = some id := by
  have hself : t.boundTo own id.index = true := by
    unfold boundTo
    rw [show t.tasks.record id.index = s.startedRecord own pointer from h.self, decide_eq_true_iff]
    exact ⟨by simp [startedRecord, TaskRecord.started], rfl⟩
  have hsame : ∀ slot ∈ slots, slot ≠ id.index → t.boundTo own slot = s.boundTo own slot := by
    intro slot hslot he
    unfold boundTo
    rw [h.record_other hslot he]
  have hbefore : ∀ slot, slots.find? (s.boundTo own) = some slot → slot = id.index := by
    intro slot hfind
    have hlt := (Scheduler.mem_slots.mp (List.mem_of_find?_eq_some hfind)).2
    have hchosen := h.chosen
    unfold chooseSlot Scheduler.taskOn at hchosen
    rw [hfind, Option.map_some] at hchosen
    rw [← Option.some.inj hchosen, s.index_idOf hlt]
  unfold Scheduler.taskOn
  rw [find_only (Scheduler.mem_slots.mpr h.mem_slots) hself hsame hbefore, Option.map_some, h.idOf]

theorem Started.keeps {hardware : H} {pointer : Address}
    (h : Started { s with hardware } own pointer target t) (hkeeps : s.Keeps id stack newer)
    (hother : target.index ≠ id.index) : t.Keeps id stack newer := by
  obtain ⟨hslot, _⟩ := taskOn_spec hkeeps.taskOn
  apply hkeeps.lasted rfl (h.taskOn hkeeps.taskOn hother.symm)
  rw [h.record_other hslot hother.symm]
  exact TaskRecord.Lasts.refl _

/-- The records agree with the notices about every run that no start has replaced. -/
def Faithful (s : Scheduler H) : Prop :=
  ∀ id stack newer, s.Newest id stack newer → s.Keeps id stack newer

omit [Hardware H] in
theorem faithful_new (hardware : H) : (new hardware).Faithful := by
  rintro id stack newer ⟨⟨older, hchronicle⟩, _⟩
  simp [chronicle, new] at hchronicle

omit [Hardware H] in
theorem Newest.tail {notice : Notice} (h : t.Newest id stack newer)
    (hchronicle : t.chronicle = notice :: s.chronicle) (hother : notice ≠ .started id stack) :
    ∃ rest, newer = notice :: rest ∧ s.Newest id stack rest := by
  obtain ⟨⟨older, heq⟩, hspared⟩ := h
  rw [hchronicle] at heq
  cases newer with
  | nil => exact absurd (List.cons.inj heq).1 hother
  | cons first rest =>
      obtain ⟨rfl, hrest⟩ := List.cons.inj heq
      exact ⟨rest, rfl, ⟨older, hrest⟩, fun other own hmem =>
        hspared other own (List.mem_cons_of_mem _ hmem)⟩

theorem Passage.faithful (h : Passage ranges s t) (hs : s.Faithful) : t.Faithful := by
  intro id stack newer hnewest
  cases h with
  | lasted hchronicle hlasts =>
      have hkeeps := hs id stack newer ⟨hchronicle ▸ hnewest.chronicle, hnewest.spared⟩
      apply hkeeps.lasted rfl (hlasts.bound.taskOn stack ▸ hkeeps.taskOn)
      exact hlasts id.index (taskOn_spec hkeeps.taskOn).1
  | @began _ own _ begun hchronicle _ hstarted =>
      by_cases hself : (Notice.started begun own) = .started id stack
      · obtain ⟨rfl, rfl⟩ := Notice.started.inj hself
        have hnone : newer = [] := by
          obtain ⟨⟨older, heq⟩, hspared⟩ := hnewest
          rw [hchronicle] at heq
          cases newer with
          | nil => rfl
          | cons first rest =>
              obtain ⟨rfl, _⟩ := List.cons.inj heq
              exact absurd rfl (hspared begun own List.mem_cons_self)
        subst hnone
        exact ⟨hstarted.taskOn_self, fun _ => hstarted.occupied.2, fun _ hcode => by simp at hcode⟩
      · obtain ⟨rest, rfl, hrest⟩ := hnewest.tail hchronicle hself
        have hne := hnewest.spared begun own List.mem_cons_self
        exact (hstarted.keeps (hs id stack rest hrest) hne).cons fun _ => nofun
  | @ended gone hchronicle _ hidOf hoccupied hends hothers =>
      obtain ⟨rest, rfl, hrest⟩ := hnewest.tail hchronicle nofun
      have hkeeps := hs id stack rest hrest
      obtain ⟨hslot, hcurrent, _⟩ := taskOn_spec hkeeps.taskOn
      have htask : t.taskOn stack = some id :=
        (bound_of_ended hoccupied hends hothers).taskOn stack ▸ hkeeps.taskOn
      by_cases hne : id.index = gone.index
      · have hself : id = gone := by rw [← hcurrent, hne, hidOf]
        subst hself
        refine ⟨htask, fun hnone => absurd List.mem_cons_self (hnone _), fun code hcode => ?_⟩
        refine ⟨hends.state, ?_⟩
        rcases List.mem_cons.mp hcode with hlast | hbefore
        · rw [hends.exitCode, (Notice.exited.inj hlast).2]
        · exact absurd (hkeeps.finished code hbefore).1 hoccupied.2
      · refine (hkeeps.lasted rfl htask (hothers id.index hslot hne)).cons fun code he => hne ?_
        rw [(Notice.exited.inj he).1]

omit [Hardware H] in
theorem Lived.taken (h : s.Lived) (hslot : target.index ∈ slots)
    (hexited : (s.record target).state = .exited) :
    (s.record target).completion.tryTake = ((s.record target).completion, true) := by
  have hlatched : (s.record target).completion.latched = true :=
    (h.finished target.index hslot hexited).2
  unfold Signal.tryTake
  rw [if_pos hlatched]

omit [Hardware H] in
theorem Lived.untaken (h : s.Lived) (hslot : target.index ∈ slots)
    (hoccupied : s.Occupied target.index) :
    (s.record target).completion.tryTake = ((s.record target).completion, false) :=
  Signal.tryTake_eq_false.mpr
    ⟨h.unlatched target.index hslot hoccupied, h.uncounted target.index hslot, rfl⟩

end Scheduler

namespace World

variable {H : Type} [Hardware H] {w : World H} {number : Nat} {target caller : TaskId}
  {newer : List Notice}

theorem Reached.faithful (h : Reached w) : w.scheduler.Faithful := by
  induction h with
  | start hardware _ _ _ => exact faithful_new hardware
  | step hreached hstep ih => exact (hstep.passage hreached.standing).faithful ih

/-! ## One attempt -/

omit [Hardware H] in
theorem joinable_of_taskOn (htask : w.kernel.taskOn number = some target) :
    requireSlot target = .ok () ∧ w.scheduler.requireStarted target = .ok () := by
  obtain ⟨hslot, _, hvacant, _⟩ := taskOn_spec htask
  obtain ⟨hne, hlt⟩ := mem_slots.mp hslot
  exact Joinable.required ⟨hlt, hne, hvacant⟩

theorem attempt_join (htask : w.kernel.taskOn number = some target)
    (hother : w.scheduler.current ≠ some target) {s : Scheduler H} {completion : Signal}
    {result : WaitResult} (hwait : w.scheduler.attemptWait (w.scheduler.record target).completion =
      .ok (s, completion, result)) :
    ∃ kernel, w.kernel.attempt (.join number) =
      .ok (kernel, result.progress (s.record target).exitCode) := by
  obtain ⟨hslot, hstarted⟩ := joinable_of_taskOn htask
  have hself : require (w.scheduler.current ≠ some target) (.joinSelf target) = .ok () :=
    require_eq_ok.mpr hother
  have hattempt : w.scheduler.attemptJoin target =
      .ok (s.withCompletion target completion, result) := by
    simp only [attemptJoin, hself, hslot, hstarted, hwait, bind, Except.bind, pure, Except.pure]
    rfl
  have hcode : ((s.withCompletion target completion).record target).exitCode =
      (s.record target).exitCode := by
    have hlt := (mem_slots.mp (taskOn_spec htask).1).2
    have hself : (s.withCompletion target completion).record target =
        { s.record target with completion } := by
      refine (s.record_update hlt _ target.index).trans ?_
      rw [if_pos rfl]
      rfl
    rw [hself]
  refine ⟨{ w.kernel with scheduler := s.withCompletion target completion }, ?_⟩
  change w.kernel.scheduler.attemptJoin target = _ at hattempt
  simp only [Kernel.attempt, Kernel.join, htask, demand, hattempt, hcode, bind, Except.bind, pure,
    Except.pure]

theorem attempt_tryJoin (htask : w.kernel.taskOn number = some target) {completion : Signal}
    {taken : Bool}
    (htake : (w.scheduler.record target).completion.tryTake = (completion, taken)) :
    ∃ kernel, w.kernel.attempt (.tryJoin number) = .ok (kernel,
      .done (if taken then some (w.scheduler.record target).exitCode else none)) := by
  obtain ⟨hslot, hstarted⟩ := joinable_of_taskOn htask
  refine ⟨{ w.kernel with scheduler := w.scheduler.withCompletion target completion }, ?_⟩
  have htry : w.kernel.scheduler.tryJoin target =
      .ok (w.scheduler.withCompletion target completion,
        if taken then some (w.scheduler.record target).exitCode else none) := by
    change w.scheduler.tryJoin target = _
    simp only [tryJoin, hslot, hstarted, htake, bind, Except.bind, pure, Except.pure]
    rfl
  simp only [Kernel.attempt, Kernel.tryJoin, htask, demand, htry, bind, Except.bind, pure,
    Except.pure]

omit [Hardware H] in
theorem Caller.retries (hcaller : w.Caller caller)
    (hcurrent : w.scheduler.current = some caller) {signal : Signal}
    (htake : signal.tryTake = (signal, false)) :
    ∃ s signal' result, w.scheduler.attemptWait signal = .ok (s, signal', result) ∧
      ∀ {α : Type} (answer : α), result.progress answer = .switchRetry := by
  have hlimit : (w.scheduler.record caller).sleepCount < sleepCountMax := by
    have hcount : (w.scheduler.record caller).sleepCount ≤ 0 := hcaller.count
    unfold sleepCountMax
    omega
  have hmark : w.scheduler.markAsleep Instant.never =
      .ok (w.scheduler.update caller fun t => t.countSleep Instant.never) := by
    simp [markAsleep, hcurrent, demand, require, hlimit, bind, Except.bind, pure, Except.pure]
  cases henlist : signal.enlist caller with
  | ok signal' =>
      refine ⟨w.scheduler.update caller fun t => t.countSleep Instant.never, signal', .parked, ?_,
        fun _ => rfl⟩
      simp only [attemptWait, htake, hcurrent, demand, henlist, hmark, bind, Except.bind, pure,
        Except.pure, Bool.false_eq_true, if_false]
  | error other =>
      refine ⟨w.scheduler, signal, .busy, ?_, fun _ => rfl⟩
      simp only [attemptWait, htake, hcurrent, demand, henlist, bind, Except.bind, pure,
        Except.pure, Bool.false_eq_true, if_false]

/-! ## The answer -/

/-- What those find who ask for the end of a run by its stack. -/
structure Answers (w : World H) (number : Nat) (target : TaskId) (newer : List Notice) :
    Prop where
  /-- Once the run has ended, a join goes through at its next attempt, with its exit code. -/
  joined : ∀ code, .exited target code ∈ newer →
    ∃ kernel, w.kernel.attempt (.join number) = .ok (kernel, .done code)
  tried : ∀ code, .exited target code ∈ newer →
    ∃ kernel, w.kernel.attempt (.tryJoin number) = .ok (kernel, .done (some code))
  /-- Nobody sleeps in a join of it then. -/
  awake : ∀ code, .exited target code ∈ newer → ∀ caller,
    w.Inside caller (.join number) → caller ∈ w.scheduler.runQueue
  /-- Before that, a join waits. -/
  pending : (∀ code, .exited target code ∉ newer) → w.control = .executing → ∀ caller,
    w.scheduler.current = some caller → caller ≠ target →
      ∃ kernel, w.kernel.attempt (.join number) = .ok (kernel, .switchRetry)
  untried : (∀ code, .exited target code ∉ newer) →
    ∃ kernel, w.kernel.attempt (.tryJoin number) = .ok (kernel, .done none)

theorem Reached.awake (h : Reached w) (htask : w.kernel.taskOn number = some target)
    (hexited : (w.record target.index).state = .exited)
    (hin : w.Inside caller (.join number)) : caller ∈ w.scheduler.runQueue := by
  obtain ⟨ho, hheard⟩ := h.waitersHeard
  obtain ⟨hslot, _, _, _⟩ := taskOn_spec htask
  obtain ⟨_, hvacant, hended⟩ := (ho.fits caller.index hin.slot).live (by rw [hin.inside]; simp)
  have hlinked := ho.standing.linked_of_state (mem_slots.mp hin.slot).1 hvacant hended
  rcases List.mem_append.mp (ho.standing.mem_of_linked hin.current hlinked) with hrun | hsleep
  · exact hrun
  · -- a sleeper would stand in the completion signal, which is latched
    have hpending := (ho.fits caller.index hin.slot).asleep (ho.standing.asleep caller hsleep).2
    obtain ⟨place, signal, hplace, hsignal, hwaiter⟩ :=
      hheard.asleep caller.index hin.slot hpending (by simp) (.join number) hin.inside
    obtain ⟨_, hlatched, _⟩ := hheard.recorded place signal _ hsignal hwaiter
    simp only [World.place, htask, Option.map_some, Option.some.injEq] at hplace
    subst hplace
    simp only [signalAt, if_pos hslot, Option.some.injEq] at hsignal
    subst hsignal
    have hended := (h.lived.finished target.index hslot hexited).2
    change (w.record target.index).completion.latched = true at hended
    rw [hlatched] at hended
    contradiction

/-- As long as no other task is started in its slot, a run answers for its stack. -/
theorem Reached.join_answers (h : Reached w)
    (hnewest : w.scheduler.Newest target (w.kernel.rangeAt number) newer) :
    w.Answers number target newer := by
  have ho := h.waitersHeard.orderly
  obtain ⟨htask, hrunning, hfinished⟩ := h.faithful target _ newer hnewest
  change w.kernel.taskOn number = some target at htask
  obtain ⟨hslot, _, hvacant, _⟩ := taskOn_spec htask
  refine ⟨?joined, ?tried, ?awake, ?pending, ?untried⟩
  case joined =>
    intro code hcode
    obtain ⟨hexited, rfl⟩ := hfinished code hcode
    have hother : w.scheduler.current ≠ some target := by
      intro hcurrent
      exact (ho.standing.occupied_current hcurrent).2 hexited
    have hwait : w.scheduler.attemptWait (w.scheduler.record target).completion =
        .ok (w.scheduler, (w.scheduler.record target).completion, .acquired) := by
      simp only [attemptWait, h.lived.taken hslot hexited, if_true]
      rfl
    exact attempt_join htask hother hwait
  case tried =>
    intro code hcode
    obtain ⟨hexited, rfl⟩ := hfinished code hcode
    exact attempt_tryJoin htask (h.lived.taken hslot hexited)
  case awake =>
    intro code hcode caller hin
    exact h.awake htask (hfinished code hcode).1 hin
  case pending =>
    intro hnone hexec caller hcurrent hne
    have hother : w.scheduler.current ≠ some target := by
      rw [hcurrent]
      exact fun he => hne (Option.some.inj he)
    obtain ⟨s, signal, result, hwait, hretry⟩ := (ho.caller hexec hcurrent).retries hcurrent
      (h.lived.untaken hslot ⟨hvacant, hrunning hnone⟩)
    obtain ⟨kernel, hattempt⟩ := attempt_join htask hother hwait
    rw [hretry] at hattempt
    exact ⟨kernel, hattempt⟩
  case untried =>
    intro hnone
    exact attempt_tryJoin htask (h.lived.untaken hslot ⟨hvacant, hrunning hnone⟩)

def threeStacks : World Board :=
  World.start (Board.start Instant.zero) 0
    ((List.range 3).map fun number => Stack.blank (Board.pageBottom number) 64) 0

def joinedRun : Option (World Board) :=
  threeStacks.run
    [.call (.start 0 0 0), .reschedule Board.mainlinePointer,
      .call (.start 0 0 1), .reschedule (Board.pageBottom 0 + 200),
      .call .giveWay, .reschedule (Board.pageBottom 1 + 200),
      .call (.join 1), .reschedule (Board.pageBottom 0 + 200),
      .call (.exit 7), .reschedule (Board.pageBottom 1 + 200)]

theorem join_answers_joinedRun :
    ∃ w : World Board, Reached w ∧ w.Inside ⟨1, 1⟩ (.join 1) ∧
      w.scheduler.Newest ⟨2, 2⟩ (w.kernel.rangeAt 1) [.exited ⟨2, 2⟩ 7] ∧
      ∃ kernel, w.kernel.attempt (.join 1) = .ok (kernel, .done 7) := by
  obtain ⟨w, hw⟩ := Option.isSome_iff_exists.mp (show joinedRun.isSome = true by decide +kernel)
  have hreached : Reached w := (Reached.start _ _ _ _).run hw
  have hinside : joinedRun.map (fun w => (w.inside 1, (w.record 1).generation)) =
      some (some (.join 1), 1) := by decide +kernel
  have hchronicle : joinedRun.map (fun w => (w.scheduler.chronicle, w.kernel.rangeAt 1)) =
      some ([.exited ⟨2, 2⟩ 7, .started ⟨2, 2⟩ (Stack.blank (Board.pageBottom 1) 64).range,
        .started ⟨1, 1⟩ (Stack.blank (Board.pageBottom 0) 64).range],
        (Stack.blank (Board.pageBottom 1) 64).range) := by decide +kernel
  rw [hw, Option.map_some, Option.some.injEq, Prod.mk.injEq] at hinside hchronicle
  have hnewest : w.scheduler.Newest ⟨2, 2⟩ (w.kernel.rangeAt 1) [.exited ⟨2, 2⟩ 7] := by
    refine ⟨⟨_, by rw [hchronicle.1, hchronicle.2]; rfl⟩, ?_⟩
    intro other own hmem
    simp at hmem
  refine ⟨w, hreached, ⟨by decide, hinside.2.symm, hinside.1⟩, hnewest, ?_⟩
  exact (hreached.join_answers hnewest).joined 7 List.mem_cons_self

def waitingJoiner : Option (World Board) :=
  threeStacks.run
    [.call (.start 0 0 0), .reschedule Board.mainlinePointer,
      .call (.start 0 0 1), .reschedule (Board.pageBottom 0 + 200),
      .call .giveWay, .reschedule (Board.pageBottom 1 + 200),
      .call (.start 0 0 2), .reschedule (Board.pageBottom 0 + 200),
      .call .giveWay, .reschedule (Board.pageBottom 1 + 200),
      .call .giveWay, .reschedule (Board.pageBottom 2 + 200),
      .call (.join 1), .reschedule (Board.pageBottom 0 + 200)]

/--
The second task exits with 7, and the third starts another on the stack before
the first has its turn.  The first tries again, and the new task exits with 9.
-/
def restarted : List Action :=
  [.call (.exit 7), .reschedule (Board.pageBottom 1 + 200),
    .call (.start 0 0 1), .reschedule (Board.pageBottom 2 + 200),
    .call (.join 1), .reschedule (Board.pageBottom 0 + 200),
    .call (.exit 9), .reschedule (Board.pageBottom 1 + 200),
    .call .giveWay, .reschedule (Board.pageBottom 2 + 200)]

/-- A join returns the exit code of a run that was started after it had been called. -/
theorem recycled_slot :
    ∃ w w' : World Board, Reached w ∧ w.Inside ⟨1, 1⟩ (.join 1) ∧
      w.kernel.taskOn 1 = some ⟨2, 2⟩ ∧ (w.scheduler.record ⟨2, 2⟩).state = .running ∧
      w.run restarted = some w' ∧ .exited ⟨2, 2⟩ 7 ∈ w'.scheduler.chronicle ∧
      w'.scheduler.current = some ⟨1, 1⟩ ∧ w'.Inside ⟨1, 1⟩ (.join 1) ∧
      ∃ kernel, w'.kernel.attempt (.join 1) = .ok (kernel, .done 9) := by
  obtain ⟨w, hw⟩ := Option.isSome_iff_exists.mp
    (show waitingJoiner.isSome = true by decide +kernel)
  obtain ⟨w', hw'⟩ := Option.isSome_iff_exists.mp
    (show (waitingJoiner.bind fun w => w.run restarted).isSome = true by decide +kernel)
  have hbefore : waitingJoiner.map (fun w => (w.inside 1, (w.record 1).generation,
      w.kernel.taskOn 1, (w.scheduler.record ⟨2, 2⟩).state)) =
        some (some (.join 1), 1, some ⟨2, 2⟩, .running) := by decide +kernel
  have hafter : (waitingJoiner.bind fun w => w.run restarted).map (fun w =>
      (w.inside 1, (w.record 1).generation, w.scheduler.current,
        decide (.exited ⟨2, 2⟩ 7 ∈ w.scheduler.chronicle))) =
        some (some (.join 1), 1, some ⟨1, 1⟩, true) := by decide +kernel
  have hanswer : ((waitingJoiner.bind fun w => w.run restarted).bind fun w =>
      (w.kernel.join 1).toOption.map fun r => r.2) = some (.done 9) := by decide +kernel
  rw [hw'] at hafter hanswer
  rw [hw] at hbefore hw'
  simp only [Option.map_some, Option.some.injEq, Prod.mk.injEq] at hbefore hafter
  rw [Option.bind_some] at hanswer hw'
  obtain ⟨⟨kernel, _⟩, hjoin, rfl⟩ := Option.map_eq_some_iff.mp hanswer
  refine ⟨w, w', (Reached.start _ _ _ _).run hw, ⟨by decide, hbefore.2.1.symm, hbefore.1⟩,
    hbefore.2.2.1, hbefore.2.2.2, hw', of_decide_eq_true hafter.2.2.2, hafter.2.2.1,
    ⟨by decide, hafter.2.1.symm, hafter.1⟩, kernel, toOption_eq_some.mp hjoin⟩

end World

end CoopTasks
