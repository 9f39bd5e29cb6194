import CoopTasks.Proofs.Operations

/-!
What the journal tells about the lives of tasks.

The chronicle of a scheduler is its journal without the notices about wakes and
the alarm, latest first.  A start adds to it, and so does the switch that
retires a task; nothing else does.
-/

namespace CoopTasks

def Notice.ofLife : Notice → Bool
  | .started .. | .exited .. => true
  | .woken .. | .alarmArmed .. | .drained => false

namespace Scheduler

variable {H : Type} {s t u : Scheduler H} {id : TaskId}

def chronicle (s : Scheduler H) : List Notice :=
  s.journal.filter Notice.ofLife

theorem chronicle_note_of_life {notice : Notice} (h : notice.ofLife = true) :
    (s.note notice).chronicle = notice :: s.chronicle :=
  List.filter_cons_of_pos h

theorem chronicle_note {notice : Notice} (h : notice.ofLife = false) :
    (s.note notice).chronicle = s.chronicle := by
  apply List.filter_cons_of_neg
  rw [h]
  decide

/-! ## Wakes -/

theorem chronicle_enqueue (hok : s.enqueue id = .ok t) : t.chronicle = s.chronicle := by
  simp only [enqueue, bind_eq_ok, pure_eq_ok, Prod.exists] at hok
  obtain ⟨ready, cells, _, rfl⟩ := hok
  rfl

theorem chronicle_countWake (s : Scheduler H) (id : TaskId) :
    (s.countWake id).chronicle = s.chronicle :=
  chronicle_note rfl

theorem chronicle_wakeTask {wasHead : Bool} (hok : s.wakeTask id = .ok (t, wasHead)) :
    t.chronicle = s.chronicle := by
  unfold wakeTask at hok
  simp only [bind_eq_ok, require_eq_ok, exists_and_left, exists_const] at hok
  obtain ⟨_, _, _, hok⟩ := hok
  split at hok
  · simp only [bind_eq_ok, pure_eq_ok, Prod.mk.injEq] at hok
    obtain ⟨u, henqueue, rfl, _⟩ := hok
    exact (chronicle_enqueue henqueue).trans (s.chronicle_countWake id)
  · obtain ⟨rfl, _⟩ := Prod.mk.inj (Except.ok.inj hok)
    exact s.chronicle_countWake id
  · obtain ⟨rfl, _⟩ := Prod.mk.inj (Except.ok.inj hok)
    exact s.chronicle_countWake id
  · contradiction

theorem chronicle_wakeExpired {now : Instant} {steps : Nat}
    (hok : wakeExpired now steps s = .ok t) :
    t.chronicle = s.chronicle := by
  induction steps generalizing s with
  | zero =>
      obtain rfl := Except.ok.inj hok
      rfl
  | succ steps ih =>
      unfold wakeExpired at hok
      split at hok
      · obtain rfl := Except.ok.inj hok
        rfl
      · dsimp only at hok
        split at hok
        · obtain rfl := Except.ok.inj hok
          rfl
        · simp only [bind_eq_ok, Prod.exists] at hok
          obtain ⟨u, wasHead, hwake, hok⟩ := hok
          exact (ih hok).trans (chronicle_wakeTask hwake)

variable [Hardware H]

theorem chronicle_rearmSteps {steps : Nat} (hok : s.rearmSteps steps = .ok t) :
    t.chronicle = s.chronicle := by
  induction steps generalizing s with
  | zero =>
      obtain rfl := Except.ok.inj hok
      rfl
  | succ steps ih =>
      unfold rearmSteps at hok
      split at hok
      · obtain rfl := Except.ok.inj hok
        rfl
      · dsimp only at hok
        split at hok
        · obtain rfl := Except.ok.inj hok
          rfl
        · split at hok
          · obtain rfl := Except.ok.inj hok
            exact chronicle_note rfl
          · simp only [bind_eq_ok, Prod.exists] at hok
            obtain ⟨u, wasHead, hwake, hok⟩ := hok
            rw [ih hok, chronicle_wakeTask hwake]
            rfl

theorem chronicle_rearm (hok : s.rearm = .ok t) : t.chronicle = s.chronicle :=
  chronicle_rearmSteps hok

theorem chronicle_wake (hok : s.wake id = .ok t) : t.chronicle = s.chronicle := by
  unfold wake at hok
  simp only [bind_eq_ok, Prod.exists] at hok
  obtain ⟨_, _, u, wasHead, hwake, hok⟩ := hok
  have hu := chronicle_wakeTask hwake
  split at hok
  · exact (chronicle_rearm hok).trans hu
  · rw [pure_eq_ok] at hok
    subst hok
    exact hu

theorem chronicle_wakeWaiter {waiter : Option TaskId} (hok : s.wakeWaiter waiter = .ok t) :
    t.chronicle = s.chronicle := by
  cases waiter with
  | none =>
      obtain rfl := Except.ok.inj hok
      rfl
  | some id => exact chronicle_wake hok

theorem chronicle_handleAlarm (hok : s.handleAlarm = .ok t) : t.chronicle = s.chronicle := by
  unfold handleAlarm at hok
  simp only [bind_eq_ok] at hok
  obtain ⟨u, hexpired, hok⟩ := hok
  rw [chronicle_rearm hok, chronicle_wakeExpired hexpired]
  rfl

/-! ## Calls -/

omit [Hardware H] in
theorem chronicle_admitMainline (hok : s.admitMainline = .ok t) : t.chronicle = s.chronicle := by
  simp only [admitMainline, bind_eq_ok] at hok
  obtain ⟨empty, _, hok⟩ := hok
  split at hok
  · simp only [bind_eq_ok, pure_eq_ok, Prod.exists] at hok
    obtain ⟨ready, cells, _, rfl⟩ := hok
    rfl
  · rw [pure_eq_ok] at hok
    rw [hok]

theorem chronicle_spawn {stack : StackRange} {pointer : Address}
    (hok : s.spawn stack pointer = .ok (t, .ok id)) :
    t.chronicle = .started id stack :: s.chronicle := by
  unfold spawn at hok
  simp only [bind_eq_ok, require_eq_ok, exists_and_left, exists_const] at hok
  obtain ⟨_, hok⟩ := hok
  split at hok
  · obtain ⟨_, hrefused⟩ := Prod.mk.inj (Except.ok.inj hok)
    contradiction
  · simp only [bind_eq_ok, pure_eq_ok, Prod.mk.injEq, Except.ok.injEq] at hok
    obtain ⟨u, hadmit, tasks, _, v, henqueue, rfl, rfl⟩ := hok
    rw [chronicle_note_of_life rfl, chronicle_enqueue henqueue, ← chronicle_admitMainline hadmit]
    rfl

omit [Hardware H] in
theorem chronicle_markExiting {code : UInt32} (hok : s.markExiting code = .ok t) :
    t.chronicle = s.chronicle := by
  obtain ⟨id, _, rfl⟩ := markExiting_eq_ok hok
  rfl

omit [Hardware H] in
theorem chronicle_markAsleep {deadline : Instant} (hok : s.markAsleep deadline = .ok t) :
    t.chronicle = s.chronicle := by
  obtain ⟨id, _, _, rfl⟩ := markAsleep_eq_ok hok
  rfl

omit [Hardware H] in
theorem chronicle_attemptWait {w w' : Signal} {result : WaitResult}
    (hok : s.attemptWait w = .ok (t, w', result)) : t.chronicle = s.chronicle := by
  unfold attemptWait at hok
  dsimp only at hok
  split at hok
  · obtain ⟨rfl, _⟩ := Prod.mk.inj (Except.ok.inj hok)
    rfl
  · simp only [bind_eq_ok] at hok
    obtain ⟨id, _, hok⟩ := hok
    split at hok
    · simp only [bind_eq_ok, pure_eq_ok, Prod.mk.injEq] at hok
      obtain ⟨u, hmark, rfl, _⟩ := hok
      exact chronicle_markAsleep hmark
    · obtain ⟨rfl, _⟩ := Prod.mk.inj (Except.ok.inj hok)
      rfl

omit [Hardware H] in
theorem chronicle_attemptJoin {target : TaskId} {result : WaitResult}
    (hok : s.attemptJoin target = .ok (t, result)) : t.chronicle = s.chronicle := by
  unfold attemptJoin at hok
  simp only [bind_eq_ok, pure_eq_ok, Prod.mk.injEq, Prod.exists] at hok
  obtain ⟨_, _, _, _, _, _, u, completion, _, hattempt, rfl, _⟩ := hok
  have hu := chronicle_attemptWait hattempt
  exact hu

/-! ## Switches -/

theorem chronicle_suspend {pointer : Address} (hok : s.suspend pointer = .ok (t, id)) :
    t.chronicle = s.chronicle := by
  unfold suspend at hok
  simp only [account, bind_eq_ok, pure_eq_ok, Prod.mk.injEq, require_eq_ok, exists_and_left,
    exists_const] at hok
  obtain ⟨_, _, _, ⟨_, rfl⟩, rfl, _⟩ := hok
  rfl

omit [Hardware H] in
theorem chronicle_putToSleep (hok : s.putToSleep id = .ok t) : t.chronicle = s.chronicle := by
  simp only [putToSleep, bind_eq_ok, pure_eq_ok, Prod.exists] at hok
  obtain ⟨timers, cells, _, rfl⟩ := hok
  rfl

theorem chronicle_unguard {region : Option UInt8} (hok : s.unguard region = .ok t) :
    t.chronicle = s.chronicle := by
  cases region with
  | none =>
      obtain rfl := Except.ok.inj hok
      rfl
  | some region =>
      simp only [unguard, bind_eq_ok, pure_eq_ok] at hok
      obtain ⟨hardware, _, rfl⟩ := hok
      rfl

theorem chronicle_finish (hok : s.finish id = .ok t) :
    t.chronicle = .exited id (s.record id).exitCode :: s.chronicle := by
  unfold finish at hok
  simp only [bind_eq_ok] at hok
  obtain ⟨_, _, u, hunguard, hok⟩ := hok
  rw [chronicle_wakeWaiter hok, chronicle_note_of_life rfl, chronicle_unguard hunguard]
  rfl

def ending (s : Scheduler H) (id : TaskId) : List Notice :=
  if id.index ≠ 0 ∧ (s.record id).exiting = true then [.exited id (s.record id).exitCode] else []

theorem chronicle_settle (hok : s.settle id = .ok t) :
    t.chronicle = s.ending id ++ s.chronicle := by
  unfold settle at hok
  unfold ending
  split at hok
  · rename_i hmainline
    rw [TaskId.isMainline_iff] at hmainline
    obtain rfl := Except.ok.inj hok
    rw [if_neg (by simp [hmainline])]
    rfl
  · rename_i hmainline
    rw [TaskId.isMainline_iff] at hmainline
    simp only [bind_eq_ok] at hok
    obtain ⟨_, _, hok⟩ := hok
    split at hok
    · rename_i hexiting
      rw [if_pos ⟨hmainline, hexiting⟩]
      exact chronicle_finish hok
    · rename_i hexiting
      rw [if_neg (by simp [hexiting])]
      split at hok
      · exact chronicle_putToSleep hok
      · exact (chronicle_enqueue (s := s.update id _) hok).trans rfl

theorem chronicle_dispatch {decision : Decision} (hok : s.dispatch = .ok (t, decision)) :
    t.chronicle = s.chronicle := by
  unfold dispatch at hok
  split at hok
  · simp only [bind_eq_ok, pure_eq_ok, Prod.mk.injEq] at hok
    obtain ⟨_, _, rfl, _⟩ := hok
    rfl
  · simp only [bind_eq_ok] at hok
    obtain ⟨empty, _, hok⟩ := hok
    split at hok
    · simp only [bind_eq_ok, pure_eq_ok, Prod.mk.injEq] at hok
      obtain ⟨_, _, rfl, _⟩ := hok
      exact chronicle_note rfl
    · obtain ⟨rfl, _⟩ := Prod.mk.inj (Except.ok.inj hok)
      rfl

theorem chronicle_reschedule (hs : s.Standing) {pointer : Address} {decision : Decision}
    (hrun : s.runQueue.head? = some id) (hok : s.reschedule pointer = .ok (t, decision)) :
    t.chronicle = s.ending id ++ s.chronicle := by
  unfold reschedule at hok
  simp only [bind_eq_ok, Prod.exists] at hok
  obtain ⟨u, id', hsuspend, v, hsettle, w, hrearm, hdispatch⟩ := hok
  obtain ⟨rest, hsuspended⟩ := hs.suspend hsuspend
  rw [hsuspended.runQueue, List.head?_cons, Option.some.injEq] at hrun
  subst hrun
  have hending : u.ending id' = s.ending id' := by
    simp only [ending, hsuspended.self, suspendedRecord]
  rw [chronicle_dispatch hdispatch, chronicle_rearm hrearm, chronicle_settle hsettle, hending,
    chronicle_suspend hsuspend]

end Scheduler

end CoopTasks
