import CoopTasks.Proofs.Exclusion

/-!
Tasks take turns in the order in which they became ready.

The run queue grows at its end alone (`Extended`).  A switch takes its head
away, and no other operation takes anything, so whoever stands in the queue
moves up by one place at each switch: `Passed.in_order`.
-/

namespace CoopTasks.Scheduler

variable {H : Type} {s t u : Scheduler H} {id head next : TaskId} {run sleep rest : List TaskId}

def turn (s : Scheduler H) (id : TaskId) : Decision × Option TaskId :=
  (.resume (s.record id).pointer, some id)

/-- The queue begins with these tasks, whose contexts are where they were. -/
structure Extended (run : List TaskId) (s t : Scheduler H) : Prop where
  runQueue : ∃ later, t.runQueue = run ++ later
  pointer : ∀ id ∈ run, (t.record id).pointer = (s.record id).pointer

theorem Extended.refl (s : Scheduler H) : Extended s.runQueue s s :=
  ⟨⟨[], (List.append_nil _).symm⟩, fun _ _ => rfl⟩

theorem Extended.of_later {later : List TaskId} (h : Extended (run ++ later) s t) :
    Extended run s t := by
  obtain ⟨more, hmore⟩ := h.runQueue
  refine ⟨⟨later ++ more, hmore.trans (List.append_assoc _ _ _)⟩, ?_⟩
  intro id hid
  exact h.pointer id (List.mem_append_left _ hid)

theorem Extended.trans (h : Extended run s t) (h' : Extended t.runQueue t u) :
    Extended run s u := by
  obtain ⟨later, hlater⟩ := h.runQueue
  rw [hlater] at h'
  have hu := h'.of_later
  refine ⟨hu.runQueue, ?_⟩
  intro id hid
  exact (hu.pointer id hid).trans (h.pointer id hid)

/-! ## Everything but a switch -/

theorem Moved.extended {change : TaskRecord → TaskRecord} (h : Moved s id change run sleep t)
    (hpointer : ∀ r, (change r).pointer = r.pointer) : Extended run s t :=
  ⟨⟨[], h.runQueue.trans (List.append_nil _).symm⟩,
    fun m _ => h.field TaskRecord.pointer hpointer m.index⟩

theorem AlarmMoved.extended (h : AlarmMoved s t) : Extended s.runQueue s t := by
  refine ⟨⟨[], h.runQueue_eq.trans (List.append_nil _).symm⟩, ?_⟩
  intro id _
  unfold record
  rw [h.tasks]

theorem Woke.extended (h : Woke s id t) : Extended s.runQueue s t := by
  refine ⟨⟨_, h.runQueue⟩, ?_⟩
  intro m _
  refine (congrArg TaskRecord.pointer (h.record m.index)).trans ?_
  split <;> rfl

theorem Woke.mem_runQueue (h : Woke s id t) (hs : s.Standing) : id ∈ t.runQueue := by
  rw [h.runQueue]
  by_cases hasleep : (s.record id).state = .sleeping
  · rw [if_pos hasleep]
    exact List.mem_append_right _ (List.mem_singleton_self id)
  · exact List.mem_append_left _
      (hs.mem_run_of_queued h.task h.current (h.state.resolve_left hasleep))

theorem Wakes.extended {ids : List TaskId} (h : Wakes s ids t) : Extended s.runQueue s t := by
  refine h.preserves (P := Extended s.runQueue s) ?_ ?_ (.refl s)
  · intro t u hmoved ht
    exact ht.trans hmoved.extended
  · intro t id u hwoke ht
    exact ht.trans hwoke.extended

theorem Attempted.extended {w w' : Signal} {result : WaitResult}
    (h : Attempted s w t w' result) : Extended s.runQueue s t := by
  cases h with
  | acquired _ => exact .refl s
  | parked _ _ _ _ _ hmoved _ => exact hmoved.extended fun _ => rfl
  | busy _ _ _ _ _ => exact .refl s

theorem Dispatched.runQueue_eq {decision : Decision} (h : Dispatched s t decision) :
    t.runQueue = s.runQueue := by
  cases h with
  | resumed _ _ hmoved _ => exact hmoved.runQueue
  | drained hrun _ _ hmoved _ => exact hmoved.runQueue.trans hrun.symm
  | idle _ _ => rfl

theorem Dispatched.extended {decision : Decision} (h : Dispatched s t decision)
    (hne : s.runQueue ≠ []) : Extended s.runQueue s t := by
  cases h with
  | resumed _ _ hmoved _ => exact hmoved.extended fun _ => rfl
  | drained hrun _ _ _ _ => exact absurd hrun hne
  | idle hrun _ => exact absurd hrun hne

theorem drop_cons_eq (head : TaskId) {n : Nat} (hle : n ≤ rest.length) :
    ∃ next, (head :: rest)[n]? = some next ∧ (head :: rest).drop n = next :: rest.drop n := by
  have hlt : n < (head :: rest).length := Nat.lt_succ_of_le hle
  refine ⟨(head :: rest)[n], List.getElem?_eq_getElem hlt, ?_⟩
  rw [List.drop_eq_getElem_cons hlt, List.drop_succ_cons]

theorem Dispatched.turn {decision : Decision} (h : Dispatched s t decision)
    (hextended : Extended (next :: rest) u s) :
    decision = .resume (u.record next).pointer ∧ t.runQueue.head? = some next ∧
      Extended (next :: rest) u t := by
  obtain ⟨later, hlater⟩ := hextended.runQueue
  have hne : s.runQueue ≠ [] := by
    rw [hlater]
    exact List.cons_ne_nil _ _
  have ht := hextended.trans (h.extended hne)
  cases h with
  | resumed hhead _ hmoved _ =>
      rw [hlater, List.cons_append, List.head?_cons, Option.some.injEq] at hhead
      subst hhead
      refine ⟨?_, ?_, ht⟩
      · rw [hextended.pointer _ List.mem_cons_self]
      · rw [hmoved.runQueue, hlater, List.cons_append, List.head?_cons]
  | drained hrun _ _ _ _ => exact absurd hrun hne
  | idle hrun _ => exact absurd hrun hne

variable [Hardware H]

theorem Started.extended {stack : StackRange} {pointer : Address}
    (h : Started s stack pointer id t) (hs : s.Standing) (hne : s.runQueue ≠ []) :
    Extended s.runQueue s t := by
  refine ⟨⟨[id], ?_⟩, ?_⟩
  · rw [h.runQueue, admitted, if_neg hne]
  · intro m hm
    by_cases hzero : m.index = 0
    · have hmainline := h.mainline
      rw [if_neg hne] at hmainline
      unfold record at hmainline ⊢
      rw [hzero]
      exact congrArg TaskRecord.pointer hmainline
    · have hother : m.index ≠ id.index := by
        intro he
        have hoccupied := hs.occupied hm hzero
        rw [he] at hoccupied
        exact hoccupied.not_gone h.gone
      exact congrArg TaskRecord.pointer (h.other m.index hzero hother)

def Operation.switches : Operation → Bool
  | .reschedule _ => true
  | _ => false

theorem Performed.extended {op : Operation} {decision : Option Decision}
    (h : Performed s op t decision) (hs : s.Standing) (hop : op.switches = false)
    (hne : s.runQueue ≠ []) : Extended s.runQueue s t := by
  cases h with
  | refused => exact .refl s
  | started hstarted => exact hstarted.extended hs hne
  | switched _ => contradiction
  | dispatched hdispatched => exact hdispatched.extended hne
  | exiting _ _ hmoved => exact hmoved.extended fun _ => rfl
  | asleep _ _ hmoved => exact hmoved.extended fun _ => rfl
  | woken hwake =>
      obtain ⟨ids, hwakes⟩ := hs.wakes_of_wake hwake
      exact hwakes.extended
  | posted hwake =>
      obtain ⟨ids, hwakes⟩ := hs.wakes_of_wakeWaiter hwake
      exact hwakes.extended
  | attempted hattempted => exact hattempted.extended
  | @joined _ u _ _ _ hattempted _ hmoved =>
      have hjoined : Extended u.runQueue u t := hmoved.extended fun _ => rfl
      exact hattempted.extended.trans hjoined
  | tried _ hmoved => exact hmoved.extended fun _ => rfl
  | handled halarm =>
      obtain ⟨ids, hwakes⟩ := hs.wakes_of_handleAlarm halarm
      exact hwakes.extended

/-! ## A switch -/

theorem Settled.extended (h : Settled s id run sleep t)
    (hrun : ∀ m ∈ run, m.index ≠ id.index) : Extended run s t := by
  cases h with
  | parked _ hmoved _ => exact hmoved.extended fun _ => rfl
  | finished _ _ _ _ hmoved _ hwake =>
      obtain ⟨ids, hwakes⟩ := hmoved.standing.wakes_of_wakeWaiter hwake
      refine Extended.trans ⟨⟨[], hmoved.runQueue.trans (List.append_nil _).symm⟩, ?_⟩
        hwakes.extended
      intro m hm
      exact congrArg TaskRecord.pointer (hmoved.other (hrun m hm))
  | asleep _ _ _ _ hmoved _ => exact hmoved.extended fun _ => rfl
  | requeued _ _ _ _ hmoved _ =>
      have hwhole : Extended (run ++ [id]) s t := hmoved.extended fun _ => rfl
      exact hwhole.of_later

theorem Settled.extended_yield (h : Settled s id run sleep t) (hid : id.index ≠ 0)
    (hexiting : (s.record id).exiting = false) (hawake : (s.record id).isSleeping = false) :
    Extended (run ++ [id]) s t := by
  cases h with
  | parked hzero _ _ => exact absurd hzero hid
  | finished _ _ hexiting' _ _ _ _ =>
      rw [hexiting] at hexiting'
      contradiction
  | asleep _ _ _ hasleep _ _ =>
      rw [hawake] at hasleep
      contradiction
  | requeued _ _ _ _ hmoved _ => exact hmoved.extended fun _ => rfl

theorem Suspended.index_ne {pointer : Address} (h : Suspended s pointer id rest u)
    (hs : s.Standing) : ∀ m ∈ rest, m.index ≠ id.index := by
  have hnodup := hs.ready.nodup
  rw [h.runQueue, List.map_cons, List.nodup_cons] at hnodup
  intro m hm he
  rw [← he] at hnodup
  exact hnodup.1 (List.mem_map_of_mem hm)

theorem Suspended.pointer_eq {pointer : Address} (h : Suspended s pointer id rest u)
    (hs : s.Standing) : ∀ m ∈ rest, (u.record m).pointer = (s.record m).pointer := by
  intro m hm
  exact congrArg TaskRecord.pointer ((h.record m.index).trans (if_neg (h.index_ne hs m hm)))

theorem Switched.turn {pointer : Address} {decision : Decision} {woken : List TaskId}
    {v w : Scheduler H} (h : Switched s pointer t decision id rest woken u v w)
    (hextended : Extended (next :: run) u v) (hnext : next.index ≠ 0) :
    decision = .resume (u.record next).pointer ∧ t.current = some next ∧
      Extended (next :: run) u t := by
  obtain ⟨hdecision, hhead, ht⟩ := h.dispatched.turn (hextended.trans h.rearmed.wakes.extended)
  exact ⟨hdecision, h.standing.2.2.current_eq_some_iff.mpr ⟨hhead, hnext⟩, ht⟩

theorem Standing.reschedule_turn (h : s.Standing) {pointer : Address} {decision : Decision}
    (hrun : s.runQueue = head :: next :: rest)
    (hok : s.reschedule pointer = .ok (t, decision)) :
    decision = .resume (s.record next).pointer ∧ t.current = some next ∧
      Extended (next :: rest) s t := by
  obtain ⟨id, behind, woken, u, v, w, hswitched⟩ := h.reschedule hok
  have hsuspended := hswitched.suspended
  obtain ⟨rfl, rfl⟩ := List.cons.inj (hrun.symm.trans hsuspended.runQueue)
  have hnext : next.index ≠ 0 := by
    apply h.behind
    rw [hrun]
    exact List.mem_cons_self
  have hpointer := hsuspended.pointer_eq h
  obtain ⟨hdecision, hcurrent, ht⟩ :=
    hswitched.turn (hswitched.settled.extended (hsuspended.index_ne h)) hnext
  refine ⟨?_, hcurrent, ht.runQueue, ?_⟩
  · rw [hdecision, hpointer next List.mem_cons_self]
  · intro m hm
    exact (ht.pointer m hm).trans (hpointer m hm)

theorem Standing.reschedule_yield (h : s.Standing) {pointer : Address} {decision : Decision}
    (hrun : s.runQueue = head :: rest) (hhead : head.index ≠ 0)
    (hexiting : (s.record head).exiting = false) (hawake : (s.record head).isSleeping = false)
    (hok : s.reschedule pointer = .ok (t, decision)) :
    ∃ u first others, rest ++ [head] = first :: others ∧
      u.turn head = (.resume pointer, some head) ∧ (∀ m ∈ rest, u.turn m = s.turn m) ∧
      (decision, t.current) = u.turn first ∧ Extended (first :: others) u t := by
  obtain ⟨id, behind, woken, u, v, w, hswitched⟩ := h.reschedule hok
  have hsuspended := hswitched.suspended
  obtain ⟨rfl, rfl⟩ := List.cons.inj (hrun.symm.trans hsuspended.runQueue)
  have hself := hsuspended.self
  have hsettled := hswitched.settled.extended_yield hhead
    ((congrArg TaskRecord.exiting hself).trans hexiting)
    ((congrArg TaskRecord.isSleeping hself).trans hawake)
  have htasks : ∀ m ∈ rest ++ [head], m.index ≠ 0 := by
    intro m hm
    rcases List.mem_append.mp hm with hm | hm
    · apply h.behind
      rw [hrun]
      exact hm
    · rwa [List.mem_singleton.mp hm]
  obtain ⟨first, others, hfirst⟩ : ∃ first others, rest ++ [head] = first :: others :=
    List.exists_cons_of_ne_nil (by simp)
  rw [hfirst] at hsettled htasks
  obtain ⟨hdecision, hcurrent, ht⟩ := hswitched.turn hsettled (htasks first List.mem_cons_self)
  refine ⟨u, first, others, hfirst, ?_, ?_, ?_, ht⟩
  · simp only [turn, hself, suspendedRecord]
  · intro m hm
    simp only [turn, hsuspended.pointer_eq h m hm]
  · simp only [turn, hdecision, hcurrent]

/-! ## Runs -/

/-- A run, with the record of its switches: what each decided and whom it left executing. -/
inductive Passed (s : Scheduler H) : List (Decision × Option TaskId) → Scheduler H → Prop
  | none : Passed s [] s
  | elapse {log : List (Decision × Option TaskId)} {t : Scheduler H} {hardware : H} :
      Passed s log t →
      Passed s log { t with hardware }
  | perform {log : List (Decision × Option TaskId)} {t u : Scheduler H} {op : Operation}
      {decision : Option Decision} :
      Passed s log t →
      op.switches = false →
      t.perform op = .ok (u, decision) →
      Passed s log u
  | switch {log : List (Decision × Option TaskId)} {t u : Scheduler H} {pointer : Address}
      {decision : Decision} :
      Passed s log t →
      t.reschedule pointer = .ok (u, decision) →
      Passed s (log ++ [(decision, u.current)]) u

variable {log : List (Decision × Option TaskId)}

theorem Passed.standing (h : Passed s log t) (hs : s.Standing) : t.Standing := by
  induction h with
  | none => exact hs
  | @elapse log t hardware _ ih => exact (alarmMoved t hardware t.armed).standing ih
  | perform _ _ hok ih => exact (ih.perform hok).standing ih
  | switch _ hok ih =>
      obtain ⟨id, behind, woken, u, v, w, hswitched⟩ := ih.reschedule hok
      exact hswitched.standing.2.2

/-- As many switches as there are tasks behind the head give each of them one turn, in order. -/
theorem Passed.in_order (h : Passed s log t) (hs : s.Standing) {base : Scheduler H}
    (hextended : Extended (head :: rest) base s) :
    log.take rest.length = (rest.take log.length).map base.turn ∧
      (log.length ≤ rest.length → Extended ((head :: rest).drop log.length) base t) := by
  induction h with
  | none => exact ⟨by simp, fun _ => hextended⟩
  | @elapse log t hardware _ ih =>
      exact ⟨ih.1, fun hle => (ih.2 hle).trans (alarmMoved t hardware t.armed).extended⟩
  | @perform log t u op decision hpassed hop hok ih =>
      refine ⟨ih.1, fun hle => ?_⟩
      have ht := ih.2 hle
      have hne : t.runQueue ≠ [] := by
        obtain ⟨later, hlater⟩ := ht.runQueue
        rw [hlater]
        apply List.append_ne_nil_of_left_ne_nil
        rw [ne_eq, List.drop_eq_nil_iff, List.length_cons]
        omega
      have hstanding := hpassed.standing hs
      exact ht.trans ((hstanding.perform hok).extended hstanding hop hne)
  | @switch log t u pointer decision hpassed hok ih =>
      by_cases hlt : log.length < rest.length
      · have ht := ih.2 (by omega)
        obtain ⟨next, more, hnext⟩ : ∃ next more, rest.drop log.length = next :: more :=
          List.exists_cons_of_ne_nil (by rw [ne_eq, List.drop_eq_nil_iff]; omega)
        obtain ⟨first, _, hfirst⟩ := drop_cons_eq head (Nat.le_of_lt hlt)
        rw [hfirst, hnext] at ht
        obtain ⟨later, hlater⟩ := ht.runQueue
        obtain ⟨hdecision, hcurrent, hu⟩ := (hpassed.standing hs).reschedule_turn hlater hok
        have hmore : Extended (next :: more) t u := hu.of_later
        have hpointer := ht.pointer next (by simp)
        refine ⟨?_, fun _ => ⟨?_, ?_⟩⟩
        · rw [List.take_of_length_le (by omega)] at ih
          rw [List.take_of_length_le (by simp; omega), List.length_append, List.length_singleton,
            List.take_add, hnext, List.map_append, ← ih.1, hdecision, hcurrent, hpointer]
          rfl
        · rw [List.length_append, List.length_singleton, List.drop_succ_cons, hnext]
          exact hmore.runQueue
        · rw [List.length_append, List.length_singleton, List.drop_succ_cons, hnext]
          intro m hm
          exact (hmore.pointer m hm).trans (ht.pointer m (List.mem_cons_of_mem first hm))
      · refine ⟨?_, fun hle => ?_⟩
        · rw [List.take_append_of_le_length (by omega), ih.1, List.take_of_length_le (by omega),
            List.take_of_length_le (by simp; omega)]
        · rw [List.length_append, List.length_singleton] at hle
          omega

structure ServedInOrder (s : Scheduler H) (head : TaskId) (rest : List TaskId) : Prop where
  nodup : s.runQueue.Nodup
  /-- The first switches give one turn to each task behind the head. -/
  turns : ∀ log t, Passed s log t →
    log.take rest.length = (rest.take log.length).map s.turn
  /-- The queue loses its head at each switch, and otherwise only grows at its end. -/
  queue : ∀ log t, Passed s log t → log.length ≤ rest.length →
    ∃ later, t.runQueue = s.runQueue.drop log.length ++ later
  /-- Where nobody executes, whoever came to the front of the queue does next. -/
  dispatched : ∀ log t u decision, Passed s log t → log.length ≤ rest.length →
    t.dispatch = .ok (u, decision) →
    u.runQueue = t.runQueue ∧ ∃ next, s.runQueue[log.length]? = some next ∧
      decision = .resume (s.record next).pointer
  /-- A task that gives way goes on after everybody who was ready had one turn. -/
  yielded : ∀ pointer t decision log u, s.current = some head →
    (s.record head).exiting = false → (s.record head).isSleeping = false →
    s.reschedule pointer = .ok (t, decision) → Passed t log u →
    ((decision, t.current) :: log).take (rest.length + 1) =
      (rest.map s.turn ++ [(Decision.resume pointer, some head)]).take (log.length + 1)
  /-- Whoever becomes ready after a task gave way is queued behind it. -/
  behind : ∀ pointer t decision log u, s.current = some head →
    (s.record head).exiting = false → (s.record head).isSleeping = false →
    s.reschedule pointer = .ok (t, decision) → Passed t log u → log.length ≤ rest.length →
    ∃ later, u.runQueue = (rest ++ [head]).drop log.length ++ later

theorem Passed.dispatched (h : Passed s log t) (hs : s.Standing)
    (hrun : s.runQueue = head :: rest) (hle : log.length ≤ rest.length) {decision : Decision}
    (hok : t.dispatch = .ok (u, decision)) :
    u.runQueue = t.runQueue ∧ ∃ next, s.runQueue[log.length]? = some next ∧
      decision = .resume (s.record next).pointer := by
  have hself : Extended (head :: rest) s s := by
    rw [← hrun]
    exact .refl s
  have ht := (h.in_order hs hself).2 hle
  obtain ⟨next, hnext, hdrop⟩ := drop_cons_eq head hle
  rw [hdrop] at ht
  have hdispatched := (h.standing hs).dispatch hok
  obtain ⟨hdecision, _, _⟩ := hdispatched.turn ht
  rw [hrun]
  exact ⟨hdispatched.runQueue_eq, next, hnext, hdecision⟩

theorem Passed.yielded (h : Passed t log u) (hs : s.Standing) (hrun : s.runQueue = head :: rest)
    (hcurrent : s.current = some head) (hexiting : (s.record head).exiting = false)
    (hawake : (s.record head).isSleeping = false) {pointer : Address} {decision : Decision}
    (hok : s.reschedule pointer = .ok (t, decision)) :
    ((decision, t.current) :: log).take (rest.length + 1) =
        (rest.map s.turn ++ [(Decision.resume pointer, some head)]).take (log.length + 1) ∧
      (log.length ≤ rest.length →
        ∃ later, u.runQueue = (rest ++ [head]).drop log.length ++ later) := by
  obtain ⟨base, first, others, hfirst, hturn, hothers, hdecision, ht⟩ :=
    hs.reschedule_yield hrun (hs.current hcurrent).2.1 hexiting hawake hok
  obtain ⟨_, _, _, _, _, _, hswitched⟩ := hs.reschedule hok
  obtain ⟨hlog, hextended⟩ := h.in_order hswitched.standing.2.2 ht
  have hlength : others.length = rest.length := by
    simpa using (congrArg List.length hfirst).symm
  have hturns : rest.map s.turn ++ [(.resume pointer, some head)] =
      (rest ++ [head]).map base.turn := by
    rw [List.map_append, List.map_singleton, hturn, List.map_congr_left hothers]
  rw [hturns, hfirst, ← hlength]
  refine ⟨?_, fun hle => (hextended hle).runQueue⟩
  rw [List.take_succ_cons, hlog, hdecision, ← List.map_take, List.take_succ_cons, List.map_cons]

theorem Reachable.served_in_order (h : Reachable s) (hrun : s.runQueue = head :: rest) :
    s.ServedInOrder head rest := by
  obtain ⟨hs, -⟩ := h.invariants
  have hself : Extended (head :: rest) s s := by
    rw [← hrun]
    exact .refl s
  refine ⟨hs.nodup_runQueue, ?turns, ?queue, ?dispatched, ?yielded, ?behind⟩
  case turns =>
    intro log t hpassed
    exact (hpassed.in_order hs hself).1
  case queue =>
    intro log t hpassed hle
    rw [hrun]
    exact ((hpassed.in_order hs hself).2 hle).runQueue
  case dispatched =>
    intro log t u decision hpassed hle hok
    exact hpassed.dispatched hs hrun hle hok
  case yielded =>
    intro pointer t decision log u hcurrent hexiting hawake hok hpassed
    exact (hpassed.yielded hs hrun hcurrent hexiting hawake hok).1
  case behind =>
    intro pointer t decision log u hcurrent hexiting hawake hok hpassed
    exact (hpassed.yielded hs hrun hcurrent hexiting hawake hok).2

def readyPair : Except Fault (Scheduler Board) :=
  (new (Board.start Instant.zero)).performAll
    [.spawn ⟨0x20000000, 0x20000400⟩ 0x200003c8, .spawn ⟨0x20001000, 0x20001400⟩ 0x200013c8,
      .reschedule Board.mainlinePointer]

def startThird (s : Scheduler Board) : Except Fault (Scheduler Board × Option Decision) :=
  s.perform (.spawn ⟨0x20002000, 0x20002400⟩ 0x200023c8)

theorem served_in_order_readyPair :
    ∃ (s t u : Scheduler Board) (decision : Decision), Reachable s ∧
      s.runQueue = [⟨1, 1⟩, ⟨2, 2⟩] ∧ startThird s = .ok (t, none) ∧
      t.reschedule 0x20000380 = .ok (u, decision) ∧
      decision = .resume 0x200013c8 ∧ u.current = some ⟨2, 2⟩ := by
  obtain ⟨s, hs⟩ := Option.isSome_iff_exists.mp
    (show readyPair.toOption.isSome = true by decide)
  have hthird : (readyPair.toOption.bind fun s => (startThird s).toOption.map
      fun r => r.2) = some none := by decide
  have hswitched : (readyPair.toOption.bind fun s => (startThird s).toOption.bind fun r =>
      (r.1.reschedule 0x20000380).toOption).isSome = true := by decide
  have hrun : readyPair.toOption.map (fun s => s.runQueue) =
      some [⟨1, 1⟩, ⟨2, 2⟩] := by decide
  have hpointer : readyPair.toOption.map (fun s => (s.record ⟨2, 2⟩).pointer) =
      some 0x200013c8 := by decide
  rw [hs] at hthird hswitched hrun hpointer
  obtain ⟨⟨t, _⟩, ht, rfl⟩ := Option.map_eq_some_iff.mp hthird
  rw [Option.bind_some, ht] at hswitched
  obtain ⟨⟨u, decision⟩, hu⟩ := Option.isSome_iff_exists.mp hswitched
  rw [toOption_eq_some] at hs ht
  rw [Option.bind_some, toOption_eq_some] at hu
  have hreachable : Reachable s := Reachable.new.performAll hs
  have hserved := hreachable.served_in_order (Option.some.inj hrun)
  have hlog := hserved.turns _ u (.switch (.perform .none rfl ht) hu)
  simp only [List.nil_append, List.length_singleton, List.take_succ_cons, List.take_zero,
    List.map_singleton, List.cons.injEq, turn, Prod.mk.injEq] at hlog
  refine ⟨s, t, u, decision, hreachable, Option.some.inj hrun, ht, hu, ?_, hlog.1.2⟩
  exact hlog.1.1.trans (congrArg Decision.resume (Option.some.inj hpointer))

end CoopTasks.Scheduler
