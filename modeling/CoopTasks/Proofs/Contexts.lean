import CoopTasks.Proofs.Stage
import CoopTasks.Simulation.Board

/-!
Contexts are resumed where they were suspended.

The two halves of a switch are one turn each: the executing strand departs, and
a suspended one is resumed.  A start is the first turn of a new strand.
-/

namespace CoopTasks

open Scheduler

namespace Stage

variable {H : Type} {st st' : Stage H} {t u : Scheduler H} {id : TaskId} {strand : Strand}
variable {pointer : Address} {rest run sleep : List TaskId}

theorem tracked_start (hardware : H) : (Stage.start hardware).Tracked := by
  have hplaced := placed_new hardware
  have hlatest : ∀ strand, (Stage.start hardware).history.latest strand = none := fun _ => rfl
  have hmainline : ∀ strand, (Stage.start hardware).history.Lives strand → strand = .mainline := by
    intro strand hlives
    cases strand with
    | mainline => rfl
    | run number id => exact absurd (hlatest _) (hlives.latest_ne_none (by simp))
  have hnot : ∀ strand pointer, ¬(Stage.start hardware).history.Waits strand pointer := by
    rintro strand pointer (hwaits | hwaits) <;> contradiction
  refine ⟨hplaced.standing, History.alternating_nil, ?numbers, ?occupied, ?owned, ?distinct,
    ?pointer, ?apart, ?executing, ?serves⟩
  case numbers =>
    intro number id hne
    exact absurd (hlatest _) hne
  case occupied =>
    intro number id hlives
    exact absurd (hmainline _ hlives) (by simp)
  case owned =>
    intro slot _ hoccupied
    have hvacant : ((new hardware).tasks.record slot).state = .vacant :=
      congrArg TaskRecord.state (TaskTable.record_vacant slot)
    exact absurd hvacant hoccupied.1
  case distinct =>
    intro number _ id hlives
    exact absurd (hmainline _ hlives) (by simp)
  case pointer =>
    intro strand pointer hwaits
    exact absurd hwaits (hnot strand pointer)
  case apart =>
    intro first _ pointer hwaits
    exact absurd hwaits (hnot first pointer)
  case executing =>
    intro strand
    show _ ↔ some Strand.mainline = some strand
    constructor
    · intro hexecutes
      rw [hmainline strand (.inl hexecutes)]
    · intro hsome
      obtain rfl := Option.some.inj hsome
      exact .inr ⟨rfl, rfl⟩
  case serves =>
    exact .inl ⟨hplaced.runQueue_eq, hplaced.sleepers_eq⟩

/-! ## Switches -/

theorem Tracked.task_eq (h : st.Tracked) (hexec : st.executing = some strand)
    (hrun : st.scheduler.runQueue = id :: rest) : strand.task = id := by
  have hserves := h.serves
  rw [hexec] at hserves
  cases strand with
  | mainline =>
      rcases hserves with ⟨hempty, _⟩ | hhead
      · rw [hrun] at hempty
        contradiction
      · rw [hrun, List.head?_cons] at hhead
        exact (Option.some.inj hhead).symm
  | run number first =>
      change st.scheduler.runQueue.head? = some first at hserves
      rw [hrun, List.head?_cons] at hserves
      exact (Option.some.inj hserves).symm

theorem departure_eq (hs : st.scheduler.Standing) (hrun : st.scheduler.runQueue = id :: rest)
    (pointer : Address) :
    st.departure pointer = if id.index ≠ 0 ∧ (st.scheduler.record id).exiting = true
      then .retired else .suspended pointer := by
  have hhead : st.scheduler.runQueue.head? = some id := by rw [hrun, List.head?_cons]
  unfold departure
  by_cases hid : id.index = 0
  · cases hcurrent : st.scheduler.current with
    | none => simp [hid]
    | some other =>
        obtain ⟨hother, hne⟩ := hs.current_eq_some_iff.mp hcurrent
        obtain rfl := Option.some.inj (hhead.symm.trans hother)
        exact absurd hid hne
  · rw [hs.current_eq_some_iff.mpr ⟨hhead, hid⟩]
    simp [hid]

variable [Hardware H]

theorem Tracked.suspends (h : st.Tracked) (hexec : st.executing = some strand)
    (hown : st.Own pointer) (hsuspended : Suspended st.scheduler pointer strand.task rest u)
    {state : TaskState} (hstate : state ≠ .vacant ∧ state ≠ .exited)
    (hmoved : Moved u strand.task (fun t => { t with state }) run sleep t)
    (hrun : ∀ id ∈ run, id.index ≠ 0) :
    Tracked ⟨t, none, ⟨strand, .suspended pointer⟩ :: st.history⟩ := by
  refine h.departs hexec hown (.inl rfl) hmoved.standing (hsuspended.altered hmoved) (fun _ => rfl)
    ?_ ?_ ?_
  · intro _
    refine (congrArg TaskRecord.pointer hmoved.self).trans ?_
    exact congrArg TaskRecord.pointer hsuspended.self
  · intro _
    have hoccupied := occupied_of_state (congrArg TaskRecord.state hmoved.self) hstate
    exact ⟨fun _ => by simp, fun _ => hoccupied⟩
  · intro id hid
    rw [hmoved.runQueue] at hid
    exact hrun id hid

theorem Tracked.retires (h : st.Tracked) (hexec : st.executing = some strand)
    (hown : st.Own pointer) (hstrand : strand ≠ .mainline)
    (hsuspended : Suspended st.scheduler pointer strand.task rest u)
    (hmoved : Moved u strand.task TaskRecord.finished run sleep t)
    (hrun : ∀ id ∈ run, id.index ≠ 0) :
    Tracked ⟨t, none, ⟨strand, .retired⟩ :: st.history⟩ := by
  refine h.departs hexec hown (.inr ⟨rfl, hstrand⟩) hmoved.standing (hsuspended.altered hmoved)
    (fun _ => rfl) (fun hturn => by contradiction) ?_ ?_
  · intro _
    have hexited : (t.record strand.task).state = .exited := congrArg TaskRecord.state hmoved.self
    exact ⟨fun hoccupied => absurd hexited hoccupied.2, fun hne => absurd rfl hne⟩
  · intro id hid
    rw [hmoved.runQueue] at hid
    exact hrun id hid

theorem Tracked.settled (h : st.Tracked) (hexec : st.executing = some strand)
    (hown : st.Own pointer) (hsuspended : Suspended st.scheduler pointer id rest u)
    (hsettled : Settled u id rest st.scheduler.sleepers t) :
    Tracked ⟨t, none, st.departed strand pointer⟩ := by
  obtain rfl := h.task_eq hexec hsuspended.runQueue
  have hdeparture := departure_eq h.standing hsuspended.runQueue pointer
  have hexiting : (st.scheduler.record strand.task).exiting = (u.record strand.task).exiting :=
    (congrArg TaskRecord.exiting hsuspended.self).symm
  have hbehind : ∀ id ∈ rest, id.index ≠ 0 := by
    intro id hid
    apply h.standing.behind
    rw [hsuspended.runQueue]
    exact hid
  rw [hexiting] at hdeparture
  unfold departed
  cases hsettled with
  | parked hid hmoved _ =>
      rw [hdeparture, if_neg fun hne => hne.1 hid]
      exact h.suspends hexec hown hsuspended (by decide) hmoved hbehind
  | asleep hid _ hstays _ hmoved _ =>
      rw [hdeparture, if_neg (by simp [hstays])]
      exact h.suspends hexec hown hsuspended (by decide) hmoved hbehind
  | requeued hid _ hstays _ hmoved _ =>
      rw [hdeparture, if_neg (by simp [hstays])]
      refine h.suspends hexec hown hsuspended (by decide) hmoved ?_
      intro id hmem
      rcases List.mem_append.mp hmem with hmem | hmem
      · exact hbehind id hmem
      · rw [List.mem_singleton.mp hmem]
        exact hid
  | finished hid _ hends _ hmoved _ hwake =>
      rw [hdeparture, if_pos ⟨hid, hends⟩]
      have hstrand : strand ≠ .mainline := by
        rintro rfl
        exact hid rfl
      exact (h.retires hexec hown hstrand hsuspended hmoved hbehind).wakeWaiter hwake

theorem Tracked.rearmed (h : st.Tracked) (hexec : st.executing = some strand)
    (hown : st.Own pointer) {decision : Decision} {woken : List TaskId} {v x : Scheduler H}
    (hswitched : Switched st.scheduler pointer t decision id rest woken u v x) :
    Tracked ⟨x, none, st.departed strand pointer⟩ :=
  (h.settled hexec hown hswitched.suspended hswitched.settled).wakes hswitched.rearmed.wakes

/-! ## Starts -/

theorem serves_of_started {stack : StackRange} (h : st.Tracked) (hexec : st.executing = some strand)
    (hstarted : Started st.scheduler stack pointer id t) : t.Serves (some strand) := by
  have hserves := h.serves
  rw [hexec] at hserves
  have hkept : ∀ first, st.scheduler.runQueue.head? = some first →
      t.runQueue.head? = some first := by
    intro first hfirst
    have hne : st.scheduler.runQueue ≠ [] := by
      intro hempty
      rw [hempty] at hfirst
      contradiction
    rw [hstarted.runQueue, admitted, if_neg hne, List.head?_append, hfirst]
    rfl
  cases strand with
  | run number first => exact hkept first hserves
  | mainline =>
      right
      rcases hserves with ⟨hempty, _⟩ | hhead
      · rw [hstarted.runQueue, admitted, if_pos hempty]
        rfl
      · exact hkept _ hhead

theorem Tracked.starts (h : st.Tracked) (hexec : st.executing = some strand)
    (hown : st.Own pointer) {stack : StackRange}
    (hstarted : Started st.scheduler stack pointer id t) :
    Tracked ⟨t, some strand, ⟨.run st.history.starts id, .started pointer⟩ :: st.history⟩ := by
  obtain ⟨hid, hlt⟩ := hstarted.mem_slots
  -- every number in the history is the number of an earlier start
  have hfresh : ∀ id, st.history.latest (.run st.history.starts id) = none := by
    intro id
    cases hlatest : st.history.latest (.run st.history.starts id) with
    | none => rfl
    | some turn => exact absurd (h.numbers _ id (by simp [hlatest])) (Nat.lt_irrefl _)
  apply h.extend
  refine ⟨hstarted.standing, ⟨by simp, hfresh id⟩, ?steady, ?alone, ?self, ?saved, ?executes,
    serves_of_started h hexec hstarted⟩
  case steady =>
    intro slot hne
    by_cases hzero : slot = 0
    · subst hzero
      have hmainline : t.tasks.record 0 = _ := hstarted.mainline
      refine ⟨?_, ?_, fun hslot => absurd rfl (mem_slots.mp hslot).1⟩
      · rw [hmainline]
        split <;> rfl
      · rw [hmainline]
        split <;> rfl
    · exact steadyAt_of_record (hstarted.other slot hzero hne)
  case alone =>
    intro other _ hlives he
    cases other with
    | mainline => exact hid he.symm
    | run number other =>
        obtain ⟨_, _, hoccupied⟩ := h.occupied number other hlives
        change other.index = id.index at he
        rw [he] at hoccupied
        exact hoccupied.not_gone hstarted.gone
  case self =>
    rintro number other he
    obtain ⟨rfl, rfl⟩ := Strand.run.inj he
    refine ⟨Nat.lt_succ_self _, mem_slots.mpr ⟨hid, hlt⟩, ?_, ?_⟩
    · apply TaskId.ext_of_index (index_idOf _ hlt)
      refine Eq.trans ?_ hstarted.current.symm
      exact congrArg TaskRecord.generation hstarted.self
    · have hoccupied := occupied_of_state (congrArg TaskRecord.state hstarted.self)
        ⟨by simp [startedRecord, TaskRecord.started], by simp [startedRecord, TaskRecord.started]⟩
      exact ⟨fun _ => by simp, fun _ => hoccupied⟩
  case saved =>
    intro saved hsaved
    obtain rfl : pointer = saved := by simpa using hsaved
    exact ⟨congrArg TaskRecord.pointer hstarted.self, hown⟩
  case executes =>
    intro other
    by_cases he : other = .run st.history.starts id
    · subst he
      rw [History.executes_self]
      constructor
      · rintro ⟨_, hturn⟩
        contradiction
      · intro hsame
        obtain rfl := Option.some.inj hsame
        have hexecutes := (h.executing _).mpr hexec
        exact absurd (hfresh id) (History.Lives.latest_ne_none (.inl hexecutes) (by simp))
    · rw [History.executes_other he, h.executing, hexec]

/-! ## Runs -/

theorem Tracked.step (h : st.Tracked) (hstep : Step st st') : st'.Tracked := by
  cases hstep with
  | start hexec hown hok =>
      rcases h.standing.spawn hok with ⟨hrefused, _⟩ | ⟨id, hid, hstarted⟩
      · contradiction
      · obtain rfl := Except.ok.inj hid
        exact h.starts hexec hown hstarted
  | refuse _ hok =>
      rcases h.standing.spawn hok with ⟨_, rfl⟩ | ⟨id, hid, _⟩
      · exact h
      · contradiction
  | operate hplain _ hok => exact h.performed hplain (h.standing.perform hok)
  | @elapse hardware =>
      exact h.alarmMoved (Scheduler.alarmMoved st.scheduler hardware st.scheduler.armed)
  | reschedule hexec hown hok hobeyed =>
      obtain ⟨id, rest, woken, u, v, x, hswitched⟩ := h.standing.reschedule hok
      exact (h.rearmed hexec hown hswitched).dispatched rfl hswitched.dispatched hobeyed
  | dispatch hexec hok hobeyed => exact h.dispatched hexec (h.standing.dispatch hok) hobeyed

theorem Reached.tracked (h : Reached st) : st.Tracked := by
  induction h with
  | start hardware => exact tracked_start hardware
  | step _ hstep ih => exact ih.step hstep

/-- Each resumption takes up the one context that was saved where it points. -/
theorem Reached.contexts_kept (h : Reached st) :
    st.history.Alternating ∧
    (∀ later strand earlier, st.history = later ++ ⟨strand, .retired⟩ :: earlier →
      ∀ entry ∈ later, entry.strand ≠ strand) ∧
    (∀ strand, st.executing = some strand → st.scheduler.current = strand.current) ∧
    (∀ strand own t pointer, st.executing = some strand → st.Own own →
      st.scheduler.reschedule own = .ok (t, .resume pointer) →
      ∃ next, (st.departed strand own).Waits next pointer ∧
        (∀ other, (st.departed strand own).Waits other pointer → other = next) ∧
        t.current = next.current) ∧
    (∀ t pointer, st.executing = none → st.scheduler.dispatch = .ok (t, .resume pointer) →
      ∃ next, st.history.Waits next pointer ∧
        (∀ other, st.history.Waits other pointer → other = next) ∧
        t.current = next.current) := by
  have htracked := h.tracked
  refine ⟨htracked.alternating, ?_, ?_, ?_, ?_⟩
  · intro later strand earlier hsplit
    exact htracked.alternating.over hsplit
  · intro strand hexec
    exact htracked.current_eq hexec
  · intro strand own t pointer hexec hown hok
    obtain ⟨id, rest, woken, u, v, x, hswitched⟩ := htracked.standing.reschedule hok
    have hrearmed := htracked.rearmed hexec hown hswitched
    obtain ⟨next, hwaits, hresumed⟩ := hrearmed.resumed rfl hswitched.dispatched
    refine ⟨next, hwaits, ?_, hresumed.current_eq rfl⟩
    intro other hother
    exact hrearmed.apart other next pointer hother hwaits
  · intro t pointer hexec hok
    obtain ⟨next, hwaits, hresumed⟩ := htracked.resumed hexec (htracked.standing.dispatch hok)
    refine ⟨next, hwaits, ?_, hresumed.current_eq rfl⟩
    intro other hother
    exact htracked.apart other next pointer hother hwaits

def lastExit : Option (Stage Board) :=
  (Stage.start (Board.start Instant.zero)).run
    [.start ⟨0x20000000, 0x20000400⟩ 0x200003c8, .reschedule Board.mainlinePointer,
      .operate (.markExiting 7)]

theorem contexts_kept_lastExit :
    ∃ (st : Stage Board) (t : Scheduler Board), Reached st ∧
      st.executing = some (.run 0 ⟨1, 1⟩) ∧ st.Own 0x20000380 ∧
      st.scheduler.reschedule 0x20000380 = .ok (t, .resume Board.mainlinePointer) ∧
      st.history = [⟨.run 0 ⟨1, 1⟩, .resumed 0x200003c8⟩,
        ⟨.mainline, .suspended Board.mainlinePointer⟩,
        ⟨.run 0 ⟨1, 1⟩, .started 0x200003c8⟩] ∧
      (st.departed (.run 0 ⟨1, 1⟩) 0x20000380).Waits .mainline Board.mainlinePointer ∧
      t.current = none := by
  cases hrun : lastExit with
  | none =>
      have hsome : lastExit.isSome = true := by decide
      rw [hrun] at hsome
      contradiction
  | some st =>
      have hreached : Reached st := (Reached.start _).run hrun
      obtain ⟨_, _, _, hswitch, _⟩ := hreached.contexts_kept
      have hexec : lastExit.map (fun st => st.executing) = some (some (.run 0 ⟨1, 1⟩)) := by decide
      have hown : lastExit.map (fun st => decide (st.Own 0x20000380)) = some true := by decide
      have hhistory : lastExit.map (fun st => st.history) =
          some [⟨.run 0 ⟨1, 1⟩, .resumed 0x200003c8⟩,
            ⟨.mainline, .suspended Board.mainlinePointer⟩,
            ⟨.run 0 ⟨1, 1⟩, .started 0x200003c8⟩] := by decide
      have hresumed : lastExit.bind (fun st => (st.scheduler.reschedule 0x20000380).toOption.map
          fun r => r.2) = some (.resume Board.mainlinePointer) := by decide
      have hwaits : lastExit.map (fun st => decide ((st.departed (.run 0 ⟨1, 1⟩) 0x20000380).Waits
          .mainline Board.mainlinePointer)) = some true := by decide
      rw [hrun, Option.map_some, Option.some.injEq] at hexec hown hhistory hwaits
      rw [hrun, Option.bind_some, Option.map_eq_some_iff] at hresumed
      obtain ⟨⟨t, decision⟩, hok, rfl⟩ := hresumed
      rw [toOption_eq_some] at hok
      have hown := of_decide_eq_true hown
      have hwaits := of_decide_eq_true hwaits
      obtain ⟨next, _, honly, hcurrent⟩ := hswitch _ _ _ _ hexec hown hok
      rw [← honly _ hwaits] at hcurrent
      exact ⟨st, t, hreached, hexec, hown, hok, hhistory, hwaits, hcurrent⟩

end Stage

end CoopTasks
