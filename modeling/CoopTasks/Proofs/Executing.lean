import CoopTasks.Proofs.Contexts
import CoopTasks.Proofs.Exclusion

/-!
Whom the scheduler takes for the executing task.

The executing task is not stored: it is the head of the run queue.  An interrupt
may queue tasks while nobody executes, and from then until the next dispatch the
scheduler names a task that does not execute.  The state of a task tells the two
apart, since a task is marked as running exactly while it executes.
-/

namespace CoopTasks

open Scheduler

namespace Scheduler

variable {H : Type} {s t : Scheduler H} {id : TaskId}

/-! ## Marks that operations leave alone -/

def SameRunning (s t : Scheduler H) : Prop :=
  ∀ slot, (t.tasks.record slot).state = .running ↔ (s.tasks.record slot).state = .running

theorem SameRunning.of_state (h : ∀ slot, (t.tasks.record slot).state =
    (s.tasks.record slot).state) : SameRunning s t := by
  intro slot
  rw [h slot]

theorem SameRunning.trans {u : Scheduler H} (h : SameRunning s t) (h' : SameRunning t u) :
    SameRunning s u :=
  fun slot => (h' slot).trans (h slot)

theorem Moved.sameRunning {change : TaskRecord → TaskRecord} {run sleep : List TaskId}
    (h : Moved s id change run sleep t) (hstate : ∀ r, (change r).state = r.state) :
    SameRunning s t :=
  .of_state fun slot => h.field TaskRecord.state hstate slot

theorem Woke.sameRunning (h : Woke s id t) : SameRunning s t := by
  intro slot
  rw [h.record slot]
  split
  · unfold TaskRecord.woken
    dsimp only
    split
    · rename_i hsleeping
      rw [hsleeping]
      decide
    · rfl
  · rfl

theorem Wakes.sameRunning {ids : List TaskId} (h : Wakes s ids t) : SameRunning s t := by
  induction h with
  | nil hmoved => exact .of_state fun slot => by rw [hmoved.tasks]
  | cons hmoved hwoke _ ih =>
      exact .trans (.trans (.of_state fun slot => by rw [hmoved.tasks]) hwoke.sameRunning) ih

theorem Attempted.sameRunning {w w' : Signal} {result : WaitResult}
    (h : Attempted s w t w' result) : SameRunning s t := by
  cases h with
  | acquired _ | busy _ _ _ _ _ => exact fun _ => Iff.rfl
  | parked _ _ _ _ _ hmoved _ => exact hmoved.sameRunning fun _ => rfl

variable [Hardware H]

theorem Performed.sameRunning {op : Operation} {decision : Option Decision} (hs : s.Standing)
    (h : Performed s op t decision) (hplain : op.plain = true) : SameRunning s t := by
  cases h with
  | refused | started | switched | dispatched => contradiction
  | exiting _ _ hmoved => exact hmoved.sameRunning fun _ => rfl
  | asleep _ _ hmoved => exact hmoved.sameRunning fun _ => rfl
  | woken hok =>
      obtain ⟨ids, hwakes⟩ := hs.wakes_of_wake hok
      exact hwakes.sameRunning
  | posted hok =>
      obtain ⟨ids, hwakes⟩ := hs.wakes_of_wakeWaiter hok
      exact hwakes.sameRunning
  | attempted hattempted => exact hattempted.sameRunning
  | joined hattempted _ hmoved =>
      exact hattempted.sameRunning.trans (hmoved.sameRunning fun _ => rfl)
  | tried _ hmoved => exact hmoved.sameRunning fun _ => rfl
  | handled hok =>
      obtain ⟨ids, hwakes⟩ := hs.wakes_of_handleAlarm hok
      exact hwakes.sameRunning

theorem Started.running {stack : StackRange} {pointer : Address} {slot : Nat}
    (h : Started s stack pointer id t) (hslot : slot ∈ slots) :
    (t.tasks.record slot).state = .running ↔ (s.tasks.record slot).state = .running := by
  by_cases he : slot = id.index
  · subst he
    have hnew : (t.record id).state = .ready := by rw [h.self]; rfl
    have hold := h.gone
    unfold record at hnew hold
    rw [hnew]
    rcases hold with hold | hold <;> rw [hold] <;> decide
  · rw [h.record_other hslot he]

end Scheduler

namespace Stage

variable {H : Type} {st st' : Stage H} {t : Scheduler H} {id : TaskId}

/-! ## Who is marked as running -/

structure Marked (st : Stage H) : Prop where
  executes : ∀ number id, st.executing = some (.run number id) →
    (st.scheduler.record id).state = .running
  idles : st.executing = none → ∀ slot ∈ slots, (st.scheduler.tasks.record slot).state ≠ .running

theorem Marked.keep (h : st.Marked) (htracked : st.Tracked)
    (hrunning : ∀ slot ∈ slots, (t.tasks.record slot).state = .running ↔
      (st.scheduler.tasks.record slot).state = .running) (history : History) :
    Marked ⟨t, st.executing, history⟩ where
  executes := by
    intro number id hexec
    obtain ⟨hslot, _⟩ := htracked.occupied number id (.inl ((htracked.executing _).mpr hexec))
    exact (hrunning id.index hslot).mpr (h.executes number id hexec)
  idles := by
    intro hexec slot hslot hmarked
    exact h.idles hexec slot hslot ((hrunning slot hslot).mp hmarked)

theorem marked_of_dispatched {s : Scheduler H} {decision : Decision} {executing : Option Strand}
    {before history : History} (hdispatched : Dispatched s t decision)
    (hobeyed : Obeyed before decision executing history)
    (htracked : Tracked ⟨t, executing, history⟩) : Marked ⟨t, executing, history⟩ where
  executes := by
    rintro number id rfl
    obtain ⟨hslot, _⟩ := htracked.occupied number id (.inl ((htracked.executing _).mpr rfl))
    exact hdispatched.headRuns id htracked.serves (mem_slots.mp hslot).1
  idles := by
    rintro rfl slot hslot hmarked
    have hhead : t.runQueue.head? = some (t.idOf slot) :=
      htracked.standing.head_of_running hslot hmarked
    cases hobeyed
    cases hdispatched with
    | idle hrun _ =>
        rw [hrun] at hhead
        contradiction

variable [Hardware H]

theorem Marked.step (h : st.Marked) (htracked : st.Tracked) (hstep : Step st st') :
    st'.Marked := by
  have htracked' := htracked.step hstep
  cases hstep with
  | start hexec _ hok =>
      rcases htracked.standing.spawn hok with ⟨hrefused, _⟩ | ⟨id, _, hstarted⟩
      · contradiction
      · rw [← hexec]
        exact h.keep htracked (fun slot hslot => hstarted.running hslot) _
  | refuse _ hok =>
      rcases htracked.standing.spawn hok with ⟨_, rfl⟩ | ⟨id, hid, _⟩
      · exact h
      · contradiction
  | operate hplain _ hok =>
      have hsame := (htracked.standing.perform hok).sameRunning htracked.standing hplain
      exact h.keep htracked (fun slot _ => hsame slot) _
  | @elapse hardware =>
      have hsame : ∀ slot ∈ slots,
          (({ st.scheduler with hardware } : Scheduler H).tasks.record slot).state = .running ↔
            (st.scheduler.tasks.record slot).state = .running := fun _ _ => Iff.rfl
      exact h.keep htracked hsame _
  | reschedule _ _ hok hobeyed =>
      obtain ⟨id, rest, woken, u, v, w, hswitched⟩ := htracked.standing.reschedule hok
      exact marked_of_dispatched hswitched.dispatched hobeyed htracked'
  | dispatch _ hok hobeyed =>
      exact marked_of_dispatched (htracked.standing.dispatch hok) hobeyed htracked'

theorem Reached.marked (h : Reached st) : st.Marked := by
  induction h with
  | start hardware =>
      refine ⟨?_, ?_⟩
      · intro number id hexec
        cases hexec
      · intro hexec
        cases hexec
  | step hreached hstep ih => exact ih.step hreached.tracked hstep

/--
While somebody executes the scheduler names him, and his task is the one that is
marked as running.  While nobody does, it names the task that interrupts have
made ready first, which is not marked, and which the next dispatch resumes.
-/
theorem Reached.names_executing (h : Reached st) :
    (∀ strand, st.executing = some strand → st.scheduler.current = strand.current) ∧
    (∀ id, (∃ number, st.executing = some (.run number id)) ↔
      st.scheduler.current = some id ∧ (st.scheduler.record id).state = .running) ∧
    (st.executing = none →
      st.scheduler.current = st.scheduler.runQueue.head? ∧
      (∀ id ∈ st.scheduler.runQueue, (st.scheduler.record id).state = .ready) ∧
      ∀ id t decision, st.scheduler.current = some id →
        st.scheduler.dispatch = .ok (t, decision) →
        decision = .resume (st.scheduler.record id).pointer ∧ t.current = some id ∧
          (t.record id).state = .running) := by
  have htracked := h.tracked
  have hmarked := h.marked
  have hs := htracked.standing
  refine ⟨fun strand => htracked.current_eq, ?_, ?_⟩
  · intro id
    constructor
    · rintro ⟨number, hexec⟩
      exact ⟨htracked.current_eq hexec, hmarked.executes number id hexec⟩
    · rintro ⟨hcurrent, hrunning⟩
      obtain ⟨_, hne, hlt⟩ := hs.current hcurrent
      cases hexec : st.executing with
      | none => exact absurd hrunning (hmarked.idles hexec id.index (mem_slots.mpr ⟨hne, hlt⟩))
      | some strand =>
          rw [htracked.current_eq hexec] at hcurrent
          cases strand with
          | mainline => contradiction
          | run number other =>
              obtain rfl := Option.some.inj hcurrent
              exact ⟨number, rfl⟩
  · intro hexec
    have hserves : ∀ id ∈ st.scheduler.runQueue, id.index ≠ 0 := by
      have := htracked.serves
      rwa [hexec] at this
    refine ⟨?_, ?_, ?_⟩
    · cases hhead : st.scheduler.runQueue.head? with
      | none =>
          rw [Option.eq_none_iff_forall_ne_some]
          intro id hcurrent
          rw [(hs.current hcurrent).1] at hhead
          contradiction
      | some id => exact hs.current_eq_some_iff.mpr ⟨hhead, hserves id (List.mem_of_head? hhead)⟩
    · intro id hid
      have hmem : id ∈ st.scheduler.runQueue ++ st.scheduler.sleepers := List.mem_append_left _ hid
      have hslot : id.index ∈ slots := mem_slots.mpr ⟨hserves id hid, hs.index_lt hmem⟩
      have hqueued := hs.state_queued hslot (by rwa [hs.idOf_index hmem])
      exact hqueued.resolve_right (hmarked.idles hexec id.index hslot)
    · intro id t decision hcurrent hok
      obtain ⟨hhead, hne, _⟩ := hs.current hcurrent
      cases hs.dispatch hok with
      | @resumed _ next hnext _ hmoved _ =>
          obtain rfl := Option.some.inj (hnext.symm.trans hhead)
          have hfirst : t.runQueue.head? = some next := by rw [hmoved.runQueue, hhead]
          exact ⟨rfl, hmoved.standing.current_eq_some_iff.mpr ⟨hfirst, hne⟩,
            congrArg TaskRecord.state hmoved.self⟩
      | drained hrun _ _ _ _ =>
          rw [hrun] at hhead
          contradiction
      | idle hrun _ =>
          rw [hrun] at hhead
          contradiction

/-! ## A task named while nobody executes -/

def asleepAlone : Option (Stage Board) :=
  (Stage.start (Board.start Instant.zero)).run
    [.start ⟨0x20000000, 0x20000400⟩ 0x200003c8, .reschedule Board.mainlinePointer,
      .operate (.markAsleep Instant.never), .reschedule 0x20000380]

theorem reached_wokenAlone :
    ∃ (st : Stage Board) (t : Scheduler Board), Reached st ∧ st.executing = none ∧
      st.scheduler.current = some ⟨1, 1⟩ ∧ (st.scheduler.record ⟨1, 1⟩).state = .ready ∧
      st.scheduler.dispatch = .ok (t, .resume 0x20000380) := by
  have hidle : asleepAlone.map (fun st => st.executing) = some none := by decide
  have hwoken : asleepAlone.bind (fun st => (st.scheduler.wake ⟨1, 1⟩).toOption.map fun u =>
      (u.current, (u.record ⟨1, 1⟩).state, u.dispatch.toOption.map fun r => r.2)) =
      some (some ⟨1, 1⟩, .ready, some (.resume 0x20000380)) := by decide
  cases hrun : asleepAlone with
  | none =>
      rw [hrun] at hidle
      contradiction
  | some st =>
      have hreached : Reached st := (Reached.start _).run hrun
      rw [hrun, Option.map_some, Option.some.injEq] at hidle
      rw [hrun, Option.bind_some, Option.map_eq_some_iff] at hwoken
      obtain ⟨u, hwake, hnamed⟩ := hwoken
      rw [toOption_eq_some] at hwake
      simp only [Prod.mk.injEq, Option.map_eq_some_iff, toOption_eq_some, Prod.exists] at hnamed
      obtain ⟨hcurrent, hstate, t, decision, hdispatch, rfl⟩ := hnamed
      have hstep : Step st { st with scheduler := u } :=
        @Step.operate Board _ st (.wake ⟨1, 1⟩) u none rfl (.inl rfl)
          (bind_eq_ok.mpr ⟨u, hwake, rfl⟩)
      exact ⟨_, t, hreached.step hstep, hidle, hcurrent, hstate, hdispatch⟩

theorem names_executing_wokenAlone :
    ∃ (st : Stage Board) (t : Scheduler Board), Reached st ∧ st.executing = none ∧
      st.scheduler.current = some ⟨1, 1⟩ ∧ st.scheduler.runQueue.head? = some ⟨1, 1⟩ ∧
      (st.scheduler.record ⟨1, 1⟩).state = .ready ∧
      st.scheduler.dispatch = .ok (t, .resume 0x20000380) ∧ t.current = some ⟨1, 1⟩ := by
  obtain ⟨st, t, hreached, hidle, hcurrent, hstate, hdispatch⟩ := reached_wokenAlone
  obtain ⟨_, _, hnobody⟩ := hreached.names_executing
  obtain ⟨hhead, _, hnext⟩ := hnobody hidle
  obtain ⟨_, hnamed, _⟩ := hnext ⟨1, 1⟩ t _ hcurrent hdispatch
  exact ⟨st, t, hreached, hidle, hcurrent, hhead ▸ hcurrent, hstate, hdispatch, hnamed⟩

/-- The named task need not execute: an interrupt has woken it, and nobody was there to leave. -/
theorem named_without_executing :
    ¬∀ (st : Stage Board) (id : TaskId), Reached st → st.scheduler.current = some id →
      (st.scheduler.record id).state = .running := by
  intro hnamed
  obtain ⟨st, _, hreached, _, hcurrent, hstate, _⟩ := reached_wokenAlone
  have hrunning := hnamed st ⟨1, 1⟩ hreached hcurrent
  rw [hstate] at hrunning
  contradiction

end Stage

end CoopTasks
