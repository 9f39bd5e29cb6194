import CoopTasks.Proofs.Deadlines
import CoopTasks.Scheduler.Audit
import CoopTasks.Simulation.Board

/-!
Every task is in one place.

`Exclusive` reads the placement of tasks off the state, slot by slot, and
`Reachable` are the states of a scheduler on any hardware.  The audit never
finds anything amiss in a state that a switch has left.
-/

namespace CoopTasks.Scheduler

variable {H : Type} {s t : Scheduler H} {id : TaskId} {slot : Nat}

/-! ## One place for each task -/

structure Exclusive (s : Scheduler H) : Prop where
  ready : s.ready.Represents s.tasks.cells s.runQueue
  timers : s.timers.Represents s.tasks.cells s.sleepers
  apart : ∀ a ∈ s.runQueue, ∀ b ∈ s.sleepers, a.index ≠ b.index
  linked : ∀ slot, slot < slotCount →
    (s.tasks.cells.linked slot = true ↔
      s.idOf slot ∈ s.runQueue ∨ s.idOf slot ∈ s.sleepers)
  current : ∀ id ∈ s.runQueue ++ s.sleepers, id.generation = (s.record id).generation
  sleeping : ∀ slot ∈ slots,
    ((s.tasks.record slot).state = .sleeping ↔ s.idOf slot ∈ s.sleepers)
  queued : ∀ slot ∈ slots,
    ((s.tasks.record slot).state = .ready ∨ (s.tasks.record slot).state = .running ↔
      s.idOf slot ∈ s.runQueue)
  running : ∀ slot ∈ slots,
    (s.tasks.record slot).state = .running → s.runQueue.head? = some (s.idOf slot)
  gone : ∀ slot ∈ slots,
    ((s.tasks.record slot).state = .vacant ∨ (s.tasks.record slot).state = .exited ↔
      s.idOf slot ∉ s.runQueue ∧ s.idOf slot ∉ s.sleepers)
  mainline : ∀ id, id.isMainline = true → id ∉ s.sleepers ∧ id ∉ s.runQueue.tail

theorem Standing.exclusive (h : s.Standing) : s.Exclusive where
  ready := h.ready
  timers := h.timers
  apart := h.apart
  linked := by
    intro slot hlt
    rw [h.linked_iff, ← List.mem_append]
    constructor
    · rintro ⟨id, hid, rfl⟩
      rwa [h.idOf_index hid]
    · intro hmem
      exact ⟨s.idOf slot, hmem, s.index_idOf hlt⟩
  current := h.generation
  sleeping := by
    intro slot hslot
    constructor
    · exact h.mem_sleepers hslot
    · exact h.state_asleep (mem_slots.mp hslot).2
  queued := by
    intro slot hslot
    constructor
    · exact h.mem_runQueue hslot
    · exact h.state_queued hslot
  running := by
    intro slot hslot
    exact h.head_of_running hslot
  gone := by
    intro slot hslot
    obtain ⟨hne, hlt⟩ := mem_slots.mp hslot
    constructor
    · intro hstate
      constructor
      · intro hmem
        rcases h.state_queued hslot hmem with he | he <;> rw [he] at hstate <;> simp at hstate
      · intro hmem
        rw [h.state_asleep hlt hmem] at hstate
        simp at hstate
    · rintro ⟨hrun, hsleep⟩
      apply h.gone slot hne hne
      rw [Bool.eq_false_iff]
      intro hlinked
      obtain ⟨id, hid, rfl⟩ := h.linked slot hlinked
      rcases List.mem_append.mp hid with hmem | hmem
      · rw [h.idOf_index hid] at hrun
        exact hrun hmem
      · rw [h.idOf_index hid] at hsleep
        exact hsleep hmem
  mainline := by
    intro id hid
    rw [TaskId.isMainline_iff] at hid
    constructor
    · intro hmem
      exact (h.asleep id hmem).1 hid
    · intro hmem
      exact h.behind id hmem hid

/-! ## The audit -/

theorem auditOrder_of_pairwise {last : Instant} {l : List TaskId}
    (hordered : l.Pairwise fun a b => (s.record a).wakeAt ≤ (s.record b).wakeAt)
    (hlast : ∀ id ∈ l, last ≤ (s.record id).wakeAt) : s.auditOrder last l = .ok () := by
  induction l generalizing last with
  | nil => rfl
  | cons id rest ih =>
      rw [List.pairwise_cons] at hordered
      unfold auditOrder
      rw [bind_eq_ok]
      refine ⟨(), ?_, ih hordered.2 hordered.1⟩
      rw [require_eq_ok]
      exact hlast id List.mem_cons_self

theorem Timely.auditAlarm (h : s.Timely) (hs : s.Standing) : s.auditAlarm = .ok () := by
  unfold Scheduler.auditAlarm
  rw [hs.timers_head]
  cases hhead : s.sleepers.head? with
  | none => rfl
  | some head =>
      show require _ _ = .ok ()
      rw [require_eq_ok, Instant.isNever_iff, h.armed, soonest_eq_some]
      by_cases hnever : (s.record head).wakeAt = Instant.never
      · exact .inl hnever
      · exact .inr ⟨head, hhead, rfl, hnever⟩

def HeadRuns (s : Scheduler H) : Prop :=
  ∀ id, s.runQueue.head? = some id → id.index ≠ 0 → (s.record id).state = .running

theorem Standing.auditSlot (h : s.Standing) (hhead : s.HeadRuns) (hslot : slot ∈ slots) :
    s.auditSlot slot = .ok () := by
  obtain ⟨hne, hlt⟩ := mem_slots.mp hslot
  have hexclusive := h.exclusive
  unfold Scheduler.auditSlot
  dsimp only
  rw [require_eq_ok, h.ready.contains_eq, h.timers.contains_eq, h.ready_head]
  have hqueued := hexclusive.queued slot hslot
  have hsleeping := hexclusive.sleeping slot hslot
  have hnotboth : s.idOf slot ∈ s.runQueue → s.idOf slot ∉ s.sleepers := by
    intro hrun hsleep
    exact h.apart _ hrun _ hsleep rfl
  cases hstate : (s.tasks.record slot).state with
  | running =>
      have hfirst := h.head_of_running hslot hstate
      have hout := hnotboth (hqueued.mp (.inr hstate))
      simp [placementAllowed, hfirst, hout]
  | ready =>
      have hin := hqueued.mp (.inl hstate)
      have hout := hnotboth hin
      have hbehind : s.runQueue.head? ≠ some (s.idOf slot) := by
        intro hfirst
        have hruns := hhead _ hfirst (by rwa [s.index_idOf hlt])
        rw [s.record_idOf hlt, hstate] at hruns
        contradiction
      simp [placementAllowed, hin, hout, hbehind]
  | sleeping =>
      have hin := hsleeping.mp hstate
      have hout : s.idOf slot ∉ s.runQueue := fun hrun => hnotboth hrun hin
      simp [placementAllowed, hin, hout]
  | vacant =>
      have hout := (hexclusive.gone slot hslot).mp (.inl hstate)
      simp [placementAllowed, hout.1, hout.2]
  | exited =>
      have hout := (hexclusive.gone slot hslot).mp (.inr hstate)
      simp [placementAllowed, hout.1, hout.2]
  | parked =>
      rw [hstate] at hqueued hsleeping
      have hrun : s.idOf slot ∉ s.runQueue := by simpa using hqueued
      have hsleep : s.idOf slot ∉ s.sleepers := by simpa using hsleeping
      simp [placementAllowed, hrun, hsleep]

theorem Timely.audit (h : s.Timely) (hs : s.Standing) (hhead : s.HeadRuns) :
    s.audit = .ok () := by
  unfold Scheduler.audit
  have hslots : ∀ l : List Nat, (∀ slot ∈ l, slot ∈ slots) → l.forM s.auditSlot = .ok () := by
    intro l hl
    induction l with
    | nil => rfl
    | cons slot rest ih =>
        rw [List.forM_eq_forM, List.forM_cons, bind_eq_ok]
        refine ⟨(), hs.auditSlot hhead (hl slot List.mem_cons_self), ih ?_⟩
        intro other hother
        exact hl other (List.mem_cons_of_mem slot hother)
  rw [bind_eq_ok]
  refine ⟨(), hslots slots fun _ hslot => hslot, ?_⟩
  rw [bind_eq_ok]
  refine ⟨(), auditOrder_of_pairwise h.ordered ?_, h.auditAlarm hs⟩
  intro id _
  rw [Instant.le_iff]
  exact Nat.zero_le _

theorem Dispatched.headRuns {decision : Decision} (h : Dispatched s t decision) : t.HeadRuns := by
  intro id hhead hid
  cases h with
  | @resumed _ next hnext _ hmoved _ =>
      rw [hmoved.runQueue, hnext] at hhead
      obtain rfl := Option.some.inj hhead
      exact congrArg TaskRecord.state hmoved.self
  | drained _ _ _ hmoved _ =>
      rw [hmoved.runQueue] at hhead
      contradiction
  | idle hrun _ =>
      rw [hrun] at hhead
      contradiction

/-! ## All states -/

variable [Hardware H]

inductive Reachable : Scheduler H → Prop
  | new {hardware : H} : Reachable (new hardware)
  | elapse {s : Scheduler H} {hardware : H} : Reachable s → Reachable { s with hardware }
  | perform {s t : Scheduler H} {op : Operation} {decision : Option Decision} :
      Reachable s →
      s.perform op = .ok (t, decision) →
      Reachable t

theorem Reachable.invariants (h : Reachable s) : s.Standing ∧ s.Timely := by
  induction h with
  | @new hardware => exact ⟨standing_new hardware, timely_new hardware⟩
  | @elapse s hardware _ ih =>
      exact ⟨(alarmMoved s hardware s.armed).standing ih.1,
        ih.2.congr rfl (fun _ _ => rfl) rfl⟩
  | perform _ hok ih =>
      have hperformed := ih.1.perform hok
      exact ⟨hperformed.standing ih.1, hperformed.timely ih.1 ih.2⟩

theorem Reachable.performAll (h : Reachable s) {ops : List Operation}
    (hok : s.performAll ops = .ok t) : Reachable t :=
  performAll_preserves (fun _ _ _ _ _ hs hperform => hs.perform hperform) h hok

/-- Each task is in the one queue that its state names, and each switch passes the audit. -/
theorem Reachable.exclusive_audited (h : Reachable s) :
    s.Exclusive ∧
      (∀ pointer t decision, s.reschedule pointer = .ok (t, decision) → t.audit = .ok ()) ∧
      ∀ t decision, s.dispatch = .ok (t, decision) → t.audit = .ok () := by
  obtain ⟨hs, htimely⟩ := h.invariants
  refine ⟨hs.exclusive, ?_, ?_⟩
  · intro pointer t decision hok
    obtain ⟨id, rest, woken, u, v, w, hswitched⟩ := hs.reschedule hok
    exact (hswitched.timely htimely).audit hswitched.standing.2.2 hswitched.dispatched.headRuns
  · intro t decision hok
    have hdispatched := hs.dispatch hok
    exact (hdispatched.timely htimely).audit (hdispatched.standing hs) hdispatched.headRuns

def twoTasks : Except Fault (Scheduler Board) :=
  (new (Board.start Instant.zero)).performAll
    [.spawn ⟨0x20000000, 0x20000400⟩ 0x200003c8, .spawn ⟨0x20001000, 0x20001400⟩ 0x200013c8,
      .reschedule Board.mainlinePointer, .markAsleep ⟨500⟩, .reschedule 0x20000380]

theorem exclusive_audited_twoTasks :
    ∃ s t : Scheduler Board, Reachable s ∧ s.Exclusive ∧
      s.runQueue = [⟨2, 2⟩] ∧ s.sleepers = [⟨1, 1⟩] ∧
      s.reschedule 0x20001380 = .ok (t, .resume 0x20001380) ∧ t.audit = .ok () := by
  cases hok : twoTasks with
  | error fault =>
      have hsome : twoTasks.toOption.isSome = true := by decide
      rw [hok] at hsome
      contradiction
  | ok s =>
      have hreachable : Reachable s := Reachable.new.performAll hok
      obtain ⟨hexclusive, haudit, _⟩ := hreachable.exclusive_audited
      have hrun : twoTasks.toOption.map (fun s => s.runQueue) = some [⟨2, 2⟩] := by decide
      have hsleep : twoTasks.toOption.map (fun s => s.sleepers) = some [⟨1, 1⟩] := by decide
      have hresumed : twoTasks.toOption.bind (fun s => (s.reschedule 0x20001380).toOption.map
          fun r => r.2) = some (.resume 0x20001380) := by decide
      rw [hok] at hrun hsleep hresumed
      change (s.reschedule 0x20001380).toOption.map (fun r => r.2) = _ at hresumed
      cases hswitch : s.reschedule 0x20001380 with
      | error fault =>
          rw [hswitch] at hresumed
          contradiction
      | ok r =>
          obtain ⟨t, decision⟩ := r
          rw [hswitch] at hresumed
          obtain rfl := Option.some.inj hresumed
          exact ⟨s, t, hreachable, hexclusive, Option.some.inj hrun, Option.some.inj hsleep,
            hswitch, haudit _ t _ hswitch⟩

end CoopTasks.Scheduler
