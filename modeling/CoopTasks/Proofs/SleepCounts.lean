import CoopTasks.Proofs.Deliveries
import CoopTasks.Proofs.SlotSteps

/-!
The sleep counts at each switch.

A task that sleeps has one sleep to its account, and a task that is ready has
none (`TaskRecord.InStep`).  Only the executing task can count a sleep, and its
next switch looks at the count: the task sleeps if the count is positive, and
otherwise gives up one turn.
-/

namespace CoopTasks

/-! ## One task -/

/-- The sleep count of a task in each of its states, and while it is about to sleep. -/
structure TaskRecord.InStep (r : TaskRecord) (drowsy : Prop) : Prop where
  least : sleepCountMin ≤ r.sleepCount
  asleep : r.state = .sleeping → r.sleepCount = 1
  ready : r.state = .ready → r.sleepCount ≤ 0
  running : r.state = .running → r.sleepCount ≤ 1 ∧ (r.sleepCount = 1 → drowsy)

namespace TaskRecord.InStep

variable {r r' : TaskRecord} {drowsy drowsy' : Prop}

theorem mono (h : r.InStep drowsy) (hdrowsy : drowsy → drowsy') : r.InStep drowsy' :=
  ⟨h.least, h.asleep, h.ready, fun hstate =>
    ⟨(h.running hstate).1, fun hone => hdrowsy ((h.running hstate).2 hone)⟩⟩

theorem congr (h : r.InStep drowsy) (hcount : r'.sleepCount = r.sleepCount)
    (hstate : r'.state = r.state) : r'.InStep drowsy := by
  obtain ⟨hleast, hasleep, hready, hrunning⟩ := h
  rw [← hcount] at hleast
  rw [← hcount, ← hstate] at hasleep hready hrunning
  exact ⟨hleast, hasleep, hready, hrunning⟩

theorem queued_le (h : r.InStep drowsy) (hstate : r.state = .ready ∨ r.state = .running) :
    r.sleepCount ≤ 1 := by
  rcases hstate with hstate | hstate
  · exact Int.le_trans (h.ready hstate) (by decide)
  · exact (h.running hstate).1

theorem queued_awake (h : r.InStep False) (hstate : r.state = .ready ∨ r.state = .running) :
    r.sleepCount ≤ 0 := by
  rcases hstate with hstate | hstate
  · exact h.ready hstate
  · obtain ⟨hle, hone⟩ := h.running hstate
    have hne : r.sleepCount ≠ 1 := hone
    omega

theorem run (h : r.InStep False) (hstate : r.state = .ready ∨ r.state = .running) :
    TaskRecord.InStep { r with state := .running } drowsy := by
  have hcount := h.queued_awake hstate
  refine ⟨h.least, nofun, nofun, fun _ => ?_⟩
  dsimp only
  exact ⟨by omega, fun hone => by omega⟩

theorem of_paused (hleast : sleepCountMin ≤ r.sleepCount)
    (hstate : r.state = .exited ∨ r.state = .sleeping ∧ r.sleepCount = 1 ∨
      r.state = .ready ∧ r.sleepCount ≤ 0) : r.InStep False := by
  rcases hstate with he | ⟨he, hone⟩ | ⟨he, hle⟩
  · exact ⟨hleast, by simp [he], by simp [he], by simp [he]⟩
  · exact ⟨hleast, fun _ => hone, by simp [he], by simp [he]⟩
  · exact ⟨hleast, by simp [he], fun _ => hle, by simp [he]⟩

theorem woken (h : r.InStep drowsy) (hlimit : sleepCountMin < r.sleepCount) :
    r.woken.InStep drowsy := by
  have hcount : r.woken.sleepCount = r.sleepCount - 1 := rfl
  by_cases hasleep : r.state = .sleeping
  · have hone := h.asleep hasleep
    have hready : r.woken.state = .ready := by rw [TaskRecord.woken_of_sleeping hasleep]
    refine ⟨by omega, ?_, fun _ => by omega, ?_⟩ <;> rw [hready] <;> exact nofun
  · have hstate : r.woken.state = r.state := by
      rw [TaskRecord.woken_of_ne hasleep]
      rfl
    refine ⟨by omega, fun he => absurd (hstate ▸ he) hasleep, fun he => ?_, fun he => ?_⟩
    · have hle := h.ready (hstate ▸ he)
      omega
    · have hle := (h.running (hstate ▸ he)).1
      exact ⟨by omega, by omega⟩

end TaskRecord.InStep

namespace Scheduler

variable {H : Type} {s t u v : Scheduler H} {id : TaskId} {ids rest run sleep : List TaskId}
variable {change : TaskRecord → TaskRecord} {slot : Nat} {drowsy drowsy' : Prop}

def InStep (s : Scheduler H) (drowsy : Prop) : Prop :=
  ∀ slot ∈ slots, (s.tasks.record slot).InStep drowsy

theorem InStep.wakes (h : s.InStep drowsy) (hwakes : Wakes s ids t) : t.InStep drowsy := by
  refine hwakes.preserves (P := fun t => t.InStep drowsy) ?_ ?_ h
  · intro s t hmoved hs slot hslot
    rw [hmoved.tasks]
    exact hs slot hslot
  · intro s id t hwoke hs slot hslot
    rw [hwoke.record slot]
    split
    · rename_i he
      subst he
      exact (hs _ hslot).woken hwoke.limit
    · exact hs slot hslot

theorem Dispatched.inStep {decision : Decision} (h : Dispatched s t decision) (hs : s.Standing)
    (hstep : s.InStep False) : t.InStep drowsy := by
  intro slot hslot
  cases h with
  | @resumed _ next hhead _ hmoved _ =>
      by_cases he : slot = next.index
      · subst he
        have hqueued := hs.queued next (List.mem_of_head? hhead) (mem_slots.mp hslot).1
        exact (hmoved.self ▸ (hstep _ hslot).run hqueued : (t.record next).InStep drowsy)
      · rw [hmoved.other he]
        exact (hstep slot hslot).mono nofun
  | drained _ _ _ hmoved _ =>
      rw [hmoved.other (mem_slots.mp hslot).1]
      exact (hstep slot hslot).mono nofun
  | idle _ _ => exact (hstep slot hslot).mono nofun

theorem Paused.inStep {m : Scheduler H} (h : Paused s id m) (hs : s.Standing)
    (hrun : s.runQueue = id :: rest) (hstep : s.InStep drowsy) : m.InStep False := by
  intro slot hslot
  have hne := (mem_slots.mp hslot).1
  by_cases he : slot = id.index
  · subst he
    have hmem : id ∈ s.runQueue := hrun ▸ List.mem_cons_self
    have hle : (s.record id).sleepCount ≤ 1 := (hstep _ hslot).queued_le (hs.queued id hmem hne)
    have hcount := h.count
    refine .of_paused (hcount ▸ (hstep _ hslot).least) ?_
    rcases h.state with hzero | hexited | ⟨hasleep, hpos⟩ | hready
    · exact absurd hzero hne
    · exact .inl hexited
    · exact .inr (.inl ⟨hasleep, by change (m.record id).sleepCount = 1; omega⟩)
    · exact .inr (.inr hready)
  · rw [h.other slot he]
    refine ⟨(hstep slot hslot).least, (hstep slot hslot).asleep, (hstep slot hslot).ready, ?_⟩
    intro hstate
    have hhead := hs.head_of_running hslot hstate
    rw [hrun, List.head?_cons, Option.some.injEq] at hhead
    rw [hhead, s.index_idOf (mem_slots.mp hslot).2] at he
    contradiction

/-! ## While somebody executes -/

/-- The head of the run queue executes, or the mainline does when no task is left. -/
structure Manned (s : Scheduler H) : Prop where
  attended : s.runQueue = [] → s.sleepers = []
  headRuns : s.HeadRuns

theorem Manned.congr (h : s.Manned) (hrun : t.runQueue = s.runQueue)
    (hsleep : t.sleepers = s.sleepers)
    (hstate : ∀ slot, (t.tasks.record slot).state = (s.tasks.record slot).state) : t.Manned where
  attended := fun hnil => hsleep.trans (h.attended (hrun ▸ hnil))
  headRuns := fun id hhead hid => (hstate id.index).trans (h.headRuns id (hrun ▸ hhead) hid)

theorem Manned.head_woke (h : s.Manned) (hs : s.Standing) (hwoke : Woke s id t) :
    t.runQueue.head? = s.runQueue.head? := by
  rw [hwoke.runQueue]
  cases hrun : s.runQueue with
  | nil =>
      have hawake : (s.record id).state ≠ .sleeping := by
        intro hasleep
        have hmem := Placed.mem_sleep_of_sleeping hs hwoke.task hwoke.current hasleep
        rw [h.attended hrun] at hmem
        contradiction
      rw [if_neg hawake, List.append_nil]
  | cons first rest => rfl

theorem Manned.woke (h : s.Manned) (hs : s.Standing) (hwoke : Woke s id t) : t.Manned := by
  constructor
  case attended =>
    intro hnil
    rw [hwoke.runQueue, List.append_eq_nil_iff] at hnil
    rw [hwoke.sleepers, h.attended hnil.1, List.erase_nil]
  case headRuns =>
    intro m hhead hm
    rw [h.head_woke hs hwoke] at hhead
    have hrunning := h.headRuns m hhead hm
    by_cases he : m.index = id.index
    · have hsame : ∀ s : Scheduler H, s.record m = s.record id := fun s => by
        rw [record, record, he]
      rw [hsame] at hrunning ⊢
      have hawake : (s.record id).state ≠ .sleeping := by
        rw [hrunning]
        decide
      rw [hwoke.record_self, TaskRecord.woken_of_ne hawake]
      exact hrunning
    · rw [record, hwoke.record_other he]
      exact hrunning

theorem Manned.wakes (h : s.Manned) (hs : s.Standing) (hwakes : Wakes s ids t) : t.Manned := by
  refine (hwakes.preserves (P := fun t => t.Standing ∧ t.Manned) ?_ ?_ ⟨hs, h⟩).2
  · intro s t hmoved ⟨hs, hmanned⟩
    refine ⟨hmoved.standing hs, hmanned.congr hmoved.runQueue_eq hmoved.sleepers_eq fun _ => ?_⟩
    rw [hmoved.tasks]
  · intro s id t hwoke ⟨hs, hmanned⟩
    exact ⟨hwoke.standing, hmanned.woke hs hwoke⟩

theorem Dispatched.sleepers_eq {decision : Decision} (h : Dispatched s t decision) :
    t.sleepers = s.sleepers := by
  cases h with
  | resumed _ _ hmoved _ => exact hmoved.sleepers
  | drained _ hnil _ hmoved _ => exact hmoved.sleepers.trans hnil.symm
  | idle _ _ => rfl

theorem Dispatched.manned {decision : Decision} (h : Dispatched s t decision)
    (hdecision : decision ≠ .idle) : t.Manned := by
  refine ⟨fun hnil => ?_, h.headRuns⟩
  cases h with
  | resumed hhead _ hmoved _ =>
      rw [hmoved.runQueue] at hnil
      rw [hnil] at hhead
      contradiction
  | drained _ _ _ hmoved _ => exact hmoved.sleepers
  | idle => contradiction

theorem Started.manned [Hardware H] {stack : StackRange} {pointer : Address}
    (h : Started s stack pointer id t) (hs : s.Standing) (hmanned : s.Manned) : t.Manned := by
  constructor
  case attended =>
    intro hnil
    rw [h.runQueue] at hnil
    exact absurd (List.append_eq_nil_iff.mp hnil).2 (List.cons_ne_nil _ _)
  case headRuns =>
    intro m hhead hm
    rw [h.runQueue, admitted] at hhead
    split at hhead
    · obtain rfl := Option.some.inj hhead
      exact absurd rfl hm
    · rename_i hne
      obtain ⟨first, rest, hrun⟩ := List.exists_cons_of_ne_nil hne
      rw [hrun, List.cons_append, List.head?_cons, Option.some.injEq] at hhead
      subst hhead
      have hother : first.index ≠ id.index := by
        intro he
        have hoccupied := hs.occupied (hrun ▸ List.mem_cons_self) hm
        rw [he] at hoccupied
        exact hoccupied.not_gone h.gone
      have hrunning := hmanned.headRuns first (by rw [hrun, List.head?_cons]) hm
      rwa [record, ← h.other first.index hm hother] at hrunning

/-! ## Between two switches -/

structure Unswitched (s : Scheduler H) (id : TaskId) (slept : Nat) (t : Scheduler H) : Prop where
  standing : t.Standing
  runQueue : t.runQueue = s.runQueue
  sleepers : t.sleepers = s.sleepers
  state : ∀ slot, (t.tasks.record slot).state = (s.tasks.record slot).state
  count : ∀ slot, (t.tasks.record slot).sleepCount =
    (s.tasks.record slot).sleepCount + if id.index = slot then (slept : Int) else 0

theorem Unswitched.refl (hs : s.Standing) (id : TaskId) : Unswitched s id 0 s :=
  ⟨hs, rfl, rfl, fun _ => rfl, fun _ => by simp⟩

theorem Moved.unswitched (h : Moved s id change s.runQueue s.sleepers t) {slept : Nat}
    (hstate : ∀ r, (change r).state = r.state)
    (hcount : ∀ r, (change r).sleepCount = r.sleepCount + slept) : Unswitched s id slept t where
  standing := h.standing
  runQueue := h.runQueue
  sleepers := h.sleepers
  state := h.field TaskRecord.state hstate
  count := by
    intro slot
    rw [h.record slot]
    by_cases he : slot = id.index
    · rw [if_pos he, if_pos he.symm, hcount]
    · rw [if_neg he, if_neg (Ne.symm he), Int.add_zero]

theorem Unswitched.trans {slept : Nat} {other : TaskId} (h : Unswitched s id slept t)
    (h' : Unswitched t other 0 u) : Unswitched s id slept u where
  standing := h'.standing
  runQueue := h'.runQueue.trans h.runQueue
  sleepers := h'.sleepers.trans h.sleepers
  state := fun slot => (h'.state slot).trans (h.state slot)
  count := fun slot => by simp [h'.count slot, h.count slot]

inductive FallsAsleep (s : Scheduler H) : Scheduler H → Prop
  | asleep {t : Scheduler H} {deadline : Instant} :
      s.markAsleep deadline = .ok t →
      FallsAsleep s t
  | waiting {t : Scheduler H} {signal signal' : Signal} :
      s.attemptWait signal = .ok (t, signal', .parked) →
      FallsAsleep s t
  | joining {t : Scheduler H} {target : TaskId} :
      s.attemptJoin target = .ok (t, .parked) →
      FallsAsleep s t

inductive StaysAwake (s : Scheduler H) : Scheduler H → Prop
  | exiting {t : Scheduler H} {code : UInt32} :
      s.markExiting code = .ok t →
      StaysAwake s t
  | waited {t : Scheduler H} {signal signal' : Signal} {result : WaitResult} :
      result ≠ .parked →
      s.attemptWait signal = .ok (t, signal', result) →
      StaysAwake s t
  | joined {t : Scheduler H} {target : TaskId} {result : WaitResult} :
      result ≠ .parked →
      s.attemptJoin target = .ok (t, result) →
      StaysAwake s t
  | tried {t : Scheduler H} {target : TaskId} {code : Option UInt32} :
      s.tryJoin target = .ok (t, code) →
      StaysAwake s t

theorem Attempted.parked_unswitched {w w' : Signal} (h : Attempted s w t w' .parked) :
    ∃ id, s.current = some id ∧ Unswitched s id 1 t := by
  cases h with
  | parked hcurrent _ _ _ _ hmoved _ =>
      exact ⟨_, hcurrent, hmoved.unswitched (fun _ => rfl) fun _ => rfl⟩

theorem Attempted.unswitched {w w' : Signal} {result : WaitResult}
    (h : Attempted s w t w' result) (hs : s.Standing) (hresult : result ≠ .parked)
    (id : TaskId) : Unswitched s id 0 t := by
  cases h with
  | acquired _ | busy _ _ _ _ _ => exact .refl hs id
  | parked _ _ _ _ _ _ _ => contradiction

theorem Standing.unswitched_completion (hs : s.Standing) (hlt : id.index < slotCount)
    (completion : Signal) : Unswitched s id 0 (s.withCompletion id completion) :=
  (hs.withCompletion hlt completion).unswitched (fun _ => rfl) fun _ => (Int.add_zero _).symm

theorem FallsAsleep.unswitched (h : FallsAsleep s t) (hs : s.Standing) :
    ∃ id, s.current = some id ∧ Unswitched s id 1 t := by
  cases h with
  | asleep hok =>
      obtain ⟨id, hcurrent, _, _, hmoved⟩ := hs.markAsleep hok
      exact ⟨id, hcurrent, hmoved.unswitched (fun _ => rfl) fun _ => rfl⟩
  | waiting hok => exact (hs.attemptWait hok).parked_unswitched
  | joining hok =>
      obtain ⟨_, htarget, u, completion, hattempted, rfl⟩ := hs.attemptJoin hok
      obtain ⟨id, hcurrent, hu⟩ := hattempted.parked_unswitched
      exact ⟨id, hcurrent, hu.trans (hu.standing.unswitched_completion htarget.index_lt _)⟩

theorem StaysAwake.unswitched (h : StaysAwake s t) (hs : s.Standing) :
    ∃ id, Unswitched s id 0 t := by
  cases h with
  | exiting hok =>
      obtain ⟨id, _, _, hmoved⟩ := hs.markExiting hok
      exact ⟨id, hmoved.unswitched (fun _ => rfl) fun _ => (Int.add_zero _).symm⟩
  | waited hresult hok => exact ⟨.mainline, (hs.attemptWait hok).unswitched hs hresult _⟩
  | @joined target _ hresult hok =>
      obtain ⟨_, htarget, u, completion, hattempted, rfl⟩ := hs.attemptJoin hok
      have hu := hattempted.unswitched hs hresult target
      exact ⟨target, hu.trans (hu.standing.unswitched_completion htarget.index_lt _)⟩
  | @tried target _ hok =>
      obtain ⟨htarget, rfl, _⟩ := tryJoin_eq_ok hok
      exact ⟨target, hs.unswitched_completion htarget.index_lt _⟩

/-! ## What becomes of a task that has gone to sleep -/

variable [Hardware H] {pointer : Address} {decision : Decision}

/-- The executing task is queued again, behind whoever was ready, to go on from where it is. -/
def GivesTurn (s : Scheduler H) (id : TaskId) (pointer : Address) (t : Scheduler H) : Prop :=
  ∃ rest later, s.runQueue = id :: rest ∧ t.runQueue = rest ++ id :: later ∧
    (t.record id).pointer = pointer

theorem Standing.gives_turn (hs : s.Standing) (hcurrent : s.current = some id)
    (hstays : (s.record id).exiting = false) (hawake : (s.record id).sleepCount ≤ 0)
    (hok : s.reschedule pointer = .ok (t, decision)) : GivesTurn s id pointer t := by
  obtain ⟨hhead, hne, _⟩ := hs.current hcurrent
  obtain ⟨rest, hrun⟩ := List.head?_eq_some_iff.mp hhead
  obtain ⟨u, first, others, hqueue, hturn, _, _, hextended⟩ :=
    hs.reschedule_yield hrun hne hstays (decide_eq_false (Int.not_lt.mpr hawake)) hok
  obtain ⟨later, hlater⟩ := hextended.runQueue
  refine ⟨rest, later, hrun, ?_, ?_⟩
  · rw [hlater, ← hqueue, List.append_assoc, List.singleton_append]
  · rw [hextended.pointer id (hqueue ▸ List.mem_append_right _ List.mem_cons_self)]
    exact Decision.resume.inj (Prod.mk.inj hturn).1

theorem Standing.retires (hs : s.Standing) (hcurrent : s.current = some id)
    (hends : (s.record id).exiting = true) (hok : s.reschedule pointer = .ok (t, decision)) :
    (t.record id).state = .exited := by
  obtain ⟨rest, woken, u, v, w, hswitched⟩ := hs.reschedule_current hcurrent hok
  exact (hswitched.ends hs (hs.current hcurrent).2.1 hends).1.state

omit [Hardware H] in
theorem mem_delivered_of_resting {called : Option TaskId} (hresting : id ∈ s.resting)
    (hleft : id ∉ t.sleepers) : id ∈ delivered called (s.resting ++ s.sleepers) t := by
  by_cases hcalled : called = some id
  · exact List.mem_append_left _ (Option.mem_toList.mpr hcalled)
  · exact List.mem_append_right _ (List.mem_filter.mpr
      ⟨List.mem_append_left _ hresting, decide_eq_true ⟨hcalled, hleft⟩⟩)

def PutToBed (s : Scheduler H) (id : TaskId) (t : Scheduler H) : Prop :=
  (t.record id).state = .sleeping ∨
    id ∈ delivered s.joiner (s.resting ++ s.sleepers) t ∧
      (s.record id).wakeAt ≠ Instant.never ∧
      Hardware.Refuses s.hardware t.hardware (s.record id).wakeAt

theorem Standing.put_to_bed (hs : s.Standing) (hcurrent : s.current = some id)
    (hasleep : 0 < (s.record id).sleepCount) (hok : s.reschedule pointer = .ok (t, decision)) :
    PutToBed s id t := by
  obtain ⟨_, hne, hlt⟩ := hs.current hcurrent
  have hslot := mem_slots.mpr ⟨hne, hlt⟩
  obtain ⟨rest, woken, u, v, w, hswitched⟩ := hs.reschedule_current hcurrent hok
  have hsuspended := hswitched.suspended
  have hself := hsuspended.self
  have hcounts : (s.record id).isSleeping = true := decide_eq_true hasleep
  have hcounts' : (u.record id).isSleeping = true := by rwa [hself]
  cases hswitched.settled with
  | parked hzero _ _ => exact absurd hzero hne
  | finished _ _ _ hawake _ _ _ | requeued _ _ _ hawake _ _ =>
      rw [hcounts'] at hawake
      contradiction
  | asleep _ _ hstays _ hmoved hhardware =>
      have hrecord : v.record id =
          { s.suspendedRecord pointer (s.record id) with state := .sleeping } := by
        rw [hmoved.self, hself]
      rcases hswitched.rearmed.undisturbed id.index with hkept | ⟨_, htimed, hrefuses, hwoken⟩
      · refine .inl ((hswitched.dispatched.sameSleep hswitched.standing.2.1 hslot).asleep ?_)
        rw [hkept]
        exact congrArg TaskRecord.state hrecord
      · have hstays' : (s.record id).exiting = false := by rwa [hself] at hstays
        have hresting : id ∈ s.resting := by
          simp [resting_of_current hcurrent, hstays', hcounts]
        have hleft : id ∉ t.sleepers := by
          rw [hswitched.dispatched.sleepers_eq]
          intro hmem
          have hstill : (w.tasks.record id.index).state = .sleeping :=
            (hswitched.standing.2.1.asleep id hmem).2
          rw [hwoken] at hstill
          exact TaskRecord.awake_woken _ hstill
        change (v.record id).wakeAt ≠ Instant.never at htimed
        change Hardware.Refuses v.hardware w.hardware (v.record id).wakeAt at hrefuses
        rw [hrecord] at htimed hrefuses
        rw [hhardware.trans hsuspended.hardware, ← hswitched.dispatched.hardware] at hrefuses
        exact .inr ⟨mem_delivered_of_resting hresting hleft, htimed, hrefuses⟩

end Scheduler

end CoopTasks
