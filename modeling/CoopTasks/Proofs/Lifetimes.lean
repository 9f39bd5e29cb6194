import CoopTasks.Proofs.Chronicle
import CoopTasks.Proofs.Wakeups

/-!
The lives of tasks.

Between its start and its end a task keeps its slot, its stack and its guard,
and after its end what it left behind stays as it is until the slot is used
again.  Every step of a world is a passage of one of three kinds: nobody starts
or ends, one task starts, or one task ends.
-/

namespace CoopTasks

theorem Signal.count_tryTake {s : Signal} (h : s.count = 0) : s.tryTake.1.count = 0 := by
  unfold tryTake
  rw [if_pos h]
  split <;> exact h

/-- The same run of a task, as live or as dead as it was. -/
structure TaskRecord.Lasts (r r' : TaskRecord) : Prop where
  stack : r'.stack = r.stack
  generation : r'.generation = r.generation
  guardRegion : r'.guardRegion = r.guardRegion
  latched : r'.completion.latched = r.completion.latched
  uncounted : r.completion.count = 0 → r'.completion.count = 0
  vacant : r'.state = .vacant ↔ r.state = .vacant
  exited : r'.state = .exited ↔ r.state = .exited
  finished : r.state = .exited → r'.pointer = r.pointer ∧ r'.exitCode = r.exitCode

structure TaskRecord.Ends (r r' : TaskRecord) : Prop where
  stack : r'.stack = r.stack
  generation : r'.generation = r.generation
  guardRegion : r'.guardRegion = none
  latched : r'.completion.latched = true
  uncounted : r.completion.count = 0 → r'.completion.count = 0
  state : r'.state = .exited
  pointer : r'.pointer = exitedPointer
  exitCode : r'.exitCode = r.exitCode

namespace TaskRecord

variable {r r' r'' : TaskRecord}

theorem Lasts.refl (r : TaskRecord) : r.Lasts r :=
  ⟨rfl, rfl, rfl, rfl, fun hcount => hcount, .rfl, .rfl, fun _ => ⟨rfl, rfl⟩⟩

theorem Lasts.trans (h : r.Lasts r') (h' : r'.Lasts r'') : r.Lasts r'' where
  stack := h'.stack.trans h.stack
  generation := h'.generation.trans h.generation
  guardRegion := h'.guardRegion.trans h.guardRegion
  latched := h'.latched.trans h.latched
  uncounted := fun hcount => h'.uncounted (h.uncounted hcount)
  vacant := h'.vacant.trans h.vacant
  exited := h'.exited.trans h.exited
  finished := by
    intro hexited
    obtain ⟨hpointer, hcode⟩ := h.finished hexited
    obtain ⟨hpointer', hcode'⟩ := h'.finished (h.exited.mpr hexited)
    exact ⟨hpointer'.trans hpointer, hcode'.trans hcode⟩

theorem Ends.lasts (h : r.Ends r') (h' : r'.Lasts r'') : r.Ends r'' where
  stack := h'.stack.trans h.stack
  generation := h'.generation.trans h.generation
  guardRegion := h'.guardRegion.trans h.guardRegion
  latched := h'.latched.trans h.latched
  uncounted := fun hcount => h'.uncounted (h.uncounted hcount)
  state := h'.exited.mpr h.state
  pointer := (h'.finished h.state).1.trans h.pointer
  exitCode := (h'.finished h.state).2.trans h.exitCode

theorem Lasts.ends (h : r.Lasts r') (hcode : r'.exitCode = r.exitCode) (h' : r'.Ends r'') :
    r.Ends r'' where
  stack := h'.stack.trans h.stack
  generation := h'.generation.trans h.generation
  guardRegion := h'.guardRegion
  latched := h'.latched
  uncounted := fun hcount => h'.uncounted (h.uncounted hcount)
  state := h'.state
  pointer := h'.pointer
  exitCode := h'.exitCode.trans hcode

theorem lasts_countSleep (r : TaskRecord) (deadline : Instant) : r.Lasts (r.countSleep deadline) :=
  ⟨rfl, rfl, rfl, rfl, fun hcount => hcount, .rfl, .rfl, fun _ => ⟨rfl, rfl⟩⟩

theorem lasts_withCompletion (r : TaskRecord) {completion : Signal}
    (hlatched : completion.latched = r.completion.latched)
    (hcount : r.completion.count = 0 → completion.count = 0) :
    r.Lasts { r with completion } :=
  ⟨rfl, rfl, rfl, hlatched, hcount, .rfl, .rfl, fun _ => ⟨rfl, rfl⟩⟩

theorem lasts_woken (r : TaskRecord) : r.Lasts r.woken := by
  have hstate : (r.woken.state = .vacant ↔ r.state = .vacant) ∧
      (r.woken.state = .exited ↔ r.state = .exited) := by
    unfold woken
    dsimp only
    split
    · rename_i hsleeping
      rw [hsleeping]
      decide
    · exact ⟨.rfl, .rfl⟩
  exact ⟨rfl, rfl, rfl, rfl, fun hcount => hcount, hstate.1, hstate.2, fun _ => ⟨rfl, rfl⟩⟩

def Occupied (r : TaskRecord) : Prop :=
  r.state ≠ .vacant ∧ r.state ≠ .exited

theorem Occupied.lasts (h : r.Occupied) (h' : r'.Occupied) (hstack : r'.stack = r.stack)
    (hgeneration : r'.generation = r.generation) (hguard : r'.guardRegion = r.guardRegion)
    (hcompletion : r'.completion = r.completion) : r.Lasts r' where
  stack := hstack
  generation := hgeneration
  guardRegion := hguard
  latched := congrArg Signal.latched hcompletion
  uncounted := fun hcount => (congrArg Signal.count hcompletion).trans hcount
  vacant := iff_of_false h'.1 h.1
  exited := iff_of_false h'.2 h.2
  finished := fun hexited => absurd hexited h.2

theorem ends_finished (r : TaskRecord) : r.Ends r.finished :=
  ⟨rfl, rfl, rfl, rfl, fun hcount => hcount, rfl, rfl, rfl⟩

end TaskRecord

namespace Scheduler

variable {H : Type} {s t u : Scheduler H} {id : TaskId} {run sleep rest : List TaskId}
variable {change : TaskRecord → TaskRecord}

def Lasts (s t : Scheduler H) : Prop :=
  ∀ slot ∈ slots, (s.tasks.record slot).Lasts (t.tasks.record slot)

theorem Lasts.refl (s : Scheduler H) : s.Lasts s :=
  fun _ _ => .refl _

theorem Lasts.trans (h : s.Lasts t) (h' : t.Lasts u) : s.Lasts u :=
  fun slot hslot => (h slot hslot).trans (h' slot hslot)

theorem Lasts.bound (h : s.Lasts t) : Bound s t :=
  fun slot hslot => ⟨(h slot hslot).stack, (h slot hslot).generation, (h slot hslot).vacant⟩

theorem Lasts.occupied (h : s.Lasts t) {slot : Nat} (hslot : slot ∈ slots) :
    t.Occupied slot ↔ s.Occupied slot :=
  and_congr (not_congr (h slot hslot).vacant) (not_congr (h slot hslot).exited)

theorem lasts_of_tasks (h : t.tasks = s.tasks) : s.Lasts t := by
  intro slot _
  rw [h]
  exact .refl _

theorem Altered.lasts (h : Altered s id change t)
    (hchange : id.index ∈ slots → (s.record id).Lasts (change (s.record id))) : s.Lasts t := by
  intro slot hslot
  rw [h slot]
  split
  · rename_i he
    subst he
    exact hchange hslot
  · exact .refl _

theorem Altered.lasts_mainline (h : Altered s id change t) (hid : id.index = 0) : s.Lasts t := by
  apply h.lasts
  intro hslot
  exact absurd hid (mem_slots.mp hslot).1

/-! ## Nobody starts or ends -/

theorem Woke.lasts (h : Woke s id t) : s.Lasts t := by
  intro slot _
  rw [h.record slot]
  split
  · exact TaskRecord.lasts_woken _
  · exact .refl _

theorem Wakes.lasts {ids : List TaskId} (h : Wakes s ids t) : s.Lasts t := by
  refine h.preserves (P := s.Lasts) ?_ ?_ (.refl s)
  · intro t u hmoved ht
    exact ht.trans (lasts_of_tasks hmoved.tasks)
  · intro t id u hwoke ht
    exact ht.trans hwoke.lasts

theorem Attempted.lasts {w w' : Signal} {result : WaitResult}
    (h : Attempted s w t w' result) : s.Lasts t := by
  cases h with
  | acquired _ => exact .refl s
  | parked _ _ _ _ _ hmoved _ =>
      exact hmoved.altered.lasts fun _ => TaskRecord.lasts_countSleep _ _
  | busy _ _ _ _ _ => exact .refl s

theorem Attempted.latched {w w' : Signal} {result : WaitResult}
    (h : Attempted s w t w' result) : w'.latched = w.latched := by
  cases h with
  | acquired htake =>
      rw [← Signal.latched_tryTake w, htake]
  | parked _ _ _ _ _ _ _ => rfl
  | busy _ _ _ _ _ => rfl

theorem Attempted.uncounted {w w' : Signal} {result : WaitResult}
    (h : Attempted s w t w' result) (hcount : w.count = 0) : w'.count = 0 := by
  cases h with
  | acquired htake =>
      have hkept := Signal.count_tryTake hcount
      rwa [htake] at hkept
  | parked _ _ _ _ _ _ _ => exact hcount
  | busy _ _ _ _ _ => exact hcount

theorem Standing.occupied_current (h : s.Standing) (hcurrent : s.current = some id) :
    (s.record id).Occupied :=
  h.occupied (List.mem_of_head? (h.current hcurrent).1) (h.current hcurrent).2.1

theorem Dispatched.lasts {decision : Decision} (h : Dispatched s t decision) (hs : s.Standing) :
    s.Lasts t := by
  cases h with
  | resumed hhead _ hmoved _ =>
      apply hmoved.altered.lasts
      intro hslot
      have hoccupied := hs.occupied (List.mem_of_head? hhead) (mem_slots.mp hslot).1
      exact TaskRecord.Occupied.lasts hoccupied ⟨by simp, by simp⟩ rfl rfl rfl rfl
  | drained _ _ _ hmoved _ => exact hmoved.altered.lasts_mainline rfl
  | idle _ _ => exact .refl s

/-! ## A switch -/

variable [Hardware H]

theorem Suspended.lasts {pointer : Address} (h : Suspended s pointer id rest u)
    (hs : s.Standing) : s.Lasts u := by
  have haltered : Altered s id (s.suspendedRecord pointer) u := h.record
  apply haltered.lasts
  intro hslot
  have hoccupied : (s.record id).Occupied := by
    apply hs.occupied _ (mem_slots.mp hslot).1
    rw [h.runQueue]
    exact List.mem_cons_self
  exact hoccupied.lasts hoccupied rfl rfl rfl rfl

theorem Settled.lasts (h : Settled u id rest sleep t)
    (hoccupied : id.index ≠ 0 → (u.record id).Occupied)
    (hexiting : id.index ≠ 0 → (u.record id).exiting = false) : u.Lasts t := by
  cases h with
  | parked hid hmoved _ => exact hmoved.altered.lasts_mainline hid
  | finished hid _ hexiting' _ _ _ _ =>
      rw [hexiting hid] at hexiting'
      contradiction
  | asleep hid _ _ _ hmoved _ =>
      exact hmoved.altered.lasts fun _ =>
        (hoccupied hid).lasts ⟨by simp, by simp⟩ rfl rfl rfl rfl
  | requeued hid _ _ _ hmoved _ =>
      exact hmoved.altered.lasts fun _ =>
        (hoccupied hid).lasts ⟨by simp, by simp⟩ rfl rfl rfl rfl

theorem Settled.ends (h : Settled u id rest sleep t) (hslot : id.index ∈ slots)
    (hexiting : (u.record id).exiting = true) :
    (u.record id).Ends (t.record id) ∧
      ∀ slot ∈ slots, slot ≠ id.index → (u.tasks.record slot).Lasts (t.tasks.record slot) := by
  cases h with
  | parked hid _ _ => exact absurd hid (mem_slots.mp hslot).1
  | @finished v _ _ _ _ _ hmoved _ hwake =>
      obtain ⟨ids, hwakes⟩ := hmoved.standing.wakes_of_wakeWaiter hwake
      have hlasts := hwakes.lasts
      have hended : (u.record id).Ends (v.record id) := by
        rw [hmoved.self]
        exact TaskRecord.ends_finished _
      refine ⟨hended.lasts (hlasts id.index hslot), ?_⟩
      intro slot hother hne
      rw [← hmoved.other hne]
      exact hlasts slot hother
  | asleep _ _ hexiting' _ _ _ | requeued _ _ hexiting' _ _ _ =>
      rw [hexiting] at hexiting'
      contradiction

/-! ## Passages -/

/-- How the lives of tasks go on in one step, with the stacks that a start may use. -/
inductive Passage (ranges : List StackRange) (s t : Scheduler H) : Prop
  | lasted :
      t.chronicle = s.chronicle →
      s.Lasts t →
      Passage ranges s t
  | began {hardware : H} {stack : StackRange} {pointer : Address} {id : TaskId} :
      t.chronicle = .started id stack :: s.chronicle →
      stack ∈ ranges →
      Started { s with hardware } stack pointer id t →
      Passage ranges s t
  | ended {id : TaskId} :
      t.chronicle = .exited id (s.record id).exitCode :: s.chronicle →
      id.index ∈ slots →
      s.idOf id.index = id →
      s.Occupied id.index →
      (s.record id).Ends (t.record id) →
      (∀ slot ∈ slots, slot ≠ id.index → (s.tasks.record slot).Lasts (t.tasks.record slot)) →
      Passage ranges s t

variable {ranges : List StackRange}

section Switch

variable {pointer : Address} {decision : Decision} {woken : List TaskId} {v w : Scheduler H}

theorem Switched.mem_runQueue (h : Switched s pointer t decision id rest woken u v w) :
    id ∈ s.runQueue := by
  rw [h.suspended.runQueue]
  exact List.mem_cons_self

theorem Switched.lasts (h : Switched s pointer t decision id rest woken u v w) (hs : s.Standing)
    (hstays : id.index ≠ 0 → (s.record id).exiting = false) : s.Lasts t := by
  have hself := h.suspended.self
  refine ((h.suspended.lasts hs).trans (h.settled.lasts ?_ ?_)).trans
    (h.rearmed.wakes.lasts.trans (h.dispatched.lasts h.standing.2.1))
  · intro hid
    have hoccupied : (s.record id).Occupied := hs.occupied h.mem_runQueue hid
    rw [hself]
    exact hoccupied
  · intro hid
    rw [hself]
    exact hstays hid

theorem Switched.ends (h : Switched s pointer t decision id rest woken u v w) (hs : s.Standing)
    (hid : id.index ≠ 0) (hexiting : (s.record id).exiting = true) :
    (s.record id).Ends (t.record id) ∧
      ∀ slot ∈ slots, slot ≠ id.index → (s.tasks.record slot).Lasts (t.tasks.record slot) := by
  have hu := h.suspended.lasts hs
  have ht := h.rearmed.wakes.lasts.trans (h.dispatched.lasts h.standing.2.1)
  have hself := h.suspended.self
  have hslot : id.index ∈ slots := mem_slots.mpr ⟨hid, h.suspended.index_lt hs⟩
  obtain ⟨hends, hothers⟩ := h.settled.ends hslot (by rw [hself]; exact hexiting)
  have hcode : (u.record id).exitCode = (s.record id).exitCode := by
    rw [hself]
    rfl
  refine ⟨((hu _ hslot).ends hcode hends).lasts (ht _ hslot), ?_⟩
  intro slot hother hne
  exact ((hu slot hother).trans (hothers slot hother hne)).trans (ht slot hother)

theorem Switched.passage (h : Switched s pointer t decision id rest woken u v w)
    (hs : s.Standing) (hchronicle : t.chronicle = s.ending id ++ s.chronicle) :
    Passage ranges s t := by
  unfold ending at hchronicle
  by_cases hending : id.index ≠ 0 ∧ (s.record id).exiting = true
  · obtain ⟨hid, hexiting⟩ := hending
    rw [if_pos ⟨hid, hexiting⟩] at hchronicle
    obtain ⟨hends, hothers⟩ := h.ends hs hid hexiting
    exact .ended hchronicle (mem_slots.mpr ⟨hid, h.suspended.index_lt hs⟩)
      (hs.idOf_index (List.mem_append_left _ h.mem_runQueue)) (hs.occupied h.mem_runQueue hid)
      hends hothers
  · rw [if_neg hending] at hchronicle
    exact .lasted hchronicle
      (h.lasts hs fun hid => Bool.eq_false_iff.mpr fun he => hending ⟨hid, he⟩)

end Switch

theorem Standing.passage_of_handleAlarm (h : s.Standing) (hok : s.handleAlarm = .ok t) :
    Passage ranges s t := by
  obtain ⟨ids, hwakes⟩ := h.wakes_of_handleAlarm hok
  exact .lasted (chronicle_handleAlarm hok) hwakes.lasts

theorem Standing.passage_of_reschedule (h : s.Standing) {pointer : Address} {decision : Decision}
    (hok : s.reschedule pointer = .ok (t, decision)) : Passage ranges s t := by
  obtain ⟨id, rest, woken, u, v, x, hswitched⟩ := h.reschedule hok
  have hhead : s.runQueue.head? = some id := by
    rw [hswitched.suspended.runQueue, List.head?_cons]
  exact hswitched.passage h (chronicle_reschedule h hhead hok)

theorem Standing.passage_of_dispatch (h : s.Standing) {decision : Decision}
    (hok : s.dispatch = .ok (t, decision)) : Passage ranges s t :=
  .lasted (chronicle_dispatch hok) ((h.dispatch hok).lasts h)

theorem Started.idOf {stack : StackRange} {pointer : Address} (h : Started s stack pointer id t) :
    t.idOf id.index = id := by
  apply TaskId.ext_of_index (t.index_idOf h.mem_slots.2)
  show (t.record id).generation = id.generation
  rw [h.self, h.current]
  rfl

theorem Started.occupied {stack : StackRange} {pointer : Address}
    (h : Started s stack pointer id t) : t.Occupied id.index := by
  have hready : (t.tasks.record id.index).state = .ready := congrArg TaskRecord.state h.self
  exact occupied_of_state hready (by decide)

/-- What is left of the tasks that have ended, and that each start is accounted for. -/
structure Lived (s : Scheduler H) : Prop where
  unguarded : ∀ slot ∈ slots, ¬s.Occupied slot → (s.tasks.record slot).guardRegion = none
  finished : ∀ slot ∈ slots, (s.tasks.record slot).state = .exited →
    (s.tasks.record slot).pointer = exitedPointer ∧
      (s.tasks.record slot).completion.latched = true
  uncounted : ∀ slot ∈ slots, (s.tasks.record slot).completion.count = 0
  unlatched : ∀ slot ∈ slots, s.Occupied slot → (s.tasks.record slot).completion.latched = false
  accounted : ∀ newer id stack older, s.chronicle = newer ++ .started id stack :: older →
    (∃ code, .exited id code ∈ newer) ∨
      (id.index ∈ slots ∧ s.Occupied id.index ∧ s.idOf id.index = id)

omit [Hardware H] in
theorem lived_new (hardware : H) : (new hardware).Lived := by
  have hrecord : ∀ slot, (new hardware).tasks.record slot = TaskRecord.vacant :=
    TaskTable.record_vacant
  refine ⟨?_, ?_, ?_, ?_, ?_⟩
  · intro slot _ _
    rw [hrecord]
    rfl
  · intro slot _ hexited
    rw [hrecord] at hexited
    contradiction
  · intro slot _
    rw [hrecord]
    rfl
  · intro slot _ _
    rw [hrecord]
    rfl
  · intro newer id stack older hchronicle
    simp [chronicle, new] at hchronicle

omit [Hardware H] in
theorem Lived.lasted (h : s.Lived) (hchronicle : t.chronicle = s.chronicle)
    (hlasts : s.Lasts t) : t.Lived := by
  refine ⟨?unguarded, ?finished, ?uncounted, ?unlatched, ?accounted⟩
  case unguarded =>
    intro slot hslot hgone
    rw [(hlasts slot hslot).guardRegion]
    exact h.unguarded slot hslot (mt (hlasts.occupied hslot).mpr hgone)
  case finished =>
    intro slot hslot hexited
    have hbefore := (hlasts slot hslot).exited.mp hexited
    rw [((hlasts slot hslot).finished hbefore).1, (hlasts slot hslot).latched]
    exact h.finished slot hslot hbefore
  case uncounted =>
    intro slot hslot
    exact (hlasts slot hslot).uncounted (h.uncounted slot hslot)
  case unlatched =>
    intro slot hslot hoccupied
    rw [(hlasts slot hslot).latched]
    exact h.unlatched slot hslot ((hlasts.occupied hslot).mp hoccupied)
  case accounted =>
    intro newer id stack older heq
    rw [hchronicle] at heq
    refine (h.accounted newer id stack older heq).imp_right ?_
    rintro ⟨hslot, hoccupied, hidOf⟩
    exact ⟨hslot, (hlasts.occupied hslot).mpr hoccupied, (hlasts.bound.idOf hslot).trans hidOf⟩

theorem Lived.began (h : s.Lived) {hardware : H} {stack : StackRange} {pointer : Address}
    (hchronicle : t.chronicle = .started id stack :: s.chronicle)
    (hstarted : Started { s with hardware } stack pointer id t) : t.Lived := by
  have hother : ∀ slot ∈ slots, slot ≠ id.index →
      t.tasks.record slot = s.tasks.record slot :=
    fun _ hslot hne => hstarted.record_other hslot hne
  refine ⟨?unguarded, ?finished, ?uncounted, ?unlatched, ?accounted⟩
  case unguarded =>
    intro slot hslot hgone
    by_cases hne : slot = id.index
    · rw [hne] at hgone
      exact absurd hstarted.occupied hgone
    · unfold Scheduler.Occupied at hgone
      rw [hother slot hslot hne] at hgone ⊢
      exact h.unguarded slot hslot hgone
  case finished =>
    intro slot hslot hexited
    by_cases hne : slot = id.index
    · rw [hne] at hexited
      exact absurd hexited hstarted.occupied.2
    · rw [hother slot hslot hne] at hexited ⊢
      exact h.finished slot hslot hexited
  case uncounted =>
    intro slot hslot
    by_cases hne : slot = id.index
    · rw [hne, show t.tasks.record id.index = _ from hstarted.self]
      rfl
    · rw [hother slot hslot hne]
      exact h.uncounted slot hslot
  case unlatched =>
    intro slot hslot hoccupied
    by_cases hne : slot = id.index
    · rw [hne, show t.tasks.record id.index = _ from hstarted.self]
      rfl
    · unfold Scheduler.Occupied at hoccupied
      rw [hother slot hslot hne] at hoccupied ⊢
      exact h.unlatched slot hslot hoccupied
  case accounted =>
    intro newer id' stack' older heq
    rw [hchronicle] at heq
    cases newer with
    | nil =>
        obtain ⟨rfl, rfl⟩ := Notice.started.inj (List.cons.inj heq).1
        exact .inr ⟨mem_slots.mpr hstarted.mem_slots, hstarted.occupied, hstarted.idOf⟩
    | cons notice newer =>
        rcases h.accounted newer id' stack' older (List.cons.inj heq).2 with
          ⟨code, hcode⟩ | ⟨hslot, hoccupied, hidOf⟩
        · exact .inl ⟨code, List.mem_cons_of_mem notice hcode⟩
        · have hne : id'.index ≠ id.index := by
            intro he
            rw [he] at hoccupied
            exact hoccupied.not_gone hstarted.gone
          have hsame := hother id'.index hslot hne
          refine .inr ⟨hslot, ?_, (idOf_eq (by rw [hsame])).trans hidOf⟩
          unfold Scheduler.Occupied
          rw [hsame]
          exact hoccupied

omit [Hardware H] in
theorem Lived.ended (h : s.Lived) {code : UInt32}
    (hchronicle : t.chronicle = .exited id code :: s.chronicle)
    (hidOf : s.idOf id.index = id) (hends : (s.record id).Ends (t.record id))
    (hothers : ∀ slot ∈ slots, slot ≠ id.index →
      (s.tasks.record slot).Lasts (t.tasks.record slot)) : t.Lived := by
  refine ⟨?unguarded, ?finished, ?uncounted, ?unlatched, ?accounted⟩
  case unguarded =>
    intro slot hslot hgone
    by_cases hne : slot = id.index
    · rw [hne]
      exact hends.guardRegion
    · have hlasts := hothers slot hslot hne
      rw [hlasts.guardRegion]
      apply h.unguarded slot hslot
      intro hoccupied
      exact hgone ⟨mt hlasts.vacant.mp hoccupied.1, mt hlasts.exited.mp hoccupied.2⟩
  case finished =>
    intro slot hslot hexited
    by_cases hne : slot = id.index
    · rw [hne]
      exact ⟨hends.pointer, hends.latched⟩
    · have hlasts := hothers slot hslot hne
      have hbefore := hlasts.exited.mp hexited
      rw [(hlasts.finished hbefore).1, hlasts.latched]
      exact h.finished slot hslot hbefore
  case uncounted =>
    intro slot hslot
    by_cases hne : slot = id.index
    · subst hne
      exact hends.uncounted (h.uncounted id.index hslot)
    · exact (hothers slot hslot hne).uncounted (h.uncounted slot hslot)
  case unlatched =>
    intro slot hslot hoccupied
    by_cases hne : slot = id.index
    · rw [hne] at hoccupied
      exact absurd hends.state hoccupied.2
    · have hlasts := hothers slot hslot hne
      rw [hlasts.latched]
      exact h.unlatched slot hslot
        ⟨mt hlasts.vacant.mpr hoccupied.1, mt hlasts.exited.mpr hoccupied.2⟩
  case accounted =>
    intro newer id' stack older heq
    rw [hchronicle] at heq
    cases newer with
    | nil => exact absurd (List.cons.inj heq).1 (by simp)
    | cons notice newer =>
        obtain ⟨hnotice, hrest⟩ := List.cons.inj heq
        subst hnotice
        rcases h.accounted newer id' stack older hrest with
          ⟨code', hcode⟩ | ⟨hslot, hoccupied, hidOf'⟩
        · exact .inl ⟨code', List.mem_cons_of_mem _ hcode⟩
        · by_cases hne : id'.index = id.index
          · rw [hne, hidOf] at hidOf'
            exact .inl ⟨code, hidOf' ▸ List.mem_cons_self⟩
          · have hlasts := hothers id'.index hslot hne
            exact .inr ⟨hslot, ⟨mt hlasts.vacant.mp hoccupied.1, mt hlasts.exited.mp hoccupied.2⟩,
              (idOf_eq hlasts.generation).trans hidOf'⟩

omit [Hardware H] in
theorem bound_of_ended (hoccupied : s.Occupied id.index) (hends : (s.record id).Ends (t.record id))
    (hothers : ∀ slot ∈ slots, slot ≠ id.index →
      (s.tasks.record slot).Lasts (t.tasks.record slot)) : Bound s t := by
  intro slot hslot
  by_cases hne : slot = id.index
  · subst hne
    refine ⟨hends.stack, hends.generation, iff_of_false ?_ hoccupied.1⟩
    rw [show (t.tasks.record id.index).state = _ from hends.state]
    decide
  · have hlasts := hothers slot hslot hne
    exact ⟨hlasts.stack, hlasts.generation, hlasts.vacant⟩

theorem Passage.bound (h : Passage ranges s t) :
    (Bound s t ∧ ∀ id stack, .started id stack ∈ t.chronicle ↔ .started id stack ∈ s.chronicle) ∨
      ∃ hardware stack pointer id, t.chronicle = .started id stack :: s.chronicle ∧
        stack ∈ ranges ∧ Started { s with hardware } stack pointer id t := by
  cases h with
  | lasted hchronicle hlasts =>
      refine .inl ⟨hlasts.bound, fun id stack => ?_⟩
      rw [hchronicle]
  | began hchronicle hstack hstarted => exact .inr ⟨_, _, _, _, hchronicle, hstack, hstarted⟩
  | ended hchronicle _ _ hoccupied hends hothers =>
      refine .inl ⟨bound_of_ended hoccupied hends hothers, fun id stack => ?_⟩
      simp [hchronicle]

theorem Passage.lived (h : Passage ranges s t) (hs : s.Lived) : t.Lived := by
  cases h with
  | lasted hchronicle hlasts => exact hs.lasted hchronicle hlasts
  | began hchronicle _ hstarted => exact hs.began hchronicle hstarted
  | ended hchronicle _ hidOf _ hends hothers => exact hs.ended hchronicle hidOf hends hothers

theorem Passage.inArena (h : Passage ranges s t)
    (hs : ∀ slot ∈ slots, (s.tasks.record slot).state ≠ .vacant →
      (s.tasks.record slot).stack ∈ ranges) :
    ∀ slot ∈ slots, (t.tasks.record slot).state ≠ .vacant →
      (t.tasks.record slot).stack ∈ ranges := by
  intro slot hslot hvacant
  rcases h.bound with ⟨hbound, _⟩ | ⟨hardware, stack, pointer, id, _, hstack, hstarted⟩
  · obtain ⟨hsame, _, hiff⟩ := hbound slot hslot
    rw [hsame]
    exact hs slot hslot (mt hiff.mpr hvacant)
  · by_cases hne : slot = id.index
    · subst hne
      rw [show t.tasks.record id.index = _ from hstarted.self]
      exact hstack
    · rw [hstarted.record_other hslot hne] at hvacant ⊢
      exact hs slot hslot hvacant

end Scheduler

/-! ## Calls -/

def Stack.freshPointer (stack : Stack) : Address :=
  stack.bottom + 4 * UInt64.ofNat (stack.words.length - frameWords)

namespace Kernel

open Scheduler

variable {H : Type} {k k' : Kernel H} {arena : List StackRange}

def ranges (k : Kernel H) : List StackRange :=
  k.memory.map Stack.range

theorem rangeAt_mem {number : Nat} (h : number < k.memory.length) :
    k.rangeAt number ∈ k.ranges := by
  unfold rangeAt stackAt ranges
  rw [List.getElem?_eq_getElem h, Option.getD_some]
  exact List.mem_map_of_mem (List.getElem_mem h)

theorem rangeAt_eq (k : Kernel H) (number : Nat) :
    k.rangeAt number = (k.ranges[number]?).getD (Stack.range ⟨0, []⟩) := by
  unfold rangeAt stackAt ranges
  rw [List.getElem?_map]
  cases k.memory[number]? <;> rfl

theorem rangeAt_eq_of_ranges (h : k'.ranges = k.ranges) (number : Nat) :
    k'.rangeAt number = k.rangeAt number := by
  rw [rangeAt_eq, rangeAt_eq, h]

variable [Hardware H]

/-- A task has been started on one of the stacks, with its context where the stack was set up. -/
structure Begun (k : Kernel H) (number : Nat) (k' : Kernel H) (id : TaskId) : Prop where
  number_lt : number < k.memory.length
  chronicle : k'.scheduler.chronicle = .started id (k.rangeAt number) :: k.scheduler.chronicle
  signals : k'.signals = k.signals
  started : ∃ hardware, (hardware = k.scheduler.hardware ∨
      hardware = Hardware.readyDecisionStack k.scheduler.hardware) ∧
    Started { k.scheduler with hardware } (k.rangeAt number) (k.stackAt number).freshPointer id
      k'.scheduler

theorem setUp_eq_ok {stack stack' : Stack} {frame : Frame} {pointer : Address}
    (hok : stack.setUp frame = .ok (stack', pointer)) :
    frameWords ≤ stack.words.length ∧ pointer = stack.freshPointer := by
  unfold Stack.setUp at hok
  by_cases hle : frameWords ≤ stack.words.length
  · rw [Frame.placeOn_of_le frame hle] at hok
    exact ⟨hle, (Prod.mk.inj (Except.ok.inj hok)).2.symm⟩
  · rw [Frame.placeOn_eq_error_iff.mpr ⟨by omega, rfl⟩] at hok
    contradiction

theorem begun_of_start (hs : k.scheduler.Standing) {entry param : UInt32} {number : Nat}
    {progress : Progress Unit} (hok : k.start entry param number = .ok (k', progress)) :
    progress = .switchThen () ∧
      (k.scheduler.stackInUse (k.rangeAt number) = true ∧ k' = k ∨ ∃ id, Begun k number k' id) := by
  unfold start at hok
  dsimp only at hok
  split at hok
  · rename_i hused
    rw [pure_eq_ok, Prod.mk.injEq] at hok
    exact ⟨hok.2.symm, .inl ⟨hused, hok.1.symm⟩⟩
  · simp only [bind_eq_ok, Prod.exists] at hok
    obtain ⟨stack, pointer, hsetUp, scheduler, outcome, hspawn, hok⟩ := hok
    cases outcome with
    | error reason => contradiction
    | ok id =>
        rw [pure_eq_ok, Prod.mk.injEq] at hok
        obtain ⟨rfl, rfl⟩ := hok
        refine ⟨rfl, .inr ⟨id, ?_⟩⟩
        obtain ⟨hle, rfl⟩ := setUp_eq_ok hsetUp
        have hready := (alarmMoved k.scheduler
          (if k.scheduler.current.isNone then Hardware.readyDecisionStack k.scheduler.hardware
          else k.scheduler.hardware) k.scheduler.armed).standing hs
        have hchronicle := chronicle_spawn hspawn
        have hrange : stack.range = k.rangeAt number := Stack.range_setUp hsetUp
        rw [hrange] at hspawn hchronicle
        rcases hready.spawn hspawn with ⟨hrefused, _⟩ | ⟨id', hid, hstarted⟩
        · contradiction
        · obtain rfl := Except.ok.inj hid
          have hlt : number < k.memory.length := by
            by_cases hlt : number < k.memory.length
            · exact hlt
            · rw [stackAt, List.getElem?_eq_none (by omega)] at hle
              simp [frameWords] at hle
          refine ⟨hlt, hchronicle, rfl, _, ?_, hstarted⟩
          split
          · exact .inr rfl
          · exact .inl rfl

theorem Begun.passage {number : Nat} {id : TaskId} (h : Begun k number k' id)
    (hrange : k.rangeAt number ∈ arena) : Passage arena k.scheduler k'.scheduler := by
  obtain ⟨hardware, _, hstarted⟩ := h.started
  exact .began h.chronicle hrange hstarted

theorem ok_wake {id : TaskId} (hok : k.wake id = .ok k') :
    ∃ scheduler, k.scheduler.wake id = .ok scheduler ∧ k' = { k with scheduler } := by
  simp only [wake, bind_eq_ok, pure_eq_ok] at hok
  obtain ⟨scheduler, hwake, rfl⟩ := hok
  exact ⟨scheduler, hwake, rfl⟩

theorem ok_post {number : Nat} (hok : k.post number = .ok k') :
    ∃ signal scheduler, k.signals[number]? = some signal ∧
      k.scheduler.wakeWaiter signal.waiter = .ok scheduler ∧
      k' = { k with scheduler }.setSignal number signal.post.1 := by
  simp only [post, requireSignal, bind_eq_ok, demand_eq_ok, pure_eq_ok, Prod.exists] at hok
  obtain ⟨signal, hsignal, scheduler, signal', hpost, rfl⟩ := hok
  obtain ⟨hwake, rfl⟩ := post_eq_ok hpost
  exact ⟨signal, scheduler, hsignal, hwake, rfl⟩

theorem passage_of_wake (hs : k.scheduler.Standing) {id : TaskId} (hok : k.wake id = .ok k') :
    Passage arena k.scheduler k'.scheduler := by
  obtain ⟨scheduler, hwake, rfl⟩ := ok_wake hok
  obtain ⟨ids, hwakes⟩ := hs.wakes_of_wake hwake
  exact .lasted (chronicle_wake hwake) hwakes.lasts

theorem passage_of_post (hs : k.scheduler.Standing) {number : Nat} (hok : k.post number = .ok k') :
    Passage arena k.scheduler k'.scheduler := by
  obtain ⟨signal, scheduler, _, hwake, rfl⟩ := ok_post hok
  obtain ⟨ids, hwakes⟩ := hs.wakes_of_wakeWaiter hwake
  exact .lasted (chronicle_wakeWaiter hwake) hwakes.lasts

theorem passage_of_attempt (hs : k.scheduler.Standing) {call : Call}
    {progress : Progress call.Answer} (hok : k.attempt call = .ok (k', progress))
    (harena : ∀ entry param number, call = .start entry param number →
      number < k.memory.length → k.rangeAt number ∈ arena) :
    Passage arena k.scheduler k'.scheduler := by
  have same {t : Scheduler H} (ht : t = k.scheduler) : Passage arena k.scheduler t := by
    subst ht
    exact .lasted rfl (.refl _)
  cases call <;> simp only [attempt] at hok
  case start =>
      obtain ⟨_, ⟨_, rfl⟩ | ⟨id, hbegun⟩⟩ := begun_of_start hs hok
      · exact same rfl
      · exact hbegun.passage (harena _ _ _ rfl hbegun.number_lt)
  case exit =>
      simp only [exit, bind_eq_ok, pure_eq_ok, Prod.mk.injEq] at hok
      obtain ⟨scheduler, hmark, rfl, rfl⟩ := hok
      obtain ⟨id, hcurrent, _, hmoved⟩ := hs.markExiting hmark
      have hoccupied := hs.occupied_current hcurrent
      exact .lasted (chronicle_markExiting hmark)
        (hmoved.altered.lasts fun _ => hoccupied.lasts hoccupied rfl rfl rfl rfl)
  case sleepUntil =>
      simp only [sleepUntil, bind_eq_ok, pure_eq_ok, Prod.mk.injEq] at hok
      obtain ⟨scheduler, hmark, rfl, rfl⟩ := hok
      obtain ⟨id, _, _, _, hmoved⟩ := hs.markAsleep hmark
      exact .lasted (chronicle_markAsleep hmark)
        (hmoved.altered.lasts fun _ => TaskRecord.lasts_countSleep _ _)
  case wait =>
      simp only [wait, bind_eq_ok, pure_eq_ok, Prod.mk.injEq, Prod.exists] at hok
      obtain ⟨signal, _, scheduler, signal', result, hattempt, rfl, rfl⟩ := hok
      exact .lasted (chronicle_attemptWait hattempt) (hs.attemptWait hattempt).lasts
  case join =>
      simp only [join, bind_eq_ok, pure_eq_ok, Prod.mk.injEq, Prod.exists] at hok
      obtain ⟨target, _, scheduler, result, hattempt, rfl, rfl⟩ := hok
      obtain ⟨_, hjoinable, u, completion, hattempted, rfl⟩ := hs.attemptJoin hattempt
      have hmoved := (hattempted.standing hs).withCompletion hjoinable.index_lt completion
      have hlatched : completion.latched = (u.record target).completion.latched := by
        rw [hattempted.latched]
        exact (congrArg Signal.latched (hattempted.completion target.index)).symm
      have hcount : (u.record target).completion.count = 0 → completion.count = 0 := by
        rw [show (u.record target).completion = _ from hattempted.completion target.index]
        exact hattempted.uncounted
      exact .lasted (chronicle_attemptJoin hattempt) (hattempted.lasts.trans
        (hmoved.altered.lasts fun _ => TaskRecord.lasts_withCompletion _ hlatched hcount))
  case wake =>
      simp only [bind_eq_ok, pure_eq_ok, Prod.mk.injEq] at hok
      obtain ⟨kernel, hwake, rfl, _⟩ := hok
      exact passage_of_wake hs hwake
  case post =>
      simp only [bind_eq_ok, pure_eq_ok, Prod.mk.injEq] at hok
      obtain ⟨kernel, hpost, rfl, _⟩ := hok
      exact passage_of_post hs hpost
  case tryTake =>
      simp only [tryTake, bind_eq_ok, pure_eq_ok, Prod.mk.injEq, Prod.exists] at hok
      obtain ⟨kernel, taken, ⟨signal, _, rfl, _⟩, rfl, _⟩ := hok
      exact same rfl
  case tryJoin =>
      simp only [tryJoin, bind_eq_ok, pure_eq_ok, Prod.mk.injEq, Prod.exists] at hok
      obtain ⟨kernel, code, ⟨target, _, scheduler, code', htry, rfl, _⟩, rfl, _⟩ := hok
      obtain ⟨hjoinable, rfl, _⟩ := tryJoin_eq_ok htry
      exact .lasted rfl ((hs.withCompletion hjoinable.index_lt _).altered.lasts fun _ =>
        TaskRecord.lasts_withCompletion _ (Signal.latched_tryTake _) Signal.count_tryTake)
  case signalState =>
      simp only [bind_eq_ok, pure_eq_ok, Prod.mk.injEq] at hok
      obtain ⟨signal, _, rfl, _⟩ := hok
      exact same rfl
  all_goals
    obtain ⟨rfl, _⟩ := Prod.mk.inj (Except.ok.inj hok)
    exact same rfl

end Kernel

namespace World

open Scheduler

variable {H : Type} [Hardware H] {w w' : World H}

theorem Step.passage (h : Step w w') (hs : w.scheduler.Standing) :
    Passage w.kernel.ranges w.scheduler w'.scheduler := by
  cases h with
  | call _ _ hok =>
      exact Kernel.passage_of_attempt hs hok fun _ _ _ _ hlt => Kernel.rangeAt_mem hlt
  | wake hok => exact Kernel.passage_of_wake hs hok
  | post hok => exact Kernel.passage_of_post hs hok
  | alarm hok => exact hs.passage_of_handleAlarm hok
  | elapse => exact .lasted rfl (.refl _)
  | reschedule _ hok => exact hs.passage_of_reschedule hok
  | dispatch _ hok => exact hs.passage_of_dispatch hok

inductive Happened (w w' : World H) : Prop
  | called {call : Call} {progress : Progress call.Answer} :
      w.control = .executing →
      w.MayCall call →
      w.kernel.attempt call = .ok (w'.kernel, progress) →
      w'.control = progress.control →
      Happened w w'
  | interrupted {ids : List TaskId} :
      Wakes w.scheduler ids w'.scheduler →
      w'.control = w.control →
      Happened w w'
  | switched {pointer : Address} {decision : Decision} {id : TaskId} {rest woken : List TaskId}
      {u v x : Scheduler H} :
      w.control = .leaving →
      Switched w.scheduler pointer w'.scheduler decision id rest woken u v x →
      w'.control = decision.control →
      Happened w w'
  | dispatched {decision : Decision} :
      w.control = .idle →
      Dispatched w.scheduler w'.scheduler decision →
      w'.control = decision.control →
      Happened w w'

theorem Step.happened (h : Step w w') (hs : w.scheduler.Standing) : Happened w w' := by
  cases h with
  | call hexec hmay hok => exact .called hexec hmay hok rfl
  | wake hok =>
      obtain ⟨scheduler, hwake, rfl⟩ := Kernel.ok_wake hok
      obtain ⟨ids, hwakes⟩ := hs.wakes_of_wake hwake
      exact .interrupted hwakes rfl
  | post hok =>
      obtain ⟨signal, scheduler, _, hwake, rfl⟩ := Kernel.ok_post hok
      obtain ⟨ids, hwakes⟩ := hs.wakes_of_wakeWaiter hwake
      exact .interrupted hwakes rfl
  | alarm hok =>
      obtain ⟨ids, hwakes⟩ := hs.wakes_of_handleAlarm hok
      exact .interrupted hwakes rfl
  | @elapse hardware =>
      exact .interrupted (.nil (alarmMoved w.scheduler hardware w.scheduler.armed)) rfl
  | reschedule hleaving hok =>
      obtain ⟨id, rest, woken, u, v, x, hswitched⟩ := hs.reschedule hok
      exact .switched hleaving hswitched rfl
  | dispatch hidle hok => exact .dispatched hidle (hs.dispatch hok) rfl

theorem Reached.lived (h : Reached w) : w.scheduler.Lived := by
  induction h with
  | start hardware signals memory trampoline => exact lived_new hardware
  | step hreached hstep ih => exact (hstep.passage hreached.standing).lived ih

end World

end CoopTasks
