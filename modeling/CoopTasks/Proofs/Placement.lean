import CoopTasks.Queue.Lemmas
import CoopTasks.Scheduler.Lifecycle
import CoopTasks.Scheduler.Switch

/-!
Where tasks stand.

`s.Placed away run sleep` tells that the queues of `s` are in good order and
hold the tasks of two lists, and that every slot is in the queue that the state
of its task names.  An operation takes a task out of its queue before it puts
the task where it belongs; for the time between, `away` is the slot of the task
that stands nowhere.  The mainline follows rules of its own, so `away = 0`
means that nobody is away.

The operations on queues take `Placed` to `Placed`: `Placed.dequeue` and
`Placed.wakeSleeper` open a slot, `Placed.update_away` changes what is there,
and `Placed.enqueue`, `Placed.insert` and `Placed.close` put it back.
-/

namespace CoopTasks

namespace Scheduler

variable {H : Type}

/-! ## The invariant -/

structure Placed (s : Scheduler H) (away : Nat) (run sleep : List TaskId) : Prop where
  ready : s.ready.Represents s.tasks.cells run
  timers : s.timers.Represents s.tasks.cells sleep
  apart : ∀ a ∈ run, ∀ b ∈ sleep, a.index ≠ b.index
  linked : ∀ slot, s.tasks.cells.linked slot = true → ∃ id ∈ run ++ sleep, id.index = slot
  generation : ∀ id ∈ run ++ sleep, id.generation = (s.record id).generation
  queued : ∀ id ∈ run, id.index ≠ 0 →
    (s.record id).state = .ready ∨ (s.record id).state = .running
  asleep : ∀ id ∈ sleep, id.index ≠ 0 ∧ (s.record id).state = .sleeping
  behind : ∀ id ∈ run.tail, id.index ≠ 0
  unlinked : away ≠ 0 → s.tasks.cells.linked away = false
  gone : ∀ slot, slot ≠ 0 → slot ≠ away → s.tasks.cells.linked slot = false →
    (s.tasks.record slot).state = .vacant ∨ (s.tasks.record slot).state = .exited
  first : ∀ slot, slot ≠ 0 → slot ≠ away → (s.tasks.record slot).state = .running →
    ∃ id, run.head? = some id ∧ id.index = slot
  mainline : (s.tasks.record 0).generation = 0

namespace Placed

variable {s : Scheduler H} {away : Nat} {run sleep : List TaskId} {id : TaskId}

theorem runQueue_eq (h : s.Placed away run sleep) : s.runQueue = run :=
  h.ready.members_eq

theorem sleepers_eq (h : s.Placed away run sleep) : s.sleepers = sleep :=
  h.timers.members_eq

theorem ready_head (h : s.Placed away run sleep) : s.ready.head = run.head? :=
  h.ready.head_eq

theorem timers_head (h : s.Placed away run sleep) : s.timers.head = sleep.head? :=
  h.timers.head_eq

theorem index_lt (h : s.Placed away run sleep) (hid : id ∈ run ++ sleep) :
    id.index < slotCount := by
  rcases List.mem_append.mp hid with hid | hid
  · exact h.ready.index_lt hid
  · exact h.timers.index_lt hid

theorem linked_of_mem (h : s.Placed away run sleep) (hid : id ∈ run ++ sleep) :
    s.tasks.cells.linked id.index = true := by
  rcases List.mem_append.mp hid with hid | hid
  · exact h.ready.linked id hid
  · exact h.timers.linked id hid

theorem linked_iff (h : s.Placed away run sleep) (slot : Nat) :
    s.tasks.cells.linked slot = true ↔ ∃ id ∈ run ++ sleep, id.index = slot := by
  constructor
  · exact h.linked slot
  · rintro ⟨id, hid, rfl⟩
    exact h.linked_of_mem hid

theorem index_ne_away (h : s.Placed away run sleep) (haway : away ≠ 0)
    (hid : id ∈ run ++ sleep) : id.index ≠ away := by
  intro he
  have hlinked := h.linked_of_mem hid
  rw [he, h.unlinked haway] at hlinked
  contradiction

theorem mem_of_linked (h : s.Placed away run sleep)
    (hgeneration : id.generation = (s.record id).generation)
    (hlinked : s.tasks.cells.linked id.index = true) : id ∈ run ++ sleep := by
  obtain ⟨other, hother, hindex⟩ := h.linked id.index hlinked
  have hsame : other.generation = id.generation := by
    rw [h.generation other hother, hgeneration]
    unfold record
    rw [hindex]
  rwa [← TaskId.ext_of_index hindex hsame]

theorem linked_of_state (h : s.Placed 0 run sleep) {slot : Nat} (hslot : slot ≠ 0)
    (hvacant : (s.tasks.record slot).state ≠ .vacant)
    (hexited : (s.tasks.record slot).state ≠ .exited) : s.tasks.cells.linked slot = true := by
  cases hlinked : s.tasks.cells.linked slot with
  | true => rfl
  | false =>
      rcases h.gone slot hslot hslot hlinked with hstate | hstate
      · exact absurd hstate hvacant
      · exact absurd hstate hexited

theorem mem_sleep_of_sleeping (h : s.Placed 0 run sleep) (hid : id.index ≠ 0)
    (hgeneration : id.generation = (s.record id).generation)
    (hstate : (s.record id).state = .sleeping) : id ∈ sleep := by
  have hlinked : s.tasks.cells.linked id.index = true := by
    apply h.linked_of_state hid
    · intro he
      exact absurd (hstate.symm.trans he) (by decide)
    · intro he
      exact absurd (hstate.symm.trans he) (by decide)
  rcases List.mem_append.mp (h.mem_of_linked hgeneration hlinked) with hmem | hmem
  · rcases h.queued id hmem hid with he | he <;> rw [he] at hstate <;> contradiction
  · exact hmem

theorem mem_run_of_queued (h : s.Placed 0 run sleep) (hid : id.index ≠ 0)
    (hgeneration : id.generation = (s.record id).generation)
    (hstate : (s.record id).state = .ready ∨ (s.record id).state = .running) : id ∈ run := by
  have hlinked : s.tasks.cells.linked id.index = true := by
    apply h.linked_of_state hid
    · intro he
      unfold record at hstate
      rcases hstate with hstate | hstate <;> exact absurd (hstate.symm.trans he) (by decide)
    · intro he
      unfold record at hstate
      rcases hstate with hstate | hstate <;> exact absurd (hstate.symm.trans he) (by decide)
  rcases List.mem_append.mp (h.mem_of_linked hgeneration hlinked) with hmem | hmem
  · exact hmem
  · have := (h.asleep id hmem).2
    rcases hstate with he | he <;> rw [he] at this <;> contradiction

/-! ## Changes of records -/

theorem congr (h : s.Placed away run sleep) {t : Scheduler H} (hready : t.ready = s.ready)
    (htimers : t.timers = s.timers) (hcells : t.tasks.cells = s.tasks.cells)
    (hstate : ∀ slot, slot ≠ 0 → (t.tasks.record slot).state = (s.tasks.record slot).state)
    (hgeneration : ∀ slot, (t.tasks.record slot).generation = (s.tasks.record slot).generation) :
    t.Placed away run sleep where
  ready := by
    rw [hready, hcells]
    exact h.ready
  timers := by
    rw [htimers, hcells]
    exact h.timers
  apart := h.apart
  linked := by
    rw [hcells]
    exact h.linked
  generation := by
    intro id hid
    rw [h.generation id hid]
    exact (hgeneration id.index).symm
  queued := by
    intro id hid hindex
    unfold record
    rw [hstate id.index hindex]
    exact h.queued id hid hindex
  asleep := by
    intro id hid
    unfold record
    rw [hstate id.index (h.asleep id hid).1]
    exact h.asleep id hid
  behind := h.behind
  unlinked := by
    rw [hcells]
    exact h.unlinked
  gone := by
    intro slot hslot haway
    rw [hcells, hstate slot hslot]
    exact h.gone slot hslot haway
  first := by
    intro slot hslot haway
    rw [hstate slot hslot]
    exact h.first slot hslot haway
  mainline := by
    rw [hgeneration]
    exact h.mainline

theorem note (h : s.Placed away run sleep) (notice : Notice) :
    (s.note notice).Placed away run sleep :=
  h.congr rfl rfl rfl (fun _ _ => rfl) fun _ => rfl

theorem update_away (h : s.Placed away run sleep) (haway : away ≠ 0) (hid : id.index = away)
    (change : TaskRecord → TaskRecord) : (s.update id change).Placed away run sleep := by
  have hrecord : ∀ slot, slot ≠ away →
      (s.update id change).tasks.record slot = s.tasks.record slot := by
    intro slot hslot
    apply TaskTable.record_update_ne
    rwa [hid]
  have hmember : ∀ m ∈ run ++ sleep, (s.update id change).record m = s.record m := by
    intro m hm
    exact hrecord m.index (h.index_ne_away haway hm)
  refine ⟨h.ready, h.timers, h.apart, h.linked, ?generation, ?queued, ?asleep, h.behind, h.unlinked,
    ?gone, ?first, ?mainline⟩
  case generation =>
    intro m hm
    rw [hmember m hm]
    exact h.generation m hm
  case queued =>
    intro m hm
    rw [hmember m (List.mem_append_left _ hm)]
    exact h.queued m hm
  case asleep =>
    intro m hm
    rw [hmember m (List.mem_append_right _ hm)]
    exact h.asleep m hm
  case gone =>
    intro slot hslot hne
    rw [hrecord slot hne]
    exact h.gone slot hslot hne
  case first =>
    intro slot hslot hne
    rw [hrecord slot hne]
    exact h.first slot hslot hne
  case mainline =>
    rw [hrecord 0 (Ne.symm haway)]
    exact h.mainline

/-! ## Opening and closing a slot -/

theorem close (h : s.Placed away run sleep)
    (hstate : (s.tasks.record away).state = .vacant ∨ (s.tasks.record away).state = .exited) :
    s.Placed 0 run sleep where
  ready := h.ready
  timers := h.timers
  apart := h.apart
  linked := h.linked
  generation := h.generation
  queued := h.queued
  asleep := h.asleep
  behind := h.behind
  unlinked := by simp
  gone := by
    intro slot hslot _ hlinked
    by_cases haway : slot = away
    · rw [haway]
      exact hstate
    · exact h.gone slot hslot haway hlinked
  first := by
    intro slot hslot _ hrunning
    by_cases haway : slot = away
    · rw [haway] at hrunning
      rcases hstate with he | he <;> rw [he] at hrunning <;> contradiction
    · exact h.first slot hslot haway hrunning
  mainline := h.mainline

theorem dequeue (h : s.Placed 0 (id :: run) sleep) :
    ∃ q, s.ready.dequeue s.tasks.cells = (q, s.tasks.cells.vacate id, some id) ∧
      Placed { s with ready := q, tasks := { s.tasks with cells := s.tasks.cells.vacate id } }
        id.index run sleep := by
  obtain ⟨q, hok, hrun⟩ := h.ready.dequeue
  refine ⟨q, hok, hrun, ?timers, ?apart, ?linked, ?generation, ?queued, h.asleep, ?behind,
    ?unlinked, ?gone, ?first, h.mainline⟩
  case timers =>
    apply h.timers.congr
    intro m hm
    exact Cells.getElem?_vacate_ne _ _ (Ne.symm (h.apart id List.mem_cons_self m hm))
  case apart =>
    intro a ha
    exact h.apart a (List.mem_cons_of_mem id ha)
  case linked =>
    intro slot hslot
    simp only [Cells.linked_vacate, Bool.and_eq_true, bne_iff_ne] at hslot
    obtain ⟨other, hother, hindex⟩ := h.linked slot hslot.1
    refine ⟨other, ?_, hindex⟩
    rw [List.cons_append, List.mem_cons] at hother
    rcases hother with rfl | hother
    · exact absurd hindex.symm hslot.2
    · exact hother
  case generation =>
    intro m hm
    exact h.generation m (List.mem_cons_of_mem id hm)
  case queued =>
    intro m hm
    exact h.queued m (List.mem_cons_of_mem id hm)
  case behind =>
    intro m hm
    exact h.behind m (List.mem_of_mem_tail hm)
  case unlinked =>
    intro _
    simp [Cells.linked_vacate]
  case gone =>
    intro slot hslot hne hlinked
    apply h.gone slot hslot hslot
    simp only [Cells.linked_vacate, Bool.and_eq_false_iff, bne_eq_false_iff_eq] at hlinked
    rcases hlinked with hlinked | he
    · exact hlinked
    · exact absurd he hne
  case first =>
    intro slot hslot hne hrunning
    obtain ⟨m, hhead, hindex⟩ := h.first slot hslot hslot hrunning
    rw [List.head?_cons, Option.some.injEq] at hhead
    subst hhead
    exact absurd hindex.symm hne

theorem enqueue (h : s.Placed away run sleep) (haway : away ≠ 0) (hid : id.index = away)
    (hlt : id.index < slotCount) (hgeneration : id.generation = (s.record id).generation)
    (hstate : (s.record id).state = .ready) :
    ∃ q cells, s.enqueue id = .ok { s with ready := q, tasks := { s.tasks with cells } } ∧
      Placed { s with ready := q, tasks := { s.tasks with cells } } 0 (run ++ [id]) sleep := by
  have hfree : s.tasks.cells.linked id.index = false := by
    rw [hid]
    exact h.unlinked haway
  obtain ⟨q, cells, hok, hrun, hlinked, hframe⟩ := h.ready.enqueue hlt hfree
  refine ⟨q, cells, ?enqueued, hrun, ?timers, ?apart, ?linked, ?generation, ?queued, h.asleep,
    ?behind, by simp, ?gone, ?first, h.mainline⟩
  case enqueued =>
    simp [Scheduler.enqueue, hok, bind, Except.bind, pure, Except.pure]
  case timers =>
    apply h.timers.congr
    intro m hm
    apply hframe
    · exact h.timers.index_ne_of_free hfree hm
    · intro a ha
      exact h.apart a ha m hm
  case apart =>
    intro a ha b hb
    rcases List.mem_append.mp ha with ha | ha
    · exact h.apart a ha b hb
    · rw [List.mem_singleton] at ha
      rw [ha]
      exact Ne.symm (h.timers.index_ne_of_free hfree hb)
  case linked =>
    intro slot hslot
    simp only [hlinked, Bool.or_eq_true, beq_iff_eq] at hslot
    rcases hslot with hslot | rfl
    · obtain ⟨other, hother, hindex⟩ := h.linked slot hslot
      refine ⟨other, ?_, hindex⟩
      simp only [List.mem_append] at hother ⊢
      rcases hother with hother | hother
      · exact .inl (.inl hother)
      · exact .inr hother
    · exact ⟨id, by simp, rfl⟩
  case generation =>
    intro m hm
    simp only [List.mem_append, List.mem_singleton] at hm
    rcases hm with (hm | rfl) | hm
    · exact h.generation m (List.mem_append_left _ hm)
    · exact hgeneration
    · exact h.generation m (List.mem_append_right _ hm)
  case queued =>
    intro m hm hindex
    rcases List.mem_append.mp hm with hm | hm
    · exact h.queued m hm hindex
    · rw [List.mem_singleton] at hm
      rw [hm]
      exact .inl hstate
  case behind =>
    intro m hm
    cases run with
    | nil => simp at hm
    | cons first rest =>
        rw [List.cons_append, List.tail_cons, List.mem_append, List.mem_singleton] at hm
        rcases hm with hm | rfl
        · exact h.behind m hm
        · rwa [hid]
  case gone =>
    intro slot hslot _ hunlinked
    simp only [hlinked, Bool.or_eq_false_iff, beq_eq_false_iff_ne] at hunlinked
    apply h.gone slot hslot _ hunlinked.1
    rw [← hid]
    exact hunlinked.2
  case first =>
    intro slot hslot _ hrunning
    by_cases he : slot = away
    · have hready : (s.tasks.record slot).state = .ready := by
        rw [he, ← hid]
        exact hstate
      exact absurd (hrunning.symm.trans hready) (by decide)
    · obtain ⟨m, hhead, hindex⟩ := h.first slot hslot he hrunning
      refine ⟨m, ?_, hindex⟩
      rw [List.head?_append, hhead, Option.some_or]

theorem join_sleepers (h : s.Placed away run sleep) (haway : away ≠ 0) (hid : id.index = away)
    (hgeneration : id.generation = (s.record id).generation)
    (hstate : (s.record id).state = .sleeping) {q : TaskQueue} {cells : Cells slotCount}
    {sleep' : List TaskId} (hrep : q.Represents cells sleep') (hperm : sleep'.Perm (id :: sleep))
    (hlinked : ∀ slot, cells.linked slot = (s.tasks.cells.linked slot || slot == id.index))
    (hframe : ∀ slot, slot ≠ id.index → (∀ m ∈ sleep, m.index ≠ slot) →
      cells[slot]? = s.tasks.cells[slot]?) :
    Placed { s with timers := q, tasks := { s.tasks with cells } } 0 run sleep' := by
  have hfree : s.tasks.cells.linked id.index = false := by
    rw [hid]
    exact h.unlinked haway
  have hmem : ∀ m, m ∈ sleep' ↔ m = id ∨ m ∈ sleep := by
    intro m
    rw [hperm.mem_iff, List.mem_cons]
  refine ⟨?ready, hrep, ?apart, ?linked, ?generation, h.queued, ?asleep, h.behind, by simp, ?gone,
    ?first, h.mainline⟩
  case ready =>
    apply h.ready.congr
    intro m hm
    apply hframe
    · exact h.ready.index_ne_of_free hfree hm
    · intro b hb
      exact Ne.symm (h.apart m hm b hb)
  case apart =>
    intro a ha b hb
    rcases (hmem b).mp hb with rfl | hb
    · exact h.ready.index_ne_of_free hfree ha
    · exact h.apart a ha b hb
  case linked =>
    intro slot hslot
    simp only [hlinked, Bool.or_eq_true, beq_iff_eq] at hslot
    rcases hslot with hslot | rfl
    · obtain ⟨other, hother, hindex⟩ := h.linked slot hslot
      refine ⟨other, ?_, hindex⟩
      simp only [List.mem_append, hmem] at hother ⊢
      rcases hother with hother | hother
      · exact .inl hother
      · exact .inr (.inr hother)
    · exact ⟨id, by simp [hmem], rfl⟩
  case generation =>
    intro m hm
    simp only [List.mem_append, hmem] at hm
    rcases hm with hm | rfl | hm
    · exact h.generation m (List.mem_append_left _ hm)
    · exact hgeneration
    · exact h.generation m (List.mem_append_right _ hm)
  case asleep =>
    intro m hm
    rcases (hmem m).mp hm with rfl | hm
    · refine ⟨?_, hstate⟩
      rwa [hid]
    · exact h.asleep m hm
  case gone =>
    intro slot hslot _ hunlinked
    simp only [hlinked, Bool.or_eq_false_iff, beq_eq_false_iff_ne] at hunlinked
    apply h.gone slot hslot _ hunlinked.1
    rw [← hid]
    exact hunlinked.2
  case first =>
    intro slot hslot _ hrunning
    by_cases he : slot = away
    · have hsleeping : (s.tasks.record slot).state = .sleeping := by
        rw [he, ← hid]
        exact hstate
      exact absurd (hrunning.symm.trans hsleeping) (by decide)
    · exact h.first slot hslot he hrunning

theorem erase_sleeper (h : s.Placed 0 run sleep) (hid : id ∈ sleep) :
    ∃ q cells, s.timers.erase s.tasks.cells id = (q, cells, true) ∧
      Placed { s with timers := q, tasks := { s.tasks with cells } } id.index run
        (sleep.erase id) := by
  obtain ⟨q, cells, hok, hrep, hlinked, hframe⟩ := h.timers.erase hid
  have hmem : ∀ m ∈ sleep, m.index ≠ id.index → m ∈ sleep.erase id := by
    intro m hm hne
    refine (List.mem_erase_of_ne ?_).mpr hm
    rintro rfl
    exact hne rfl
  refine ⟨q, cells, hok, ?ready, hrep, ?apart, ?linked, ?generation, h.queued, ?asleep, h.behind,
    ?unlinked, ?gone, ?first, h.mainline⟩
  case ready =>
    apply h.ready.congr
    intro m hm
    apply hframe
    · exact h.apart m hm id hid
    · intro b hb
      exact Ne.symm (h.apart m hm b hb)
  case apart =>
    intro a ha b hb
    exact h.apart a ha b (List.mem_of_mem_erase hb)
  case linked =>
    intro slot hslot
    simp only [hlinked, Bool.and_eq_true, bne_iff_ne] at hslot
    obtain ⟨other, hother, hindex⟩ := h.linked slot hslot.1
    refine ⟨other, ?_, hindex⟩
    rcases List.mem_append.mp hother with hother | hother
    · exact List.mem_append_left _ hother
    · apply List.mem_append_right
      apply hmem other hother
      rw [hindex]
      exact hslot.2
  case generation =>
    intro m hm
    apply h.generation m
    rcases List.mem_append.mp hm with hm | hm
    · exact List.mem_append_left _ hm
    · exact List.mem_append_right _ (List.mem_of_mem_erase hm)
  case asleep =>
    intro m hm
    exact h.asleep m (List.mem_of_mem_erase hm)
  case unlinked =>
    intro _
    simp [hlinked]
  case gone =>
    intro slot hslot hne hunlinked
    apply h.gone slot hslot hslot
    simp only [hlinked, Bool.and_eq_false_iff, bne_eq_false_iff_eq] at hunlinked
    rcases hunlinked with hunlinked | he
    · exact hunlinked
    · exact absurd he hne
  case first =>
    intro slot hslot _ hrunning
    exact h.first slot hslot hslot hrunning

theorem prepend_mainline (h : s.Placed 0 [] sleep) :
    ∃ q cells, s.ready.prepend s.tasks.cells .mainline = .ok (q, cells) ∧
      Placed { s with ready := q, tasks := { s.tasks with cells } } 0 [.mainline] sleep := by
  have hindex : TaskId.mainline.index = 0 := rfl
  have hfree : s.tasks.cells.linked TaskId.mainline.index = false := by
    cases hlinked : s.tasks.cells.linked TaskId.mainline.index with
    | false => rfl
    | true =>
        obtain ⟨m, hm, he⟩ := h.linked _ hlinked
        rw [List.nil_append] at hm
        exact absurd he (h.asleep m hm).1
  have hlt : TaskId.mainline.index < slotCount := by
    rw [hindex]
    decide
  obtain ⟨q, cells, hok, hrep, hlinked, hframe⟩ := h.ready.prepend hlt hfree
  refine ⟨q, cells, hok, hrep, ?timers, ?apart, ?linked, ?generation, ?queued, h.asleep, by simp,
    by simp, ?gone, ?first, h.mainline⟩
  case timers =>
    apply h.timers.congr
    intro m hm
    exact hframe _ (h.asleep m hm).1
  case apart =>
    intro a ha b hb
    rw [List.mem_singleton] at ha
    rw [ha]
    exact Ne.symm (h.asleep b hb).1
  case linked =>
    intro slot hslot
    simp only [hlinked, Bool.or_eq_true, beq_iff_eq] at hslot
    rcases hslot with hslot | rfl
    · obtain ⟨other, hother, he⟩ := h.linked slot hslot
      exact ⟨other, List.mem_append_right _ hother, he⟩
    · exact ⟨.mainline, by simp, rfl⟩
  case generation =>
    intro m hm
    rw [List.singleton_append, List.mem_cons] at hm
    rcases hm with rfl | hm
    · exact h.mainline.symm
    · exact h.generation m hm
  case queued =>
    intro m hm hne
    rw [List.mem_singleton] at hm
    rw [hm] at hne
    exact absurd hindex hne
  case gone =>
    intro slot hslot _ hunlinked
    simp only [hlinked, Bool.or_eq_false_iff] at hunlinked
    exact h.gone slot hslot hslot hunlinked.1
  case first =>
    intro slot hslot _ hrunning
    obtain ⟨m, hhead, _⟩ := h.first slot hslot hslot hrunning
    simp at hhead

end Placed

/-- Every task stands where it belongs. -/
def Standing (s : Scheduler H) : Prop :=
  s.Placed 0 s.runQueue s.sleepers

theorem Placed.standing {s : Scheduler H} {run sleep : List TaskId}
    (h : s.Placed 0 run sleep) : s.Standing := by
  unfold Standing
  rw [h.runQueue_eq, h.sleepers_eq]
  exact h

theorem placed_new (hardware : H) : (new hardware).Placed 0 [] [] := by
  have hlinked : ∀ slot, (new hardware).tasks.cells.linked slot = false := by
    intro slot
    simp only [new, TaskTable.vacant, Cells.linked, Cells.free, Vector.getElem?_replicate]
    split <;> rfl
  have hrecord : ∀ slot, (new hardware).tasks.record slot = TaskRecord.vacant :=
    TaskTable.record_vacant
  refine ⟨.empty _, .empty _, by simp, ?linked, by simp, by simp, by simp, by simp, by simp, ?gone,
    ?first, ?mainline⟩
  case linked =>
    intro slot hslot
    rw [hlinked] at hslot
    contradiction
  case gone =>
    intro slot _ _ _
    rw [hrecord]
    exact .inl rfl
  case first =>
    intro slot _ _ hrunning
    rw [hrecord] at hrunning
    contradiction
  case mainline =>
    rw [hrecord]
    rfl

theorem standing_new (hardware : H) : (new hardware).Standing :=
  (placed_new hardware).standing

end Scheduler

end CoopTasks
