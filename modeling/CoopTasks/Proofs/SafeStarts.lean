import CoopTasks.Proofs.SafeSwitches

/-!
Starts that cannot fail.

As long as no more stacks are used than there are slots for tasks, every stack
keeps the slot of its first task: `Scheduler.Housed`.  A start then finds the
slot of its stack or one that has never been used, and no task that was started
on a stack is ever lost sight of.
-/

namespace CoopTasks

/-! ## Stacks with room for a task -/

/-- A stack that does not begin at address zero, with the room of a proper one. -/
structure StackRange.Usable (range : StackRange) : Prop where
  bottom : range.bottom ≠ 0
  room : range.bottom.toNat + 4 * (leastStackWords + guardedWords) ≤ range.top.toNat

namespace Stack

variable {stack : Stack}

theorem frameWords_le (h : stack.range.Usable) : frameWords ≤ stack.words.length := by
  have hroom := h.room
  have hfour : (4 : UInt64).toNat = 4 := rfl
  have hleast : leastStackWords + guardedWords = 72 := rfl
  have hframe : frameWords = 14 := rfl
  simp only [range, UInt64.toNat_add, UInt64.toNat_mul, UInt64.toNat_ofNat', hfour, hleast] at hroom
  omega

theorem holds_freshPointer (h : stack.range.Usable) :
    stack.range.holds stack.freshPointer = true := by
  have hwords := frameWords_le h
  have hroom := h.room
  have hfour : (4 : UInt64).toNat = 4 := rfl
  have hleast : leastStackWords + guardedWords = 72 := rfl
  have hframe : frameWords = 14 := rfl
  rw [StackRange.holds_iff]
  simp only [range, freshPointer, UInt64.toNat_add, UInt64.toNat_mul, UInt64.toNat_ofNat', hfour,
    hleast, hframe] at hroom hwords ⊢
  omega

theorem setUp_usable (h : stack.range.Usable) (frame : Frame) :
    ∃ stack', stack.setUp frame = .ok (stack', stack.freshPointer) := by
  unfold setUp
  rw [Frame.placeOn_of_le frame (frameWords_le h)]
  exact ⟨_, rfl⟩

end Stack

namespace Scheduler

variable {H : Type} {s t : Scheduler H} {id : TaskId} {stack : StackRange} {slot : Nat}
variable {arena : List StackRange}

theorem boundTo_eq_true :
    s.boundTo stack slot = true ↔
      (s.tasks.record slot).state ≠ .vacant ∧ (s.tasks.record slot).stack = stack := by
  unfold boundTo
  rw [decide_eq_true_iff]

theorem boundTo_congr (h : t.tasks.record slot = s.tasks.record slot) (stack : StackRange) :
    t.boundTo stack slot = s.boundTo stack slot := by
  unfold boundTo
  rw [h]

theorem boundTo_of_taskOn_none (h : s.taskOn stack = none) (hslot : slot ∈ slots) :
    s.boundTo stack slot = false := by
  unfold taskOn at h
  rw [Option.map_eq_none_iff, List.find?_eq_none] at h
  exact Bool.eq_false_iff.mpr (h slot hslot)

theorem taskOn_of_only
    (honly : ∀ a ∈ slots, ∀ b ∈ slots, s.boundTo stack a = true → s.boundTo stack b = true → a = b)
    (hslot : slot ∈ slots) (hbound : s.boundTo stack slot = true) :
    s.taskOn stack = some (s.idOf slot) := by
  cases htask : s.taskOn stack with
  | none =>
      rw [boundTo_of_taskOn_none htask hslot] at hbound
      contradiction
  | some id =>
      obtain ⟨hmem, hother, hidOf⟩ := taskOn_eq_some htask
      rw [← hidOf, honly slot hslot id.index hmem hbound hother]

/--
The tasks are on stacks of an arena, no two slots have the same stack, and
every stack that a task was started on has one.
-/
structure Housed (arena : List StackRange) (s : Scheduler H) : Prop where
  inArena : ∀ slot ∈ slots, (s.tasks.record slot).state ≠ .vacant →
    (s.tasks.record slot).stack ∈ arena
  only : ∀ stack, ∀ a ∈ slots, ∀ b ∈ slots,
    s.boundTo stack a = true → s.boundTo stack b = true → a = b
  kept : ∀ id stack, .started id stack ∈ s.chronicle →
    ∃ slot ∈ slots, s.boundTo stack slot = true

theorem housed_new (hardware : H) : (new hardware).Housed arena := by
  have hvacant : ∀ slot, ((new hardware).tasks.record slot).state = .vacant :=
    fun slot => congrArg TaskRecord.state (TaskTable.record_vacant slot)
  refine ⟨fun slot _ hused => absurd (hvacant slot) hused, ?_, ?_⟩
  · intro stack a _ b _ ha
    exact absurd (hvacant a) (boundTo_eq_true.mp ha).1
  · intro id stack hstarted
    simp [chronicle, new] at hstarted

theorem Housed.taskOn (h : s.Housed arena) (hstarted : .started id stack ∈ s.chronicle) :
    ∃ target, s.taskOn stack = some target := by
  cases htask : s.taskOn stack with
  | some target => exact ⟨target, rfl⟩
  | none =>
      obtain ⟨slot, hslot, hbound⟩ := h.kept id stack hstarted
      rw [boundTo_of_taskOn_none htask hslot] at hbound
      contradiction

theorem Housed.exists_vacant (h : s.Housed arena) (hcount : arena.length < slotCount)
    (hstack : stack ∈ arena) (hnew : ∀ slot ∈ slots, s.boundTo stack slot = false) :
    ∃ slot ∈ slots, (s.tasks.record slot).state = .vacant := by
  apply Classical.byContradiction
  intro hnone
  have hused : ∀ slot ∈ slots, (s.tasks.record slot).state ≠ .vacant :=
    fun slot hslot hvacant => hnone ⟨slot, hslot, hvacant⟩
  have hnodup : (stack :: slots.map fun slot => (s.tasks.record slot).stack).Nodup := by
    rw [List.nodup_cons]
    constructor
    · intro hmem
      obtain ⟨slot, hslot, rfl⟩ := List.mem_map.mp hmem
      have hbound := boundTo_eq_true.mpr ⟨hused slot hslot, rfl⟩
      rw [hnew slot hslot] at hbound
      contradiction
    · have hslots : slots.Nodup := by decide
      apply List.pairwise_map.mpr
      refine hslots.imp_of_mem fun ha hb hne he => hne ?_
      exact h.only _ _ ha _ hb (boundTo_eq_true.mpr ⟨hused _ ha, he⟩)
        (boundTo_eq_true.mpr ⟨hused _ hb, rfl⟩)
  have hsubset : (stack :: slots.map fun slot => (s.tasks.record slot).stack) ⊆ arena := by
    intro range hrange
    rcases List.mem_cons.mp hrange with rfl | hrange
    · exact hstack
    · obtain ⟨slot, hslot, rfl⟩ := List.mem_map.mp hrange
      exact h.inArena slot hslot (hused slot hslot)
  have hle := hnodup.length_le_of_subset hsubset
  rw [List.length_cons, List.length_map, show slots.length = 15 from rfl] at hle
  have hslotCount : slotCount = 16 := rfl
  omega

theorem Housed.chosen (h : s.Housed arena) (hcount : arena.length < slotCount)
    (hstack : stack ∈ arena) :
    ∃ slot ∈ slots, s.chooseSlot stack = some slot ∧ (s.boundTo stack slot = true ∨
      (s.tasks.record slot).state = .vacant ∧ ∀ other ∈ slots, s.boundTo stack other = false) := by
  unfold chooseSlot
  cases htask : s.taskOn stack with
  | some id =>
      obtain ⟨hslot, hbound, _⟩ := taskOn_eq_some htask
      exact ⟨id.index, hslot, rfl, .inl hbound⟩
  | none =>
      have hnew : ∀ slot ∈ slots, s.boundTo stack slot = false :=
        fun slot hslot => boundTo_of_taskOn_none htask hslot
      cases hfind : slots.find? fun slot => (s.tasks.record slot).state = .vacant with
      | some slot =>
          have hvacant := List.find?_some hfind
          rw [decide_eq_true_iff] at hvacant
          exact ⟨slot, List.mem_of_find?_eq_some hfind, rfl, .inr ⟨hvacant, hnew⟩⟩
      | none =>
          obtain ⟨slot, hslot, hvacant⟩ := h.exists_vacant hcount hstack hnew
          have hused := List.find?_eq_none.mp hfind slot hslot
          rw [decide_eq_true_iff] at hused
          exact absurd hvacant hused

theorem Bound.housed (h : Bound s t) (hs : s.Housed arena)
    (hstarted : ∀ id stack, .started id stack ∈ t.chronicle ↔ .started id stack ∈ s.chronicle) :
    t.Housed arena := by
  have hbound : ∀ stack, ∀ slot ∈ slots, t.boundTo stack slot = s.boundTo stack slot :=
    fun stack slot hslot => h.boundTo stack hslot
  constructor
  case inArena =>
    intro slot hslot hvacant
    obtain ⟨hstack, _, hiff⟩ := h slot hslot
    rw [hstack]
    exact hs.inArena slot hslot (mt hiff.mpr hvacant)
  case only =>
    intro stack a ha b hb
    rw [hbound stack a ha, hbound stack b hb]
    exact hs.only stack a ha b hb
  case kept =>
    intro id stack hmem
    obtain ⟨slot, hslot, hslotBound⟩ := hs.kept id stack ((hstarted id stack).mp hmem)
    exact ⟨slot, hslot, (hbound stack slot hslot).trans hslotBound⟩

section Starting

variable [Hardware H]

theorem Started.housed {hardware : H} {pointer : Address}
    (h : Started { s with hardware } stack pointer id t) (hs : s.Housed arena)
    (hcount : arena.length < slotCount)
    (hstack : stack ∈ arena) (hchronicle : t.chronicle = .started id stack :: s.chronicle) :
    t.Housed arena := by
  obtain ⟨slot, _, hchosen, hbefore⟩ := hs.chosen hcount hstack
  obtain rfl := Option.some.inj (hchosen.symm.trans h.chosen)
  have hslot : id.index ∈ slots := Scheduler.mem_slots.mpr h.mem_slots
  have hself : ∀ other, t.boundTo other id.index = true ↔ other = stack := by
    intro other
    rw [boundTo_eq_true, show t.tasks.record id.index = _ from h.self]
    exact ⟨fun hbound => hbound.2.symm, fun he => ⟨by simp [startedRecord, TaskRecord.started],
      he.symm⟩⟩
  have hother : ∀ other, ∀ slot ∈ slots, slot ≠ id.index →
      t.boundTo other slot = s.boundTo other slot := fun other slot hmem hne =>
    boundTo_congr (h.record_other hmem hne) other
  have honly : ∀ slot ∈ slots, slot ≠ id.index → s.boundTo stack slot = false := by
    intro slot hmem hne
    rcases hbefore with hbound | ⟨_, hnew⟩
    · exact Bool.eq_false_iff.mpr fun he => hne (hs.only stack slot hmem id.index hslot he hbound)
    · exact hnew slot hmem
  constructor
  case inArena =>
    intro slot hmem hvacant
    by_cases hne : slot = id.index
    · subst hne
      rw [show t.tasks.record id.index = _ from h.self]
      exact hstack
    · rw [h.record_other hmem hne] at hvacant ⊢
      exact hs.inArena slot hmem hvacant
  case only =>
    intro other
    refine only_of_changed id.index (hs.only other) ?_ ?_
    · intro slot hmem hne hbound
      rwa [← hother other slot hmem hne]
    · intro hbound slot hmem hne
      obtain rfl := (hself other).mp hbound
      rw [hother _ slot hmem hne, honly slot hmem hne]
      exact Bool.false_ne_true
  case kept =>
    intro first other hmem
    rw [hchronicle] at hmem
    rcases List.mem_cons.mp hmem with he | hmem
    · obtain ⟨rfl, rfl⟩ := Notice.started.inj he
      exact ⟨first.index, hslot, (hself other).mpr rfl⟩
    · obtain ⟨slot, hmemSlot, hbound⟩ := hs.kept first other hmem
      by_cases hne : slot = id.index
      · subst hne
        refine ⟨id.index, hslot, (hself other).mpr ?_⟩
        obtain ⟨hused, rfl⟩ := boundTo_eq_true.mp hbound
        rcases hbefore with hsame | ⟨hvacant, _⟩
        · exact (boundTo_eq_true.mp hsame).2
        · exact absurd hvacant hused
      · exact ⟨slot, hmemSlot, (hother other slot hmemSlot hne).trans hbound⟩

theorem Passage.housed (h : Passage arena s t) (hs : s.Housed arena)
    (hcount : arena.length < slotCount) : t.Housed arena := by
  rcases h.bound with ⟨hbound, hstarted⟩ | ⟨_, _, _, _, hchronicle, hstack, hstarted⟩
  · exact hbound.housed hs hstarted
  · exact hstarted.housed hs hcount hstack hchronicle

/-! ## The start of a task -/

omit [Hardware H] in
theorem Standing.unlinked (h : s.Standing) (hslot : slot ∈ slots) (hgone : ¬s.Occupied slot) :
    s.tasks.cells.linked slot = false := by
  rw [Bool.eq_false_iff]
  intro hlinked
  obtain ⟨id, hid, rfl⟩ := Placed.linked_iff h slot |>.mp hlinked
  rcases List.mem_append.mp hid with hrun | hsleep
  · exact hgone (h.occupied hrun (Scheduler.mem_slots.mp hslot).1)
  · exact hgone (occupied_of_state (h.asleep id hsleep).2 (by decide))

end Starting

section Steady

open GuardingHardware SteadyHardware

variable [SteadyHardware H] {awaited awaited' : Nat → Prop} {pointer : Address} {hardware : H}

theorem FaultFree.spawn (h : s.FaultFree awaited) (hs : s.Standing) (hhoused : s.Housed arena)
    (hcount : arena.length < slotCount) (hstack : stack ∈ arena)
    (hunused : s.stackInUse stack = false) (pointer : Address) :
    ∃ t id, s.spawn stack pointer = .ok (t, .ok id) ∧ Started s stack pointer id t := by
  obtain ⟨slot, hslot, hchosen, hbefore⟩ := hhoused.chosen hcount hstack
  refine hs.spawn_chosen hunused hchosen (hs.unlinked hslot ?_)
  rcases hbefore with hbound | ⟨hvacant, _⟩
  · intro hoccupied
    have hlive := (h.tasks slot hslot).live hoccupied
    have htask := taskOn_of_only (hhoused.only stack) hslot hbound
    unfold stackInUse at hunused
    rw [htask, Option.any_some, s.record_idOf (Scheduler.mem_slots.mp hslot).2, hlive] at hunused
    contradiction
  · exact fun hoccupied => hoccupied.1 hvacant

theorem FaultFree.began (h : s.FaultFree awaited)
    (hstarted : Started { s with hardware } stack pointer id t)
    (hhardware : Hardware.Onward s.hardware hardware) (hlive : stack.holds pointer = true)
    (hself : ¬awaited' id.index)
    (hothers : ∀ slot ∈ slots, slot ≠ id.index → awaited' slot → awaited slot) :
    t.FaultFree awaited' := by
  have hother : ∀ slot ∈ slots, slot ≠ id.index → t.tasks.record slot = s.tasks.record slot :=
    fun _ hslot hne => hstarted.record_other hslot hne
  have hrecord : t.tasks.record id.index =
      Scheduler.startedRecord { s with hardware } stack pointer := hstarted.self
  have honward : Hardware.Onward s.hardware t.hardware := by
    rw [hstarted.hardware]
    exact hhardware.trans (guardStack_onward hardware stack)
  obtain ⟨hgranted, hunshared⟩ := (h.secured.onward (t := { s with hardware }) (fun _ => rfl)
    hhardware).given hstarted.guardAt hstarted.hardware
  refine ⟨?tasks, ?busy, ?resumed, hgranted, hunshared⟩
  case tasks =>
    intro slot hslot
    by_cases hne : slot = id.index
    · subst hne
      rw [hrecord]
      exact ⟨.inl rfl, nofun, fun _ => hlive, nofun, fun hawaited => absurd hawaited hself⟩
    · rw [hother slot hslot hne]
      exact (h.tasks slot hslot).mono (hothers slot hslot hne)
  case busy =>
    intro slot
    rw [hstarted.resumedAt]
    by_cases hne : slot = id.index
    · subst hne
      rw [hrecord]
      exact Nat.zero_le _
    · by_cases hzero : slot = 0
      · subst hzero
        rw [show (t.tasks.record 0).busyTime = (s.tasks.record 0).busyTime from ?_]
        · exact h.busy 0
        · refine (congrArg TaskRecord.busyTime hstarted.mainline).trans ?_
          split <;> rfl
      · rw [hstarted.other slot hzero hne]
        exact h.busy slot
  case resumed =>
    rw [hstarted.resumedAt]
    exact Instant.le_trans h.resumed honward.now_le

end Steady

end Scheduler

namespace Kernel

open Scheduler

variable {H : Type} [SteadyHardware H] {k : Kernel H} {awaited : Nat → Prop}
variable {arena : List StackRange} {number : Nat}

theorem started (hfree : k.scheduler.FaultFree awaited) (hs : k.scheduler.Standing)
    (hhoused : k.scheduler.Housed arena) (hcount : arena.length < slotCount)
    (hrange : k.rangeAt number ∈ arena) (husable : (k.rangeAt number).Usable)
    (entry param : UInt32) :
    ∃ k' progress, k.start entry param number = .ok (k', progress) := by
  unfold start
  dsimp only
  split
  · exact ⟨_, _, rfl⟩
  · rename_i hused
    have hroom : (k.stackAt number).range.Usable := husable
    obtain ⟨stack, hsetUp⟩ := Stack.setUp_usable hroom ⟨entry, param, k.trampoline⟩
    have hmoved := alarmMoved k.scheduler
      (if k.scheduler.current.isNone then Hardware.readyDecisionStack k.scheduler.hardware
      else k.scheduler.hardware) k.scheduler.armed
    have honward : Hardware.Onward k.scheduler.hardware
        (if k.scheduler.current.isNone then Hardware.readyDecisionStack k.scheduler.hardware
        else k.scheduler.hardware) := by
      split
      · exact SteadyHardware.readyDecisionStack_onward _
      · exact .refl _
    obtain ⟨t, id, hspawn, _⟩ := (hfree.moved hmoved honward).spawn (hmoved.standing hs)
      ⟨hhoused.inArena, hhoused.only, hhoused.kept⟩ hcount hrange (Bool.eq_false_iff.mpr hused)
      (k.stackAt number).freshPointer
    refine ⟨_, _, bind_eq_ok.mpr ⟨_, hsetUp, bind_eq_ok.mpr ⟨(t, .ok id), ?_, rfl⟩⟩⟩
    rw [show stack.range = k.rangeAt number from Stack.range_setUp hsetUp]
    exact hspawn

end Kernel

end CoopTasks
