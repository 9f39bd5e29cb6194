import CoopTasks.Proofs.Exclusion
import CoopTasks.Proofs.SafeCalls
import CoopTasks.Proofs.RunInvariants

/-!
Kernels at a glance.

A roster tells what one has to know of a kernel to say what it does next: the
time, who is ready and who sleeps, and of every task its stack, its first frame
and its mood.  `k.Shows arena r` relates a kernel on a simulated board to its
roster, provided that all is well with the kernel, the slots were given out in
order and none of them twice, and no deadline has been missed.

The records of the tasks say more than that.  `TaskRecord.outline` leaves out
what does not matter: where a living task is queued, its guard, and how long it
has executed.
-/

namespace CoopTasks

open Scheduler

/-! ## What does not matter -/

/-- The state of a task as far as it does not follow from the queues. -/
def TaskState.outline : TaskState → TaskState
  | .vacant => .vacant
  | .exited => .exited
  | .ready | .running | .sleeping | .parked => .ready

def TaskRecord.outline (t : TaskRecord) : TaskRecord :=
  { t with state := t.state.outline, guardRegion := none, busyTime := 0 }

namespace TaskRecord

theorem outline_eq_ready {state : TaskState} :
    state.outline = .ready ↔ state ≠ .vacant ∧ state ≠ .exited := by
  cases state <;> simp [TaskState.outline]

theorem outline_eq_exited {state : TaskState} : state.outline = .exited ↔ state = .exited := by
  cases state <;> simp [TaskState.outline]

theorem outline_eq_vacant {state : TaskState} : state.outline = .vacant ↔ state = .vacant := by
  cases state <;> simp [TaskState.outline]

end TaskRecord

/-! ## Rosters -/

inductive Mood where
  | awake
  /-- Asleep until a deadline, or about to be. -/
  | drowsy (deadline : Instant)
  /-- About to exit with a code. -/
  | leaving (code : UInt32)
  | gone (code : UInt32)
  deriving DecidableEq, Repr

structure Origin where
  stack : Nat
  entry : UInt32
  param : UInt32
  deriving DecidableEq, Repr

structure Part extends Origin where
  mood : Mood
  completion : Signal
  deriving DecidableEq, Repr

/-- The parts are those of the slots from the first one on. -/
structure Roster where
  clock : Instant
  run : List TaskId
  sleep : List TaskId
  parts : List Part
  signals : List Signal
  deriving DecidableEq, Repr

def firstRun (slot : Nat) : TaskId :=
  ⟨UInt8.ofNat slot, UInt32.ofNat slot⟩

theorem index_firstRun {slot : Nat} (hslot : slot < slotCount) : (firstRun slot).index = slot := by
  have hcount : slotCount = 16 := rfl
  exact TaskId.index_mk (by omega) _

def rangeIn (arena : List StackRange) (number : Nat) : StackRange :=
  (arena[number]?).getD (Stack.range ⟨0, []⟩)

namespace Mood

def bedtime : Mood → Instant
  | .drowsy deadline => deadline
  | .awake | .leaving _ | .gone _ => Instant.never

def lives : Mood → Bool
  | .gone _ => false
  | .awake | .drowsy _ | .leaving _ => true

def exits : Mood → Bool
  | .awake | .drowsy _ => false
  | .leaving _ | .gone _ => true

def sleepCount : Mood → Int
  | .drowsy _ => 1
  | .awake | .leaving _ | .gone _ => 0

def mark (t : TaskRecord) : Mood → TaskRecord
  | .awake => t
  | .drowsy deadline => t.countSleep deadline
  | .leaving code => { t with exiting := true, exitCode := code }
  | .gone code =>
      { t with exiting := true, exitCode := code, pointer := exitedPointer, state := .exited }

end Mood

namespace Part

def fresh (origin : Origin) : Part :=
  ⟨origin, .awake, .idle⟩

def outline (part : Part) (arena : List StackRange) (slot : Nat) : TaskRecord :=
  let stack := rangeIn arena part.stack
  part.mood.mark { TaskRecord.started stack stack.framePointer (UInt32.ofNat slot) with
    completion := part.completion }

variable {part : Part} {arena : List StackRange} {slot : Nat}

@[simp] theorem stack_outline : (part.outline arena slot).stack = rangeIn arena part.stack := by
  unfold outline
  cases part.mood <;> rfl

@[simp] theorem generation_outline :
    (part.outline arena slot).generation = UInt32.ofNat slot := by
  unfold outline
  cases part.mood <;> rfl

@[simp] theorem wakeAt_outline : (part.outline arena slot).wakeAt = part.mood.bedtime := by
  unfold outline
  cases part.mood <;> rfl

@[simp] theorem exiting_outline : (part.outline arena slot).exiting = part.mood.exits := by
  unfold outline
  cases part.mood <;> rfl

@[simp] theorem sleepCount_outline :
    (part.outline arena slot).sleepCount = part.mood.sleepCount := by
  unfold outline
  cases part.mood <;> rfl

@[simp] theorem completion_outline : (part.outline arena slot).completion = part.completion := by
  unfold outline
  cases part.mood <;> rfl

theorem state_outline :
    (part.outline arena slot).state = .ready ∨ (part.outline arena slot).state = .exited := by
  unfold outline
  cases part.mood <;> simp [Mood.mark, TaskRecord.countSleep, TaskRecord.started]

end Part

namespace Roster

def part? (r : Roster) : Nat → Option Part
  | 0 => none
  | slot + 1 => r.parts[slot]?

def origins (r : Roster) : List Origin :=
  r.parts.map Part.toOrigin

def setPart (r : Roster) (slot : Nat) (part : Part) : Roster :=
  { r with parts := r.parts.set (slot - 1) part }

def setSignal (r : Roster) (number : Nat) (signal : Signal) : Roster :=
  { r with signals := r.signals.set number signal }

def outline (r : Roster) (arena : List StackRange) (slot : Nat) : TaskRecord :=
  match r.part? slot with
  | some part => part.outline arena slot
  | none => TaskRecord.vacant

def pointer (r : Roster) (arena : List StackRange) (id : TaskId) : Address :=
  match r.part? id.index with
  | some part => (rangeIn arena part.stack).framePointer
  | none => Board.mainlinePointer

def bedtime (r : Roster) (id : TaskId) : Instant :=
  match r.part? id.index with
  | some part => part.mood.bedtime
  | none => Instant.never

def Unhurried (r : Roster) : Prop :=
  ∀ id ∈ r.sleep, r.bedtime id = Instant.never ∨ r.clock < r.bedtime id

variable {r : Roster} {slot : Nat} {part : Part} {arena : List StackRange}

theorem pointer_of_part? {id : TaskId} (h : r.part? id.index = some part) :
    r.pointer arena id = (rangeIn arena part.stack).framePointer := by
  unfold pointer
  rw [h]

theorem part?_eq_some :
    r.part? slot = some part ↔ slot ≠ 0 ∧ r.parts[slot - 1]? = some part := by
  cases slot <;> simp [part?]

theorem lt_of_part? (h : r.part? slot = some part) : slot ≠ 0 ∧ slot ≤ r.parts.length := by
  obtain ⟨hslot, hpart⟩ := part?_eq_some.mp h
  obtain ⟨hlt, _⟩ := List.getElem?_eq_some_iff.mp hpart
  omega

theorem mem_of_part? (h : r.part? slot = some part) : part ∈ r.parts :=
  List.mem_of_getElem? (part?_eq_some.mp h).2

theorem part?_setPart (h : r.part? slot = some part) (part' : Part) (other : Nat) :
    (r.setPart slot part').part? other = if other = slot then some part' else r.part? other := by
  obtain ⟨hslot, hle⟩ := lt_of_part? h
  cases other with
  | zero => simp [part?, Ne.symm hslot]
  | succ n =>
      simp only [part?, setPart, List.getElem?_set]
      by_cases he : n + 1 = slot
      · subst he
        have hlt : n < r.parts.length := by omega
        simp [hlt]
      · have hne : slot - 1 ≠ n := by omega
        simp [hne, he]

theorem part?_setPart_self (h : r.part? slot = some part) (part' : Part) :
    (r.setPart slot part').part? slot = some part' :=
  (part?_setPart h part' slot).trans (if_pos rfl)

theorem part?_setPart_ne (h : r.part? slot = some part) (part' : Part) {other : Nat}
    (hne : other ≠ slot) : (r.setPart slot part').part? other = r.part? other :=
  (part?_setPart h part' other).trans (if_neg hne)

theorem setPart_self (h : r.part? slot = some part) : r.setPart slot part = r := by
  obtain ⟨hlt, hget⟩ := List.getElem?_eq_some_iff.mp (part?_eq_some.mp h).2
  unfold setPart
  rw [← hget, List.set_getElem_self]

theorem lt_of_origin (h : r.part? slot = some part) : slot ≤ r.origins.length := by
  unfold origins
  rw [List.length_map]
  exact (lt_of_part? h).2

theorem origins_setPart (h : r.part? slot = some part) {part' : Part}
    (horigin : part'.toOrigin = part.toOrigin) : (r.setPart slot part').origins = r.origins := by
  have hpart := (part?_eq_some.mp h).2
  refine List.ext_getElem? fun n => ?_
  simp only [origins, setPart, List.getElem?_map, List.getElem?_set]
  split
  · rename_i he
    subst he
    obtain ⟨hlt, hget⟩ := List.getElem?_eq_some_iff.mp hpart
    simp [hlt, hget, horigin]
  · rfl

theorem bedtime_of_mood {id : TaskId} {mood : Mood} (h : r.part? id.index = some part)
    (hmood : part.mood = mood) : r.bedtime id = mood.bedtime := by
  unfold bedtime
  rw [h, ← hmood]

theorem bedtime_setPart (h : r.part? slot = some part) (part' : Part) (id : TaskId) :
    (r.setPart slot part').bedtime id =
      if id.index = slot then part'.mood.bedtime else r.bedtime id := by
  unfold bedtime
  rw [part?_setPart h]
  by_cases he : id.index = slot
  · rw [if_pos he, if_pos he]
  · rw [if_neg he, if_neg he]

theorem outline_of_part? (h : r.part? slot = some part) :
    r.outline arena slot = part.outline arena slot := by
  unfold outline
  rw [h]

theorem outline_setPart (h : r.part? slot = some part) (part' : Part) (other : Nat) :
    (r.setPart slot part').outline arena other =
      if other = slot then part'.outline arena slot else r.outline arena other := by
  unfold outline
  rw [part?_setPart h]
  by_cases he : other = slot
  · simp [he]
  · simp [he]

end Roster

/-! ## Stacks that can be told apart -/

structure Grounds (arena : List StackRange) : Prop where
  usable : ∀ range ∈ arena, range.Usable
  apart : (arena.map StackRange.framePointer).Nodup
  mainline : Board.mainlinePointer ∉ arena.map StackRange.framePointer

namespace StackRange.Usable

theorem holds_framePointer {range : StackRange} (h : range.Usable) :
    range.holds range.framePointer = true := by
  have hroom := h.room
  have hleast : leastStackWords + guardedWords = 72 := rfl
  have hframe : frameBytes.toNat = 56 := rfl
  rw [hleast] at hroom
  have hle : frameBytes ≤ range.top := by
    rw [UInt64.le_iff_toNat_le]
    omega
  rw [holds_iff]
  simp only [framePointer, UInt64.toNat_sub_of_le _ _ hle]
  omega

end StackRange.Usable

theorem Stack.freshPointer_eq {stack : Stack} (h : stack.range.Usable) :
    stack.freshPointer = stack.range.framePointer := by
  have hwords : 14 ≤ stack.words.length := frameWords_le h
  have hsum : UInt64.ofNat stack.words.length =
      UInt64.ofNat (stack.words.length - frameWords) + UInt64.ofNat 14 := by
    rw [← UInt64.ofNat_add]
    exact congrArg UInt64.ofNat (Nat.sub_add_cancel hwords).symm
  have hbytes : (4 : UInt64) * UInt64.ofNat 14 = frameBytes := rfl
  simp only [freshPointer, range, StackRange.framePointer]
  rw [hsum, UInt64.mul_add, hbytes, ← UInt64.add_assoc, UInt64.add_sub_cancel]

namespace Grounds

variable {arena : List StackRange} {a b : Nat}

theorem usable_rangeIn (h : Grounds arena) (ha : a < arena.length) : (rangeIn arena a).Usable := by
  unfold rangeIn
  rw [List.getElem?_eq_getElem ha]
  exact h.usable _ (List.getElem_mem ha)

theorem eq_of_framePointer (h : Grounds arena) (ha : a < arena.length) (hb : b < arena.length)
    (heq : (rangeIn arena a).framePointer = (rangeIn arena b).framePointer) : a = b := by
  unfold rangeIn at heq
  rw [List.getElem?_eq_getElem ha, List.getElem?_eq_getElem hb] at heq
  apply (List.getElem?_inj (by simpa using ha) h.apart).mp
  simpa [List.getElem?_eq_getElem ha, List.getElem?_eq_getElem hb] using heq

end Grounds

/-! ## What a kernel shows -/

/-- What does not change about tasks, once they have been started. -/
structure Cast (arena : List StackRange) (origins : List Origin) : Prop where
  few : origins.length < slotCount
  inArena : ∀ origin ∈ origins, origin.stack < arena.length
  apart : (origins.map Origin.stack).Nodup

theorem Cast.slot_eq {arena : List StackRange} {r : Roster} (h : Cast arena r.origins)
    {a b : Nat} {parta partb : Part} (ha : r.part? a = some parta) (hb : r.part? b = some partb)
    (hstack : parta.stack = partb.stack) : a = b := by
  obtain ⟨hazero, ha⟩ := Roster.part?_eq_some.mp ha
  obtain ⟨hbzero, hb⟩ := Roster.part?_eq_some.mp hb
  have hstacks (n : Nat) : (r.origins.map Origin.stack)[n]? =
      (r.parts[n]?).map fun part => part.stack := by
    simp [Roster.origins, Function.comp_def]
  have hlt : a - 1 < (r.origins.map Origin.stack).length := by
    obtain ⟨hlt, _⟩ := List.getElem?_eq_some_iff.mp ha
    simpa [Roster.origins] using hlt
  have hsame : a - 1 = b - 1 := by
    refine (List.getElem?_inj hlt h.apart).mp ?_
    rw [hstacks, hstacks, ha, hb, Option.map_some, Option.map_some, hstack]
  omega

structure Scheduler.Lists (s : Scheduler Board) (arena : List StackRange) (r : Roster) :
    Prop where
  runQueue : s.runQueue = r.run
  sleepers : s.sleepers = r.sleep
  outline : ∀ slot ∈ slots, (s.tasks.record slot).outline = r.outline arena slot
  cast : Cast arena r.origins

structure Scheduler.Shows (s : Scheduler Board) (arena : List StackRange) (r : Roster) : Prop
    extends s.Lists arena r where
  standing : s.Standing
  timely : s.Timely
  faultFree : s.FaultFree fun _ => False
  alarm : s.hardware.alarm = s.armed
  lag : s.hardware.lag = 0
  clock : s.hardware.clock = r.clock
  generation : s.generation = UInt32.ofNat r.origins.length
  later : r.Unhurried
  /-- The mainline is saved before anybody else executes. -/
  mainline : r.run.head? ≠ some .mainline → r.parts ≠ [] →
    (s.record .mainline).pointer = Board.mainlinePointer

structure Kernel.Shows (k : Kernel Board) (arena : List StackRange) (r : Roster) : Prop where
  scheduler : k.scheduler.Shows arena r
  signals : k.signals = r.signals
  ranges : k.ranges = arena
  frames : ∀ origin ∈ r.origins, ∃ trampoline,
    Frame.ofStack? (k.stackAt origin.stack).words =
      some ⟨origin.entry, origin.param, trampoline⟩

namespace Scheduler

variable {s : Scheduler Board} {arena : List StackRange} {r : Roster} {id : TaskId}
variable {part : Part} {slot : Nat} {rest : List TaskId}

namespace Lists

theorem mem_slots (h : s.Lists arena r) (hpart : r.part? slot = some part) : slot ∈ slots := by
  have hslot := (Roster.lt_of_part? hpart).1
  exact Scheduler.mem_slots.mpr
    ⟨hslot, Nat.lt_of_le_of_lt (Roster.lt_of_origin hpart) h.cast.few⟩

theorem record (h : s.Lists arena r) (hpart : r.part? id.index = some part) :
    (s.record id).outline = part.outline arena id.index :=
  (h.outline id.index (h.mem_slots hpart)).trans (Roster.outline_of_part? hpart)

theorem field {α : Type} (h : s.Lists arena r) (hpart : r.part? id.index = some part)
    (field : TaskRecord → α) (hfield : ∀ t : TaskRecord, field t.outline = field t) :
    field (s.record id) = field (part.outline arena id.index) := by
  rw [← hfield, h.record hpart]

theorem task (h : s.Lists arena r) (hpart : r.part? id.index = some part) : id.index ≠ 0 :=
  (Scheduler.mem_slots.mp (h.mem_slots hpart)).1

theorem inArena (h : s.Lists arena r) (hpart : r.part? slot = some part) :
    part.stack < arena.length :=
  h.cast.inArena _ (List.mem_map_of_mem (Roster.mem_of_part? hpart))

theorem stack (h : s.Lists arena r) (hpart : r.part? id.index = some part) :
    (s.record id).stack = rangeIn arena part.stack := by
  rw [h.field hpart TaskRecord.stack fun _ => rfl, Part.stack_outline]

theorem exiting (h : s.Lists arena r) (hpart : r.part? id.index = some part) {mood : Mood}
    (hmood : part.mood = mood) : (s.record id).exiting = mood.exits := by
  rw [h.field hpart TaskRecord.exiting fun _ => rfl, Part.exiting_outline, hmood]

theorem sleepCount (h : s.Lists arena r) (hpart : r.part? id.index = some part) {mood : Mood}
    (hmood : part.mood = mood) : (s.record id).sleepCount = mood.sleepCount := by
  rw [h.field hpart TaskRecord.sleepCount fun _ => rfl, Part.sleepCount_outline, hmood]

theorem isSleeping (h : s.Lists arena r) (hpart : r.part? id.index = some part) {mood : Mood}
    (hmood : part.mood = mood) : (s.record id).isSleeping = decide (0 < mood.sleepCount) := by
  unfold TaskRecord.isSleeping
  rw [h.sleepCount hpart hmood]

theorem completion (h : s.Lists arena r) (hpart : r.part? id.index = some part) :
    (s.record id).completion = part.completion := by
  rw [h.field hpart TaskRecord.completion fun _ => rfl, Part.completion_outline]

theorem wakeAt (h : s.Lists arena r) (hslot : id.index ∈ slots) :
    (s.record id).wakeAt = r.bedtime id := by
  have houtline : (s.record id).outline.wakeAt = (r.outline arena id.index).wakeAt :=
    congrArg TaskRecord.wakeAt (h.outline id.index hslot)
  refine houtline.trans ?_
  unfold Roster.bedtime Roster.outline
  cases hpart : r.part? id.index with
  | none => rfl
  | some part => exact Part.wakeAt_outline

theorem occupied_iff (h : s.Lists arena r) (hpart : r.part? id.index = some part) :
    (s.record id).Occupied ↔ part.mood.lives = true := by
  have hstate : (s.record id).state.outline = (part.outline arena id.index).state :=
    congrArg TaskRecord.state (h.record hpart)
  unfold TaskRecord.Occupied
  rw [← TaskRecord.outline_eq_ready, hstate]
  unfold Part.outline
  cases hmood : part.mood <;>
    simp [Mood.mark, Mood.lives, TaskRecord.countSleep, TaskRecord.started]

theorem occupied (h : s.Lists arena r) (hpart : r.part? id.index = some part) {mood : Mood}
    (hmood : part.mood = mood) (hlives : mood.lives = true) : (s.record id).Occupied :=
  (h.occupied_iff hpart).mpr (hmood ▸ hlives)

theorem part?_of_mem (h : s.Lists arena r) (hs : s.Standing) (hmem : id ∈ r.run ++ r.sleep)
    (hid : id.index ≠ 0) :
    ∃ part, r.part? id.index = some part ∧ part.mood.lives = true := by
  rw [← h.runQueue, ← h.sleepers] at hmem
  have hslot : id.index ∈ slots := Scheduler.mem_slots.mpr ⟨hid, hs.index_lt hmem⟩
  have hoccupied : s.Occupied id.index := by
    rcases List.mem_append.mp hmem with hrun | hsleep
    · exact hs.occupied hrun hid
    · exact occupied_of_state (hs.asleep id hsleep).2 (by simp)
  have houtline := h.outline id.index hslot
  cases hpart : r.part? id.index with
  | none =>
      unfold Roster.outline at houtline
      rw [hpart] at houtline
      have hstate := congrArg TaskRecord.state houtline
      exact absurd (TaskRecord.outline_eq_vacant.mp hstate) hoccupied.1
  | some part => exact ⟨part, rfl, (h.occupied_iff hpart).mp hoccupied⟩

theorem wakeAt_of_mem (h : s.Lists arena r) (hs : s.Standing) (hmem : id ∈ r.sleep) :
    (s.record id).wakeAt = r.bedtime id := by
  rw [← h.sleepers] at hmem
  exact h.wakeAt (Scheduler.mem_slots.mpr
    ⟨(hs.asleep id hmem).1, hs.index_lt (List.mem_append_right _ hmem)⟩)

end Lists

theorem Shows.current (h : s.Shows arena r) (hrun : r.run = id :: rest) (hid : id.index ≠ 0) :
    s.current = some id := by
  rw [h.standing.current_eq_some_iff, h.runQueue, hrun]
  exact ⟨rfl, hid⟩

end Scheduler

end CoopTasks
