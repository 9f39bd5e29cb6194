import CoopTasks.Queue.Basic
import CoopTasks.Task.Record

/-!
The arena of task slots: a record and a link for each.

`TaskTable.record` and the queues' `members` are the views.  An update of a
record changes that record alone and no link.
-/

namespace CoopTasks

structure TaskTable (size : Nat) where
  records : Vector TaskRecord size
  cells : Cells size
  deriving DecidableEq, Repr

namespace TaskTable

variable {size : Nat}

def vacant (size : Nat) : TaskTable size :=
  ⟨Vector.replicate size TaskRecord.vacant, Cells.free size⟩

def requireSlot (size slot : Nat) : Except Fault Unit :=
  require (slot < size) (.outOfBounds size slot)

/-- The record of a slot; a slot outside the arena reads as never used. -/
def record (t : TaskTable size) (slot : Nat) : TaskRecord :=
  t.records[slot]?.getD TaskRecord.vacant

def update (t : TaskTable size) (slot : Nat) (change : TaskRecord → TaskRecord) :
    TaskTable size :=
  { t with records := t.records.setIfInBounds slot (change (t.record slot)) }

def start (t : TaskTable size) (slot : Nat) (stack : StackRange) (pointer : Address)
    (generation : UInt32) : Except Fault (TaskTable size) := do
  require (t.cells.linked slot = false) .slotStillQueued
  return {
    records := t.records.setIfInBounds slot (TaskRecord.started stack pointer generation)
    cells := t.cells.setIfInBounds slot Link.free }

def report (t : TaskTable size) (id : TaskId) : TaskReport :=
  (t.record id.index).report id

@[simp] theorem record_vacant (slot : Nat) : (vacant size).record slot = TaskRecord.vacant := by
  simp only [record, vacant, Vector.getElem?_replicate]
  split <;> rfl

theorem update_of_le (t : TaskTable size) {slot : Nat} (h : size ≤ slot)
    (change : TaskRecord → TaskRecord) : t.update slot change = t := by
  simp only [update]
  rw [Vector.setIfInBounds_eq_of_size_le h]

theorem record_update (t : TaskTable size) {slot : Nat} (h : slot < size)
    (change : TaskRecord → TaskRecord) (other : Nat) :
    (t.update slot change).record other =
      if other = slot then change (t.record slot) else t.record other := by
  simp only [record, update, Vector.getElem?_setIfInBounds, h, if_true, eq_comm (a := slot)]
  split <;> rfl

theorem record_update_ne (t : TaskTable size) {slot other : Nat} (h : other ≠ slot)
    (change : TaskRecord → TaskRecord) : (t.update slot change).record other = t.record other := by
  simp only [record, update, Vector.getElem?_setIfInBounds, if_neg (Ne.symm h)]

theorem record_start {t u : TaskTable size} {slot : Nat} {stack : StackRange}
    {pointer : Address} {generation : UInt32} (h : slot < size)
    (hstart : t.start slot stack pointer generation = .ok u) (other : Nat) :
    u.record other =
      if other = slot then TaskRecord.started stack pointer generation else t.record other := by
  simp only [start, bind, Except.bind] at hstart
  split at hstart
  · contradiction
  · obtain rfl := Except.ok.inj hstart
    simp only [record, Vector.getElem?_setIfInBounds, h, if_true, eq_comm (a := slot)]
    split <;> rfl

end TaskTable

end CoopTasks
