import CoopTasks.Fault

/-!
Queues of tasks threaded through the slots themselves.

A queue names its first and last task.  What follows a task stands in the cell
of the task's slot, so a task is a member of one queue at a time, and several
queues share the cells of one arena.  Identities are compared whole, while
cells are found by slot alone.

`TaskQueue.members` is the view: the tasks in order, read from the head.  A
walk along the links is cut off after a number of steps that reaches every task
it can ever reach, so a queue whose links run in a circle is read in full.
-/

namespace CoopTasks

structure Link where
  next : Option TaskId
  linked : Bool
  deriving DecidableEq, Repr

def Link.free : Link := ⟨none, false⟩

abbrev Cells (size : Nat) := Vector Link size

namespace Cells

variable {size : Nat}

def free (size : Nat) : Cells size :=
  Vector.replicate size Link.free

def next (cells : Cells size) (id : TaskId) : Option TaskId :=
  (cells[id.index]?).bind Link.next

def linked (cells : Cells size) (slot : Nat) : Bool :=
  (cells[slot]?).any Link.linked

def setNext (cells : Cells size) (id : TaskId) (next : Option TaskId) : Cells size :=
  match cells[id.index]? with
  | some link => cells.setIfInBounds id.index { link with next }
  | none => cells

def vacate (cells : Cells size) (id : TaskId) : Cells size :=
  cells.setIfInBounds id.index Link.free

def occupy (cells : Cells size) (id : TaskId) : Except Fault (Cells size) := do
  let link ← demand cells[id.index]? (.outOfBounds size id.index)
  require (link.linked = false) (.alreadyQueued id)
  return cells.setIfInBounds id.index ⟨none, true⟩

def walk (cells : Cells size) : Nat → Option TaskId → List TaskId
  | steps + 1, some id => id :: walk cells steps (cells.next id)
  | _, _ => []

end Cells

structure TaskQueue where
  head : Option TaskId
  tail : Option TaskId
  deriving DecidableEq, Repr

namespace TaskQueue

variable {size : Nat}

def empty : TaskQueue := ⟨none, none⟩

def take (q : TaskQueue) (cells : Cells size) (limit : Nat) : List TaskId :=
  cells.walk limit q.head

/--
The tasks in order.  A walk visits the head and then only tasks named by a
cell, so it has seen all it can see after one step more than there are cells.
-/
def members (q : TaskQueue) (cells : Cells size) : List TaskId :=
  q.take cells (size + 2)

def length (q : TaskQueue) (cells : Cells size) : Nat :=
  (q.members cells).length

def contains (q : TaskQueue) (cells : Cells size) (id : TaskId) : Bool :=
  decide (id ∈ q.members cells)

/-- Whether there is no task; the two ends have to agree on that. -/
def isEmpty (q : TaskQueue) : Except Fault Bool :=
  match q.head, q.tail with
  | none, none => .ok true
  | some _, some _ => .ok false
  | none, some _ => .error .tailWithoutHead
  | some _, none => .error .headWithoutTail

def enqueue (q : TaskQueue) (cells : Cells size) (id : TaskId) :
    Except Fault (TaskQueue × Cells size) := do
  let cells ← cells.occupy id
  match q.tail with
  | none =>
      require (q.head = none) .appendWithoutTail
      return (⟨some id, some id⟩, cells)
  | some last => return ({ q with tail := some id }, cells.setNext last (some id))

def prepend (q : TaskQueue) (cells : Cells size) (id : TaskId) :
    Except Fault (TaskQueue × Cells size) := do
  let cells ← cells.occupy id
  return (⟨some id, some (q.tail.getD id)⟩, cells.setNext id q.head)

def dequeue (q : TaskQueue) (cells : Cells size) :
    TaskQueue × Cells size × Option TaskId :=
  match q.head with
  | none => (q, cells, none)
  | some id =>
      let next := cells.next id
      (⟨next, if next.isNone then none else q.tail⟩, cells.vacate id, some id)

/--
Takes a task out wherever it stands, and tells whether it was there.  A task
that is no member is left alone.
-/
def erase (q : TaskQueue) (cells : Cells size) (id : TaskId) :
    TaskQueue × Cells size × Bool :=
  let members := q.members cells
  if id ∈ members then
    let next := cells.next id
    let before := (members.takeWhile (· ≠ id)).getLast?
    let tail := if q.tail = some id then before else q.tail
    match before with
    | none => (⟨next, tail⟩, cells.vacate id, true)
    | some previous => ({ q with tail }, (cells.setNext previous next).vacate id, true)
  else
    (q, cells, false)

/--
Adds a task in front of the first one whose key is not less than its own, and
at the end if there is none.
-/
def insertByKey {κ : Type} [LE κ] [DecidableLE κ] (q : TaskQueue) (cells : Cells size)
    (id : TaskId) (key : TaskId → κ) : Except Fault (TaskQueue × Cells size) := do
  let members := q.members cells
  let smaller := fun other => !decide (key id ≤ key other)
  match (members.takeWhile smaller).getLast?, (members.dropWhile smaller).head? with
  | none, _ => q.prepend cells id
  | some previous, none =>
      require (q.tail = some previous) (.tailElsewhere q.tail (some previous))
      q.enqueue cells id
  | some previous, some following =>
      let cells ← cells.occupy id
      return (q, (cells.setNext id (some following)).setNext previous (some id))

end TaskQueue

end CoopTasks
