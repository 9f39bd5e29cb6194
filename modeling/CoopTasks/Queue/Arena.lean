import CoopTasks.Queue.Basic

/-!
Several queues over the cells of one arena.

`QueueArena.perform` carries out one operation on one of the queues.  The
others see nothing of it as long as no two queues were given the same ends.
-/

namespace CoopTasks

structure QueueArena (size : Nat) where
  cells : Cells size
  queues : List TaskQueue
  keys : List Int

namespace QueueArena

variable {size : Nat}

inductive Operation where
  | enqueue (id : TaskId)
  | prepend (id : TaskId)
  | dequeue
  | erase (id : TaskId)
  | insertByKey (id : TaskId)
  | isEmpty
  | length
  | contains (id : TaskId)
  | setKey (slot : Nat) (key : Int)
  /-- Gives the queue the ends of another one; the cells stay shared. -/
  | copyFrom (source : Nat)
  deriving DecidableEq, Repr

inductive Reply where
  | nothing
  | member (id : Option TaskId)
  | flag (value : Bool)
  | count (value : Nat)
  deriving DecidableEq, Repr

def empty (queues : Nat) (keys : List Int) : QueueArena size :=
  ⟨Cells.free size, List.replicate queues TaskQueue.empty, keys⟩

def queue (a : QueueArena size) (index : Nat) : TaskQueue :=
  a.queues[index]?.getD TaskQueue.empty

def members (a : QueueArena size) (index : Nat) : List TaskId :=
  (a.queue index).members a.cells

def key (a : QueueArena size) (id : TaskId) : Int :=
  a.keys[id.index]?.getD 0

def store (a : QueueArena size) (index : Nat) (queue : TaskQueue) (cells : Cells size) :
    QueueArena size :=
  { a with cells, queues := a.queues.set index queue }

def requireQueue (a : QueueArena size) (index : Nat) : Except Fault TaskQueue :=
  demand a.queues[index]? (.outOfBounds a.queues.length index)

def requireKey (a : QueueArena size) (slot : Nat) : Except Fault Unit :=
  require (slot < a.keys.length) (.outOfBounds a.keys.length slot)

/-- The members whose keys an insertion reads: those less than its own, and one more. -/
def compared (a : QueueArena size) (q : TaskQueue) (id : TaskId) : List TaskId :=
  let members := q.members a.cells
  members.take ((members.takeWhile fun other => a.key other < a.key id).length + 1)

def perform (a : QueueArena size) (index : Nat) (operation : Operation) :
    Except Fault (QueueArena size × Reply) := do
  let q ← a.requireQueue index
  match operation with
  | .enqueue id =>
      let (q, cells) ← q.enqueue a.cells id
      return (a.store index q cells, .nothing)
  | .prepend id =>
      let (q, cells) ← q.prepend a.cells id
      return (a.store index q cells, .nothing)
  | .dequeue =>
      let (q, cells, id) := q.dequeue a.cells
      return (a.store index q cells, .member id)
  | .erase id =>
      let (q, cells, found) := q.erase a.cells id
      return (a.store index q cells, .flag found)
  | .insertByKey id =>
      (id :: a.compared q id).forM fun other => a.requireKey other.index
      let (q, cells) ← q.insertByKey a.cells id a.key
      return (a.store index q cells, .nothing)
  | .isEmpty => return (a, .flag (← q.isEmpty))
  | .length => return (a, .count (q.length a.cells))
  | .contains id => return (a, .flag (q.contains a.cells id))
  | .setKey slot key =>
      a.requireKey slot
      return ({ a with keys := a.keys.set slot key }, .nothing)
  | .copyFrom source => return (a.store index (← a.requireQueue source) a.cells, .nothing)

end QueueArena

end CoopTasks
