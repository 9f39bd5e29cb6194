import CoopTasks.Queue.Arena
import CoopTasks.Queue.Lemmas
import Mathlib.Data.List.Sort

/-!
Several queues over the cells of one arena are so many lists.

An edit adds a task to a queue or takes one out of it, and `QueueEdit.onList` is
the same edit of a list.  `Edited lists a` are the arenas that edits make of
empty queues, each beside the lists that the edits make of empty lists.  A queue
of such an arena reads like its list, and no slot is in two of them:
`Edited.refines_lists`.
-/

namespace CoopTasks

inductive QueueEdit (κ : Type) where
  | enqueue (id : TaskId)
  | prepend (id : TaskId)
  | dequeue
  | erase (id : TaskId)
  | insertByKey (id : TaskId) (key : TaskId → κ)

/-! ## Edits of a list -/

namespace QueueEdit

variable {κ : Type}

def added : QueueEdit κ → Option TaskId
  | .enqueue id | .prepend id | .insertByKey id _ => some id
  | .dequeue | .erase _ => none

variable [LE κ] [DecidableLE κ]

def onList : QueueEdit κ → List TaskId → List TaskId
  | .enqueue id, l => l ++ [id]
  | .prepend id, l => id :: l
  | .dequeue, l => l.tail
  | .erase id, l => l.erase id
  | .insertByKey id key, l => l.orderedInsert (fun a b => key a ≤ key b) id

def reply : QueueEdit κ → List TaskId → QueueArena.Reply
  | .dequeue, l => .member l.head?
  | .erase id, l => .flag (decide (id ∈ l))
  | .enqueue _, _ | .prepend _, _ | .insertByKey _ _, _ => .nothing

end QueueEdit

/-! ## Edits of a queue -/

section Edits

variable {size : Nat} {κ : Type} [LE κ] [DecidableLE κ]

def TaskQueue.edit (q : TaskQueue) (cells : Cells size) :
    QueueEdit κ → Except Fault (TaskQueue × Cells size × QueueArena.Reply)
  | .enqueue id => do
      let (q, cells) ← q.enqueue cells id
      return (q, cells, .nothing)
  | .prepend id => do
      let (q, cells) ← q.prepend cells id
      return (q, cells, .nothing)
  | .dequeue =>
      let (q, cells, id) := q.dequeue cells
      return (q, cells, .member id)
  | .erase id =>
      let (q, cells, found) := q.erase cells id
      return (q, cells, .flag found)
  | .insertByKey id key => do
      let (q, cells) ← q.insertByKey cells id key
      return (q, cells, .nothing)

def QueueArena.edit (a : QueueArena size) (index : Nat) (change : QueueEdit κ) :
    Except Fault (QueueArena size × QueueArena.Reply) := do
  let q ← a.requireQueue index
  let (q, cells, reply) ← q.edit a.cells change
  return (a.store index q cells, reply)

end Edits

namespace TaskQueue

variable {size : Nat} {κ : Type} {q q' : TaskQueue} {cells cells' : Cells size}
variable {l l' : List TaskId} {id : TaskId}

/--
A queue and its cells after an edit.  The cells that are linked and of other
queues are as they were, and a task comes into the queue through a free cell.
-/
structure Revised (cells : Cells size) (l l' : List TaskId) (q' : TaskQueue)
    (cells' : Cells size) : Prop where
  represents : q'.Represents cells' l'
  fresh : ∀ m ∈ l', m ∈ l ∨ cells.linked m.index = false
  linked : ∀ slot, cells'.linked slot = true ↔
    (∃ m ∈ l', m.index = slot) ∨ cells.linked slot = true ∧ ∀ m ∈ l, m.index ≠ slot
  frame : ∀ slot, cells.linked slot = true → (∀ m ∈ l, m.index ≠ slot) →
    cells'[slot]? = cells[slot]?

theorem Revised.of_added (h : q.Represents cells l) (hfree : cells.linked id.index = false)
    (hrep : q'.Represents cells' l') (hperm : l'.Perm (id :: l))
    (hlinked : ∀ slot, cells'.linked slot = (cells.linked slot || slot == id.index))
    (hframe : ∀ slot, slot ≠ id.index → (∀ m ∈ l, m.index ≠ slot) →
      cells'[slot]? = cells[slot]?) : Revised cells l l' q' cells' where
  represents := hrep
  fresh := by
    intro m hm
    rcases List.mem_cons.mp (hperm.mem_iff.mp hm) with rfl | hm
    · exact .inr hfree
    · exact .inl hm
  linked := by
    intro slot
    simp only [hlinked, Bool.or_eq_true, beq_iff_eq, hperm.mem_iff, List.mem_cons]
    constructor
    · rintro (hslot | rfl)
      · by_cases hmem : ∃ m ∈ l, m.index = slot
        · obtain ⟨m, hm, he⟩ := hmem
          exact .inl ⟨m, .inr hm, he⟩
        · exact .inr ⟨hslot, fun m hm he => hmem ⟨m, hm, he⟩⟩
      · exact .inl ⟨id, .inl rfl, rfl⟩
    · rintro (⟨m, rfl | hm, rfl⟩ | ⟨hslot, _⟩)
      · exact .inr rfl
      · exact .inl (h.linked m hm)
      · exact .inl hslot
  frame := by
    intro slot hslot hother
    refine hframe slot ?_ hother
    rintro rfl
    rw [hfree] at hslot
    contradiction

theorem Revised.of_removed (hid : id ∈ l)
    (hrep : q'.Represents cells' (l.erase id))
    (hlinked : ∀ slot, cells'.linked slot = (cells.linked slot && slot != id.index))
    (hframe : ∀ slot, slot ≠ id.index → (∀ m ∈ l, m.index ≠ slot) →
      cells'[slot]? = cells[slot]?) : Revised cells l (l.erase id) q' cells' where
  represents := hrep
  fresh := fun m hm => .inl (List.mem_of_mem_erase hm)
  linked := by
    intro slot
    constructor
    · intro hslot
      rw [hlinked, Bool.and_eq_true, bne_iff_ne] at hslot
      by_cases hmem : ∃ m ∈ l, m.index = slot
      · obtain ⟨m, hm, rfl⟩ := hmem
        refine .inl ⟨m, (List.mem_erase_of_ne ?_).mpr hm, rfl⟩
        rintro rfl
        exact hslot.2 rfl
      · exact .inr ⟨hslot.1, fun m hm he => hmem ⟨m, hm, he⟩⟩
    · rintro (⟨m, hm, rfl⟩ | ⟨hslot, hother⟩)
      · exact hrep.linked m hm
      · rw [hlinked, Bool.and_eq_true, bne_iff_ne]
        exact ⟨hslot, Ne.symm (hother id hid)⟩
  frame := fun slot _ hother => hframe slot (Ne.symm (hother id hid)) hother

theorem Revised.refl (h : q.Represents cells l) : Revised cells l l q cells where
  represents := h
  fresh := fun _ hm => .inl hm
  linked := by
    intro slot
    constructor
    · intro hslot
      by_cases hmem : ∃ m ∈ l, m.index = slot
      · exact .inl hmem
      · exact .inr ⟨hslot, fun m hm he => hmem ⟨m, hm, he⟩⟩
    · rintro (⟨m, hm, rfl⟩ | ⟨hslot, _⟩)
      · exact h.linked m hm
      · exact hslot
  frame := fun _ _ _ => rfl

variable [LE κ] [DecidableLE κ]

theorem insertedByKey_eq_orderedInsert (key : TaskId → κ) (id : TaskId) (l : List TaskId) :
    Represents.insertedByKey key id l = l.orderedInsert (fun a b => key a ≤ key b) id := by
  rw [List.orderedInsert_eq_take_drop]
  simp only [Represents.insertedByKey, decide_not]

/-- An edit of a queue in good order does what it does to the list, unless its task is queued. -/
theorem Represents.edit (h : q.Represents cells l) {change : QueueEdit κ}
    (hslot : ∀ id, change.added = some id → id.index < size)
    (hfree : ∀ id, change.added = some id → cells.linked id.index = false) :
    ∃ q' cells', q.edit cells change = .ok (q', cells', change.reply l) ∧
      Revised cells l (change.onList l) q' cells' := by
  cases change with
  | enqueue id =>
      obtain ⟨q', cells', hok, hrep, hlinked, hframe⟩ :=
        h.enqueue (hslot id rfl) (hfree id rfl)
      refine ⟨q', cells', ?_, .of_added h (hfree id rfl) hrep ?_ hlinked hframe⟩
      · exact bind_eq_ok.mpr ⟨_, hok, rfl⟩
      · exact List.perm_append_singleton id l
  | prepend id =>
      obtain ⟨q', cells', hok, hrep, hlinked, hframe⟩ :=
        h.prepend (hslot id rfl) (hfree id rfl)
      refine ⟨q', cells', ?_, .of_added h (hfree id rfl) hrep (.refl _) hlinked ?_⟩
      · exact bind_eq_ok.mpr ⟨_, hok, rfl⟩
      · exact fun slot hne _ => hframe slot hne
  | dequeue =>
      cases l with
      | nil =>
          refine ⟨q, cells, ?_, .refl h⟩
          simp only [TaskQueue.edit, h.dequeue_nil]
          rfl
      | cons id rest =>
          obtain ⟨q', hok, hrep⟩ := h.dequeue
          refine ⟨q', cells.vacate id, ?_, ?_⟩
          · simp only [TaskQueue.edit, hok]
            rfl
          · have hrest : (id :: rest).erase id = rest := List.erase_cons_head id rest
            have hrevised : Revised cells (id :: rest) ((id :: rest).erase id) q'
                (cells.vacate id) :=
              .of_removed List.mem_cons_self (hrest.symm ▸ hrep) (Cells.linked_vacate cells id)
                fun slot hne _ => Cells.getElem?_vacate_ne cells id hne
            rwa [hrest] at hrevised
  | erase id =>
      by_cases hid : id ∈ l
      · obtain ⟨q', cells', hok, hrep, hlinked, hframe⟩ := h.erase hid
        refine ⟨q', cells', ?_, .of_removed hid hrep hlinked hframe⟩
        simp only [TaskQueue.edit, hok, QueueEdit.reply, hid, decide_true]
        rfl
      · refine ⟨q, cells, ?_, ?_⟩
        · simp only [TaskQueue.edit, h.erase_of_not_mem hid, QueueEdit.reply, hid, decide_false]
          rfl
        · show Revised cells l (l.erase id) q cells
          rw [List.erase_of_not_mem hid]
          exact .refl h
  | insertByKey id key =>
      obtain ⟨q', cells', hok, hrep, hlinked, hframe⟩ :=
        h.insertByKey key (hslot id rfl) (hfree id rfl)
      rw [insertedByKey_eq_orderedInsert] at hrep
      refine ⟨q', cells', ?_, .of_added h (hfree id rfl) hrep ?_ hlinked hframe⟩
      · exact bind_eq_ok.mpr ⟨_, hok, rfl⟩
      · exact List.perm_orderedInsert _ id l

theorem Represents.edit_occupied (h : q.Represents cells l) {change : QueueEdit κ} {fault : Fault}
    (hadded : change.added = some id) (hoccupy : cells.occupy id = .error fault) :
    q.edit cells change = .error fault := by
  cases change with
  | enqueue other =>
      obtain rfl := Option.some.inj hadded
      simp [TaskQueue.edit, TaskQueue.enqueue, hoccupy, bind, Except.bind]
  | prepend other =>
      obtain rfl := Option.some.inj hadded
      simp [TaskQueue.edit, TaskQueue.prepend, hoccupy, bind, Except.bind]
  | dequeue => contradiction
  | erase other => contradiction
  | insertByKey other key =>
      obtain rfl := Option.some.inj hadded
      simp only [TaskQueue.edit, TaskQueue.insertByKey, h.members_eq]
      generalize hsmaller : (fun m => !decide (key other ≤ key m)) = smaller
      have hsplit : l.takeWhile smaller ++ l.dropWhile smaller = l :=
        List.takeWhile_append_dropWhile
      cases hbefore : (l.takeWhile smaller).getLast? with
      | none => simp [TaskQueue.prepend, hoccupy, bind, Except.bind]
      | some previous =>
          cases hafter : (l.dropWhile smaller).head? with
          | none =>
              have hall : l.takeWhile smaller = l := by
                rwa [List.head?_eq_none_iff.mp hafter, List.append_nil] at hsplit
              have htail : q.tail = some previous := by rw [h.tail, ← hall, hbefore]
              simp [TaskQueue.enqueue, htail, require, hoccupy, bind, Except.bind]
          | some following => simp [hoccupy, bind, Except.bind]

structure Reads (q : TaskQueue) (cells : Cells size) (l : List TaskId) : Prop where
  walk : ∀ steps, q.take cells steps = l.take steps
  first : q.head = l.head?
  last : q.tail = l.getLast?
  ends : q.head = none ↔ q.tail = none
  isEmpty : q.isEmpty = .ok l.isEmpty
  length : q.length cells = l.length
  contains : ∀ id, q.contains cells id = decide (id ∈ l)

theorem walk_eq_take {first : Option TaskId} (h : cells.Segment first l none) (steps : Nat) :
    cells.walk steps first = l.take steps := by
  induction steps generalizing first l with
  | zero => rfl
  | succ steps ih =>
      cases l with
      | nil =>
          cases h
          rfl
      | cons id rest =>
          rw [h.1, List.take_succ_cons, ← ih h.2]
          rfl

theorem Represents.reads (h : q.Represents cells l) : q.Reads cells l where
  walk := walk_eq_take h.segment
  first := h.head_eq
  last := h.tail
  ends := by rw [h.head_eq, h.tail, List.head?_eq_none_iff, List.getLast?_eq_none_iff]
  isEmpty := h.isEmpty_eq
  length := h.length_eq
  contains := h.contains_eq

end TaskQueue

/-! ## Queues of one arena -/

section Arena

variable {size : Nat} {lists : List (List TaskId)} {a a' : QueueArena size}

def Holds (lists : List (List TaskId)) (index slot : Nat) : Prop :=
  ∃ l, lists[index]? = some l ∧ ∃ m ∈ l, m.index = slot

/-- The queues of an arena hold the tasks of lists that have no slot in common. -/
structure Threads (lists : List (List TaskId)) (a : QueueArena size) : Prop where
  count : a.queues.length = lists.length
  represents : ∀ {index : Nat} {q : TaskQueue} {l : List TaskId},
    a.queues[index]? = some q → lists[index]? = some l → q.Represents a.cells l
  alone : ∀ {i j slot : Nat}, Holds lists i slot → Holds lists j slot → i = j
  held : ∀ {slot : Nat}, a.cells.linked slot = true → ∃ index, Holds lists index slot

theorem Threads.empty (queues : Nat) (keys : List Int) :
    Threads (List.replicate queues []) (QueueArena.empty queues keys : QueueArena size) where
  count := by simp [QueueArena.empty]
  represents := by
    intro index q l hq hl
    obtain ⟨_, rfl⟩ := List.getElem?_eq_some_iff.mp hq
    obtain ⟨_, rfl⟩ := List.getElem?_eq_some_iff.mp hl
    simpa [QueueArena.empty] using TaskQueue.Represents.empty _
  alone := by
    rintro i j slot ⟨l, hl, m, hm, -⟩ -
    obtain ⟨_, rfl⟩ := List.getElem?_eq_some_iff.mp hl
    simp at hm
  held := by
    intro slot hslot
    obtain hlt := Cells.linked_lt hslot
    simp [QueueArena.empty, Cells.linked, Cells.free, Link.free, hlt] at hslot

theorem Threads.queue_of_list (h : Threads lists a) {index : Nat} {l : List TaskId}
    (hl : lists[index]? = some l) :
    a.queues[index]? = some (a.queue index) ∧ (a.queue index).Represents a.cells l := by
  obtain ⟨hlt, -⟩ := List.getElem?_eq_some_iff.mp hl
  have hq : a.queues[index]? = some (a.queue index) := by
    rw [QueueArena.queue, List.getElem?_eq_getElem (h.count ▸ hlt)]
    rfl
  exact ⟨hq, h.represents hq hl⟩

theorem Threads.linked_iff (h : Threads lists a) {slot : Nat} :
    a.cells.linked slot = true ↔ ∃ index, Holds lists index slot := by
  refine ⟨h.held, ?_⟩
  rintro ⟨index, l, hl, m, hm, rfl⟩
  exact (h.queue_of_list hl).2.linked m hm

theorem Threads.revise (h : Threads lists a) {index : Nat} {l l' : List TaskId} {q' : TaskQueue}
    {cells' : Cells size} (hl : lists[index]? = some l)
    (hrevised : TaskQueue.Revised a.cells l l' q' cells') :
    Threads (lists.set index l') (a.store index q' cells') := by
  obtain ⟨hlt, -⟩ := List.getElem?_eq_some_iff.mp hl
  have hnew : (lists.set index l')[index]? = some l' := by
    rw [List.getElem?_set_self hlt]
  -- The slots of another queue are linked, and none of them is in this one.
  have hother : ∀ {j slot}, index ≠ j → Holds lists j slot →
      a.cells.linked slot = true ∧ ∀ m ∈ l, m.index ≠ slot := by
    intro j slot hne hj
    refine ⟨h.linked_iff.mpr ⟨j, hj⟩, fun m hm he => hne (h.alone ⟨l, hl, m, hm, he⟩ hj)⟩
  have holds_set : ∀ {j slot}, Holds (lists.set index l') j slot →
      (j = index ∧ ∃ m ∈ l', m.index = slot) ∨ index ≠ j ∧ Holds lists j slot := by
    rintro j slot ⟨k, hk, m, hm, rfl⟩
    by_cases hj : index = j
    · subst hj
      obtain rfl := Option.some.inj (hnew.symm.trans hk)
      exact .inl ⟨rfl, m, hm, rfl⟩
    · rw [List.getElem?_set_ne hj] at hk
      exact .inr ⟨hj, k, hk, m, hm, rfl⟩
  -- A slot of the revised queue was linked in no other one.
  have hapart : ∀ {j slot}, (∃ m ∈ l', m.index = slot) → index ≠ j → ¬Holds lists j slot := by
    rintro j slot ⟨m, hm, rfl⟩ hne hj
    obtain ⟨hslot, hnot⟩ := hother hne hj
    rcases hrevised.fresh m hm with hin | hfree
    · exact hnot m hin rfl
    · rw [hfree] at hslot
      contradiction
  refine ⟨?_, ?_, ?_, ?_⟩
  · simpa [QueueArena.store] using h.count
  · intro j q k hq hk
    by_cases hj : index = j
    · subst hj
      obtain rfl := Option.some.inj (hnew.symm.trans hk)
      rw [QueueArena.store, List.getElem?_set_self (h.count ▸ hlt)] at hq
      obtain rfl := Option.some.inj hq
      exact hrevised.represents
    · rw [List.getElem?_set_ne hj] at hk
      rw [QueueArena.store, List.getElem?_set_ne hj] at hq
      refine (h.represents hq hk).congr fun m hm => ?_
      obtain ⟨hslot, hnot⟩ := hother hj ⟨k, hk, m, hm, rfl⟩
      exact hrevised.frame _ hslot hnot
  · intro i j slot hi hj
    rcases holds_set hi with ⟨rfl, hini⟩ | ⟨hnei, hini⟩ <;>
      rcases holds_set hj with ⟨rfl, hinj⟩ | ⟨hnej, hinj⟩
    · rfl
    · exact absurd hinj (hapart hini hnej)
    · exact absurd hini (hapart hinj hnei)
    · exact h.alone hini hinj
  · intro slot hslot
    rcases (hrevised.linked slot).mp hslot with hm | ⟨hslot, hnot⟩
    · exact ⟨index, l', hnew, hm⟩
    · obtain ⟨j, k, hk, m, hm, rfl⟩ := h.held hslot
      refine ⟨j, k, ?_, m, hm, rfl⟩
      rw [List.getElem?_set_ne]
      · exact hk
      · rintro rfl
        obtain rfl := Option.some.inj (hl.symm.trans hk)
        exact hnot m hm rfl

variable {κ : Type} [LE κ] [DecidableLE κ] {change : QueueEdit κ} {index : Nat} {l : List TaskId}

theorem Threads.edit (h : Threads lists a) (hl : lists[index]? = some l)
    (hslot : ∀ id, change.added = some id → id.index < size)
    (hfree : ∀ id, change.added = some id → a.cells.linked id.index = false) :
    ∃ q' cells', a.edit index change = .ok (a.store index q' cells', change.reply l) ∧
      TaskQueue.Revised a.cells l (change.onList l) q' cells' := by
  obtain ⟨hq, hrep⟩ := h.queue_of_list hl
  obtain ⟨q', cells', hok, hrevised⟩ := hrep.edit hslot hfree
  refine ⟨q', cells', ?_, hrevised⟩
  simp [QueueArena.edit, QueueArena.requireQueue, demand, hq, hok, bind, Except.bind, pure,
    Except.pure]

theorem Threads.edit_occupied (h : Threads lists a) (hl : lists[index]? = some l) {id : TaskId}
    {fault : Fault} (hadded : change.added = some id)
    (hoccupy : a.cells.occupy id = .error fault) : a.edit index change = .error fault := by
  obtain ⟨hq, hrep⟩ := h.queue_of_list hl
  simp [QueueArena.edit, QueueArena.requireQueue, demand, hq, hrep.edit_occupied hadded hoccupy,
    bind, Except.bind]

theorem Threads.of_edit (h : Threads lists a) {reply : QueueArena.Reply}
    (hok : a.edit index change = .ok (a', reply)) :
    ∃ l, lists[index]? = some l ∧ (∀ id, change.added = some id → id.index < size) ∧
      ∀ id, change.added = some id → a.cells.linked id.index = false := by
  obtain ⟨q, hq, -⟩ := bind_eq_ok.mp hok
  rw [QueueArena.requireQueue, demand_eq_ok] at hq
  obtain ⟨hlt, -⟩ := List.getElem?_eq_some_iff.mp hq
  have hl := List.getElem?_eq_getElem (h.count ▸ hlt : index < lists.length)
  refine ⟨_, hl, fun id hadded => ?_, fun id hadded => ?_⟩
  · by_contra hle
    rw [h.edit_occupied hl hadded (Cells.occupy_of_le (Nat.le_of_not_lt hle))] at hok
    contradiction
  · by_contra hlinked
    rw [Bool.not_eq_false] at hlinked
    rw [h.edit_occupied hl hadded (Cells.occupy_of_linked hlinked)] at hok
    contradiction

/-! ## Runs of edits -/

/--
The arenas that edits make of empty queues, each beside the lists that the edits
make of empty lists.  Every insertion has its own order of the tasks.
-/
inductive Edited : List (List TaskId) → QueueArena size → Prop where
  | empty (queues : Nat) (keys : List Int) :
      Edited (List.replicate queues []) (QueueArena.empty queues keys)
  | edit {κ : Type} [LE κ] [DecidableLE κ] {lists : List (List TaskId)} {a a' : QueueArena size}
      {index : Nat} {change : QueueEdit κ} {reply : QueueArena.Reply} (h : Edited lists a)
      (hok : a.edit index change = .ok (a', reply)) :
      Edited (lists.modify index change.onList) a'

theorem Edited.threads (h : Edited lists a) : Threads lists a := by
  induction h with
  | empty queues keys => exact .empty queues keys
  | edit _ hok ih =>
      obtain ⟨l, hl, hslot, hfree⟩ := ih.of_edit hok
      obtain ⟨q', cells', hedit, hrevised⟩ := ih.edit hl hslot hfree
      obtain ⟨rfl, rfl⟩ := Prod.mk.inj (Except.ok.inj (hok.symm.trans hedit))
      have := ih.revise hl hrevised
      rwa [List.modify_eq_set_getElem?, hl]

structure Refines (lists : List (List TaskId)) (a : QueueArena size) : Prop where
  count : a.queues.length = lists.length
  reads : ∀ index l, lists[index]? = some l →
    (a.queue index).Reads a.cells l ∧ (l.map TaskId.index).Nodup
  linked : ∀ slot, a.cells.linked slot = true ↔ ∃! index, Holds lists index slot
  alone : ∀ slot i j, Holds lists i slot → Holds lists j slot → i = j
  /-- Only an insertion can fail, and it does when its cell is linked already. -/
  fault : ∀ {κ : Type} [LE κ] [DecidableLE κ] (change : QueueEdit κ) (index : Nat) (fault : Fault),
    index < lists.length → (∀ id, change.added = some id → id.index < size) →
    (a.edit index change = .error fault ↔
      ∃ id, change.added = some id ∧ a.cells.linked id.index = true ∧ fault = .alreadyQueued id)
  /-- What an edit returns is read off the list, and the other queues keep their members. -/
  reply : ∀ {κ : Type} [LE κ] [DecidableLE κ] (change : QueueEdit κ) (index : Nat)
    (l : List TaskId) (a' : QueueArena size) (reply : QueueArena.Reply),
    lists[index]? = some l → a.edit index change = .ok (a', reply) →
    reply = change.reply l ∧ a'.members index = change.onList l ∧
      ∀ other, other ≠ index → a'.members other = a.members other
  absent : ∀ {κ : Type} [LE κ] [DecidableLE κ] (index : Nat) (l : List TaskId) (id : TaskId),
    lists[index]? = some l → id ∉ l →
    a.edit index (.erase id : QueueEdit κ) = .ok (a, .flag false)

theorem Threads.refines (h : Threads lists a) : Refines lists a where
  count := h.count
  reads := fun index l hl =>
    ⟨(h.queue_of_list hl).2.reads, (h.queue_of_list hl).2.nodup⟩
  linked := by
    intro slot
    rw [h.linked_iff]
    constructor
    · rintro ⟨index, hindex⟩
      exact ⟨index, hindex, fun other hother => h.alone hother hindex⟩
    · rintro ⟨index, hindex, -⟩
      exact ⟨index, hindex⟩
  alone := fun _ _ _ => h.alone
  fault := by
    intro κ _ _ change index fault hindex hslot
    have hl := List.getElem?_eq_getElem hindex
    constructor
    · intro herror
      by_contra hnone
      have hfree : ∀ id, change.added = some id → a.cells.linked id.index = false := by
        intro id hadded
        by_contra hlinked
        rw [Bool.not_eq_false] at hlinked
        have hqueued := h.edit_occupied hl hadded (Cells.occupy_of_linked hlinked)
        obtain rfl := Except.error.inj (herror.symm.trans hqueued)
        exact hnone ⟨id, hadded, hlinked, rfl⟩
      obtain ⟨q', cells', hok, -⟩ := h.edit hl hslot hfree
      rw [hok] at herror
      contradiction
    · rintro ⟨id, hadded, hlinked, rfl⟩
      exact h.edit_occupied hl hadded (Cells.occupy_of_linked hlinked)
  reply := by
    intro κ _ _ change index l a' reply hl hok
    obtain ⟨_, hl', hslot, hfree⟩ := h.of_edit hok
    obtain rfl := Option.some.inj (hl.symm.trans hl')
    obtain ⟨q', cells', hedit, hrevised⟩ := h.edit hl hslot hfree
    obtain ⟨rfl, rfl⟩ := Prod.mk.inj (Except.ok.inj (hok.symm.trans hedit))
    have hnext := h.revise hl hrevised
    obtain ⟨hlt, -⟩ := List.getElem?_eq_some_iff.mp hl
    refine ⟨rfl, (hnext.queue_of_list (List.getElem?_set_self hlt)).2.members_eq, ?_⟩
    intro other hne
    cases hother : lists[other]? with
    | none =>
        have hle : a.queues.length ≤ other := h.count ▸ List.getElem?_eq_none_iff.mp hother
        simp [QueueArena.members, QueueArena.queue, QueueArena.store, hle, TaskQueue.members,
          TaskQueue.take, TaskQueue.empty, Cells.walk]
    | some k =>
        have hk : (lists.set index (change.onList l))[other]? = some k := by
          rwa [List.getElem?_set_ne (Ne.symm hne)]
        rw [QueueArena.members, (hnext.queue_of_list hk).2.members_eq, QueueArena.members,
          (h.queue_of_list hother).2.members_eq]
  absent := by
    intro κ _ _ index l id hl hid
    obtain ⟨hq, hrep⟩ := h.queue_of_list hl
    obtain ⟨hlt, hget⟩ := List.getElem?_eq_some_iff.mp hq
    have hsame : a.store index (a.queue index) a.cells = a := by
      rw [QueueArena.store, ← hget, List.set_getElem_self]
    simp [QueueArena.edit, QueueArena.requireQueue, demand, hq, TaskQueue.edit,
      hrep.erase_of_not_mem hid, hsame, bind, Except.bind, pure, Except.pure]

theorem Edited.refines_lists (h : Edited lists a) : Refines lists a :=
  h.threads.refines

theorem edited_two_queues_refine :
    ∃ a : QueueArena 3, Edited [[⟨2, 0⟩, ⟨1, 0⟩], [⟨0, 0⟩]] a ∧
      Refines [[⟨2, 0⟩, ⟨1, 0⟩], [⟨0, 0⟩]] a := by
  have hempty : Edited [[], []] (QueueArena.empty 2 [] : QueueArena 3) := .empty 2 []
  have hone := hempty.edit
    (rfl : QueueArena.edit _ 0 (.enqueue ⟨1, 0⟩ : QueueEdit Nat) = .ok (_, .nothing))
  have htwo := hone.edit
    (rfl : QueueArena.edit _ 1 (.prepend ⟨0, 0⟩ : QueueEdit Nat) = .ok (_, .nothing))
  have hthree := htwo.edit
    (rfl : QueueArena.edit _ 0 (.insertByKey ⟨2, 0⟩ fun _ => 0) = .ok (_, .nothing))
  exact ⟨_, hthree, hthree.refines_lists⟩

end Arena

end CoopTasks
