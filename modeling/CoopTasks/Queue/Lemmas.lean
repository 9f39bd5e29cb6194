import CoopTasks.Queue.Basic

/-!
Queues as lists.

`TaskQueue.Represents q cells l` tells that a queue in good order holds the
tasks of `l`.  Every operation on such a queue is an operation on the list:
`Represents.enqueue` appends, `Represents.prepend` prepends,
`Represents.dequeue` drops the head, `Represents.erase` erases, and
`Represents.insertByKey` inserts in front of the first key that is not less.
The cells of slots outside the queue stay as they were.
-/

namespace CoopTasks

variable {size : Nat}

namespace Cells

/-! ## Single cells -/

theorem linked_lt {cells : Cells size} {slot : Nat} (h : cells.linked slot = true) :
    slot < size := by
  unfold linked at h
  cases hs : cells[slot]? with
  | none => simp [hs] at h
  | some link => exact (Vector.getElem?_eq_some_iff.mp hs).1

theorem next_eq_of_getElem? {cells other : Cells size} {id : TaskId}
    (h : other[id.index]? = cells[id.index]?) : other.next id = cells.next id := by
  unfold next
  rw [h]

theorem getElem?_setNext_ne (cells : Cells size) (id : TaskId) (v : Option TaskId)
    {slot : Nat} (h : slot ≠ id.index) : (cells.setNext id v)[slot]? = cells[slot]? := by
  unfold setNext
  split
  · rw [Vector.getElem?_setIfInBounds, if_neg (Ne.symm h)]
  · rfl

theorem next_setNext_self {cells : Cells size} {id : TaskId} (h : id.index < size)
    (v : Option TaskId) : (cells.setNext id v).next id = v := by
  unfold setNext
  rw [Vector.getElem?_eq_getElem h]
  simp [next, h]

theorem getElem?_setNext_self {cells : Cells size} {id : TaskId}
    (h : cells.linked id.index = true) (next : Option TaskId) :
    (cells.setNext id next)[id.index]? = some ⟨next, true⟩ := by
  have hlt := linked_lt h
  have hlink : cells[id.index].linked = true := by
    simpa [linked, Vector.getElem?_eq_getElem hlt] using h
  unfold setNext
  rw [show cells[id.index]? = some cells[id.index] from Vector.getElem?_eq_getElem hlt]
  dsimp only
  rw [Vector.getElem?_setIfInBounds, if_pos rfl, if_pos hlt, hlink]

theorem linked_setNext (cells : Cells size) (id : TaskId) (v : Option TaskId) (slot : Nat) :
    (cells.setNext id v).linked slot = cells.linked slot := by
  unfold setNext
  split
  · rename_i link hlink
    unfold linked
    rw [Vector.getElem?_setIfInBounds]
    split
    · rename_i he
      subst he
      rw [if_pos (Vector.getElem?_eq_some_iff.mp hlink).1, hlink]
      rfl
    · rfl
  · rfl

theorem getElem?_vacate_ne (cells : Cells size) (id : TaskId) {slot : Nat}
    (h : slot ≠ id.index) : (cells.vacate id)[slot]? = cells[slot]? := by
  unfold vacate
  rw [Vector.getElem?_setIfInBounds, if_neg (Ne.symm h)]

theorem linked_vacate (cells : Cells size) (id : TaskId) (slot : Nat) :
    (cells.vacate id).linked slot = (cells.linked slot && slot != id.index) := by
  unfold linked vacate
  rw [Vector.getElem?_setIfInBounds]
  by_cases h : id.index = slot
  · subst h
    by_cases hb : id.index < size
    · simp [hb, Link.free]
    · simp [hb]
  · have : (slot != id.index) = true := bne_iff_ne.mpr (Ne.symm h)
    rw [if_neg h, this, Bool.and_true]

def occupied (cells : Cells size) (id : TaskId) : Cells size :=
  cells.setIfInBounds id.index ⟨none, true⟩

theorem occupy_eq_ok {cells : Cells size} {id : TaskId} (hid : id.index < size)
    (hfree : cells.linked id.index = false) : cells.occupy id = .ok (cells.occupied id) := by
  have hlink : cells[id.index].linked = false := by
    simpa [linked, Vector.getElem?_eq_getElem hid] using hfree
  simp [occupy, demand, require, Vector.getElem?_eq_getElem hid, hlink, occupied, bind,
    Except.bind, pure, Except.pure]

theorem occupy_of_linked {cells : Cells size} {id : TaskId}
    (h : cells.linked id.index = true) : cells.occupy id = .error (.alreadyQueued id) := by
  have hid := linked_lt h
  have hlink : cells[id.index].linked = true := by
    simpa [linked, Vector.getElem?_eq_getElem hid] using h
  simp [occupy, demand, require, Vector.getElem?_eq_getElem hid, hlink, bind, Except.bind]

theorem occupy_of_le {cells : Cells size} {id : TaskId} (h : size ≤ id.index) :
    cells.occupy id = .error (.outOfBounds size id.index) := by
  have hnone : cells[id.index]? = none := Vector.getElem?_eq_none h
  simp [occupy, demand, hnone, bind, Except.bind]

theorem getElem?_occupied_ne (cells : Cells size) (id : TaskId) {slot : Nat}
    (h : slot ≠ id.index) : (cells.occupied id)[slot]? = cells[slot]? := by
  unfold occupied
  rw [Vector.getElem?_setIfInBounds, if_neg (Ne.symm h)]

theorem getElem?_occupied_self (cells : Cells size) {id : TaskId} (h : id.index < size) :
    (cells.occupied id)[id.index]? = some ⟨none, true⟩ := by
  unfold occupied
  rw [Vector.getElem?_setIfInBounds, if_pos rfl, if_pos h]

theorem next_occupied_self {cells : Cells size} {id : TaskId} (h : id.index < size) :
    (cells.occupied id).next id = none := by
  simp [next, occupied, h]

theorem linked_occupied {cells : Cells size} {id : TaskId} (h : id.index < size) (slot : Nat) :
    (cells.occupied id).linked slot = (cells.linked slot || slot == id.index) := by
  unfold linked occupied
  rw [Vector.getElem?_setIfInBounds]
  by_cases he : id.index = slot
  · subst he
    simp [h]
  · have : (slot == id.index) = false := beq_eq_false_iff_ne.mpr (Ne.symm he)
    rw [if_neg he, this, Bool.or_false]

/-! ## Stretches of a queue -/

/-- The links lead from `first` through the tasks of a list to `last`. -/
def Segment (cells : Cells size) : Option TaskId → List TaskId → Option TaskId → Prop
  | first, [], last => first = last
  | first, id :: rest, last => first = some id ∧ Segment cells (cells.next id) rest last

theorem segment_append {cells : Cells size} {first last : Option TaskId} {l m : List TaskId} :
    cells.Segment first (l ++ m) last ↔
      ∃ middle, cells.Segment first l middle ∧ cells.Segment middle m last := by
  induction l generalizing first with
  | nil =>
      constructor
      · intro h
        exact ⟨first, rfl, h⟩
      · rintro ⟨middle, hl, hm⟩
        cases hl
        exact hm
  | cons id rest ih =>
      constructor
      · rintro ⟨hfirst, h⟩
        obtain ⟨middle, hl, hm⟩ := ih.mp h
        exact ⟨middle, ⟨hfirst, hl⟩, hm⟩
      · rintro ⟨middle, ⟨hfirst, hl⟩, hm⟩
        exact ⟨hfirst, ih.mpr ⟨middle, hl, hm⟩⟩

theorem Segment.congr {cells other : Cells size} {first last : Option TaskId}
    {l : List TaskId} (h : cells.Segment first l last)
    (hnext : ∀ id ∈ l, other.next id = cells.next id) : other.Segment first l last := by
  induction l generalizing first with
  | nil => exact h
  | cons id rest ih =>
      refine ⟨h.1, ?_⟩
      rw [hnext id List.mem_cons_self]
      exact ih h.2 fun other hmem => hnext other (List.mem_cons_of_mem id hmem)

theorem walk_of_segment {cells : Cells size} {first : Option TaskId} {l : List TaskId}
    (h : cells.Segment first l none) {steps : Nat} (hsteps : l.length ≤ steps) :
    cells.walk steps first = l := by
  induction l generalizing first steps with
  | nil =>
      cases h
      cases steps <;> rfl
  | cons id rest ih =>
      cases steps with
      | zero => simp at hsteps
      | succ steps =>
          rw [h.1]
          show id :: cells.walk steps (cells.next id) = id :: rest
          rw [ih h.2 (by simpa using hsteps)]

end Cells

namespace TaskQueue

/-- A queue in good order holds the tasks of a list. -/
structure Represents (q : TaskQueue) (cells : Cells size) (l : List TaskId) : Prop where
  segment : cells.Segment q.head l none
  tail : q.tail = l.getLast?
  nodup : (l.map TaskId.index).Nodup
  linked : ∀ id ∈ l, cells.linked id.index = true

namespace Represents

variable {q : TaskQueue} {cells : Cells size} {l : List TaskId} {id : TaskId}

theorem empty (cells : Cells size) : TaskQueue.empty.Represents cells [] :=
  ⟨rfl, rfl, List.nodup_nil, by simp⟩

theorem index_lt (h : q.Represents cells l) (hid : id ∈ l) : id.index < size :=
  Cells.linked_lt (h.linked id hid)

theorem length_le (h : q.Represents cells l) : l.length ≤ size := by
  have hsub : l.map TaskId.index ⊆ List.range size := by
    intro slot hslot
    obtain ⟨id, hid, rfl⟩ := List.mem_map.mp hslot
    exact List.mem_range.mpr (h.index_lt hid)
  simpa using h.nodup.length_le_of_subset hsub

theorem members_eq (h : q.Represents cells l) : q.members cells = l :=
  Cells.walk_of_segment h.segment (by have := h.length_le; omega)

theorem head_eq (h : q.Represents cells l) : q.head = l.head? := by
  cases l with
  | nil => exact h.segment
  | cons id rest => exact h.segment.1

theorem congr (h : q.Represents cells l) {other : Cells size}
    (hcells : ∀ id ∈ l, other[id.index]? = cells[id.index]?) : q.Represents other l where
  segment := h.segment.congr fun id hid => Cells.next_eq_of_getElem? (hcells id hid)
  tail := h.tail
  nodup := h.nodup
  linked := by
    intro id hid
    unfold Cells.linked
    rw [hcells id hid]
    exact h.linked id hid

theorem isEmpty_eq (h : q.Represents cells l) : q.isEmpty = .ok l.isEmpty := by
  have hhead := h.head_eq
  have htail := h.tail
  unfold isEmpty
  cases l with
  | nil =>
      rw [hhead, htail]
      rfl
  | cons id rest =>
      rw [hhead, htail, List.getLast?_cons]
      rfl

theorem contains_eq (h : q.Represents cells l) (id : TaskId) :
    q.contains cells id = decide (id ∈ l) := by
  unfold contains
  rw [h.members_eq]

theorem length_eq (h : q.Represents cells l) : q.length cells = l.length := by
  unfold length
  rw [h.members_eq]

theorem index_ne_of_free (h : q.Represents cells l) (hfree : cells.linked id.index = false)
    {other : TaskId} (hother : other ∈ l) : other.index ≠ id.index := by
  intro he
  have := h.linked other hother
  rw [he, hfree] at this
  contradiction

/-! ## Adding -/

theorem enqueue (h : q.Represents cells l) (hid : id.index < size)
    (hfree : cells.linked id.index = false) :
    ∃ q' cells', q.enqueue cells id = .ok (q', cells') ∧ q'.Represents cells' (l ++ [id]) ∧
      (∀ slot, cells'.linked slot = (cells.linked slot || slot == id.index)) ∧
      ∀ slot, slot ≠ id.index → (∀ m ∈ l, m.index ≠ slot) → cells'[slot]? = cells[slot]? := by
  have hnot : ∀ m ∈ l, m.index ≠ id.index := fun m hm => h.index_ne_of_free hfree hm
  have hnodup : ((l ++ [id]).map TaskId.index).Nodup := by
    rw [List.map_append, List.nodup_append]
    refine ⟨h.nodup, by simp, ?_⟩
    intro a ha b hb
    obtain ⟨m, hm, rfl⟩ := List.mem_map.mp ha
    simp only [List.map_cons, List.map_nil, List.mem_singleton] at hb
    subst hb
    exact hnot m hm
  rcases List.eq_nil_or_concat l with rfl | ⟨init, last, rfl⟩
  · have hhead := h.head_eq
    have htail := h.tail
    simp only [List.head?_nil, List.getLast?_nil] at hhead htail
    refine ⟨⟨some id, some id⟩, cells.occupied id, ?_, ?_, ?_, ?_⟩
    · simp [TaskQueue.enqueue, Cells.occupy_eq_ok hid hfree, htail, hhead, require, bind,
        Except.bind, pure, Except.pure]
    · refine ⟨⟨rfl, Cells.next_occupied_self hid⟩, rfl, hnodup, ?_⟩
      intro m hm
      rw [Cells.linked_occupied hid]
      simp only [List.nil_append, List.mem_singleton] at hm
      simp [hm]
    · exact Cells.linked_occupied hid
    · intro slot hslot _
      exact Cells.getElem?_occupied_ne cells id hslot
  · rw [List.concat_eq_append] at h hnot hnodup ⊢
    have htail := h.tail
    rw [List.getLast?_append, List.getLast?_singleton, Option.some_or] at htail
    have hlast : last.index < size := h.index_lt (by simp)
    have hne : last.index ≠ id.index := hnot last (by simp)
    obtain ⟨middle, hinit, hstop⟩ := Cells.segment_append.mp h.segment
    obtain ⟨rfl, -⟩ := hstop
    have hinitne : ∀ m ∈ init, m.index ≠ last.index := by
      intro m hm he
      have hn := h.nodup
      rw [List.map_append, List.nodup_append] at hn
      exact hn.2.2 _ (List.mem_map_of_mem hm) _ (by simp) he
    refine ⟨{ q with tail := some id }, (cells.occupied id).setNext last (some id), ?_, ?_, ?_, ?_⟩
    · simp [TaskQueue.enqueue, Cells.occupy_eq_ok hid hfree, htail, bind, Except.bind, pure,
        Except.pure]
    · refine ⟨?_, ?_, hnodup, ?_⟩
      · rw [List.append_assoc]
        refine Cells.segment_append.mpr ⟨some last, ?_, rfl, ?_⟩
        · refine hinit.congr fun m hm => Cells.next_eq_of_getElem? ?_
          rw [Cells.getElem?_setNext_ne _ _ _ (hinitne m hm)]
          exact Cells.getElem?_occupied_ne cells id (hnot m (by simp [hm]))
        · rw [Cells.next_setNext_self hlast]
          refine ⟨rfl, ?_⟩
          have : ((cells.occupied id).setNext last (some id)).next id =
              (cells.occupied id).next id :=
            Cells.next_eq_of_getElem? (Cells.getElem?_setNext_ne _ _ _ (Ne.symm hne))
          rw [this]
          exact Cells.next_occupied_self hid
      · simp
      · intro m hm
        rw [Cells.linked_setNext, Cells.linked_occupied hid]
        rcases List.mem_append.mp hm with hm | hm
        · simp [h.linked m hm]
        · simp only [List.mem_singleton] at hm
          simp [hm]
    · intro slot
      rw [Cells.linked_setNext, Cells.linked_occupied hid]
    · intro slot hslot hout
      rw [Cells.getElem?_setNext_ne _ _ _ (Ne.symm (hout last (by simp)))]
      exact Cells.getElem?_occupied_ne cells id hslot

theorem prepend (h : q.Represents cells l) (hid : id.index < size)
    (hfree : cells.linked id.index = false) :
    ∃ q' cells', q.prepend cells id = .ok (q', cells') ∧ q'.Represents cells' (id :: l) ∧
      (∀ slot, cells'.linked slot = (cells.linked slot || slot == id.index)) ∧
      ∀ slot, slot ≠ id.index → cells'[slot]? = cells[slot]? := by
  have hnot : ∀ m ∈ l, m.index ≠ id.index := fun m hm => h.index_ne_of_free hfree hm
  have hframe : ∀ slot, slot ≠ id.index →
      ((cells.occupied id).setNext id q.head)[slot]? = cells[slot]? := by
    intro slot hslot
    rw [Cells.getElem?_setNext_ne _ _ _ hslot]
    exact Cells.getElem?_occupied_ne cells id hslot
  refine ⟨⟨some id, some (q.tail.getD id)⟩, (cells.occupied id).setNext id q.head, ?_, ?_, ?_,
    hframe⟩
  · simp [TaskQueue.prepend, Cells.occupy_eq_ok hid hfree, bind, Except.bind, pure, Except.pure]
  · refine ⟨⟨rfl, ?_⟩, ?_, ?_, ?_⟩
    · rw [Cells.next_setNext_self hid]
      exact h.segment.congr fun m hm => Cells.next_eq_of_getElem? (hframe _ (hnot m hm))
    · rw [h.tail, List.getLast?_cons]
    · rw [List.map_cons, List.nodup_cons]
      refine ⟨?_, h.nodup⟩
      intro hmem
      obtain ⟨m, hm, he⟩ := List.mem_map.mp hmem
      exact hnot m hm he
    · intro m hm
      rw [Cells.linked_setNext, Cells.linked_occupied hid]
      rcases List.mem_cons.mp hm with rfl | hm
      · simp
      · simp [h.linked m hm]
  · intro slot
    rw [Cells.linked_setNext, Cells.linked_occupied hid]

/-! ## Taking out -/

theorem dequeue_nil (h : q.Represents cells []) :
    q.dequeue cells = (q, cells, none) := by
  have hhead := h.head_eq
  unfold TaskQueue.dequeue
  rw [hhead]
  rfl

theorem dequeue (h : q.Represents cells (id :: l)) :
    ∃ q', q.dequeue cells = (q', cells.vacate id, some id) ∧
      q'.Represents (cells.vacate id) l := by
  have hn := h.nodup
  rw [List.map_cons, List.nodup_cons] at hn
  have hnot : ∀ m ∈ l, m.index ≠ id.index := by
    intro m hm he
    exact hn.1 (he ▸ List.mem_map_of_mem hm)
  have hhead := h.segment.1
  have hrest := h.segment.2
  refine ⟨⟨cells.next id, if (cells.next id).isNone then none else q.tail⟩, ?_, ?_⟩
  · unfold TaskQueue.dequeue
    rw [hhead]
  · refine ⟨?_, ?_, hn.2, ?_⟩
    · refine hrest.congr fun m hm => Cells.next_eq_of_getElem? ?_
      exact Cells.getElem?_vacate_ne cells id (hnot m hm)
    · cases l with
      | nil =>
          have hnone : cells.next id = none := hrest
          simp [hnone]
      | cons following rest =>
          have hsome : cells.next id = some following := hrest.1
          simp [hsome, h.tail, List.getLast?_cons_cons]
    · intro m hm
      rw [Cells.linked_vacate, h.linked m (List.mem_cons_of_mem id hm), Bool.true_and]
      exact bne_iff_ne.mpr (hnot m hm)

theorem erase_of_not_mem (h : q.Represents cells l) (hid : id ∉ l) :
    q.erase cells id = (q, cells, false) := by
  unfold TaskQueue.erase
  rw [h.members_eq, if_neg hid]

private theorem takeWhile_ne_append {before after : List TaskId} (hid : id ∉ before) :
    (before ++ id :: after).takeWhile (fun other => decide (other ≠ id)) = before := by
  induction before with
  | nil => simp
  | cons other rest ih =>
      rw [List.mem_cons, not_or] at hid
      have : decide (other ≠ id) = true := decide_eq_true (Ne.symm hid.1)
      simp only [List.cons_append, List.takeWhile_cons, this, if_true]
      rw [ih hid.2]

theorem split_of_mem (h : q.Represents cells l) (hid : id ∈ l) :
    ∃ before after, l = before ++ id :: after ∧ (∀ m ∈ before, m.index ≠ id.index) ∧
      ∀ m ∈ after, m.index ≠ id.index := by
  obtain ⟨before, after, rfl⟩ := List.append_of_mem hid
  have hn := h.nodup
  rw [List.map_append, List.map_cons, List.nodup_append] at hn
  refine ⟨before, after, rfl, ?_, ?_⟩
  · intro m hm
    exact hn.2.2 _ (List.mem_map_of_mem hm) _ List.mem_cons_self
  · intro m hm he
    exact (List.nodup_cons.mp hn.2.1).1 (he ▸ List.mem_map_of_mem hm)

theorem erase (h : q.Represents cells l) (hid : id ∈ l) :
    ∃ q' cells', q.erase cells id = (q', cells', true) ∧ q'.Represents cells' (l.erase id) ∧
      (∀ slot, cells'.linked slot = (cells.linked slot && slot != id.index)) ∧
      ∀ slot, slot ≠ id.index → (∀ m ∈ l, m.index ≠ slot) → cells'[slot]? = cells[slot]? := by
  obtain ⟨before, after, rfl, hbefore, hafter⟩ := h.split_of_mem hid
  have hnot : id ∉ before := fun hm => hbefore id hm rfl
  have hnotafter : id ∉ after := fun hm => hafter id hm rfl
  have herase : (before ++ id :: after).erase id = before ++ after := by
    rw [List.erase_append_right _ hnot, List.erase_cons_head]
  have hmembers := h.members_eq
  have htail := h.tail
  rw [List.getLast?_append] at htail
  obtain ⟨middle, hsegment, hmiddle, hrest⟩ := Cells.segment_append.mp h.segment
  subst hmiddle
  have hnodup : ((before ++ after).map TaskId.index).Nodup := by
    have hn := h.nodup
    rw [List.map_append, List.map_cons, List.nodup_append] at hn
    rw [List.map_append, List.nodup_append]
    refine ⟨hn.1, (List.nodup_cons.mp hn.2.1).2, ?_⟩
    intro a ha b hb
    exact hn.2.2 a ha b (List.mem_cons_of_mem _ hb)
  rw [herase]
  rcases List.eq_nil_or_concat before with rfl | ⟨init, previous, rfl⟩
  · refine ⟨⟨cells.next id, if q.tail = some id then none else q.tail⟩, cells.vacate id, ?_, ?_,
      Cells.linked_vacate cells id, ?_⟩
    · unfold TaskQueue.erase
      rw [hmembers, if_pos hid, takeWhile_ne_append hnot]
      rfl
    · refine ⟨?_, ?_, hnodup, ?_⟩
      · refine hrest.congr fun m hm => Cells.next_eq_of_getElem? ?_
        exact Cells.getElem?_vacate_ne cells id (hafter m hm)
      · rw [List.nil_append]
        show (if q.tail = some id then none else q.tail) = after.getLast?
        rw [htail, List.getLast?_nil, Option.or_none]
        cases after with
        | nil => simp
        | cons following rest =>
            rw [List.getLast?_cons_cons, if_neg]
            intro hlast
            exact hnotafter (List.mem_of_getLast? hlast)
      · intro m hm
        rw [List.nil_append] at hm
        rw [Cells.linked_vacate, h.linked m (List.mem_cons_of_mem _ hm), Bool.true_and]
        exact bne_iff_ne.mpr (hafter m hm)
    · intro slot hslot _
      exact Cells.getElem?_vacate_ne cells id hslot
  · rw [List.concat_eq_append] at *
    have hprevious : previous.index < size := h.index_lt (by simp)
    have hne : previous.index ≠ id.index := hbefore previous (by simp)
    have hdistinct := h.nodup
    rw [List.append_assoc, List.map_append, List.nodup_append] at hdistinct
    have hinit : ∀ m ∈ init, m.index ≠ previous.index := by
      intro m hm
      exact hdistinct.2.2 _ (List.mem_map_of_mem hm) _ (by simp)
    have hlast : ∀ m ∈ after, m.index ≠ previous.index := by
      intro m hm he
      have hn := hdistinct.2.1
      rw [List.map_append, List.nodup_append] at hn
      exact hn.2.2 _ (by simp) _ (List.mem_map_of_mem (List.mem_cons_of_mem id hm)) he.symm
    obtain ⟨middle, hsegment, hmiddle, hlink⟩ := Cells.segment_append.mp hsegment
    subst hmiddle
    have hframe : ∀ slot, slot ≠ id.index → slot ≠ previous.index →
        ((cells.setNext previous (cells.next id)).vacate id)[slot]? = cells[slot]? := by
      intro slot hslot hprev
      rw [Cells.getElem?_vacate_ne _ _ hslot]
      exact Cells.getElem?_setNext_ne _ _ _ hprev
    refine ⟨{ q with tail := if q.tail = some id then some previous else q.tail },
      (cells.setNext previous (cells.next id)).vacate id, ?_, ?_, ?_, ?_⟩
    · unfold TaskQueue.erase
      rw [hmembers, if_pos hid, takeWhile_ne_append hnot]
      simp
    · refine ⟨?_, ?_, hnodup, ?_⟩
      · rw [List.append_assoc]
        refine Cells.segment_append.mpr ⟨some previous, ?_, rfl, ?_⟩
        · refine hsegment.congr fun m hm => Cells.next_eq_of_getElem? ?_
          exact hframe _ (hbefore m (by simp [hm])) (hinit m hm)
        · have hnext : ((cells.setNext previous (cells.next id)).vacate id).next previous =
              cells.next id := by
            rw [Cells.next_eq_of_getElem? (Cells.getElem?_vacate_ne _ id hne)]
            exact Cells.next_setNext_self hprevious _
          rw [hnext]
          refine hrest.congr fun m hm => Cells.next_eq_of_getElem? ?_
          exact hframe _ (hafter m hm) (hlast m hm)
      · show (if q.tail = some id then some previous else q.tail) = _
        rw [htail, List.getLast?_append, List.getLast?_append, List.getLast?_singleton,
          Option.some_or]
        cases after with
        | nil => simp
        | cons following rest =>
            rw [List.getLast?_cons_cons]
            cases hend : (following :: rest).getLast? with
            | none => simp at hend
            | some last =>
                have hmem : last ∈ following :: rest := List.mem_of_getLast? hend
                have : last ≠ id := fun he => hnotafter (he ▸ hmem)
                simp [this]
      · intro m hm
        rw [Cells.linked_vacate, Cells.linked_setNext]
        rcases List.mem_append.mp hm with hm | hm
        · rw [h.linked m (List.mem_append_left _ hm), Bool.true_and]
          exact bne_iff_ne.mpr (hbefore m hm)
        · rw [h.linked m (List.mem_append_right _ (List.mem_cons_of_mem _ hm)), Bool.true_and]
          exact bne_iff_ne.mpr (hafter m hm)
    · intro slot
      rw [Cells.linked_vacate, Cells.linked_setNext]
    · intro slot hslot hout
      exact hframe slot hslot (Ne.symm (hout previous (by simp)))

/-! ## Adding by key -/

section Sorted

variable {κ : Type} [LE κ] [DecidableLE κ]

def insertedByKey (key : TaskId → κ) (id : TaskId) (l : List TaskId) : List TaskId :=
  l.takeWhile (fun other => !decide (key id ≤ key other)) ++
    id :: l.dropWhile fun other => !decide (key id ≤ key other)

theorem insertByKey (h : q.Represents cells l) (key : TaskId → κ) (hid : id.index < size)
    (hfree : cells.linked id.index = false) :
    ∃ q' cells', q.insertByKey cells id key = .ok (q', cells') ∧
      q'.Represents cells' (insertedByKey key id l) ∧
      (∀ slot, cells'.linked slot = (cells.linked slot || slot == id.index)) ∧
      ∀ slot, slot ≠ id.index → (∀ m ∈ l, m.index ≠ slot) → cells'[slot]? = cells[slot]? := by
  have hmembers := h.members_eq
  have hnot : ∀ m ∈ l, m.index ≠ id.index := fun m hm => h.index_ne_of_free hfree hm
  unfold TaskQueue.insertByKey insertedByKey
  dsimp only
  rw [hmembers]
  generalize hsmaller : (fun other => !decide (key id ≤ key other)) = smaller
  have hsplit : l.takeWhile smaller ++ l.dropWhile smaller = l := List.takeWhile_append_dropWhile
  generalize l.takeWhile smaller = before at hsplit ⊢
  generalize l.dropWhile smaller = after at hsplit ⊢
  subst hsplit
  rcases List.eq_nil_or_concat before with rfl | ⟨init, previous, rfl⟩
  · obtain ⟨q', cells', hok, hrep, hlinked, hframe⟩ := h.prepend hid hfree
    refine ⟨q', cells', ?_, hrep, hlinked, ?_⟩
    · simpa using hok
    · intro slot hslot _
      exact hframe slot hslot
  · rw [List.concat_eq_append] at *
    cases after with
    | nil =>
        have htail := h.tail
        rw [List.append_nil, List.getLast?_append, List.getLast?_singleton,
          Option.some_or] at htail
        obtain ⟨q', cells', hok, hrep, hlinked, hframe⟩ := h.enqueue hid hfree
        rw [List.append_nil] at hrep
        refine ⟨q', cells', ?_, hrep, hlinked, hframe⟩
        simpa [htail, require, bind, Except.bind] using hok
    | cons following rest =>
        have hprevious : previous.index < size := h.index_lt (by simp)
        have hne : previous.index ≠ id.index := hnot previous (by simp)
        obtain ⟨middle, hbefore, hmiddle, hrest⟩ := Cells.segment_append.mp h.segment
        subst hmiddle
        obtain ⟨middle, hinit, hmiddle, hlink⟩ := Cells.segment_append.mp hbefore
        subst hmiddle
        have hdistinct := h.nodup
        rw [List.append_assoc, List.map_append, List.nodup_append] at hdistinct
        have hinitne : ∀ m ∈ init, m.index ≠ previous.index := by
          intro m hm
          exact hdistinct.2.2 _ (List.mem_map_of_mem hm) _ (by simp)
        have hrestne : ∀ m ∈ following :: rest, m.index ≠ previous.index := by
          intro m hm he
          have hn := hdistinct.2.1
          rw [List.map_append, List.nodup_append] at hn
          exact hn.2.2 _ (by simp) _ (List.mem_map_of_mem hm) he.symm
        have hframe : ∀ slot, slot ≠ id.index → slot ≠ previous.index →
            (((cells.occupied id).setNext id (some following)).setNext previous
              (some id))[slot]? = cells[slot]? := by
          intro slot hslot hprev
          rw [Cells.getElem?_setNext_ne _ _ _ hprev, Cells.getElem?_setNext_ne _ _ _ hslot]
          exact Cells.getElem?_occupied_ne cells id hslot
        refine ⟨q, ((cells.occupied id).setNext id (some following)).setNext previous (some id),
          ?_, ?_, ?_, ?_⟩
        · simp [Cells.occupy_eq_ok hid hfree, bind, Except.bind, pure, Except.pure]
        · refine ⟨?_, ?_, ?_, ?_⟩
          · rw [List.append_assoc]
            refine Cells.segment_append.mpr ⟨some previous, ?_, rfl, ?_⟩
            · refine hinit.congr fun m hm => Cells.next_eq_of_getElem? ?_
              exact hframe _ (hnot m (by simp [hm])) (hinitne m hm)
            · rw [Cells.next_setNext_self hprevious]
              refine ⟨rfl, ?_⟩
              rw [Cells.next_eq_of_getElem? (Cells.getElem?_setNext_ne _ _ _ (Ne.symm hne)),
                Cells.next_setNext_self hid]
              have hwhole : cells.Segment (some following) (following :: rest) none := ⟨rfl, hrest⟩
              refine hwhole.congr fun m hm => Cells.next_eq_of_getElem? ?_
              exact hframe _ (hnot m (List.mem_append_right _ hm)) (hrestne m hm)
          · rw [h.tail]
            simp
          · rw [List.map_append, List.map_cons, List.perm_middle.nodup_iff, List.nodup_cons,
              ← List.map_append]
            refine ⟨?_, h.nodup⟩
            intro hmem
            obtain ⟨m, hm, he⟩ := List.mem_map.mp hmem
            exact hnot m hm he
          · intro m hm
            rw [Cells.linked_setNext, Cells.linked_setNext, Cells.linked_occupied hid]
            by_cases he : m = id
            · simp [he]
            · have hmem : m ∈ init ++ [previous] ++ following :: rest := by
                simp only [List.mem_append, List.mem_cons] at hm ⊢
                rcases hm with hm | rfl | hm
                · exact .inl hm
                · exact absurd rfl he
                · exact .inr hm
              simp [h.linked m hmem]
        · intro slot
          rw [Cells.linked_setNext, Cells.linked_setNext, Cells.linked_occupied hid]
        · intro slot hslot hout
          exact hframe slot hslot (Ne.symm (hout previous (by simp)))

end Sorted

end Represents

end TaskQueue

end CoopTasks
