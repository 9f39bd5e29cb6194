import CoopTasks.Proofs.Issuing
import CoopTasks.Proofs.Liveness

/-!
Which slot a start gets.

A stack keeps its slot; a new one gets the first slot never used, and then the
slot of the run that began longest ago among those that have ended
(`Assigned`).  The age of a slot is counted in the starts that the journal
tells of (`starts`), and the generations keep to it until their number wraps
around.  A start is refused only if every slot has a run that goes on.
-/

namespace CoopTasks

/-! ## The least of a list -/

theorem leastBy_eq_none {α κ : Type} [LT κ] [DecidableLT κ] {key : α → κ} {l : List α} :
    leastBy key l = none ↔ l = [] := by
  cases l with
  | nil => exact iff_of_true rfl rfl
  | cons a rest =>
      unfold leastBy
      refine iff_of_false ?_ (List.cons_ne_nil a rest)
      split
      · exact Option.some_ne_none a
      · split <;> exact Option.some_ne_none _

theorem leastBy_le {α : Type} {key : α → UInt32} {l : List α} {a b : α}
    (h : leastBy key l = some a) (hb : b ∈ l) : key a ≤ key b := by
  induction l generalizing a with
  | nil => contradiction
  | cons c rest ih =>
      unfold leastBy at h
      cases hrest : leastBy key rest with
      | none =>
          rw [hrest, Option.some.injEq] at h
          rw [leastBy_eq_none.mp hrest, List.mem_singleton] at hb
          rw [hb, h]
          exact UInt32.le_refl _
      | some d =>
          rw [hrest] at h
          dsimp only at h
          rcases List.mem_cons.mp hb with rfl | hb
          · split at h
            · rename_i hlt
              obtain rfl := Option.some.inj h
              exact UInt32.le_of_lt hlt
            · obtain rfl := Option.some.inj h
              exact UInt32.le_refl _
          · have hle := ih hrest hb
            split at h
            · obtain rfl := Option.some.inj h
              exact hle
            · rename_i hnot
              obtain rfl := Option.some.inj h
              exact UInt32.le_trans (UInt32.not_lt.mp hnot) hle

/-! ## The links of a task at the end -/

variable {size : Nat}

/-- The last of a queue is linked to a task behind it, and no other link changes. -/
structure LinkedBehind (l : List TaskId) (id : TaskId) (cells cells' : Cells size) : Prop where
  self : cells'[id.index]? = some ⟨none, true⟩
  last : ∀ last, l.getLast? = some last → cells'[last.index]? = some ⟨some id, true⟩
  other : ∀ slot, slot ≠ id.index → (∀ last, l.getLast? = some last → slot ≠ last.index) →
    cells'[slot]? = cells[slot]?

theorem TaskQueue.Represents.linkedBehind {q q' : TaskQueue} {cells cells' : Cells size}
    {l : List TaskId} {id : TaskId} (h : q.Represents cells l) (hid : id.index < size)
    (hfree : cells.linked id.index = false) (hok : q.enqueue cells id = .ok (q', cells')) :
    LinkedBehind l id cells cells' := by
  have htail := h.tail
  simp only [TaskQueue.enqueue, Cells.occupy_eq_ok hid hfree, bind_eq_ok, Except.ok.injEq,
    exists_eq_left'] at hok
  split at hok
  · rename_i hnone
    simp only [bind_eq_ok, require_eq_ok, pure_eq_ok, Prod.mk.injEq, exists_and_left,
      exists_const] at hok
    obtain ⟨_, _, rfl⟩ := hok
    rw [hnone] at htail
    refine ⟨cells.getElem?_occupied_self hid, fun last hlast => ?_, fun slot hslot _ => ?_⟩
    · rw [← htail] at hlast
      contradiction
    · exact Cells.getElem?_occupied_ne cells id hslot
  · rename_i last hsome
    simp only [pure_eq_ok, Prod.mk.injEq] at hok
    obtain ⟨_, rfl⟩ := hok
    rw [hsome] at htail
    have hmem : last ∈ l := List.mem_of_getLast? htail.symm
    have hne : last.index ≠ id.index := h.index_ne_of_free hfree hmem
    have hlinked : (cells.occupied id).linked last.index = true := by
      rw [Cells.linked_occupied hid, h.linked last hmem, Bool.true_or]
    refine ⟨?self, fun other hother => ?last, fun slot hslot hother => ?other⟩
    case self =>
      rw [Cells.getElem?_setNext_ne _ _ _ (Ne.symm hne)]
      exact cells.getElem?_occupied_self hid
    case last =>
      rw [← htail] at hother
      obtain rfl := Option.some.inj hother
      exact Cells.getElem?_setNext_self hlinked (some id)
    case other =>
      rw [Cells.getElem?_setNext_ne _ _ _ (hother last htail.symm)]
      exact Cells.getElem?_occupied_ne cells id hslot

def Notice.start? : Notice → Option (TaskId × StackRange)
  | .started id stack => some (id, stack)
  | .woken .. | .alarmArmed .. | .exited .. | .drained => none

namespace Scheduler

variable {H : Type} {s t u : Scheduler H} {id : TaskId} {slot : Nat} {stack : StackRange}

theorem Standing.cells_admitMainline (h : s.Standing) (hok : s.admitMainline = .ok u) :
    ∀ slot, (∀ last, s.admitted.getLast? = some last → slot ≠ last.index) →
      u.tasks.cells[slot]? = s.tasks.cells[slot]? := by
  intro slot hslot
  have hempty := h.ready.isEmpty_eq
  unfold Scheduler.admitMainline at hok
  rw [hempty] at hok
  simp only [bind_eq_ok, Except.ok.injEq, exists_eq_left'] at hok
  split at hok
  · rename_i hnone
    have hnot : slot ≠ TaskId.mainline.index := by
      apply hslot
      rw [admitted, if_pos (List.isEmpty_iff.mp hnone)]
      rfl
    simp only [bind_eq_ok, pure_eq_ok, Prod.exists, TaskQueue.prepend, Prod.mk.injEq] at hok
    obtain ⟨q, cells, ⟨occupied, hoccupy, _, rfl⟩, rfl⟩ := hok
    simp only [Cells.occupy, bind_eq_ok, pure_eq_ok] at hoccupy
    obtain ⟨_, _, _, _, rfl⟩ := hoccupy
    show (Cells.setNext _ _ _)[slot]? = _
    rw [Cells.getElem?_setNext_ne _ _ _ hnot, Vector.getElem?_setIfInBounds,
      if_neg (Ne.symm hnot)]
    rfl
  · rw [pure_eq_ok] at hok
    rw [hok]

/-! ## The starts so far -/

def starts (s : Scheduler H) : List (TaskId × StackRange) :=
  s.journal.filterMap Notice.start?

def startIn (slot : Nat) (start : TaskId × StackRange) : Bool :=
  OfSlot slot start.1

def startOn (stack : StackRange) (start : TaskId × StackRange) : Bool :=
  decide (start.2 = stack)

def age (s : Scheduler H) (slot : Nat) : Nat :=
  s.starts.findIdx (startIn slot)

theorem starts_eq_chronicle (s : Scheduler H) :
    s.starts = s.chronicle.filterMap Notice.start? := by
  unfold starts chronicle
  rw [List.filterMap_filter]
  congr 1
  funext notice
  cases notice <;> rfl

theorem starts_congr (h : t.chronicle = s.chronicle) : t.starts = s.starts := by
  rw [starts_eq_chronicle, starts_eq_chronicle, h]

/-- The latest start on a stack is the latest one in its slot as well. -/
structure LastStart (s : Scheduler H) (id : TaskId) (stack : StackRange) : Prop where
  slot : s.starts.find? (startIn id.index) = some (id, stack)
  stack : s.starts.find? (startOn stack) = some (id, stack)

/-- What the starts tell of the slots. -/
structure Listed (s : Scheduler H) : Prop where
  registered : Registered (s.starts.map Prod.fst) s
  placed : ∀ start ∈ s.starts, start.1.index ∈ slots
  last : ∀ slot ∈ slots, (s.tasks.record slot).state ≠ .vacant →
    s.LastStart (s.idOf slot) (s.tasks.record slot).stack

theorem listed_new (hardware : H) : (new hardware).Listed := by
  have hvacant : ∀ slot, ((new hardware).tasks.record slot).state = .vacant :=
    fun slot => congrArg TaskRecord.state (TaskTable.record_vacant slot)
  exact ⟨registered_new hardware, nofun, fun slot _ hused => absurd (hvacant slot) hused⟩

theorem Listed.bound (h : s.Listed) (ht : t.Standing) (hbound : Bound s t)
    (hgeneration : t.generation = s.generation) (hstarts : t.starts = s.starts) : t.Listed := by
  refine ⟨?registered, ?placed, fun slot hslot hused => ?last⟩
  case registered =>
    rw [hstarts]
    exact h.registered.bound ht hbound hgeneration
  case placed =>
    rw [hstarts]
    exact h.placed
  case last =>
    obtain ⟨hstack, _, hvacant⟩ := hbound slot hslot
    obtain ⟨hin, hon⟩ := h.last slot hslot (mt hvacant.mpr hused)
    rw [hbound.idOf hslot, hstack]
    exact ⟨hstarts ▸ hin, hstarts ▸ hon⟩

theorem Listed.taskOn_eq_some_iff (h : s.Listed) (hrecounted : s.Recounted) :
    s.taskOn stack = some id ↔ s.LastStart id stack := by
  constructor
  · intro htask
    obtain ⟨hslot, hidOf, hused, rfl⟩ := taskOn_spec htask
    have hlast := h.last id.index hslot hused
    rwa [hidOf] at hlast
  · intro hlast
    have hslot : id.index ∈ slots := h.placed _ (List.mem_of_find?_eq_some hlast.slot)
    have hnamed : (s.starts.map Prod.fst).find? (OfSlot id.index) = some id := by
      rw [List.find?_map, show (OfSlot id.index ∘ Prod.fst) = startIn id.index from rfl, hlast.slot]
      rfl
    rw [h.registered.last id.index hslot] at hnamed
    split at hnamed
    · contradiction
    · rename_i hused
      have hidOf := Option.some.inj hnamed
      have hsame := (h.last id.index hslot hused).slot
      rw [hidOf, hlast.slot, Option.some.injEq, Prod.mk.injEq] at hsame
      rw [taskOn_of_only (hrecounted.only stack) hslot
        (boundTo_eq_true.mpr ⟨hused, hsame.2.symm⟩), hidOf]

theorem Listed.start_at_age (h : s.Listed) (hslot : slot ∈ slots)
    (hused : (s.tasks.record slot).state ≠ .vacant) :
    ∃ h : s.age slot < s.starts.length, s.starts[s.age slot].1 = s.idOf slot := by
  have hlast := (h.last slot hslot hused).slot
  rw [s.index_idOf (Scheduler.mem_slots.mp hslot).2] at hlast
  obtain ⟨hin, i, hi, hget, hbefore⟩ := List.find?_eq_some_iff_getElem.mp hlast
  have hage : s.age slot = i := by
    refine (List.findIdx_eq hi).mpr ⟨?_, fun j hj => ?_⟩
    · rwa [hget]
    · exact Bool.not_eq_true' _ |>.mp (hbefore j hj)
  subst hage
  exact ⟨hi, by rw [hget]⟩

theorem Listed.age_lt (h : s.Listed) {other : Nat} (hslot : slot ∈ slots) (hother : other ∈ slots)
    (hused : (s.tasks.record slot).state ≠ .vacant)
    (hotherUsed : (s.tasks.record other).state ≠ .vacant) (hne : other ≠ slot)
    (hle : (s.tasks.record slot).generation ≤ (s.tasks.record other).generation) :
    s.age other < s.age slot := by
  obtain ⟨hi, hget⟩ := h.start_at_age hslot hused
  obtain ⟨hj, hgetOther⟩ := h.start_at_age hother hotherUsed
  have hnewest := List.pairwise_iff_getElem.mp (List.pairwise_map.mp h.registered.newest)
  rcases Nat.lt_trichotomy (s.age other) (s.age slot) with hlt | heq | hgt
  · exact hlt
  · have hsame : s.idOf other = s.idOf slot := by
      rw [← hget, ← hgetOther]
      simp only [heq]
    have hindex := congrArg TaskId.index hsame
    rw [s.index_idOf (Scheduler.mem_slots.mp hslot).2,
      s.index_idOf (Scheduler.mem_slots.mp hother).2] at hindex
    exact absurd hindex hne
  · have hlater := hnewest _ _ hi hj hgt
    rw [hget, hgetOther] at hlater
    exact absurd (UInt32.le_iff_toNat_le.mp hle) (Nat.not_le.mpr hlater)

/-! ## The slot of a start -/

def Held (s : Scheduler H) (stack : StackRange) : Prop :=
  ∃ slot ∈ slots, s.Occupied slot ∧ (s.tasks.record slot).stack = stack

def FullBeside (s : Scheduler H) (stack : StackRange) : Prop :=
  ∀ slot ∈ slots, s.Occupied slot ∧ (s.tasks.record slot).stack ≠ stack

/--
The slot for a stack: the one bound to it, else the first one never used, else,
of those whose run has ended, the one that has been in use the longest.
-/
inductive Assigned (s : Scheduler H) (stack : StackRange) (slot : Nat) : Prop
  | bound :
      s.boundTo stack slot = true →
      Assigned s stack slot
  | vacant :
      (∀ other ∈ slots, s.boundTo stack other = false) →
      (s.tasks.record slot).state = .vacant →
      (∀ other ∈ slots, (s.tasks.record other).state = .vacant → slot ≤ other) →
      Assigned s stack slot
  | oldest :
      (∀ other ∈ slots, s.boundTo stack other = false) →
      (∀ other ∈ slots, (s.tasks.record other).state ≠ .vacant) →
      (s.tasks.record slot).state = .exited →
      (∀ other ∈ slots, other ≠ slot → (s.tasks.record other).state = .exited →
        s.age other < s.age slot) →
      Assigned s stack slot

theorem Assigned.unique (h : s.Assigned stack slot) {other : Nat} (h' : s.Assigned stack other)
    (hrecounted : s.Recounted) (hslot : slot ∈ slots) (hother : other ∈ slots) : slot = other := by
  cases h with
  | bound hbound =>
      cases h' with
      | bound hbound' => exact hrecounted.only stack slot hslot other hother hbound hbound'
      | vacant hnew _ _ | oldest hnew _ _ _ =>
          rw [hnew slot hslot] at hbound
          contradiction
  | vacant hnew hvacant hfirst =>
      cases h' with
      | bound hbound =>
          rw [hnew other hother] at hbound
          contradiction
      | vacant _ hvacant' hfirst' =>
          exact Nat.le_antisymm (hfirst other hother hvacant') (hfirst' slot hslot hvacant)
      | oldest _ hused _ _ => exact absurd hvacant (hused slot hslot)
  | oldest hnew hused hexited holdest =>
      cases h' with
      | bound hbound =>
          rw [hnew other hother] at hbound
          contradiction
      | vacant _ hvacant _ => exact absurd hvacant (hused other hother)
      | oldest _ _ hexited' holdest' =>
          apply Classical.byContradiction
          intro hne
          exact absurd (holdest other hother (Ne.symm hne) hexited')
            (Nat.lt_asymm (holdest' slot hslot hne hexited))

theorem Assigned.not_occupied (h : s.Assigned stack slot) (hslot : slot ∈ slots)
    (hheld : ¬s.Held stack) : ¬s.Occupied slot := by
  cases h with
  | bound hbound =>
      exact fun hoccupied => hheld ⟨slot, hslot, hoccupied, (boundTo_eq_true.mp hbound).2⟩
  | vacant _ hvacant _ => exact fun hoccupied => hoccupied.1 hvacant
  | oldest _ _ hexited _ => exact fun hoccupied => hoccupied.2 hexited

theorem first_vacant (hfind : slots.find?
    (fun slot => decide ((s.tasks.record slot).state = .vacant)) = some slot) :
    ∀ other ∈ slots, (s.tasks.record other).state = .vacant → slot ≤ other := by
  have hsorted : slots.Pairwise (· ≤ ·) := by decide
  obtain ⟨_, before, after, hsplit, hbefore⟩ := List.find?_eq_some_iff_append.mp hfind
  intro other hother hvacant
  rw [hsplit] at hother hsorted
  rcases List.mem_append.mp hother with hmem | hmem
  · have hnot := hbefore other hmem
    rw [hvacant] at hnot
    contradiction
  · rcases List.mem_cons.mp hmem with rfl | hmem
    · exact Nat.le_refl other
    · exact (List.pairwise_cons.mp (List.pairwise_append.mp hsorted).2.1).1 other hmem

theorem Listed.assigned (h : s.Listed) (hchosen : s.chooseSlot stack = some slot) :
    s.Assigned stack slot := by
  have hslot := chooseSlot_mem hchosen
  unfold chooseSlot at hchosen
  cases htask : s.taskOn stack with
  | some id =>
      rw [htask] at hchosen
      obtain rfl := Option.some.inj hchosen
      exact .bound (taskOn_eq_some htask).2.1
  | none =>
      have hnew : ∀ other ∈ slots, s.boundTo stack other = false :=
        fun other hother => boundTo_of_taskOn_none htask hother
      rw [htask] at hchosen
      dsimp only at hchosen
      split at hchosen
      · rename_i found hfind
        obtain rfl := Option.some.inj hchosen
        have hvacant := List.find?_some hfind
        rw [decide_eq_true_iff] at hvacant
        exact .vacant hnew hvacant (first_vacant hfind)
      · rename_i hfind
        have hused : ∀ other ∈ slots, (s.tasks.record other).state ≠ .vacant := by
          intro other hother hvacant
          exact List.find?_eq_none.mp hfind other hother (decide_eq_true hvacant)
        have hexited := (List.mem_filter.mp (leastBy_mem hchosen)).2
        rw [Bool.and_eq_true, decide_eq_true_iff] at hexited
        refine .oldest hnew hused hexited.1 fun other hother hne hended => ?_
        have hunlinked : s.tasks.cells.linked other = false :=
          h.registered.standing.unlinked hother fun hoccupied => hoccupied.2 hended
        have hfree : (decide ((s.tasks.record other).state = .exited) &&
            !s.tasks.cells.linked other) = true := by
          rw [hunlinked, decide_eq_true hended]
          rfl
        have hle := leastBy_le hchosen (List.mem_filter.mpr ⟨hother, hfree⟩)
        exact h.age_lt hslot hother (hused slot hslot) (hused other hother) hne hle

theorem Standing.full_of_chooseSlot (hs : s.Standing) (hnone : s.chooseSlot stack = none) :
    s.FullBeside stack := by
  unfold chooseSlot at hnone
  cases htask : s.taskOn stack with
  | some id =>
      rw [htask] at hnone
      contradiction
  | none =>
      rw [htask] at hnone
      dsimp only at hnone
      split at hnone
      · contradiction
      · rename_i hfind
        rw [leastBy_eq_none, List.filter_eq_nil_iff] at hnone
        intro slot hslot
        have hused : (s.tasks.record slot).state ≠ .vacant := fun hvacant =>
          List.find?_eq_none.mp hfind slot hslot (decide_eq_true hvacant)
        have hgoes : (s.tasks.record slot).state ≠ .exited := by
          intro hexited
          refine hnone slot hslot ?_
          rw [hs.unlinked hslot fun hoccupied => hoccupied.2 hexited, decide_eq_true hexited]
          rfl
        refine ⟨⟨hused, hgoes⟩, fun hstack => ?_⟩
        have hbound := boundTo_of_taskOn_none htask hslot
        rw [boundTo_eq_true.mpr ⟨hused, hstack⟩] at hbound
        contradiction

theorem FullBeside.not_assigned (h : s.FullBeside stack) (hslot : slot ∈ slots) :
    ¬s.Assigned stack slot := by
  obtain ⟨hoccupied, hother⟩ := h slot hslot
  intro hassigned
  cases hassigned with
  | bound hbound => exact hother (boundTo_eq_true.mp hbound).2
  | vacant _ hvacant _ => exact hoccupied.1 hvacant
  | oldest _ _ hexited _ => exact hoccupied.2 hexited

theorem Listed.chooseSlot_eq_some_iff (h : s.Listed) (hrecounted : s.Recounted) :
    s.chooseSlot stack = some slot ↔ slot ∈ slots ∧ s.Assigned stack slot := by
  constructor
  · exact fun hchosen => ⟨chooseSlot_mem hchosen, h.assigned hchosen⟩
  · rintro ⟨hslot, hassigned⟩
    cases hchosen : s.chooseSlot stack with
    | none =>
        have hfull := h.registered.standing.full_of_chooseSlot hchosen
        exact absurd hassigned (hfull.not_assigned hslot)
    | some other =>
        rw [(h.assigned hchosen).unique hassigned hrecounted (chooseSlot_mem hchosen) hslot]

theorem Listed.chooseSlot_eq_none_iff (h : s.Listed) :
    s.chooseSlot stack = none ↔ s.FullBeside stack := by
  refine ⟨h.registered.standing.full_of_chooseSlot, fun hfull => ?_⟩
  cases hchosen : s.chooseSlot stack with
  | none => rfl
  | some slot => exact absurd (h.assigned hchosen) (hfull.not_assigned (chooseSlot_mem hchosen))

theorem Recounted.stackInUse_iff (h : s.Recounted) (htruthful : s.Truthful) :
    s.stackInUse stack = true ↔ s.Held stack := by
  rw [h.inUse htruthful]
  constructor
  · rintro ⟨id, hliving⟩
    rw [← living_chronicle, h.alive] at hliving
    exact ⟨id.index, hliving.1, hliving.2.1, hliving.2.2.2⟩
  · rintro ⟨slot, hslot, hoccupied, hstack⟩
    refine ⟨s.idOf slot, ?_⟩
    rw [← living_chronicle, h.alive, s.record_idOf (Scheduler.mem_slots.mp hslot).2,
      s.index_idOf (Scheduler.mem_slots.mp hslot).2]
    exact ⟨hslot, hoccupied, rfl, hstack⟩

/-! ## The links that a start changes -/

variable [Hardware H] {pointer : Address}

theorem Started.linkedBehind (h : Started s stack pointer id t) (hs : s.Standing)
    (hok : s.spawn stack pointer = .ok (t, .ok id)) :
    LinkedBehind s.admitted id s.tasks.cells t.tasks.cells := by
  obtain ⟨hne, hlt⟩ := h.mem_slots
  unfold spawn at hok
  simp only [bind_eq_ok, require_eq_ok, exists_and_left, exists_const] at hok
  obtain ⟨_, hok⟩ := hok
  rw [h.chosen] at hok
  simp only [bind_eq_ok, pure_eq_ok, Prod.mk.injEq, Except.ok.injEq] at hok
  obtain ⟨u, hadmit, tasks, hstart, v, henqueue, rfl, hid⟩ := hok
  rw [hid] at henqueue
  obtain ⟨u', hu', hplaced, _⟩ := hs.admitMainline
  obtain rfl := Except.ok.inj (hu'.symm.trans hadmit)
  have hfree : u'.tasks.cells.linked id.index = false := by
    simp only [TaskTable.start, bind_eq_ok, require_eq_ok, exists_and_left] at hstart
    exact hstart.1
  obtain ⟨tasks', hstart', hopen⟩ := hplaced.start hne hlt hfree
  obtain rfl := Except.ok.inj (hstart'.symm.trans hstart)
  have hunlinked : tasks'.cells.linked id.index = false := hopen.unlinked hne
  have hsame : ∀ slot, slot ≠ id.index → tasks'.cells[slot]? = u'.tasks.cells[slot]? := by
    intro slot hslot
    simp only [TaskTable.start, bind_eq_ok, require_eq_ok, pure_eq_ok, exists_and_left,
      exists_const] at hstart
    obtain ⟨_, rfl⟩ := hstart
    rw [Vector.getElem?_setIfInBounds, if_neg (Ne.symm hslot)]
  simp only [enqueue, bind_eq_ok, pure_eq_ok, Prod.exists] at henqueue
  obtain ⟨ready, cells, henqueue, rfl⟩ := henqueue
  obtain ⟨hself, hlast, hother⟩ := hopen.ready.linkedBehind hlt hunlinked henqueue
  refine ⟨hself, hlast, fun slot hslot hnot => ?_⟩
  exact (hother slot hslot hnot).trans
    ((hsame slot hslot).trans (hs.cells_admitMainline hadmit slot hnot))

/-! ## Every run -/

theorem starts_spawn (hok : s.spawn stack pointer = .ok (t, .ok id)) :
    t.starts = (id, stack) :: s.starts := by
  rw [starts_eq_chronicle, starts_eq_chronicle, chronicle_spawn hok]
  rfl

theorem Standing.starts_perform (hs : s.Standing) (hlived : s.Lived) {op : Operation}
    {decision : Option Decision} (hop : op.spawns = false)
    (hok : s.perform op = .ok (t, decision)) : t.starts = s.starts := by
  by_cases hswitches : op.switches = true
  · cases op <;> simp only [Operation.switches, Bool.false_eq_true] at hswitches
    obtain ⟨decision, hreschedule, _⟩ := perform_reschedule_eq_ok.mp hok
    obtain ⟨id, rest, _, _, _, _, hswitched⟩ := hs.reschedule hreschedule
    have hhead : s.runQueue.head? = some id := by rw [hswitched.suspended.runQueue]; rfl
    rw [starts_eq_chronicle, starts_eq_chronicle, chronicle_reschedule hs hhead hreschedule]
    unfold ending
    split <;> rfl
  · exact starts_congr (hs.lasts_of_perform hlived hok hop (Bool.eq_false_iff.mpr hswitches)).1

theorem Listed.started (h : s.Listed) (hrecounted : s.Recounted)
    (hstarted : Started s stack pointer id t) (hstarts : t.starts = (id, stack) :: s.starts)
    (hfew : t.starts.length < UInt32.size) : t.Listed := by
  have hslot : id.index ∈ slots := Scheduler.mem_slots.mpr hstarted.mem_slots
  rw [hstarts, List.length_cons] at hfew
  refine ⟨?registered, ?placed, fun slot hmem hused => ?last⟩
  case registered =>
    rw [hstarts, List.map_cons]
    exact h.registered.started hstarted (by rwa [List.length_map])
  case placed =>
    rw [hstarts]
    exact List.forall_mem_cons.mpr ⟨hslot, h.placed⟩
  case last =>
    by_cases he : slot = id.index
    · subst he
      have hself : (t.tasks.record id.index).stack = stack :=
        congrArg TaskRecord.stack hstarted.self
      rw [hself, hstarted.idOf]
      constructor <;> rw [hstarts] <;> exact List.find?_cons_of_pos (decide_eq_true rfl)
    · have hrecord := hstarted.record_other hmem he
      rw [hrecord] at hused ⊢
      obtain ⟨hin, hon⟩ := h.last slot hmem hused
      rw [idOf_eq (congrArg TaskRecord.generation hrecord)]
      constructor <;> rw [hstarts]
      · rw [List.find?_cons_of_neg, hin]
        rw [s.index_idOf (Scheduler.mem_slots.mp hmem).2]
        exact fun hsame => he (of_decide_eq_true hsame).symm
      · rw [List.find?_cons_of_neg, hon]
        -- the stack of the start is bound to no slot but its own
        intro hsame
        have hbound := hrecounted.chosen hstarted.chosen hmem he
        rw [boundTo_eq_true.mpr ⟨hused, (of_decide_eq_true hsame).symm⟩] at hbound
        contradiction

theorem Reachable.listed (h : Reachable s) (hfew : s.starts.length < UInt32.size) :
    s.Listed := by
  induction h with
  | @new hardware => exact listed_new hardware
  | @elapse s hardware hreachable ih =>
      have hmoved := alarmMoved s hardware s.armed
      exact (ih hfew).bound (hmoved.standing hreachable.invariants.1) (.refl s) rfl rfl
  | @perform s t op decision hreachable hok ih =>
      obtain ⟨hs, _⟩ := hreachable.invariants
      cases hspawns : op.spawns with
      | false =>
          have hstarts := hs.starts_perform hreachable.lived hspawns hok
          have hperformed := hs.perform hok
          obtain ⟨hbound, hgeneration⟩ := hperformed.bound hs hspawns
          exact (ih (hstarts ▸ hfew)).bound (hperformed.standing hs) hbound hgeneration hstarts
      | true =>
          cases op <;> simp only [Operation.spawns, Bool.false_eq_true] at hspawns
          obtain ⟨⟨outcome, hspawn⟩, _⟩ := perform_spawn_eq_ok.mp hok
          rcases hs.spawn hspawn with ⟨_, rfl⟩ | ⟨id, rfl, hstarted⟩
          · exact ih hfew
          · have hstarts := starts_spawn hspawn
            have hless : s.starts.length < UInt32.size := by
              rw [hstarts, List.length_cons] at hfew
              exact Nat.lt_of_succ_lt hfew
            exact (ih hless).started hreachable.recounted hstarted hstarts hfew

/-! ## What comes of a start -/

theorem spawn_of_inUse (hused : s.stackInUse stack = true) (pointer : Address) :
    s.spawn stack pointer = .error .stackInUse := by
  unfold spawn require
  rw [hused]
  rfl

theorem spawn_of_full (hunused : s.stackInUse stack = false) (hnone : s.chooseSlot stack = none)
    (pointer : Address) : s.spawn stack pointer = .ok (s, .error .allSlotsLive) := by
  unfold spawn require
  rw [hunused, hnone]
  rfl

/-- What starts do in a state, on every stack, and which task is found on a stack. -/
structure Allots (s : Scheduler H) : Prop where
  given : ∀ stack pointer slot, ¬s.Held stack → slot ∈ slots → s.Assigned stack slot →
    ¬s.Occupied slot ∧ ∃ t id, s.spawn stack pointer = .ok (t, .ok id) ∧ id.index = slot ∧
      Started s stack pointer id t ∧
      LinkedBehind s.admitted id s.tasks.cells t.tasks.cells
  exhausted : ∀ stack, ¬s.Held stack →
    ((¬∃ slot ∈ slots, s.Assigned stack slot) ↔ s.FullBeside stack)
  refused : ∀ stack pointer t, ¬s.Held stack →
    (s.spawn stack pointer = .ok (t, .error .allSlotsLive) ↔ t = s ∧ s.FullBeside stack)
  inUse : ∀ stack pointer, s.Held stack → s.spawn stack pointer = .error .stackInUse
  only : ∀ a ∈ slots, ∀ b ∈ slots, (s.tasks.record a).state ≠ .vacant →
    (s.tasks.record b).state ≠ .vacant →
    (s.tasks.record a).stack = (s.tasks.record b).stack → a = b
  found : ∀ stack id, s.taskOn stack = some id ↔
    id.index ∈ slots ∧ s.boundTo stack id.index = true ∧ s.idOf id.index = id
  last : ∀ stack id, s.taskOn stack = some id ↔ s.LastStart id stack

theorem Listed.given (h : s.Listed) (hrecounted : s.Recounted) (htruthful : s.Truthful)
    (hheld : ¬s.Held stack) (hslot : slot ∈ slots) (hassigned : s.Assigned stack slot)
    (pointer : Address) :
    ∃ t id, s.spawn stack pointer = .ok (t, .ok id) ∧ id.index = slot ∧
      Started s stack pointer id t ∧
      LinkedBehind s.admitted id s.tasks.cells t.tasks.cells := by
  have hs := h.registered.standing
  have hchosen := (h.chooseSlot_eq_some_iff hrecounted).mpr ⟨hslot, hassigned⟩
  have hunused := Bool.eq_false_iff.mpr (mt (hrecounted.stackInUse_iff htruthful).mp hheld)
  have hfree := hs.unlinked hslot (hassigned.not_occupied hslot hheld)
  obtain ⟨t, id, hok, hstarted⟩ :
      ∃ t id, s.spawn stack pointer = .ok (t, .ok id) ∧ Started s stack pointer id t :=
    hs.spawn_chosen hunused hchosen hfree
  have hindex : id.index = slot := Option.some.inj (hstarted.chosen.symm.trans hchosen)
  exact ⟨t, id, hok, hindex, hstarted, hstarted.linkedBehind hs hok⟩

/--
As long as the number of starts fits a generation, a start on a stack without a
live task takes the slot assigned to the stack, and touches no other task but
the last one of the run queue, whose link leads to the new one.  It is refused
if and only if there is no such slot, because all are live; then nothing
changes.
-/
theorem Sheltered.allots (h : Sheltered s) (hfew : s.starts.length < UInt32.size) :
    s.Allots := by
  have hlisted := h.reachable.listed hfew
  have hrecounted := h.reachable.recounted
  have hunused : ∀ stack, ¬s.Held stack → s.stackInUse stack = false := fun stack hheld =>
    Bool.eq_false_iff.mpr (mt (hrecounted.stackInUse_iff h.truthful).mp hheld)
  have hnone : ∀ stack, (¬∃ slot ∈ slots, s.Assigned stack slot) ↔ s.FullBeside stack := by
    intro stack
    rw [← hlisted.chooseSlot_eq_none_iff, Option.eq_none_iff_forall_ne_some, not_exists]
    exact forall_congr' fun slot => not_congr (hlisted.chooseSlot_eq_some_iff hrecounted).symm
  refine ⟨?given, fun stack _ => hnone stack, ?refused, ?inUse, ?only, ?found, ?last⟩
  case given =>
    intro stack pointer slot hheld hslot hassigned
    exact ⟨hassigned.not_occupied hslot hheld,
      hlisted.given hrecounted h.truthful hheld hslot hassigned pointer⟩
  case refused =>
    intro stack pointer t hheld
    constructor
    · intro hok
      refine ⟨?_, (hnone stack).mp ?_⟩
      · rcases hlisted.registered.standing.spawn hok with ⟨_, rfl⟩ | ⟨_, hanswer, _⟩
        · rfl
        · contradiction
      · rintro ⟨slot, hslot, hassigned⟩
        obtain ⟨_, _, hgiven, _⟩ :=
          hlisted.given hrecounted h.truthful hheld hslot hassigned pointer
        rw [hok] at hgiven
        simp at hgiven
    · rintro ⟨rfl, hfull⟩
      exact spawn_of_full (hunused stack hheld) (hlisted.chooseSlot_eq_none_iff.mpr hfull) pointer
  case inUse =>
    intro stack pointer hheld
    exact spawn_of_inUse ((hrecounted.stackInUse_iff h.truthful).mpr hheld) pointer
  case only =>
    intro a ha b hb haUsed hbUsed hsame
    exact hrecounted.only _ a ha b hb (boundTo_eq_true.mpr ⟨haUsed, hsame⟩)
      (boundTo_eq_true.mpr ⟨hbUsed, rfl⟩)
  case found =>
    intro stack id
    refine ⟨taskOn_eq_some, fun ⟨hslot, hbound, hidOf⟩ => ?_⟩
    rw [taskOn_of_only (hrecounted.only stack) hslot hbound, hidOf]
  case last =>
    intro stack id
    exact hlisted.taskOn_eq_some_iff hrecounted

def arenaStack (number : Nat) : StackRange :=
  ⟨0x20000000 + 0x1000 * UInt64.ofNat number, 0x20000400 + 0x1000 * UInt64.ofNat number⟩

def arenaStart (number : Nat) : Operation :=
  .spawn (arenaStack number) (arenaStack number).framePointer

def arenaExit (number : Nat) : List Operation :=
  [.markExiting 0, .reschedule (arenaStack number).framePointer]

/--
All slots have been used.  The first task has exited, then the second, and then
the first once more, which has started all the others.
-/
def crowded : Except Fault (Scheduler Board) :=
  (new (Board.start Instant.zero)).performAll <|
    [arenaStart 1, arenaStart 2, .reschedule Board.mainlinePointer] ++ arenaExit 1 ++
      [arenaStart 1] ++ arenaExit 2 ++ (List.range' 3 13).map arenaStart ++ arenaExit 1

theorem allots_crowded :
    ∃ (s t : Scheduler Board) (id : TaskId), Sheltered s ∧ s.starts.length < UInt32.size ∧
      s.Allots ∧ (s.tasks.record 1).state = .exited ∧ (s.tasks.record 2).state = .exited ∧
      s.Assigned (arenaStack 16) 2 ∧
      s.spawn (arenaStack 16) (arenaStack 16).framePointer = .ok (t, .ok id) ∧ id.index = 2 ∧
      Started s (arenaStack 16) (arenaStack 16).framePointer id t := by
  obtain ⟨s, hs⟩ := Option.isSome_iff_exists.mp
    (show crowded.toOption.isSome = true by decide +kernel)
  have hfacts : crowded.toOption.map (fun s => decide (s.starts.length = 16 ∧
      (s.tasks.record 1).state = .exited ∧ (s.tasks.record 2).state = .exited ∧
      (∀ slot ∈ slots, s.boundTo (arenaStack 16) slot = false) ∧
      (∀ slot ∈ slots, (s.tasks.record slot).state ≠ .vacant) ∧
      ∀ slot ∈ slots, slot ≠ 2 → (s.tasks.record slot).state = .exited → s.age slot < s.age 2)) =
      some true := by decide +kernel
  rw [hs, Option.map_some, Option.some.injEq, decide_eq_true_iff] at hfacts
  obtain ⟨hcount, hfirst, hsecond, hnew, hused, holdest⟩ := hfacts
  rw [toOption_eq_some] at hs
  have hsheltered : Sheltered s := Sheltered.new.performAll (by decide) hs
  have hfew : s.starts.length < UInt32.size := by
    rw [hcount]
    decide
  have hallots := hsheltered.allots hfew
  have hassigned : s.Assigned (arenaStack 16) 2 := .oldest hnew hused hsecond holdest
  have hheld : ¬s.Held (arenaStack 16) := by
    rintro ⟨slot, hslot, hoccupied, hstack⟩
    have hbound := hnew slot hslot
    rw [boundTo_eq_true.mpr ⟨hoccupied.1, hstack⟩] at hbound
    contradiction
  obtain ⟨_, t, id, hok, hindex, hstarted, _⟩ :=
    hallots.given (arenaStack 16) (arenaStack 16).framePointer 2 hheld (by decide) hassigned
  exact ⟨s, t, id, hsheltered, hfew, hallots, hfirst, hsecond, hassigned, hok, hindex, hstarted⟩

end Scheduler

end CoopTasks
