import CoopTasks.Kernel.Basic
import CoopTasks.Proofs.Operations

/-!
Which task belongs to a stack.

A start binds its slot to its stack.  Everything else leaves the bindings
alone, and a start takes away no binding but that of the slot that it uses.
-/

namespace CoopTasks

namespace Scheduler

variable {H : Type} {s t : Scheduler H} {id target : TaskId} {stack : StackRange}

/-- Every slot has the stack and the start that it had, and is as vacant as it was. -/
def Bound (s t : Scheduler H) : Prop :=
  ∀ slot ∈ slots, (t.tasks.record slot).stack = (s.tasks.record slot).stack ∧
    (t.tasks.record slot).generation = (s.tasks.record slot).generation ∧
    ((t.tasks.record slot).state = .vacant ↔ (s.tasks.record slot).state = .vacant)

theorem find_slots_congr {p q : Nat → Bool} (h : ∀ slot ∈ slots, p slot = q slot) :
    slots.find? p = slots.find? q := by
  generalize slots = l at h
  induction l with
  | nil => rfl
  | cons slot rest ih =>
      rw [List.find?_cons, List.find?_cons, h slot List.mem_cons_self]
      rw [ih fun other hother => h other (List.mem_cons_of_mem slot hother)]

theorem find_except {p q : Nat → Bool} {l : List Nat} {slot other : Nat}
    (hfind : l.find? p = some slot) (hslot : slot ≠ other) (hother : q other = false)
    (hsame : ∀ m ∈ l, m ≠ other → q m = p m) : l.find? q = some slot := by
  induction l with
  | nil => contradiction
  | cons m rest ih =>
      have hrest := fun n (hn : n ∈ rest) => hsame n (List.mem_cons_of_mem m hn)
      rw [List.find?_cons] at hfind ⊢
      cases hp : p m with
      | true =>
          rw [hp] at hfind
          obtain rfl := Option.some.inj hfind
          rw [hsame m List.mem_cons_self hslot, hp]
      | false =>
          rw [hp] at hfind
          have hq : q m = false := by
            by_cases he : m = other
            · rw [he]
              exact hother
            · rw [hsame m List.mem_cons_self he, hp]
          rw [hq]
          exact ih hfind hrest

theorem Bound.idOf (h : Bound s t) {slot : Nat} (hslot : slot ∈ slots) :
    t.idOf slot = s.idOf slot :=
  idOf_eq (h slot hslot).2.1

theorem Bound.boundTo (h : Bound s t) (stack : StackRange) {slot : Nat} (hslot : slot ∈ slots) :
    t.boundTo stack slot = s.boundTo stack slot := by
  obtain ⟨hstack, _, hvacant⟩ := h slot hslot
  simp only [Scheduler.boundTo, hstack, ne_eq, hvacant]

theorem Bound.taskOn (h : Bound s t) (stack : StackRange) : t.taskOn stack = s.taskOn stack := by
  unfold Scheduler.taskOn
  rw [find_slots_congr fun slot hslot => h.boundTo stack hslot]
  cases hfind : slots.find? (s.boundTo stack) with
  | none => rfl
  | some slot =>
      rw [Option.map_some, Option.map_some, h.idOf (List.mem_of_find?_eq_some hfind)]

theorem Bound.refl (s : Scheduler H) : Bound s s :=
  fun _ _ => ⟨rfl, rfl, Iff.rfl⟩

theorem Bound.trans {u : Scheduler H} (h : Bound s t) (h' : Bound t u) : Bound s u := by
  intro slot hslot
  obtain ⟨hstack, hgeneration, hvacant⟩ := h slot hslot
  obtain ⟨hstack', hgeneration', hvacant'⟩ := h' slot hslot
  exact ⟨hstack'.trans hstack, hgeneration'.trans hgeneration, hvacant'.trans hvacant⟩

theorem Altered.bound {change : TaskRecord → TaskRecord} (h : Altered s id change t)
    (hstack : ∀ r, (change r).stack = r.stack)
    (hgeneration : ∀ r, (change r).generation = r.generation)
    (hvacant : id.index ∈ slots →
      ((change (s.record id)).state = .vacant ↔ (s.record id).state = .vacant)) :
    Bound s t := by
  intro slot hslot
  rw [h slot]
  by_cases he : slot = id.index
  · subst he
    rw [if_pos rfl]
    exact ⟨hstack _, hgeneration _, hvacant hslot⟩
  · rw [if_neg he]
    exact ⟨rfl, rfl, Iff.rfl⟩

theorem Woke.bound (h : Woke s id t) : Bound s t := by
  intro slot _
  rw [h.record slot]
  by_cases he : slot = id.index
  · rw [if_pos he, he]
    refine ⟨rfl, rfl, ?_⟩
    unfold TaskRecord.woken
    dsimp only
    split
    · rename_i hsleeping
      rw [hsleeping]
      simp
    · rfl
  · rw [if_neg he]
    exact ⟨rfl, rfl, Iff.rfl⟩

theorem Attempted.bound {w w' : Signal} {result : WaitResult}
    (h : Attempted s w t w' result) : Bound s t := by
  cases h with
  | acquired _ => exact Bound.refl _
  | parked _ _ _ _ _ hmoved _ =>
      exact hmoved.altered.bound (fun _ => rfl) (fun _ => rfl) fun _ => Iff.rfl
  | busy _ _ _ _ _ => exact Bound.refl _

theorem taskOn_spec (h : s.taskOn stack = some target) :
    target.index ∈ slots ∧ s.idOf target.index = target ∧
      (s.record target).state ≠ .vacant ∧ (s.record target).stack = stack := by
  obtain ⟨hslot, hbound, hidOf⟩ := taskOn_eq_some h
  unfold boundTo at hbound
  rw [decide_eq_true_iff] at hbound
  exact ⟨hslot, hidOf, hbound⟩

variable [Hardware H]

theorem Started.taskOn {own : StackRange} {pointer : Address}
    (h : Started s own pointer id t) (htask : s.taskOn stack = some target)
    (hother : target.index ≠ id.index) : t.taskOn stack = some target := by
  have hne : stack ≠ own := by
    rintro rfl
    have hchosen := h.chosen
    unfold chooseSlot at hchosen
    rw [htask] at hchosen
    exact hother (Option.some.inj hchosen)
  have hself : t.boundTo stack id.index = false := by
    unfold boundTo
    rw [show t.tasks.record id.index = s.startedRecord own pointer from h.self]
    rw [decide_eq_false_iff_not]
    rintro ⟨_, he⟩
    exact hne he.symm
  have hsame : ∀ slot ∈ slots, slot ≠ id.index → t.boundTo stack slot = s.boundTo stack slot := by
    intro slot hslot he
    unfold boundTo
    rw [h.other slot (Scheduler.mem_slots.mp hslot).1 he]
  unfold Scheduler.taskOn at htask ⊢
  cases hfind : slots.find? (s.boundTo stack) with
  | none =>
      rw [hfind] at htask
      contradiction
  | some slot =>
      have hmem := List.mem_of_find?_eq_some hfind
      rw [hfind, Option.map_some, Option.some.injEq] at htask
      have hslot : slot ≠ id.index := by
        rw [← htask, s.index_idOf (Scheduler.mem_slots.mp hmem).2] at hother
        exact hother
      rw [find_except hfind hslot hself hsame, Option.map_some, ← htask]
      congr 1
      apply idOf_eq
      rw [h.other slot (Scheduler.mem_slots.mp hmem).1 hslot]

end Scheduler

end CoopTasks
