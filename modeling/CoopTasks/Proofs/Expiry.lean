import CoopTasks.Proofs.Refusals
import CoopTasks.Proofs.SafeWakes

/-!
Whom arming the alarm wakes.

An alarm that takes exactly the deadlines to come refuses those of the first
sleepers, as long as they have passed.  Unless it is armed soon enough already,
arming it moves these sleepers to the end of the run queue, in their order
(`Scheduler.roused`).
-/

namespace CoopTasks

open Scheduler

/-! ## Hardware -/

/-- Hardware whose alarm takes no instant that has passed, and whose clock an operation leaves. -/
class PromptHardware (H : Type) extends SteadyHardware H, PunctualHardware H where
  refuses_past : ∀ (h : H) (deadline : Instant), deadline ≤ Hardware.now h →
    (Hardware.setAlarm h deadline).2 = false
  now_driven : ∀ {h h' : H}, Hardware.Driven h h' → Hardware.now h' = Hardware.now h

/-- Hardware whose alarm takes exactly the instants to come, and whose clock an operation leaves. -/
class ExactHardware (H : Type) extends Hardware H where
  accepts_iff : ∀ (h : H) (deadline : Instant),
    (Hardware.setAlarm h deadline).2 = true ↔ Hardware.now h < deadline
  now_driven : ∀ {h h' : H}, Hardware.Driven h h' → Hardware.now h' = Hardware.now h

theorem ExactHardware.refused_iff {H : Type} [ExactHardware H] (h : H) (deadline : Instant) :
    (Hardware.setAlarm h deadline).2 = false ↔ deadline ≤ Hardware.now h := by
  rw [Bool.eq_false_iff, ne_eq, accepts_iff h deadline, Instant.lt_iff, Instant.le_iff, Nat.not_lt]

instance PromptHardware.exact {H : Type} [PromptHardware H] : ExactHardware H where
  accepts_iff h deadline := by
    rw [Instant.lt_iff, ← Nat.not_le, ← Instant.le_iff, ← Bool.not_eq_false]
    exact not_congr ⟨PunctualHardware.due_of_refused h deadline, refuses_past h deadline⟩
  now_driven := PromptHardware.now_driven

namespace PromptBoard

open SteadyHardware

instance : GuardingHardware PromptBoard where
  holds b := GuardingHardware.holds b.board

theorem onward_of_board {b b' : PromptBoard} (h : Hardware.Onward b.board b'.board) :
    Hardware.Onward b b' :=
  ⟨h.now_le, h.holds⟩

instance : SteadyHardware PromptBoard where
  setAlarm_onward b deadline := onward_of_board (setAlarm_onward b.board deadline)
  clearAlarm_onward b := onward_of_board (clearAlarm_onward b.board)
  readyDecisionStack_onward b := onward_of_board (readyDecisionStack_onward b.board)
  guardStack_onward b stack := onward_of_board (guardStack_onward b.board stack)
  guardStack_fresh b := guardStack_fresh b.board
  unguardStack_held b region hheld := by
    obtain ⟨board, hback, hnow, hkept⟩ := unguardStack_held b.board region hheld
    change b.board.unguardStack region = .ok board at hback
    simp only [Hardware.unguardStack]
    split
    · rename_i given hgiven
      obtain rfl := Except.ok.inj (hback.symm.trans hgiven)
      exact ⟨_, rfl, hnow, hkept⟩
    · rename_i fault hfault
      rw [hback] at hfault
      contradiction

instance : PromptHardware PromptBoard where
  refuses_past := refuses_past
  now_driven := clock_driven

end PromptBoard

namespace Scheduler

variable {H : Type} {s t u : Scheduler H} {id head : TaskId} {ids : List TaskId}

/-! ## Queues -/

section Queues

theorem Woke.queues_head (h : Woke s head t) (hhead : s.sleepers.head? = some head)
    (hstate : (s.record head).state = .sleeping) :
    t.runQueue = s.runQueue ++ [head] ∧ s.sleepers = head :: t.sleepers := by
  obtain ⟨rest, hrest⟩ := List.head?_eq_some_iff.mp hhead
  refine ⟨by rw [h.runQueue, if_pos hstate], ?_⟩
  rw [h.sleepers, hrest, List.erase_cons_head]

theorem Expired.queues {now : Instant} (h : Expired now s ids t) :
    t.runQueue = s.runQueue ++ ids ∧ s.sleepers = ids ++ t.sleepers := by
  induction h with
  | empty _ | later _ _ => exact ⟨(List.append_nil _).symm, rfl⟩
  | @due s t u head ids hhead hstate _ hwoke _ ih =>
      obtain ⟨hrun, hsleep⟩ := hwoke.queues_head hhead hstate
      refine ⟨?_, ?_⟩
      · rw [ih.1, hrun, List.append_assoc, List.singleton_append]
      · rw [hsleep, ih.2, List.cons_append]

variable [Hardware H]

theorem Rearmed.queues (h : Rearmed s ids t) :
    t.runQueue = s.runQueue ++ ids ∧ s.sleepers = ids ++ t.sleepers := by
  induction h with
  | empty _ | kept _ _ => exact ⟨(List.append_nil _).symm, rfl⟩
  | accepted _ _ _ => exact ⟨(List.append_nil _).symm, rfl⟩
  | @refused s t u head hardware ids hhead hstate _ _ hwoke _ ih =>
      obtain ⟨hrun, hsleep⟩ := hwoke.queues_head hhead hstate
      change t.runQueue = s.runQueue ++ [head] at hrun
      change s.sleepers = head :: t.sleepers at hsleep
      refine ⟨?_, ?_⟩
      · rw [ih.1, hrun, List.append_assoc, List.singleton_append]
      · rw [hsleep, ih.2, List.cons_append]

def overdue (s : Scheduler H) (id : TaskId) : Bool :=
  !(s.record id).wakeAt.isNever && decide ((s.record id).wakeAt ≤ s.now)

theorem overdue_iff : s.overdue id = true ↔
    ¬((s.record id).wakeAt.isNever = true ∨ s.now < (s.record id).wakeAt) := by
  rw [overdue, Bool.and_eq_true, Bool.not_eq_true', decide_eq_true_iff, not_or, Bool.not_eq_true,
    Instant.le_iff, Instant.lt_iff, Nat.not_lt]

/-- The first sleeper has a deadline, and the alarm is not armed for it or a sooner one. -/
def tardy (s : Scheduler H) : Bool :=
  s.sleepers.head?.any fun head =>
    !((s.record head).wakeAt.isNever || s.armedBy (s.record head).wakeAt)

/-- The sleepers that arming the alarm wakes. -/
def roused (s : Scheduler H) : List TaskId :=
  if s.tardy then s.sleepers.takeWhile s.overdue else []

theorem roused_of_unarmed (h : s.armed = none) : s.roused = s.sleepers.takeWhile s.overdue := by
  unfold roused tardy armedBy
  rw [h]
  cases hsleep : s.sleepers with
  | nil => rfl
  | cons head rest =>
      rw [List.head?_cons, Option.any_some, Option.any_none, Bool.or_false]
      cases hnever : (s.record head).wakeAt.isNever with
      | false => rfl
      | true =>
          have hlater : s.overdue head = false := by
            rw [overdue, hnever]
            rfl
          rw [List.takeWhile_cons, hlater]
          rfl

theorem takeWhile_overdue_congr {sleep : List TaskId} (hnow : t.now = s.now)
    (hwakeAt : ∀ m ∈ sleep, (t.record m).wakeAt = (s.record m).wakeAt) :
    sleep.takeWhile t.overdue = sleep.takeWhile s.overdue := by
  induction sleep with
  | nil => rfl
  | cons head rest ih =>
      have hhead : t.overdue head = s.overdue head := by
        rw [overdue, overdue, hnow, hwakeAt head List.mem_cons_self]
      rw [List.takeWhile_cons, List.takeWhile_cons, hhead,
        ih fun m hm => hwakeAt m (List.mem_cons_of_mem head hm)]

theorem takeWhile_eq_filter {α : Type} {p : α → Bool} {l : List α}
    (h : l.Pairwise fun a b => p b = true → p a = true) :
    l.takeWhile p = l.filter p ∧ l.dropWhile p = l.filter fun a => !p a := by
  induction l with
  | nil => exact ⟨rfl, rfl⟩
  | cons a rest ih =>
      rw [List.pairwise_cons] at h
      rw [List.takeWhile_cons, List.dropWhile_cons, List.filter_cons, List.filter_cons]
      cases hfirst : p a with
      | true => simpa using ih h.2
      | false =>
          have hnone : ∀ b ∈ rest, p b = false := by
            intro b hb
            rw [Bool.eq_false_iff]
            intro htrue
            rw [h.1 b hb htrue] at hfirst
            contradiction
          have hempty : rest.filter p = [] :=
            List.filter_eq_nil_iff.mpr fun b hb => by simp [hnone b hb]
          have hall : (rest.filter fun b => !p b) = rest :=
            List.filter_eq_self.mpr fun b hb => by simp [hnone b hb]
          simp [hempty, hall]

theorem Ordered.overdue_first (h : s.Ordered) :
    s.sleepers.takeWhile s.overdue = s.sleepers.filter s.overdue ∧
      s.sleepers.dropWhile s.overdue = s.sleepers.filter fun id => !s.overdue id := by
  refine takeWhile_eq_filter (List.Pairwise.imp ?_ h)
  intro a b hle hpast
  rw [overdue_iff, not_or, Instant.isNever_iff] at hpast ⊢
  have hlast := (s.record b).wakeAt.le_never
  rw [Instant.le_iff] at hle hlast
  rw [Instant.lt_iff] at hpast ⊢
  refine ⟨fun hnever => ?_, by omega⟩
  rw [hnever] at hle
  exact hpast.1 (Instant.ext_iff_toNat.mpr (by omega))

end Queues

/-! ## Exact alarms -/

section Exact

variable [ExactHardware H]

theorem overdue_eq_false (hkept : (s.record head).wakeAt.isNever = false)
    (haccepted : (Hardware.setAlarm s.hardware (s.record head).wakeAt).2 = true) :
    s.overdue head = false := by
  rw [overdue, hkept, Bool.not_false, Bool.true_and, decide_eq_false_iff_not]
  intro hle
  rw [(ExactHardware.refused_iff s.hardware _).mpr hle] at haccepted
  contradiction

theorem overdue_eq_true (hkept : (s.record head).wakeAt.isNever = false)
    (hrefused : (Hardware.setAlarm s.hardware (s.record head).wakeAt).2 = false) :
    s.overdue head = true := by
  rw [overdue, hkept, Bool.not_false, Bool.true_and, decide_eq_true_iff]
  exact (ExactHardware.refused_iff s.hardware _).mp hrefused

theorem Rearmed.eq_roused (h : Rearmed s ids t) (hs : s.Standing) : ids = s.roused := by
  induction h with
  | empty hempty =>
      unfold Scheduler.roused tardy
      rw [hempty]
      rfl
  | kept hhead hkept =>
      unfold Scheduler.roused tardy
      rw [hhead, Option.any_some, hkept]
      rfl
  | @accepted s head hardware hhead hkept hset =>
      obtain ⟨rest, hrest⟩ := List.head?_eq_some_iff.mp hhead
      have hlater : s.overdue head = false :=
        overdue_eq_false (Bool.or_eq_false_iff.mp hkept).1 (congrArg Prod.snd hset)
      unfold Scheduler.roused
      rw [hrest, List.takeWhile_cons, hlater]
      split <;> rfl
  | @refused s t u head hardware ids hhead hstate hkept hset hwoke hrest ih =>
      have hmoved := alarmMoved s hardware none
      have hpast : s.overdue head = true :=
        overdue_eq_true (Bool.or_eq_false_iff.mp hkept).1 (congrArg Prod.snd hset)
      have hrefuses : s.tardy = true := by
        unfold tardy
        rw [hhead, Option.any_some, hkept]
        rfl
      have hnow : t.now = s.now := by
        have hsteps := Hardware.Driven.none.setAlarm (h := s.hardware) (s.record head).wakeAt
        rw [hset] at hsteps
        unfold Scheduler.now
        rw [hwoke.hardware]
        exact ExactHardware.now_driven hsteps
      have hsleep : s.sleepers = head :: t.sleepers := (hwoke.queues_head hhead hstate).2
      rw [ih hwoke.standing, roused_of_unarmed hwoke.armed, Scheduler.roused, if_pos hrefuses,
        hsleep, List.takeWhile_cons, if_pos hpast]
      exact congrArg (head :: ·) (takeWhile_overdue_congr hnow fun m hm =>
        hwoke.wakeAt (hmoved.standing hs) hm)

theorem Standing.rearmSteps_of_later (hs : s.Standing)
    (hlater : ∀ head, s.sleepers.head? = some head → s.overdue head = false) :
    ∃ t, (∀ passes, s.rearmSteps (passes + 1) = .ok t) ∧ Rearmed s [] t := by
  unfold Scheduler.rearmSteps
  rw [hs.timers_head]
  cases hhead : s.sleepers.head? with
  | none => exact ⟨s, fun _ => rfl, .empty (List.head?_eq_none_iff.mp hhead)⟩
  | some head =>
      cases hkept : (s.record head).wakeAt.isNever || s.armedBy (s.record head).wakeAt with
      | true =>
          refine ⟨s, fun _ => ?_, .kept hhead hkept⟩
          dsimp only
          rw [if_pos hkept]
      | false =>
          have haccepted : (Hardware.setAlarm s.hardware (s.record head).wakeAt).2 = true := by
            cases haccepted : (Hardware.setAlarm s.hardware (s.record head).wakeAt).2 with
            | true => rfl
            | false =>
                have hpast := overdue_eq_true (Bool.or_eq_false_iff.mp hkept).1 haccepted
                rw [hlater head hhead] at hpast
                contradiction
          refine ⟨_, fun _ => ?_, .accepted hhead hkept (Prod.ext rfl haccepted)⟩
          dsimp only
          rw [hkept, haccepted]
          rfl

def Rousable (s : Scheduler H) : Prop :=
  ∀ id ∈ s.sleepers, (s.record id).isLive = true ∧ 0 < (s.record id).sleepCount

omit [ExactHardware H] in
theorem Rousable.woke (h : s.Rousable) (hs : s.Standing) (hwoke : Woke s id t) : t.Rousable := by
  intro m hm
  obtain ⟨hbefore, hkept⟩ := hwoke.record_sleeper hs hm
  rw [hkept]
  exact h m hbefore

theorem Rousable.rearmSteps (h : s.Rousable) (hs : s.Standing) (steps : Nat) :
    ∃ t, s.rearmSteps steps = .ok t ∧ t.Standing ∧ t.Rousable := by
  refine rearmSteps_of_wakes (P := fun s => s.Standing ∧ s.Rousable) And.left ?moved ?wake
    steps ⟨hs, h⟩
  case moved =>
    rintro s t deadline hmoved _ ⟨hs, h⟩
    refine ⟨hmoved.standing hs, ?_⟩
    unfold Rousable Scheduler.record
    rw [hmoved.sleepers_eq, hmoved.tasks]
    exact h
  case wake =>
    rintro s head ⟨hs, h⟩ hhead _
    have hmem := List.mem_of_head? hhead
    obtain ⟨hlive, hpending⟩ := h head hmem
    obtain ⟨htask, hasleep⟩ := hs.asleep head hmem
    have hlimit : sleepCountMin < (s.record head).sleepCount :=
      Int.lt_trans (by decide) hpending
    obtain ⟨t, wasHead, hok⟩ := hs.wakeTask_of_live
      (hs.generation head (List.mem_append_right _ hmem)) htask hlive hlimit (.inl hasleep)
    obtain ⟨hwoke, _⟩ := hs.wakeTask hok
    exact ⟨t, wasHead, hok, hwoke.standing, h.woke hs hwoke⟩

theorem Rousable.rearm (h : s.Rousable) (hs : s.Standing) :
    ∃ t, s.rearm = .ok t ∧ Rearmed s s.roused t := by
  obtain ⟨t, hok, _⟩ := h.rearmSteps hs (slotCount + 1)
  obtain ⟨_, ids, hrearmed⟩ := hs.rearm hok
  obtain rfl := hrearmed.eq_roused hs
  exact ⟨t, hok, hrearmed⟩

end Exact

end Scheduler

end CoopTasks
