import CoopTasks.Proofs.Deadlines
import CoopTasks.Simulation.Board

/-!
Whom the alarm wakes.

Arming the alarm wakes a sleeper only if the alarm refuses its deadline, and
handling it wakes one only if the clock shows that deadline or a later instant.
`Hardware.Driven` leads from the hardware before an operation to the hardware
after it, through every state in between.  What an operation does to a task
that it is not about is `TaskRecord.Undisturbed`: nothing, unless the deadline
of the task is due.
-/

namespace CoopTasks

/-! ## Hardware -/

namespace Hardware

variable {H : Type} [Hardware H] {h h' h'' : H} {deadline : Instant}

/-- What the scheduler has the hardware do leads from one of its states to another. -/
inductive Driven (h : H) : H → Prop
  | none : Driven h h
  | setAlarm {h' : H} (deadline : Instant) :
      Driven h h' → Driven h (Hardware.setAlarm h' deadline).1
  | clearAlarm {h' : H} : Driven h h' → Driven h (Hardware.clearAlarm h')
  | guardStack {h' : H} (stack : StackRange) :
      Driven h h' → Driven h (Hardware.guardStack h' stack).1
  | unguardStack {h' h'' : H} {region : UInt8} :
      Driven h h' → Hardware.unguardStack h' region = .ok h'' → Driven h h''
  | readyDecisionStack {h' : H} : Driven h h' → Driven h (Hardware.readyDecisionStack h')

theorem Driven.trans (hfirst : Driven h h') (hsecond : Driven h' h'') : Driven h h'' := by
  induction hsecond with
  | none => exact hfirst
  | setAlarm deadline _ ih => exact ih.setAlarm deadline
  | clearAlarm _ ih => exact ih.clearAlarm
  | guardStack stack _ ih => exact ih.guardStack stack
  | unguardStack _ hok ih => exact ih.unguardStack hok
  | readyDecisionStack _ ih => exact ih.readyDecisionStack

theorem Driven.of_eq (he : h' = h) : Driven h h' := by
  rw [he]
  exact .none

/-- On the way from one state to another the alarm has refused a deadline. -/
def Refuses (h h' : H) (deadline : Instant) : Prop :=
  ∃ m, Driven h m ∧ (Hardware.setAlarm m deadline).2 = false ∧
    Driven (Hardware.setAlarm m deadline).1 h'

/-- On the way from one state to another the clock has shown an instant or a later one. -/
def Strikes (h h' : H) (deadline : Instant) : Prop :=
  ∃ m, Driven h m ∧ Driven m h' ∧ deadline ≤ Hardware.now m

def Due (h h' : H) (deadline : Instant) : Prop :=
  Strikes h h' deadline ∨ Refuses h h' deadline

theorem Refuses.within {before after : H} (hrefuses : Refuses h h' deadline)
    (hbefore : Driven before h) (hafter : Driven h' after) : Refuses before after deadline := by
  obtain ⟨m, hm, hfalse, hrest⟩ := hrefuses
  exact ⟨m, hbefore.trans hm, hfalse, hrest.trans hafter⟩

theorem Strikes.within {before after : H} (hstrikes : Strikes h h' deadline)
    (hbefore : Driven before h) (hafter : Driven h' after) : Strikes before after deadline := by
  obtain ⟨m, hm, hrest, hle⟩ := hstrikes
  exact ⟨m, hbefore.trans hm, hrest.trans hafter, hle⟩

theorem Due.within {before after : H} (hdue : Due h h' deadline)
    (hbefore : Driven before h) (hafter : Driven h' after) : Due before after deadline :=
  hdue.imp (·.within hbefore hafter) (·.within hbefore hafter)

end Hardware

/-- Hardware whose alarm refuses no instant that is still to come. -/
class PunctualHardware (H : Type) extends Hardware H where
  due_of_refused : ∀ (h : H) (deadline : Instant),
    (Hardware.setAlarm h deadline).2 = false → deadline ≤ Hardware.now h

theorem Hardware.Due.strikes {H : Type} [PunctualHardware H] {h h' : H} {deadline : Instant}
    (hdue : Due h h' deadline) : Strikes h h' deadline := by
  rcases hdue with hstrikes | ⟨m, hm, hfalse, hrest⟩
  · exact hstrikes
  · exact ⟨m, hm, (Driven.none.setAlarm deadline).trans hrest,
      PunctualHardware.due_of_refused m deadline hfalse⟩

structure PromptBoard where
  board : Board
  prompt : board.lag = 0

namespace PromptBoard

def start (clock : Instant) : PromptBoard :=
  ⟨Board.start clock, rfl⟩

instance : Hardware PromptBoard where
  now b := b.board.clock
  setAlarm b deadline := (⟨(b.board.setAlarm deadline).1, b.prompt⟩, (b.board.setAlarm deadline).2)
  clearAlarm b := ⟨b.board.clearAlarm, b.prompt⟩
  guardStack b stack :=
    (⟨(b.board.guardStack stack).1, by
      unfold Board.guardStack
      split <;> exact b.prompt⟩, (b.board.guardStack stack).2)
  unguardStack b region :=
    match hok : b.board.unguardStack region with
    | .ok board => .ok ⟨board, by
        simp only [Board.unguardStack, bind_eq_ok, pure_eq_ok] at hok
        obtain ⟨_, _, rfl⟩ := hok
        exact b.prompt⟩
    | .error fault => .error fault
  readyDecisionStack b := ⟨{ b.board with prepared := b.board.prepared + 1 }, b.prompt⟩

instance : PunctualHardware PromptBoard where
  due_of_refused b deadline hrefused := by
    change b.board.accepts deadline = false at hrefused
    change deadline ≤ b.board.clock
    rw [Board.accepts, decide_eq_false_iff_not, Instant.lt_iff, Instant.toNat_after, b.prompt]
      at hrefused
    have hzero : (0 : UInt64).toNat = 0 := rfl
    have hlt := b.board.clock.toNat_lt
    rw [Instant.le_iff]
    omega

theorem clock_driven {b b' : PromptBoard} (h : Hardware.Driven b b') :
    b'.board.clock = b.board.clock := by
  induction h with
  | none => rfl
  | setAlarm _ _ ih | clearAlarm _ ih | readyDecisionStack _ ih => exact ih
  | @guardStack c stack _ ih =>
      refine Eq.trans ?_ ih
      change (c.board.guardStack stack).1.clock = c.board.clock
      unfold Board.guardStack
      split <;> rfl
  | @unguardStack c d region _ hok ih =>
      refine Eq.trans ?_ ih
      simp only [Hardware.unguardStack] at hok
      split at hok
      · rename_i board hboard
        obtain rfl := Except.ok.inj hok
        simp only [Board.unguardStack, bind_eq_ok, pure_eq_ok] at hboard
        obtain ⟨_, _, rfl⟩ := hboard
        rfl
      · contradiction

theorem not_strikes {b b' : PromptBoard} {deadline : Instant} (h : b.board.clock < deadline) :
    ¬Hardware.Strikes b b' deadline := by
  rintro ⟨m, hm, _, hle⟩
  change deadline ≤ m.board.clock at hle
  rw [clock_driven hm, Instant.le_iff] at hle
  rw [Instant.lt_iff] at h
  omega

theorem refuses_past (b : PromptBoard) {deadline : Instant} (h : deadline ≤ Hardware.now b) :
    (Hardware.setAlarm b deadline).2 = false := by
  change deadline ≤ b.board.clock at h
  change b.board.accepts deadline = false
  rw [Board.accepts, decide_eq_false_iff_not, Instant.lt_iff, Instant.toNat_after, b.prompt]
  rw [Instant.le_iff] at h
  have hzero : (0 : UInt64).toNat = 0 := rfl
  have hlt := b.board.clock.toNat_lt
  omega

end PromptBoard

/-! ## Tasks that an operation is not about -/

theorem TaskRecord.awake_woken (r : TaskRecord) : r.woken.state ≠ .sleeping := by
  unfold woken
  dsimp only
  split
  · exact nofun
  · rename_i hawake
    exact hawake

/-- The task is as it was, or it slept until an instant that is due and has been woken. -/
def TaskRecord.Undisturbed (due : Instant → Prop) (r r' : TaskRecord) : Prop :=
  r' = r ∨ r.state = .sleeping ∧ r.wakeAt ≠ Instant.never ∧ due r.wakeAt ∧ r' = r.woken

namespace TaskRecord.Undisturbed

variable {due due' : Instant → Prop} {r r' r'' : TaskRecord}

theorem refl (due : Instant → Prop) (r : TaskRecord) : r.Undisturbed due r :=
  .inl rfl

theorem mono (h : r.Undisturbed due r') (hdue : ∀ d, due d → due' d) : r.Undisturbed due' r' := by
  rcases h with rfl | ⟨hstate, htimed, hd, rfl⟩
  · exact refl due' r'
  · exact .inr ⟨hstate, htimed, hdue _ hd, rfl⟩

theorem of_awake (h : r.Undisturbed due r') (hawake : r.state ≠ .sleeping) : r' = r :=
  h.resolve_right fun he => hawake he.1

theorem trans (h : r.Undisturbed due r') (h' : r'.Undisturbed due r'') :
    r.Undisturbed due r'' := by
  rcases h with rfl | ⟨hstate, htimed, hd, rfl⟩
  · exact h'
  · rw [h'.of_awake r.awake_woken]
    exact .inr ⟨hstate, htimed, hd, rfl⟩

end TaskRecord.Undisturbed

namespace Scheduler

open Hardware

variable {H : Type} {s t u : Scheduler H} {id : TaskId} {ids rest run sleep : List TaskId}
variable {slot : Nat}

theorem Woke.record_self (h : Woke s id t) : t.record id = (s.record id).woken :=
  (h.record id.index).trans (if_pos rfl)

theorem Woke.awake (h : Woke s id t) : (t.record id).state ≠ .sleeping := by
  rw [h.record_self]
  exact TaskRecord.awake_woken _

theorem Woke.record_other (h : Woke s id t) (hne : slot ≠ id.index) :
    t.tasks.record slot = s.tasks.record slot :=
  (h.record slot).trans (if_neg hne)

theorem Expired.undisturbed {now : Instant} (h : Expired now s ids t) (slot : Nat) :
    (s.tasks.record slot).Undisturbed (· ≤ now) (t.tasks.record slot) := by
  induction h with
  | empty _ => exact .refl _ _
  | later _ _ => exact .refl _ _
  | @due s t u head ids _ hstate hdue hwoke _ ih =>
      rw [not_or, Instant.isNever_iff, Instant.lt_iff] at hdue
      refine TaskRecord.Undisturbed.trans ?_ ih
      by_cases he : slot = head.index
      · subst he
        exact .inr ⟨hstate, hdue.1, Instant.le_iff.mpr (Nat.le_of_not_lt hdue.2),
          hwoke.record_self⟩
      · rw [hwoke.record_other he]
        exact .refl _ _

variable [Hardware H]

theorem alarmBlind_driven : AlarmBlind (Driven : H → H → Prop) :=
  ⟨fun _ => .none, Driven.trans, fun _ deadline => Driven.none.setAlarm deadline,
    fun _ => Driven.none.clearAlarm⟩

theorem Rearmed.driven (h : Rearmed s ids t) : Driven s.hardware t.hardware :=
  h.related alarmBlind_driven

theorem Rearmed.undisturbed (h : Rearmed s ids t) (slot : Nat) :
    (s.tasks.record slot).Undisturbed (Refuses s.hardware t.hardware) (t.tasks.record slot) := by
  induction h with
  | empty _ => exact .refl _ _
  | kept _ _ => exact .refl _ _
  | accepted _ _ _ => exact .refl _ _
  | @refused s t u head hardware ids _ hstate htimed hset hwoke hrest ih =>
      rw [Bool.or_eq_false_iff, Bool.eq_false_iff, ne_eq, Instant.isNever_iff] at htimed
      have hmiddle : t.hardware = (Hardware.setAlarm s.hardware (s.record head).wakeAt).1 := by
        rw [hset]
        exact hwoke.hardware
      have hlast := hrest.driven
      have hafter := Driven.none.setAlarm (h := s.hardware) (s.record head).wakeAt
      rw [← hmiddle] at hafter
      rw [hmiddle] at hlast
      refine TaskRecord.Undisturbed.trans ?_
        (ih.mono fun _ hrefuses => hrefuses.within hafter .none)
      by_cases he : slot = head.index
      · subst he
        have hrefuses : Refuses s.hardware u.hardware (s.record head).wakeAt :=
          ⟨s.hardware, .none, congrArg Prod.snd hset, hlast⟩
        exact .inr ⟨hstate, htimed.1, hrefuses, hwoke.record_self⟩
      · rw [hwoke.record_other he]
        exact .refl _ _

/-! ## Wakes and the handler of the alarm -/

theorem Standing.undisturbed_wake (hs : s.Standing) (hok : s.wake id = .ok t)
    (hne : slot ≠ id.index) :
    (s.tasks.record slot).Undisturbed (Refuses s.hardware t.hardware) (t.tasks.record slot) := by
  obtain ⟨_, u, hwoke, ⟨_, rfl⟩ | ⟨_, ids, hrearmed⟩⟩ := hs.wake hok
  · rw [hwoke.record_other hne]
    exact .refl _ _
  · rw [← hwoke.record_other hne]
    refine (hrearmed.undisturbed slot).mono fun _ hrefuses => hrefuses.within ?_ .none
    rw [← hwoke.hardware]
    exact Driven.none.clearAlarm

theorem Standing.record_wake (hs : s.Standing) (hok : s.wake id = .ok t) :
    t.record id = (s.record id).woken := by
  obtain ⟨_, u, hwoke, ⟨_, rfl⟩ | ⟨_, ids, hrearmed⟩⟩ := hs.wake hok
  · exact hwoke.record_self
  · exact ((hrearmed.undisturbed id.index).of_awake hwoke.awake).trans hwoke.record_self

theorem Standing.undisturbed_wakeWaiter (hs : s.Standing) {waiter : Option TaskId}
    (hok : s.wakeWaiter waiter = .ok t) (hne : ∀ id, waiter = some id → slot ≠ id.index) :
    (s.tasks.record slot).Undisturbed (Refuses s.hardware t.hardware) (t.tasks.record slot) := by
  cases waiter with
  | none =>
      obtain rfl := Except.ok.inj hok
      exact .refl _ _
  | some id => exact hs.undisturbed_wake hok (hne id rfl)

theorem Standing.undisturbed_handleAlarm (hs : s.Standing) (hok : s.handleAlarm = .ok t)
    (slot : Nat) :
    (s.tasks.record slot).Undisturbed (Due s.hardware t.hardware) (t.tasks.record slot) := by
  obtain ⟨_, u, ids, more, hexpired, hrearmed⟩ := hs.handleAlarm hok
  have hkept : u.hardware = s.hardware := hexpired.alarm_kept.2
  have hdriven := hrearmed.driven
  have hrefused := hrearmed.undisturbed slot
  rw [hkept] at hdriven hrefused
  have hread : ∀ d, d ≤ s.now → Due s.hardware t.hardware d := fun d hle =>
    .inl ⟨s.hardware, .none, hdriven, hle⟩
  exact ((hexpired.undisturbed slot).mono hread).trans (hrefused.mono fun _ => .inr)

end Scheduler

end CoopTasks
