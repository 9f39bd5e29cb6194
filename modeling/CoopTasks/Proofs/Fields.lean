import CoopTasks.Proofs.SafeSwitches
import CoopTasks.Proofs.Issuing
import CoopTasks.Proofs.Turns

/-!
What operations leave alone in a record.

Queues and wakes are about the state of a task and its sleeps, and joins are
about its completion signal.  Every other part of a record is inert: outside of
a switch only an exit call and a start write to it.
-/

namespace CoopTasks

namespace TaskRecord

variable {α : Type} {part : TaskRecord → α}

/-- A part of a record that tells nothing of the state, the sleeps and the completion signal. -/
structure Inert (part : TaskRecord → α) : Prop where
  state : ∀ (r : TaskRecord) (state : TaskState), part { r with state } = part r
  sleep : ∀ (r : TaskRecord) (sleepCount : Int) (wakeAt : Instant),
    part { r with sleepCount, wakeAt } = part r
  completion : ∀ (r : TaskRecord) (completion : Signal), part { r with completion } = part r

theorem Inert.woken (h : Inert part) (r : TaskRecord) : part r.woken = part r :=
  (h.state r.countWake _).trans (h.sleep r _ _)

theorem inert_exit : Inert fun r => (r.exiting, r.exitCode) :=
  ⟨fun _ _ => rfl, fun _ _ _ => rfl, fun _ _ => rfl⟩

end TaskRecord

namespace Scheduler

open TaskRecord

variable {H : Type} {s t u : Scheduler H} {id : TaskId} {run sleep rest woken : List TaskId}
variable {α : Type} {part : TaskRecord → α}

theorem Wakes.inert {ids : List TaskId} (h : Wakes s ids t) (hpart : Inert part) (slot : Nat) :
    part (t.tasks.record slot) = part (s.tasks.record slot) := by
  refine h.preserves (P := fun t =>
    part (t.tasks.record slot) = part (s.tasks.record slot)) ?_ ?_ rfl
  · intro t u hmoved ht
    rwa [hmoved.tasks]
  · intro t id u hwoke ht
    rw [hwoke.record slot]
    split
    · exact (hpart.woken _).trans ht
    · exact ht

theorem Attempted.inert {w w' : Signal} {result : WaitResult} (h : Attempted s w t w' result)
    (hpart : Inert part) (slot : Nat) :
    part (t.tasks.record slot) = part (s.tasks.record slot) := by
  cases h with
  | acquired _ | busy _ _ _ _ _ => rfl
  | parked _ _ _ _ _ hmoved _ => exact hmoved.field part (fun r => hpart.sleep r _ _) slot

variable [Hardware H] {pointer : Address} {decision : Decision} {v w : Scheduler H}

theorem Settled.isLive (h : Settled s id run sleep t) (hid : id.index ≠ 0) :
    (s.record id).isLive = true := by
  cases h with
  | parked hzero _ _ => exact absurd hzero hid
  | finished _ hlive | asleep _ hlive | requeued _ hlive => exact hlive

theorem Settled.inert (h : Settled s id run sleep t) (hpart : Inert part) {slot : Nat}
    (hfinished : slot = id.index → (s.record id).exiting = true →
      ∀ r : TaskRecord, part r.finished = part r) :
    part (t.tasks.record slot) = part (s.tasks.record slot) := by
  cases h with
  | parked _ hmoved _ | asleep _ _ _ _ hmoved _ | requeued _ _ _ _ hmoved _ =>
      exact hmoved.field part (hpart.state · _) slot
  | finished _ _ hexiting _ hmoved _ hwake =>
      obtain ⟨ids, hwakes⟩ := hmoved.standing.wakes_of_wakeWaiter hwake
      rw [hwakes.inert hpart slot]
      by_cases he : slot = id.index
      · exact hmoved.field part (hfinished he hexiting) slot
      · rw [hmoved.other he]

theorem Switched.inert (h : Switched s pointer t decision id rest woken u v w)
    (hpart : Inert part) {slot : Nat}
    (hfinished : slot = id.index → (s.record id).exiting = true →
      ∀ r : TaskRecord, part r.finished = part r) :
    part (t.tasks.record slot) = part (u.tasks.record slot) := by
  rw [h.dispatched.field part hpart.state, h.rearmed.wakes.inert hpart]
  refine h.settled.inert hpart fun he hexiting => hfinished he ?_
  rwa [h.suspended.self] at hexiting

theorem Performed.inert {op : Operation} {decision : Option Decision}
    (h : Performed s op t decision) (hs : s.Standing) (hpart : Inert part)
    (hspawns : op.spawns = false) (hswitches : op.switches = false)
    (hexit : ∀ code, op = .markExiting code →
      ∀ r : TaskRecord, part { r with exiting := true, exitCode := code } = part r)
    (slot : Nat) : part (t.tasks.record slot) = part (s.tasks.record slot) := by
  cases h with
  | refused | started _ | switched _ => contradiction
  | dispatched hdispatched => exact hdispatched.field part hpart.state slot
  | exiting _ _ hmoved => exact hmoved.field part (hexit _ rfl) slot
  | asleep _ _ hmoved => exact hmoved.field part (fun r => hpart.sleep r _ _) slot
  | woken hwake =>
      obtain ⟨ids, hwakes⟩ := hs.wakes_of_wake hwake
      exact hwakes.inert hpart slot
  | posted hwake =>
      obtain ⟨ids, hwakes⟩ := hs.wakes_of_wakeWaiter hwake
      exact hwakes.inert hpart slot
  | attempted hattempted => exact hattempted.inert hpart slot
  | joined hattempted _ hmoved =>
      exact (hmoved.field part (hpart.completion · _) slot).trans
        (hattempted.inert hpart slot)
  | tried _ hmoved => exact hmoved.field part (hpart.completion · _) slot
  | handled halarm =>
      obtain ⟨ids, hwakes⟩ := hs.wakes_of_handleAlarm halarm
      exact hwakes.inert hpart slot

end Scheduler

end CoopTasks
