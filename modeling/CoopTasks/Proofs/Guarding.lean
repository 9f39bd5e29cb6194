import CoopTasks.Proofs.Fields
import CoopTasks.Proofs.EndedTasks

/-!
What an operation does to the guards.

A start may take a guard from the hardware, and the switch that retires a task
gives its guard back; `Guarding` says so for every operation.  Apart from that
the hardware stays within any relation that moving the alarm does not leave
(`AlarmBlind`).  Where the hardware takes back what it has granted, the guards
of the tasks are all granted, and no two tasks have the same (`Secured`).
-/

namespace CoopTasks

namespace Scheduler

open TaskRecord

variable {H : Type} {s t u : Scheduler H} {id : TaskId} {slot : Nat}
variable {run sleep rest : List TaskId} {pointer : Address}

/-! ## The marks of the tasks -/

theorem inert_guardRegion : Inert TaskRecord.guardRegion :=
  ⟨fun _ _ => rfl, fun _ _ _ => rfl, fun _ _ => rfl⟩

section Marks

variable [Hardware H] {v w : Scheduler H} {woken : List TaskId} {decision : Decision}

theorem Settled.guardAt (h : Settled s id run sleep t) (slot : Nat) :
    t.guardAt slot =
      if slot = id.index ∧ id.index ≠ 0 ∧ (s.record id).exiting = true then none
      else s.guardAt slot := by
  unfold Scheduler.guardAt
  cases h with
  | parked hid hmoved _ =>
      rw [if_neg fun he => he.2.1 hid]
      exact hmoved.field TaskRecord.guardRegion (fun _ => rfl) slot
  | asleep _ _ hexiting _ hmoved _ | requeued _ _ hexiting _ hmoved _ =>
      rw [if_neg fun he => by rw [he.2.2] at hexiting; contradiction]
      exact hmoved.field TaskRecord.guardRegion (fun _ => rfl) slot
  | finished hid _ hexiting _ hmoved _ hwake =>
      obtain ⟨ids, hwakes⟩ := hmoved.standing.wakes_of_wakeWaiter hwake
      rw [hwakes.inert inert_guardRegion slot, hmoved.record slot]
      by_cases he : slot = id.index
      · rw [if_pos he, if_pos ⟨he, hid, hexiting⟩]
        rfl
      · rw [if_neg he, if_neg fun hall => he hall.1]

theorem Switched.guardAt (h : Switched s pointer t decision id rest woken u v w) (slot : Nat) :
    t.guardAt slot =
      if slot = id.index ∧ id.index ≠ 0 ∧ (s.record id).exiting = true then none
      else s.guardAt slot := by
  have hlast : t.guardAt slot = v.guardAt slot :=
    (h.dispatched.field TaskRecord.guardRegion (fun _ _ => rfl) slot).trans
      (h.rearmed.wakes.inert inert_guardRegion slot)
  have hfirst : u.guardAt slot = s.guardAt slot :=
    h.suspended.field TaskRecord.guardRegion (fun _ => rfl) slot
  rw [hlast, h.settled.guardAt slot, hfirst, h.suspended.self]
  rfl

end Marks

/-! ## What a switch does with the guard of the task that it retires -/

section Operations

variable [Hardware H] {rel : H → H → Prop} {decision : Decision}

omit [Hardware H] in
theorem Attempted.hardware {w w' : Signal} {result : WaitResult} (h : Attempted s w t w' result) :
    t.hardware = s.hardware := by
  cases h with
  | acquired _ | busy _ _ _ _ _ => rfl
  | parked _ _ _ _ _ _ hhardware => exact hhardware

theorem Performed.related {op : Operation} {decision : Option Decision}
    (h : Performed s op t decision) (hs : s.Standing) (hrel : AlarmBlind rel)
    (hspawns : op.spawns = false) (hswitches : op.switches = false) :
    rel s.hardware t.hardware := by
  cases h with
  | refused | started _ | switched _ => contradiction
  | dispatched hdispatched => exact hrel.of_eq hdispatched.hardware
  | exiting _ hhardware _ | asleep _ hhardware _ | tried hhardware _ => exact hrel.of_eq hhardware
  | woken hok => exact hs.related_wake hrel hok
  | posted hok => exact hs.related_wakeWaiter hrel hok
  | attempted hattempted => exact hrel.of_eq hattempted.hardware
  | joined hattempted hhardware _ => exact hrel.of_eq (hhardware.trans hattempted.hardware)
  | handled hok => exact hs.related_handleAlarm hrel hok

/-- The guard, if there is one, is given back before anything else happens to the hardware. -/
def GivesBack (rel : H → H → Prop) (h : H) (region : Option UInt8) (h' : H) : Prop :=
  match region with
  | some region => ∃ given, Hardware.unguardStack h region = .ok given ∧ rel given h'
  | none => rel h h'

theorem Placed.givesBack_finish (h : s.Placed id.index run sleep) (hid : id.index ≠ 0)
    (hlt : id.index < slotCount) (hrel : AlarmBlind rel) (hok : s.finish id = .ok t) :
    GivesBack rel s.hardware (s.record id).guardRegion t.hardware := by
  unfold Scheduler.finish at hok
  simp only [bind_eq_ok, require_eq_ok, exists_and_left, exists_const] at hok
  obtain ⟨-, v, hunguard, hwake⟩ := hok
  have hafter : ∀ hardware, v = { s.update id TaskRecord.finished with hardware } →
      rel hardware t.hardware := by
    rintro hardware rfl
    exact (h.finished hid hlt hardware _).standing.related_wakeWaiter hrel hwake
  unfold GivesBack
  cases hregion : (s.record id).guardRegion with
  | none =>
      rw [hregion] at hunguard
      obtain rfl := Except.ok.inj hunguard
      exact hafter s.hardware rfl
  | some region =>
      rw [hregion] at hunguard
      simp only [unguard, bind_eq_ok, pure_eq_ok] at hunguard
      obtain ⟨given, hback, rfl⟩ := hunguard
      exact ⟨given, hback, hafter given rfl⟩

theorem GivesBack.trans {h h' h'' : H} {region : Option UInt8} (hback : GivesBack rel h region h')
    (hrel : AlarmBlind rel) (hlater : rel h' h'') : GivesBack rel h region h'' := by
  cases region with
  | none => exact hrel.trans hback hlater
  | some region =>
      obtain ⟨given, hgiven, hafter⟩ := hback
      exact ⟨given, hgiven, hrel.trans hafter hlater⟩

theorem finish_of_exiting (hid : id.index ≠ 0) (hexiting : (s.record id).exiting = true)
    (hok : s.settle id = .ok t) : s.finish id = .ok t := by
  have hmainline : id.isMainline = false := TaskId.isMainline_eq_false.mpr hid
  simp only [Scheduler.settle, hmainline, hexiting, Bool.false_eq_true, if_false, if_true,
    bind_eq_ok] at hok
  obtain ⟨-, -, hfinish⟩ := hok
  exact hfinish

theorem Standing.givesBack_reschedule (hs : s.Standing) (hrel : AlarmBlind rel)
    (hcurrent : s.current = some id) (hexiting : (s.record id).exiting = true)
    (hok : s.reschedule pointer = .ok (t, decision)) :
    GivesBack rel s.hardware (s.guardAt id.index) t.hardware := by
  obtain ⟨hhead, hid, hlt⟩ := hs.current hcurrent
  unfold Scheduler.reschedule at hok
  simp only [bind_eq_ok, Prod.exists] at hok
  obtain ⟨u, other, hsuspend, v, hsettle, w, hrearm, hdispatch⟩ := hok
  obtain ⟨rest, hsuspended⟩ := hs.suspend hsuspend
  rw [hsuspended.runQueue] at hhead
  obtain rfl := Option.some.inj hhead
  have hself := hsuspended.self
  have hregion : (u.record other).guardRegion = s.guardAt other.index := by rw [hself]; rfl
  have hfinish := finish_of_exiting hid (by rw [hself]; exact hexiting) hsettle
  have hback := hsuspended.placed.givesBack_finish hid hlt hrel hfinish
  have hv := (hsuspended.placed.settle hlt (hsuspended.current hs) hsettle).standing
  obtain ⟨hw, _, hrearmed⟩ := hv.rearm hrearm
  rw [hregion, hsuspended.hardware] at hback
  exact hback.trans hrel
    (hrel.trans (hrearmed.related hrel) (hrel.of_eq (hw.dispatch hdispatch).hardware))

theorem Settled.related (h : Settled s id run sleep t) (hrel : AlarmBlind rel)
    (hstays : id.index ≠ 0 → (s.record id).exiting = false) :
    rel s.hardware t.hardware := by
  cases h with
  | parked _ _ hhardware | asleep _ _ _ _ _ hhardware | requeued _ _ _ _ _ hhardware =>
      exact hrel.of_eq hhardware
  | finished hid _ hexiting _ _ _ _ =>
      rw [hstays hid] at hexiting
      contradiction

/-- What an operation does to the guards of the hardware and to the marks of the tasks. -/
inductive Guarding (rel : H → H → Prop) (s : Scheduler H) : Operation → Scheduler H → Prop
  | granted {stack : StackRange} {pointer : Address} {id : TaskId} {t : Scheduler H} :
      id.index ∈ slots →
      ¬s.Occupied id.index →
      t.Occupied id.index →
      (∀ slot, t.guardAt slot =
        if slot = id.index then (Hardware.guardStack s.hardware stack).2 else s.guardAt slot) →
      t.hardware = (Hardware.guardStack s.hardware stack).1 →
      Guarding rel s (.spawn stack pointer) t
  | returned {pointer : Address} {id : TaskId} {t : Scheduler H} :
      s.current = some id →
      (s.record id).exiting = true →
      (∀ slot, t.guardAt slot = if slot = id.index then none else s.guardAt slot) →
      GivesBack rel s.hardware (s.guardAt id.index) t.hardware →
      Guarding rel s (.reschedule pointer) t
  | kept {op : Operation} {t : Scheduler H} :
      (∀ pointer id, op = .reschedule pointer → s.current = some id →
        (s.record id).exiting = false) →
      (∀ slot, t.guardAt slot = s.guardAt slot) →
      rel s.hardware t.hardware →
      Guarding rel s op t

theorem Standing.guarding_reschedule (hs : s.Standing) (hrel : AlarmBlind rel)
    (hok : s.reschedule pointer = .ok (t, decision)) :
    Guarding rel s (.reschedule pointer) t := by
  obtain ⟨id, rest, woken, u, v, w, hswitched⟩ := hs.reschedule hok
  have hself := hswitched.suspended.self
  have hexiting : (u.record id).exiting = (s.record id).exiting := by rw [hself]; rfl
  have hlast : rel v.hardware t.hardware :=
    hrel.trans (hswitched.rearmed.related hrel) (hrel.of_eq hswitched.dispatched.hardware)
  by_cases hretires : id.index ≠ 0 ∧ (s.record id).exiting = true
  · obtain ⟨hid, hexits⟩ := hretires
    have hcurrent : s.current = some id :=
      hs.current_eq_some_iff.mpr ⟨by rw [hswitched.suspended.runQueue, List.head?_cons], hid⟩
    refine .returned hcurrent hexits (fun slot => ?_) ?_
    · rw [hswitched.guardAt slot]
      simp [hid, hexits]
    · exact hs.givesBack_reschedule hrel hcurrent hexits hok
  · refine .kept ?_ (fun slot => ?_) ?_
    · intro _ other _ hcurrent
      obtain ⟨hhead, hne, _⟩ := hs.current hcurrent
      rw [hswitched.suspended.runQueue] at hhead
      obtain rfl := Option.some.inj hhead
      exact Bool.eq_false_iff.mpr fun he => hretires ⟨hne, he⟩
    · rw [hswitched.guardAt slot, if_neg fun hall => hretires hall.2]
    · refine hrel.trans (hrel.of_eq hswitched.suspended.hardware)
        (hrel.trans (hswitched.settled.related hrel ?_) hlast)
      intro hid
      rw [hexiting]
      exact Bool.eq_false_iff.mpr fun he => hretires ⟨hid, he⟩

theorem Standing.guarding (hs : s.Standing) (hrel : AlarmBlind rel) {op : Operation}
    {decision : Option Decision} (hok : s.perform op = .ok (t, decision)) :
    Guarding rel s op t := by
  by_cases hswitches : op.switches = true
  · cases op <;> simp only [Operation.switches, Bool.false_eq_true] at hswitches
    obtain ⟨_, hreschedule, _⟩ := perform_reschedule_eq_ok.mp hok
    exact hs.guarding_reschedule hrel hreschedule
  have hkept : ∀ pointer id, op = .reschedule pointer → s.current = some id →
      (s.record id).exiting = false := by
    rintro pointer id rfl
    exact absurd rfl hswitches
  by_cases hspawns : op.spawns = true
  · cases op <;> simp only [Operation.spawns, Bool.false_eq_true] at hspawns
    obtain ⟨⟨outcome, hspawn⟩, _⟩ := perform_spawn_eq_ok.mp hok
    rcases hs.spawn hspawn with ⟨_, rfl⟩ | ⟨id, rfl, hstarted⟩
    · exact .kept hkept (fun _ => rfl) (hrel.refl _)
    · exact .granted (mem_slots.mpr hstarted.mem_slots)
        (fun hoccupied => hoccupied.not_gone hstarted.gone) hstarted.occupied hstarted.guardAt
        hstarted.hardware
  rw [Bool.not_eq_true] at hswitches hspawns
  have hperformed := hs.perform hok
  exact .kept hkept
    (hperformed.inert hs inert_guardRegion hspawns hswitches fun _ _ _ => rfl)
    (hperformed.related hs hrel hspawns hswitches)

end Operations

/-! ## Hardware that takes back what it has granted -/

section Steady

open GuardingHardware SteadyHardware

variable [SteadyHardware H]

theorem alarmBlind_onward : AlarmBlind (Hardware.Onward : H → H → Prop) :=
  ⟨.refl, Hardware.Onward.trans, setAlarm_onward, clearAlarm_onward⟩

theorem Secured.returned (h : s.Secured) (hslot : slot ∈ slots)
    (hmarks : ∀ other, t.guardAt other = if other = slot then none else s.guardAt other)
    (hback : GivesBack Hardware.Onward s.hardware (s.guardAt slot) t.hardware) : t.Secured := by
  refine h.released hslot hmarks fun region hne hheld => ?_
  cases hguard : s.guardAt slot with
  | none =>
      rw [hguard] at hback
      exact Hardware.Onward.holds hback region hheld
  | some freed =>
      rw [hguard] at hback hne
      obtain ⟨given, hgiven, honward⟩ := hback
      obtain ⟨_, hok, _, hkept⟩ :=
        unguardStack_held s.hardware freed (h.granted slot hslot freed hguard)
      obtain rfl := Except.ok.inj (hgiven.symm.trans hok)
      exact honward.holds region (hkept region (fun he => hne (congrArg some he.symm)) hheld)

theorem Secured.perform (h : s.Secured) (hs : s.Standing) {op : Operation}
    {decision : Option Decision} (hok : s.perform op = .ok (t, decision)) : t.Secured := by
  cases hs.guarding alarmBlind_onward hok with
  | granted _ _ _ hmarks hhardware => exact h.given hmarks hhardware
  | returned hcurrent _ hmarks hback =>
      obtain ⟨_, hne, hlt⟩ := hs.current hcurrent
      exact h.returned (mem_slots.mpr ⟨hne, hlt⟩) hmarks hback
  | kept _ hmarks honward => exact h.onward hmarks honward

end Steady

end Scheduler

end CoopTasks
