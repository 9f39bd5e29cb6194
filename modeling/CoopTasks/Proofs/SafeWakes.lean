import CoopTasks.Proofs.Lifetimes
import CoopTasks.Simulation.Board

/-!
Wakes that cannot fail.

On hardware whose clock never goes back and that takes back every guard which
it has granted, `Scheduler.FaultFree` is what the operations rely on: a task is
woken only while it has one sleep pending, the time that is accounted fits the
clock, and the guards of the tasks are all granted.  A slot is awaited while a
signal has its task recorded, which then nobody else wakes.
-/

namespace CoopTasks

/-! ## Hardware -/

class GuardingHardware (H : Type) extends Hardware H where
  /-- Whether a region guards a stack. -/
  holds : H → UInt8 → Prop

/-- Time has not gone back, and no guard has been lost. -/
structure Hardware.Onward {H : Type} [GuardingHardware H] (h h' : H) : Prop where
  now_le : Hardware.now h ≤ Hardware.now h'
  holds : ∀ region, GuardingHardware.holds h region → GuardingHardware.holds h' region

class SteadyHardware (H : Type) extends GuardingHardware H where
  setAlarm_onward : ∀ (h : H) (deadline : Instant),
    Hardware.Onward h (Hardware.setAlarm h deadline).1
  clearAlarm_onward : ∀ h : H, Hardware.Onward h (Hardware.clearAlarm h)
  readyDecisionStack_onward : ∀ h : H, Hardware.Onward h (Hardware.readyDecisionStack h)
  guardStack_onward : ∀ (h : H) (stack : StackRange),
    Hardware.Onward h (Hardware.guardStack h stack).1
  guardStack_fresh : ∀ (h : H) (stack : StackRange) (region : UInt8),
    (Hardware.guardStack h stack).2 = some region →
      ¬GuardingHardware.holds h region ∧
        GuardingHardware.holds (Hardware.guardStack h stack).1 region
  unguardStack_held : ∀ (h : H) (region : UInt8), GuardingHardware.holds h region →
    ∃ h', Hardware.unguardStack h region = .ok h' ∧ Hardware.now h ≤ Hardware.now h' ∧
      ∀ other, other ≠ region → GuardingHardware.holds h other → GuardingHardware.holds h' other

theorem Instant.le_refl (t : Instant) : t ≤ t :=
  Instant.le_iff.mpr (Nat.le_refl _)

theorem Instant.le_trans {a b c : Instant} (h : a ≤ b) (h' : b ≤ c) : a ≤ c := by
  rw [Instant.le_iff] at *
  omega

namespace Hardware.Onward

variable {H : Type} [GuardingHardware H] {h h' h'' : H}

theorem refl (h : H) : Onward h h :=
  ⟨Instant.le_refl _, fun _ hholds => hholds⟩

theorem of_eq (he : h' = h) : Onward h h' := by
  rw [he]
  exact refl h

theorem trans (hfirst : Onward h h') (hsecond : Onward h' h'') : Onward h h'' :=
  ⟨Instant.le_trans hfirst.now_le hsecond.now_le,
    fun region hholds => hsecond.holds region (hfirst.holds region hholds)⟩

end Hardware.Onward

instance : GuardingHardware Board where
  holds b region := b.guardPool.holds region.toNat = true

namespace Board

theorem onward_of_eq {b b' : Board} (hclock : b'.clock = b.clock)
    (hpool : b'.guardPool = b.guardPool) : Hardware.Onward b b' := by
  refine ⟨?_, fun region hholds => ?_⟩
  · change b.clock ≤ b'.clock
    rw [hclock]
    exact Instant.le_refl _
  · change b'.guardPool.holds region.toNat = true
    rw [hpool]
    exact hholds

end Board

namespace GuardPool

variable {pool pool' : GuardPool} {region : UInt8}

theorem lt_of_holds {r : Nat} (h : pool.holds r = true) : r < protectionRegions := by
  by_cases hlt : r < protectionRegions
  · exact hlt
  · rw [holds, Vector.getElem?_eq_none (by omega)] at h
    contradiction

theorem grant_spec {inUse : Nat → Bool} {granted : Option UInt8}
    (h : pool.grant inUse = (pool', granted)) :
    (∀ r, pool.holds r = true → pool'.holds r = true) ∧
      ∀ region, granted = some region →
        pool.holds region.toNat = false ∧ pool'.holds region.toNat = true := by
  unfold grant at h
  split at h
  · rename_i r hfind
    obtain ⟨rfl, rfl⟩ := Prod.mk.inj h
    have hlt : r < guardCapacity := List.mem_range.mp (List.mem_of_find?_eq_some hfind)
    have hbound : r < protectionRegions := Nat.lt_of_lt_of_le hlt (by decide)
    have hfree := List.find?_some hfind
    rw [Bool.and_eq_true, Bool.not_eq_true'] at hfree
    constructor
    · intro other hholds
      rw [holds_setIfInBounds pool hbound]
      split
      · rfl
      · exact hholds
    · rintro region ⟨⟩
      have hindex : (UInt8.ofNat r).toNat = r := by
        rw [UInt8.toNat_ofNat']
        exact Nat.mod_eq_of_lt (Nat.lt_of_lt_of_le hbound (by decide))
      rw [hindex, holds_setIfInBounds pool hbound, if_pos rfl]
      exact ⟨hfree.1, rfl⟩
  · obtain ⟨rfl, rfl⟩ := Prod.mk.inj h
    exact ⟨fun _ hholds => hholds, fun _ hnone => by contradiction⟩

theorem giveBack_of_holds (h : pool.holds region.toNat = true) :
    pool.giveBack region = .ok ⟨pool.marks.setIfInBounds region.toNat false⟩ := by
  have hlt : require (region.toNat < protectionRegions) (.overflow .shiftLeft) = .ok () :=
    require_eq_ok.mpr (lt_of_holds h)
  have hheld : require (pool.holds region.toNat = true) (.regionNotClaimed region) = .ok () :=
    require_eq_ok.mpr h
  simp only [giveBack, hlt, hheld, bind, Except.bind, pure, Except.pure]

end GuardPool

instance : SteadyHardware Board where
  setAlarm_onward _ _ := Board.onward_of_eq rfl rfl
  clearAlarm_onward _ := Board.onward_of_eq rfl rfl
  readyDecisionStack_onward _ := Board.onward_of_eq rfl rfl
  guardStack_onward b stack := by
    change Hardware.Onward b (b.guardStack stack).1
    unfold Board.guardStack
    split
    · refine ⟨Instant.le_refl b.clock, fun region hholds => ?_⟩
      exact (GuardPool.grant_spec rfl).1 region.toNat hholds
    · exact .refl b
  guardStack_fresh b stack region hregion := by
    change (b.guardStack stack).2 = some region at hregion
    change ¬b.guardPool.holds region.toNat = true ∧
      (b.guardStack stack).1.guardPool.holds region.toNat = true
    unfold Board.guardStack at hregion ⊢
    split at hregion
    · rename_i hguards
      obtain ⟨hfree, hheld⟩ := (GuardPool.grant_spec rfl).2 region hregion
      rw [if_pos hguards, hfree]
      exact ⟨by decide, hheld⟩
    · contradiction
  unguardStack_held b region hheld := by
    have hback := GuardPool.giveBack_of_holds hheld
    have hother : ∀ other, other ≠ region → b.guardPool.holds other.toNat = true →
        GuardPool.holds ⟨b.guardPool.marks.setIfInBounds region.toNat false⟩ other.toNat =
          true := by
      intro other hne hholds
      rw [GuardPool.holds_setIfInBounds _ (GuardPool.lt_of_holds hheld), if_neg]
      · exact hholds
      · exact fun he => hne (UInt8.toNat_inj.mp he)
    exact ⟨_, bind_eq_ok.mpr ⟨_, hback, rfl⟩, Instant.le_refl b.clock, hother⟩

/-! ## One task -/

/-- A record whose task sleeps once at most, and only by one signal if it is awaited. -/
structure TaskRecord.Sturdy (r : TaskRecord) (awaited : Prop) : Prop where
  count : r.sleepCount = 0 ∨ r.sleepCount = 1
  asleep : r.state = .sleeping → r.sleepCount = 1
  live : r.Occupied → r.isLive = true
  exiting : r.exiting = true → r.sleepCount = 0
  awaited : awaited → r.sleepCount = 1 ∧ r.wakeAt = Instant.never

namespace TaskRecord.Sturdy

variable {r : TaskRecord} {awaited awaited' : Prop}

theorem mono (h : r.Sturdy awaited) (hawaited : awaited' → awaited) : r.Sturdy awaited' :=
  ⟨h.count, h.asleep, h.live, h.exiting, fun ha => h.awaited (hawaited ha)⟩

theorem woken (h : r.Sturdy awaited) (hcount : r.sleepCount = 1) (hnot : ¬awaited') :
    r.woken.Sturdy awaited' := by
  have hzero : r.woken.sleepCount = 0 := by
    show r.sleepCount - 1 = 0
    omega
  obtain ⟨hvacant, hexited⟩ : (r.woken.state = .vacant ↔ r.state = .vacant) ∧
      (r.woken.state = .exited ↔ r.state = .exited) :=
    ⟨(lasts_woken r).vacant, (lasts_woken r).exited⟩
  refine ⟨.inl hzero, ?asleep, ?live, fun _ => hzero, fun ha => absurd ha hnot⟩
  case asleep =>
    intro hsleeping
    unfold TaskRecord.woken at hsleeping
    dsimp only at hsleeping
    split at hsleeping
    · contradiction
    · exact absurd hsleeping ‹_›
  case live =>
    rintro ⟨hne, hne'⟩
    rw [isLive_woken]
    exact h.live ⟨mt hvacant.mpr hne, mt hexited.mpr hne'⟩

theorem countSleep (h : r.Sturdy awaited) (hzero : r.sleepCount = 0) (hexiting : r.exiting = false)
    {deadline : Instant} (hawaited : awaited' → deadline = Instant.never) :
    (r.countSleep deadline).Sturdy awaited' := by
  have hone : (r.countSleep deadline).sleepCount = 1 := by
    show r.sleepCount + 1 = 1
    omega
  refine ⟨.inr hone, fun _ => hone, h.live, ?_, fun ha => ⟨hone, hawaited ha⟩⟩
  intro he
  rw [show r.exiting = true from he] at hexiting
  contradiction

theorem exit (h : r.Sturdy awaited) (hzero : r.sleepCount = 0) (code : UInt32) :
    TaskRecord.Sturdy { r with exiting := true, exitCode := code } awaited :=
  ⟨h.count, h.asleep, h.live, fun _ => hzero, h.awaited⟩

theorem withCompletion (h : r.Sturdy awaited) (completion : Signal) :
    TaskRecord.Sturdy { r with completion } awaited :=
  ⟨h.count, h.asleep, h.live, h.exiting, h.awaited⟩

theorem withState (h : r.Sturdy awaited) {state : TaskState} (hlive : r.isLive = true)
    (hasleep : state = .sleeping → r.sleepCount = 1) :
    TaskRecord.Sturdy { r with state } awaited :=
  ⟨h.count, hasleep, fun _ => hlive, h.exiting, h.awaited⟩

theorem finished (h : r.Sturdy awaited) : r.finished.Sturdy awaited :=
  ⟨h.count, fun he => by contradiction, fun he => absurd rfl he.2, h.exiting, h.awaited⟩

end TaskRecord.Sturdy

namespace Scheduler

/-! ## Guards that are granted -/

section Marks

variable {H : Type} {s t : Scheduler H} {id : TaskId} {pointer : Address}

theorem only_of_changed {p q : Nat → Prop} (changed : Nat)
    (honly : ∀ a ∈ slots, ∀ b ∈ slots, p a → p b → a = b)
    (hsame : ∀ slot ∈ slots, slot ≠ changed → q slot → p slot)
    (hnew : q changed → ∀ slot ∈ slots, slot ≠ changed → ¬q slot) :
    ∀ a ∈ slots, ∀ b ∈ slots, q a → q b → a = b := by
  intro a ha b hb hqa hqb
  by_cases hea : a = changed
  · by_cases heb : b = changed
    · rw [hea, heb]
    · exact absurd hqb (hnew (hea ▸ hqa) b hb heb)
  · by_cases heb : b = changed
    · exact absurd hqa (hnew (heb ▸ hqb) a ha hea)
    · exact honly a ha b hb (hsame a ha hea hqa) (hsame b hb heb hqb)

def guardAt (s : Scheduler H) (slot : Nat) : Option UInt8 :=
  (s.tasks.record slot).guardRegion

theorem Started.guardAt [Hardware H] {stack : StackRange} (h : Started s stack pointer id t)
    (slot : Nat) :
    t.guardAt slot =
      if slot = id.index then (Hardware.guardStack s.hardware stack).2 else s.guardAt slot := by
  unfold Scheduler.guardAt
  by_cases he : slot = id.index
  · subst he
    rw [if_pos rfl, show t.tasks.record id.index = _ from h.self]
    rfl
  · rw [if_neg he]
    by_cases hzero : slot = 0
    · subst hzero
      refine (congrArg TaskRecord.guardRegion h.mainline).trans ?_
      split <;> rfl
    · rw [h.other slot hzero he]

end Marks

open GuardingHardware SteadyHardware

variable {H : Type} [SteadyHardware H] {s t u : Scheduler H} {id : TaskId}
variable {awaited awaited' : Nat → Prop} {change : TaskRecord → TaskRecord}

/-- The guards of the tasks are all granted, and no two tasks have the same. -/
structure Secured (s : Scheduler H) : Prop where
  granted : ∀ slot ∈ slots, ∀ region, s.guardAt slot = some region → holds s.hardware region
  unshared : ∀ a ∈ slots, ∀ b ∈ slots, ∀ region, s.guardAt a = some region →
    s.guardAt b = some region → a = b

theorem secured_new (hardware : H) : (new hardware).Secured := by
  have hnone : ∀ slot, (new hardware).guardAt slot = none :=
    fun slot => congrArg TaskRecord.guardRegion (TaskTable.record_vacant slot)
  refine ⟨fun slot _ region hslot => ?_, fun a _ _ _ region ha _ => ?_⟩
  · rw [hnone] at hslot
    contradiction
  · rw [hnone] at ha
    contradiction

theorem Secured.onward (h : s.Secured) (hmarks : ∀ slot, t.guardAt slot = s.guardAt slot)
    (honward : Hardware.Onward s.hardware t.hardware) : t.Secured := by
  refine ⟨fun slot hslot region hregion => ?_, ?_⟩
  · rw [hmarks] at hregion
    exact honward.holds region (h.granted slot hslot region hregion)
  · simpa only [hmarks] using h.unshared

theorem Secured.given (h : s.Secured) {stack : StackRange}
    (hmarks : ∀ slot, t.guardAt slot =
      if slot = id.index then (Hardware.guardStack s.hardware stack).2 else s.guardAt slot)
    (hhardware : t.hardware = (Hardware.guardStack s.hardware stack).1) : t.Secured := by
  have hkept : ∀ region, holds s.hardware region → holds t.hardware region := by
    rw [hhardware]
    exact (guardStack_onward s.hardware stack).holds
  have hfresh : ∀ region, t.guardAt id.index = some region →
      ¬holds s.hardware region ∧ holds t.hardware region := by
    intro region hregion
    rw [hmarks, if_pos rfl] at hregion
    rw [hhardware]
    exact guardStack_fresh s.hardware stack region hregion
  have hheld : ∀ slot ∈ slots, slot ≠ id.index → ∀ region, t.guardAt slot = some region →
      s.guardAt slot = some region ∧ holds s.hardware region := by
    intro slot hslot hne region hregion
    rw [hmarks, if_neg hne] at hregion
    exact ⟨hregion, h.granted slot hslot region hregion⟩
  refine ⟨fun slot hslot region hregion => ?_, fun a ha b hb region =>
    only_of_changed id.index (fun a ha b hb => h.unshared a ha b hb region)
      (fun slot hslot hne hregion => (hheld slot hslot hne region hregion).1)
      (fun hregion slot hslot hne hsame =>
        (hfresh region hregion).1 (hheld slot hslot hne region hsame).2) a ha b hb⟩
  by_cases he : slot = id.index
  · exact (hfresh region (he ▸ hregion)).2
  · exact hkept region (hheld slot hslot he region hregion).2

theorem Secured.released {slot : Nat} (h : s.Secured) (hslot : slot ∈ slots)
    (hmarks : ∀ other, t.guardAt other = if other = slot then none else s.guardAt other)
    (hkept : ∀ region, s.guardAt slot ≠ some region → holds s.hardware region →
      holds t.hardware region) : t.Secured := by
  have hothers : ∀ other region, t.guardAt other = some region →
      other ≠ slot ∧ s.guardAt other = some region := by
    intro other region hregion
    rw [hmarks] at hregion
    split at hregion
    · contradiction
    · exact ⟨‹_›, hregion⟩
  refine ⟨fun other hother region hregion => ?_, fun a ha b hb region hra hrb =>
    h.unshared a ha b hb region (hothers a region hra).2 (hothers b region hrb).2⟩
  obtain ⟨hne, hbefore⟩ := hothers other region hregion
  exact hkept region (fun hguard => hne (h.unshared other hother slot hslot region hbefore hguard))
    (h.granted other hother region hbefore)

theorem Secured.unguard (h : s.Secured) (hslot : id.index ∈ slots)
    (change : TaskRecord → TaskRecord) :
    ∃ hardware, (s.update id change).unguard (s.record id).guardRegion =
        .ok { s.update id change with hardware } ∧ s.now ≤ Hardware.now hardware ∧
      ∀ region, s.guardAt id.index ≠ some region → holds s.hardware region →
        holds hardware region := by
  cases hguard : s.guardAt id.index with
  | none =>
      rw [show (s.record id).guardRegion = none from hguard]
      exact ⟨s.hardware, rfl, Instant.le_refl _, fun _ _ hheld => hheld⟩
  | some region =>
      obtain ⟨hardware, hback, hnow, hkept⟩ := unguardStack_held s.hardware region
        (h.granted id.index hslot region hguard)
      rw [show (s.record id).guardRegion = some region from hguard]
      exact ⟨hardware, bind_eq_ok.mpr ⟨hardware, hback, rfl⟩, hnow, fun other hne hheld =>
        hkept other (fun he => hne (congrArg some he.symm)) hheld⟩

/-! ## All tasks -/

structure FaultFree (s : Scheduler H) (awaited : Nat → Prop) : Prop where
  tasks : ∀ slot ∈ slots, (s.tasks.record slot).Sturdy (awaited slot)
  busy : ∀ slot, (s.tasks.record slot).busyTime.toNat ≤ s.resumedAt.toNat
  resumed : s.resumedAt ≤ s.now
  guarded : ∀ slot ∈ slots, ∀ region, (s.tasks.record slot).guardRegion = some region →
    holds s.hardware region
  unshared : ∀ a ∈ slots, ∀ b ∈ slots, ∀ region,
    (s.tasks.record a).guardRegion = some region →
      (s.tasks.record b).guardRegion = some region → a = b

structure Onward (s t : Scheduler H) : Prop where
  resumedAt : t.resumedAt = s.resumedAt
  hardware : Hardware.Onward s.hardware t.hardware

theorem Onward.of_eq (hresumedAt : t.resumedAt = s.resumedAt)
    (hhardware : t.hardware = s.hardware) :
    s.Onward t :=
  ⟨hresumedAt, .of_eq hhardware⟩

theorem FaultFree.secured (h : s.FaultFree awaited) : s.Secured :=
  ⟨h.guarded, h.unshared⟩

theorem faultFree_new (hardware : H) : (new hardware).FaultFree fun _ => False := by
  have hrecord : ∀ slot, (new hardware).tasks.record slot = TaskRecord.vacant :=
    TaskTable.record_vacant
  obtain ⟨hgranted, hunshared⟩ := secured_new hardware
  refine ⟨?tasks, ?busy, ?resumed, hgranted, hunshared⟩
  case tasks =>
    intro slot _
    rw [hrecord]
    exact ⟨.inl rfl, nofun, fun hoccupied => absurd rfl hoccupied.1, nofun, False.elim⟩
  case busy =>
    intro slot
    rw [hrecord]
    exact Nat.zero_le _
  case resumed =>
    rw [Instant.le_iff]
    exact Nat.zero_le _

theorem FaultFree.mono (h : s.FaultFree awaited)
    (hawaited : ∀ slot ∈ slots, awaited' slot → awaited slot) :
    s.FaultFree awaited' :=
  ⟨fun slot hslot => (h.tasks slot hslot).mono (hawaited slot hslot), h.busy, h.resumed, h.guarded,
    h.unshared⟩

theorem FaultFree.onward (h : s.FaultFree awaited) (honward : s.Onward t)
    (htasks : ∀ slot ∈ slots, (t.tasks.record slot).Sturdy (awaited' slot))
    (hbusy : ∀ slot, (t.tasks.record slot).busyTime = (s.tasks.record slot).busyTime)
    (hguard : ∀ slot, (t.tasks.record slot).guardRegion = (s.tasks.record slot).guardRegion) :
    t.FaultFree awaited' := by
  obtain ⟨hgranted, hunshared⟩ := h.secured.onward hguard honward.hardware
  refine ⟨htasks, ?busy, ?resumed, hgranted, hunshared⟩
  case busy =>
    intro slot
    rw [hbusy, honward.resumedAt]
    exact h.busy slot
  case resumed =>
    rw [honward.resumedAt]
    exact Instant.le_trans h.resumed honward.hardware.now_le

theorem FaultFree.altered (h : s.FaultFree awaited) (honward : s.Onward t)
    (haltered : Altered s id change t) (hbusy : ∀ r, (change r).busyTime = r.busyTime)
    (hguard : ∀ r, (change r).guardRegion = r.guardRegion)
    (hself : id.index ∈ slots → (change (s.record id)).Sturdy (awaited' id.index))
    (hother : ∀ slot ∈ slots, slot ≠ id.index → awaited' slot → awaited slot) :
    t.FaultFree awaited' := by
  apply h.onward honward
  · intro slot hslot
    rw [haltered slot]
    by_cases he : slot = id.index
    · subst he
      rw [if_pos rfl]
      exact hself hslot
    · rw [if_neg he]
      exact (h.tasks slot hslot).mono (hother slot hslot he)
  · intro slot
    rw [haltered slot]
    split
    · exact hbusy _
    · rfl
  · intro slot
    rw [haltered slot]
    split
    · exact hguard _
    · rfl

theorem FaultFree.moved (h : s.FaultFree awaited) (hmoved : AlarmMoved s t)
    (hhardware : Hardware.Onward s.hardware t.hardware) : t.FaultFree awaited := by
  have hrecord : ∀ slot, t.tasks.record slot = s.tasks.record slot := by
    intro slot
    rw [hmoved.tasks]
  apply h.onward ⟨hmoved.resumedAt, hhardware⟩
  · intro slot hslot
    rw [hrecord]
    exact h.tasks slot hslot
  · intro slot
    rw [hrecord]
  · intro slot
    rw [hrecord]

/-! ## Wakes -/

/-- A task that a wake may wake: it has a sleep pending, and no signal has it recorded. -/
structure Dozes (s : Scheduler H) (awaited : Nat → Prop) (id : TaskId) : Prop where
  slot : id.index ∈ slots
  current : id.generation = (s.record id).generation
  occupied : (s.record id).Occupied
  count : (s.record id).sleepCount = 1
  unawaited : ¬awaited id.index

theorem FaultFree.dozes_sleeper (h : s.FaultFree awaited) (hs : s.Standing) (hid : id ∈ s.sleepers)
    (htimed : (s.record id).wakeAt ≠ Instant.never) : s.Dozes awaited id := by
  obtain ⟨hne, hstate⟩ := hs.asleep id hid
  have hmem := List.mem_append_right s.runQueue hid
  have hslot : id.index ∈ slots := mem_slots.mpr ⟨hne, hs.index_lt hmem⟩
  have hsturdy := h.tasks id.index hslot
  refine ⟨hslot, hs.generation id hmem, ?_, hsturdy.asleep hstate, ?_⟩
  · unfold TaskRecord.Occupied
    rw [hstate]
    decide
  · intro hawaited
    exact htimed (hsturdy.awaited hawaited).2

omit [SteadyHardware H] in
theorem Dozes.state (h : s.Dozes awaited id) (hs : s.Standing) :
    (s.record id).state = .sleeping ∨ (s.record id).state = .ready ∨
      (s.record id).state = .running := by
  obtain ⟨hne, _⟩ := mem_slots.mp h.slot
  have hlinked := hs.linked_of_state hne h.occupied.1 h.occupied.2
  rcases List.mem_append.mp (hs.mem_of_linked h.current hlinked) with hmem | hmem
  · exact .inr (hs.queued id hmem hne)
  · exact .inl (hs.asleep id hmem).2

omit [SteadyHardware H] in
theorem Dozes.wakeTask (h : s.Dozes awaited id) (hs : s.Standing)
    (hlive : (s.record id).isLive = true) : ∃ t wasHead, s.wakeTask id = .ok (t, wasHead) := by
  have hlimit : sleepCountMin < (s.record id).sleepCount := by
    rw [h.count]
    decide
  exact hs.wakeTask_of_live h.current (mem_slots.mp h.slot).1 hlive hlimit (h.state hs)

theorem FaultFree.woke (h : s.FaultFree awaited) (hid : s.Dozes awaited id) (hwoke : Woke s id t) :
    t.FaultFree awaited := by
  have haltered : Altered s id TaskRecord.woken t := hwoke.record
  refine h.altered (.of_eq hwoke.resumedAt hwoke.hardware) haltered (fun _ => rfl) (fun _ => rfl)
    ?_ fun _ _ _ hawaited => hawaited
  intro hslot
  exact (h.tasks id.index hslot).woken hid.count hid.unawaited

theorem FaultFree.wakeTask (h : s.FaultFree awaited) (hs : s.Standing) (hid : s.Dozes awaited id) :
    ∃ t wasHead, s.wakeTask id = .ok (t, wasHead) ∧ t.Standing ∧ t.FaultFree awaited := by
  obtain ⟨t, wasHead, hok⟩ := hid.wakeTask hs ((h.tasks id.index hid.slot).live hid.occupied)
  obtain ⟨hwoke, _⟩ := hs.wakeTask hok
  exact ⟨t, wasHead, hok, hwoke.standing, h.woke hid hwoke⟩

theorem FaultFree.rearmSteps (h : s.FaultFree awaited) (hs : s.Standing) (steps : Nat) :
    ∃ t, s.rearmSteps steps = .ok t ∧ t.Standing ∧ t.FaultFree awaited := by
  refine rearmSteps_of_wakes (P := fun s => s.Standing ∧ s.FaultFree awaited) And.left ?moved ?wake
    steps ⟨hs, h⟩
  case moved =>
    rintro s t deadline hmoved hhardware ⟨hs, h⟩
    refine ⟨hmoved.standing hs, h.moved hmoved ?_⟩
    rw [hhardware]
    exact setAlarm_onward s.hardware deadline
  case wake =>
    rintro s head ⟨hs, h⟩ hhead htimed
    exact h.wakeTask hs (h.dozes_sleeper hs (List.mem_of_head? hhead) htimed)

theorem FaultFree.rearm (h : s.FaultFree awaited) (hs : s.Standing) :
    ∃ t, s.rearm = .ok t ∧ t.Standing ∧ t.FaultFree awaited :=
  h.rearmSteps hs (slotCount + 1)

theorem FaultFree.wake (h : s.FaultFree awaited) (hs : s.Standing) (hid : s.Dozes awaited id) :
    ∃ t, s.wake id = .ok t ∧ t.Standing ∧ t.FaultFree awaited := by
  obtain ⟨u, wasHead, hwake, hu, hfree⟩ := h.wakeTask hs hid
  have hslot : requireSlot id = .ok () := require_eq_ok.mpr (mem_slots.mp hid.slot).2
  unfold Scheduler.wake
  simp only [hslot, hwake, bind, Except.bind]
  split
  · have hmoved := alarmMoved u (Hardware.clearAlarm u.hardware) none
    exact (hfree.moved hmoved (clearAlarm_onward u.hardware)).rearm (hmoved.standing hu)
  · exact ⟨u, rfl, hu, hfree⟩

theorem FaultFree.wakeWaiter (h : s.FaultFree awaited) (hs : s.Standing) {waiter : Option TaskId}
    (hwaiter : ∀ id, waiter = some id → s.Dozes awaited id) :
    ∃ t, s.wakeWaiter waiter = .ok t ∧ t.Standing ∧ t.FaultFree awaited := by
  cases waiter with
  | none => exact ⟨s, rfl, hs, h⟩
  | some id => exact h.wake hs (hwaiter id rfl)

theorem FaultFree.wakeExpired (h : s.FaultFree awaited) (hs : s.Standing) (now : Instant)
    (steps : Nat) :
    ∃ t, Scheduler.wakeExpired now steps s = .ok t ∧ t.Standing ∧ t.FaultFree awaited := by
  induction steps generalizing s with
  | zero => exact ⟨s, rfl, hs, h⟩
  | succ steps ih =>
      unfold Scheduler.wakeExpired
      rw [hs.timers_head]
      cases hhead : s.sleepers.head? with
      | none => exact ⟨s, rfl, hs, h⟩
      | some head =>
          dsimp only
          split
          · exact ⟨s, rfl, hs, h⟩
          · rename_i hdue
            have htimed : (s.record head).wakeAt ≠ Instant.never := by
              intro hnever
              exact hdue (.inl (Instant.isNever_iff.mpr hnever))
            obtain ⟨u, wasHead, hwake, hu, hfree⟩ := h.wakeTask hs
              (h.dozes_sleeper hs (List.mem_of_head? hhead) htimed)
            obtain ⟨t, hok, ht⟩ := ih hfree hu
            refine ⟨t, ?_, ht⟩
            rw [hwake]
            exact hok

theorem FaultFree.handleAlarm (h : s.FaultFree awaited) (hs : s.Standing) :
    ∃ t, s.handleAlarm = .ok t ∧ t.Standing ∧ t.FaultFree awaited := by
  have hmoved := alarmMoved s s.hardware none
  obtain ⟨u, hexpired, hu, hfree⟩ := (h.moved hmoved (.refl _)).wakeExpired (hmoved.standing hs)
    s.now (slotCount + 1)
  obtain ⟨t, hrearm, ht⟩ := hfree.rearm hu
  refine ⟨t, bind_eq_ok.mpr ⟨u, ?_, hrearm⟩, ht⟩
  exact hexpired

end Scheduler

end CoopTasks
