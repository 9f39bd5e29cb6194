import CoopTasks.Proofs.Guarding
import CoopTasks.Proofs.Pools
import CoopTasks.Proofs.Sparing
import Mathlib.Data.List.Nodup

/-!
Who holds the regions that guard stacks.

A region is marked twice: in the pool that grants it and in the record of the
task whose stack it guards.  A start takes a region out of the pool and the
switch that retires the task gives it back (`Guarding`), so the two marks agree
and no region is lost or shared (`Fenced`).
-/

namespace CoopTasks

namespace Scheduler

open Pooled

/-! ## No region is lost or shared -/

section Pool

variable {R : Type} [Hardware R] {s t u : Scheduler (Pooled R)} {id : TaskId} {slot : Nat}

omit [Hardware R] in
/-- The pool, its log and the marks of the tasks agree. -/
structure Fenced (s : Scheduler (Pooled R)) : Prop where
  tallied : s.hardware.Tallied
  held : ∀ region : UInt8,
    s.hardware.pool.holds region.toNat = true ↔ ∃ slot, s.guardAt slot = some region
  unshared : ∀ a b region, s.guardAt a = some region → s.guardAt b = some region → a = b
  within : ∀ slot region, s.guardAt slot = some region →
    slot ∈ slots ∧ region.toNat < guardCapacity

omit [Hardware R] in
theorem fenced_new (rest : R) (inUse : Nat → Bool) :
    (new (⟨rest, GuardPool.empty, inUse, []⟩ : Pooled R)).Fenced := by
  have hnone : ∀ slot, (new (⟨rest, GuardPool.empty, inUse, []⟩ : Pooled R)).guardAt slot = none :=
    fun slot => congrArg TaskRecord.guardRegion (TaskTable.record_vacant slot)
  refine ⟨⟨trivial, fun region => ?_⟩, fun region => ?_, ?_, ?_⟩
  · simp [new, GuardUse.outstanding]
  · constructor
    · intro hheld
      exact absurd hheld (by simp [new])
    · rintro ⟨slot, hslot⟩
      rw [hnone] at hslot
      contradiction
  · intro a b region ha
    rw [hnone] at ha
    contradiction
  · intro slot region hslot
    rw [hnone] at hslot
    contradiction

omit [Hardware R] in
theorem Fenced.kept (h : s.Fenced) (hmarks : ∀ slot, t.guardAt slot = s.guardAt slot)
    (hsame : SameGuards s.hardware t.hardware) : t.Fenced := by
  refine ⟨h.tallied.congr hsame, ?_, ?_, ?_⟩
  · simpa only [hsame.pool, hmarks] using h.held
  · simpa only [hmarks] using h.unshared
  · simpa only [hmarks] using h.within

omit [Hardware R] in
theorem Fenced.granted (h : s.Fenced) {stack : StackRange} {region : UInt8} (hslot : slot ∈ slots)
    (hfree : s.guardAt slot = none)
    (hgrant : s.hardware.guardStack stack = (t.hardware, some region))
    (hmarks : ∀ other, t.guardAt other = if other = slot then some region else s.guardAt other) :
    t.Fenced := by
  obtain ⟨hpool, -⟩ := guardStack_eq_some hgrant
  obtain ⟨hlt, hnew, -, hholds⟩ := GuardPool.grant_eq_some hpool
  have hnobody : ∀ other, s.guardAt other ≠ some region := by
    intro other hother
    rw [(h.held region).mpr ⟨other, hother⟩] at hnew
    contradiction
  refine ⟨h.tallied.granted hgrant, fun other => ?_, ?_, ?_⟩
  · rw [hholds]
    by_cases he : other = region
    · subst he
      rw [if_pos rfl]
      exact iff_of_true rfl ⟨slot, by rw [hmarks, if_pos rfl]⟩
    · rw [if_neg (mt UInt8.toNat_inj.mp he), h.held]
      constructor
      · rintro ⟨a, ha⟩
        refine ⟨a, ?_⟩
        rw [hmarks, if_neg]
        · exact ha
        · rintro rfl
          rw [hfree] at ha
          contradiction
      · rintro ⟨a, ha⟩
        rw [hmarks] at ha
        split at ha
        · exact absurd (Option.some.inj ha).symm he
        · exact ⟨a, ha⟩
  · intro a b other ha hb
    rw [hmarks] at ha hb
    split at ha <;> split at hb
    · rename_i hea heb
      rw [hea, heb]
    · obtain rfl := Option.some.inj ha
      exact absurd hb (hnobody b)
    · obtain rfl := Option.some.inj hb
      exact absurd ha (hnobody a)
    · exact h.unshared a b other ha hb
  · intro a other ha
    rw [hmarks] at ha
    split at ha
    · rename_i hea
      obtain rfl := Option.some.inj ha
      exact ⟨hea ▸ hslot, hlt⟩
    · exact h.within a other ha

omit [Hardware R] in
theorem Fenced.returned (h : s.Fenced) {region : UInt8} {given : Pooled R}
    (hregion : s.guardAt slot = some region) (hback : s.hardware.unguardStack region = .ok given)
    (hsame : SameGuards given t.hardware)
    (hmarks : ∀ other, t.guardAt other = if other = slot then none else s.guardAt other) :
    t.Fenced := by
  obtain ⟨hpool, -⟩ := unguardStack_eq_ok hback
  have hholds := GuardPool.holds_of_giveBack hpool
  have hothers : ∀ other a, t.guardAt other = some a ↔
      s.guardAt other = some a ∧ a ≠ region := by
    intro other a
    rw [hmarks]
    by_cases he : other = slot
    · subst he
      rw [if_pos rfl, hregion]
      simp [eq_comm]
    · rw [if_neg he]
      refine ⟨fun ha => ⟨ha, ?_⟩, And.left⟩
      rintro rfl
      exact he (h.unshared other slot a ha hregion)
  refine ⟨?_, fun other => ?_, ?_, ?_⟩
  · exact (h.tallied.returned ((h.held region).mpr ⟨slot, hregion⟩) hback).congr hsame
  · rw [hsame.pool, hholds]
    by_cases he : other = region
    · subst he
      simp [hothers]
    · rw [if_neg (mt UInt8.toNat_inj.mp he), h.held]
      simp [hothers, he]
  · intro a b other ha hb
    exact h.unshared a b other ((hothers a other).mp ha).1 ((hothers b other).mp hb).1
  · intro a other ha
    exact h.within a other ((hothers a other).mp ha).1

theorem alarmBlind_sameGuards : AlarmBlind (SameGuards : Pooled R → Pooled R → Prop) :=
  ⟨fun _ => .of_eq rfl, SameGuards.trans, fun _ _ => ⟨rfl, rfl⟩, fun _ => ⟨rfl, rfl⟩⟩

theorem Fenced.guarding (h : s.Fenced) (hlived : s.Lived) {op : Operation}
    (hguarding : Guarding SameGuards s op t) : t.Fenced := by
  cases hguarding with
  | kept _ hmarks hsame => exact h.kept hmarks hsame
  | @granted stack _ id _ hslot hgone _ hmarks hhardware =>
      have hfree : s.guardAt id.index = none := hlived.unguarded id.index hslot hgone
      have hgrant : s.hardware.guardStack stack =
          (t.hardware, (s.hardware.guardStack stack).2) := Prod.ext hhardware.symm rfl
      replace hmarks : ∀ slot, t.guardAt slot =
        if slot = id.index then (s.hardware.guardStack stack).2 else s.guardAt slot := hmarks
      cases hregion : (s.hardware.guardStack stack).2 with
      | some region =>
          rw [hregion] at hgrant hmarks
          exact h.granted hslot hfree hgrant hmarks
      | none =>
          rw [hregion] at hgrant hmarks
          refine h.kept (fun slot => ?_) (guardStack_eq_none hgrant).2
          rw [hmarks]
          split
          · rename_i he
            rw [he, hfree]
          · rfl
  | @returned _ id _ _ _ hmarks hback =>
      cases hregion : s.guardAt id.index with
      | some region =>
          rw [hregion] at hback
          obtain ⟨given, hgiven, hsame⟩ := hback
          exact h.returned hregion hgiven hsame hmarks
      | none =>
          rw [hregion] at hback
          refine h.kept (fun slot => ?_) hback
          rw [hmarks]
          split
          · rename_i he
            rw [he, hregion]
          · rfl

omit [Hardware R] in
theorem Fenced.granted_eq (h : s.Fenced) :
    s.hardware.pool.granted = slots.countP fun slot => (s.guardAt slot).isSome := by
  have hslots : slots.Nodup := by decide
  have hmarks : (slots.filterMap s.guardAt).Nodup :=
    hslots.filterMap fun a b region ha hb => h.unshared a b region ha hb
  have hperm : ((List.range protectionRegions).filter s.hardware.pool.holds).Perm
      ((slots.filterMap s.guardAt).map UInt8.toNat) := by
    refine (List.perm_ext_iff_of_nodup (List.nodup_range.filter _)
      (hmarks.map fun _ _ => UInt8.toNat_inj.mp)).mpr fun r => ?_
    rw [List.mem_filter, List.mem_range, List.mem_map]
    constructor
    · rintro ⟨hlt, hheld⟩
      have hindex : (UInt8.ofNat r).toNat = r := by
        rw [UInt8.toNat_ofNat']
        exact Nat.mod_eq_of_lt (Nat.lt_of_lt_of_le hlt (by decide))
      obtain ⟨slot, hslot⟩ := (h.held (UInt8.ofNat r)).mp (hindex.symm ▸ hheld)
      exact ⟨_, List.mem_filterMap.mpr ⟨slot, (h.within slot _ hslot).1, hslot⟩, hindex⟩
    · rintro ⟨region, hregion, rfl⟩
      obtain ⟨slot, -, hslot⟩ := List.mem_filterMap.mp hregion
      have hheld := (h.held region).mpr ⟨slot, hslot⟩
      exact ⟨GuardPool.lt_of_holds hheld, hheld⟩
  rw [GuardPool.granted_eq, hperm.length_eq, List.length_map, List.length_filterMap_eq_countP]

end Pool

/-! ## All runs -/

section Runs

variable {R : Type} [Hardware R] {s t : Scheduler (Pooled R)} {op : Operation}
variable {decision : Option Decision}

omit [Hardware R] in
theorem Fenced.spares_unguardStack (h : s.Fenced) (slot : Nat) {region : UInt8}
    (hregion : s.guardAt slot = some region) : Spares (s.hardware.unguardStack region) := by
  have hback := GuardPool.giveBack_of_holds ((h.held region).mpr ⟨slot, hregion⟩)
  unfold unguardStack
  rw [hback]
  exact spares_ok _

theorem Fenced.spares_reschedule (h : s.Fenced) (hs : s.Standing) (pointer : Address) :
    Spares (s.reschedule pointer) := by
  refine spares_suspend.bind fun suspended hsuspend => ?_
  obtain ⟨u, id⟩ := suspended
  obtain ⟨rest, hsuspended⟩ := hs.suspend hsuspend
  refine Spares.bind (spares_settle fun region hregion => ?_) fun _ _ =>
    Spares.bind spares_rearmSteps fun _ _ => spares_dispatch
  rw [hsuspended.self] at hregion
  rw [hsuspended.hardware]
  exact h.spares_unguardStack id.index hregion

theorem Fenced.spares_perform (h : s.Fenced) (hs : s.Standing) (op : Operation) :
    Spares (s.perform op) := by
  cases op with
  | spawn stack pointer => exact spares_spawn.bind fun _ _ => spares_pure _
  | reschedule pointer => exact (h.spares_reschedule hs pointer).bind fun _ _ => spares_pure _
  | dispatch => exact spares_dispatch.bind fun _ _ => spares_pure _
  | markExiting code => exact spares_markExiting.bind fun _ _ => spares_pure _
  | markAsleep deadline => exact spares_markAsleep.bind fun _ _ => spares_pure _
  | wake id => exact spares_wake.bind fun _ _ => spares_pure _
  | post signal =>
      exact (spares_wakeWaiter.bind fun _ _ => spares_pure _).bind fun _ _ => spares_pure _
  | attemptWait signal => exact spares_attemptWait.bind fun _ _ => spares_pure _
  | attemptJoin target => exact spares_attemptJoin.bind fun _ _ => spares_pure _
  | tryJoin target => exact spares_tryJoin.bind fun _ _ => spares_pure _
  | handleAlarm => exact spares_handleAlarm.bind fun _ _ => spares_pure _

/-- The states of a scheduler on hardware with a pool that begins with all regions. -/
inductive Guarded : Scheduler (Pooled R) → Prop
  | new (rest : R) (inUse : Nat → Bool) : Guarded (new ⟨rest, GuardPool.empty, inUse, []⟩)
  | elapse {s : Scheduler (Pooled R)} (rest : R) (inUse : Nat → Bool) :
      Guarded s →
      Guarded { s with hardware := { s.hardware with rest, inUse } }
  | perform {s t : Scheduler (Pooled R)} {op : Operation} {decision : Option Decision} :
      Guarded s →
      s.perform op = .ok (t, decision) →
      Guarded t

theorem Guarded.reachable (h : Guarded s) : Reachable s := by
  induction h with
  | new _ _ => exact .new
  | elapse _ _ _ ih => exact ih.elapse
  | perform _ hok ih => exact ih.perform hok

theorem Guarded.performAll (h : Guarded s) {ops : List Operation} (hok : s.performAll ops = .ok t) :
    Guarded t :=
  performAll_preserves (fun _ _ _ _ _ hs hperform => hs.perform hperform) h hok

theorem Guarded.fenced (h : Guarded s) : s.Fenced := by
  induction h with
  | new rest inUse => exact fenced_new rest inUse
  | elapse _ _ _ ih => exact ih.kept (fun _ => rfl) ⟨rfl, rfl⟩
  | perform hguarded hok ih =>
      have hreachable := hguarded.reachable
      exact ih.guarding hreachable.lived
        (hreachable.invariants.1.guarding alarmBlind_sameGuards hok)

theorem Guarded.used_of_spawn (h : Guarded s) {stack : StackRange} {pointer : Address} {id : TaskId}
    (hok : s.spawn stack pointer = .ok (t, .ok id)) (hnone : t.guardAt id.index = none)
    {region : Nat} (hregion : region < guardCapacity) :
    (∃ slot, s.guardAt slot = some (UInt8.ofNat region)) ∨ s.hardware.inUse region = true := by
  rcases h.reachable.invariants.1.spawn hok with ⟨hrefused, _⟩ | ⟨id', hid, hstarted⟩
  · contradiction
  obtain rfl := Except.ok.inj hid
  rw [hstarted.guardAt, if_pos rfl] at hnone
  have hgrant : s.hardware.guardStack stack = ((s.hardware.guardStack stack).1, none) :=
    Prod.ext rfl hnone
  obtain ⟨hpool, -⟩ := guardStack_eq_none hgrant
  refine ((GuardPool.grant_eq_none hpool).2 region hregion).imp_left fun hheld => ?_
  have hindex : (UInt8.ofNat region).toNat = region := by
    rw [UInt8.toNat_ofNat']
    exact Nat.mod_eq_of_lt (Nat.lt_trans hregion (by decide))
  exact (h.fenced.held _).mp (hindex.symm ▸ hheld)

/--
No region is lost or shared.  The marks of the tasks are those of the pool, and
only tasks that have not ended have one; a region is granted to a task by its
start and returned by the switch that retires the task, which never fails to.
-/
theorem Guarded.regions_kept (h : Guarded s) :
    (∀ a b region, s.guardAt a = some region → s.guardAt b = some region → a = b) ∧
    (∀ slot region, s.guardAt slot = some region →
      slot ∈ slots ∧ s.Occupied slot ∧ region.toNat < guardCapacity) ∧
    (∀ region : UInt8,
      s.hardware.pool.holds region.toNat = true ↔ ∃ slot, s.guardAt slot = some region) ∧
    s.hardware.pool.granted = (slots.countP fun slot => (s.guardAt slot).isSome) ∧
    GuardUse.Paired s.hardware.uses ∧
    (∀ region, region ∈ GuardUse.outstanding s.hardware.uses ↔
      ∃ slot, s.guardAt slot = some region) ∧
    (∀ op t decision, s.perform op = .ok (t, decision) → Guarding SameGuards s op t) ∧
    (∀ op fault, s.perform op = .error fault → fault.ofReturn = false) ∧
    ∀ stack pointer t id, s.spawn stack pointer = .ok (t, .ok id) → t.guardAt id.index = none →
      ∀ region < guardCapacity,
        (∃ slot, s.guardAt slot = some (UInt8.ofNat region)) ∨ s.hardware.inUse region = true := by
  have hfenced := h.fenced
  have hs := h.reachable.invariants.1
  refine ⟨hfenced.unshared, ?_, hfenced.held, hfenced.granted_eq, hfenced.tallied.paired,
    fun region => (hfenced.tallied.outstanding region).trans (hfenced.held region),
    fun _ _ _ hok => hs.guarding alarmBlind_sameGuards hok,
    fun op fault => hfenced.spares_perform hs op fault,
    fun _ _ _ _ hok hnone _ hregion => h.used_of_spawn hok hnone hregion⟩
  intro slot region hregion
  obtain ⟨hslot, hlt⟩ := hfenced.within slot region hregion
  refine ⟨hslot, Classical.byContradiction fun hgone => ?_, hlt⟩
  have hnone := h.reachable.lived.unguarded slot hslot hgone
  rw [show s.guardAt slot = none from hnone] at hregion
  contradiction

def guardLeft : Except Fault (Scheduler (Pooled Board)) :=
  (new (⟨Board.start Instant.zero, GuardPool.empty, fun r => r == 0, []⟩ : Pooled Board)).performAll
    [.spawn ⟨0x20000000, 0x20000400⟩ 0x200003c8, .reschedule Board.mainlinePointer,
      .spawn ⟨0x20001000, 0x20001400⟩ 0x200013c8, .markExiting 0, .reschedule 0x20000380]

theorem regions_kept_guardLeft :
    ∃ s : Scheduler (Pooled Board), Guarded s ∧ s.guardAt 1 = none ∧ s.guardAt 2 = some 2 ∧
      s.hardware.pool.granted = 1 ∧
      s.hardware.uses = [.returned 1, .granted ⟨0x20001000, 0x20001400⟩ 2,
        .granted ⟨0x20000000, 0x20000400⟩ 1] ∧
      GuardUse.Paired s.hardware.uses ∧ s.Occupied 2 := by
  have hmarks : guardLeft.toOption.map (fun s => (s.guardAt 1, s.guardAt 2)) =
      some (none, some 2) := by decide
  have huses : guardLeft.toOption.map (fun s => (s.hardware.pool.granted, s.hardware.uses)) =
      some (1, [.returned 1, .granted ⟨0x20001000, 0x20001400⟩ 2,
        .granted ⟨0x20000000, 0x20000400⟩ 1]) := by decide
  cases hok : guardLeft with
  | error fault =>
      rw [hok] at hmarks
      contradiction
  | ok s =>
      have hguarded : Guarded s := (Guarded.new _ _).performAll hok
      obtain ⟨_, hheld, _, _, hpaired, _⟩ := hguarded.regions_kept
      rw [hok] at hmarks huses
      obtain ⟨hfirst, hsecond⟩ := Prod.mk.inj (Option.some.inj hmarks)
      obtain ⟨hgranted, huses⟩ := Prod.mk.inj (Option.some.inj huses)
      exact ⟨s, hguarded, hfirst, hsecond, hgranted, huses, hpaired, (hheld 2 2 hsecond).2.1⟩

end Runs

end Scheduler

end CoopTasks
