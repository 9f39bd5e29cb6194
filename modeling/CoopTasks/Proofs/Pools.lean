import CoopTasks.Hardware
import CoopTasks.Stack.GuardPool

/-!
Hardware that grants stack guards from a pool.

A pool grants the lowest region that is free, and refuses if none is.  `Pooled`
is hardware that does so, with a log of all grants and returns.  The log is
`Tallied` as long as nothing is returned that is not out: what is out by the log
is then what the pool holds.
-/

namespace CoopTasks

/-! ## The pool -/

namespace GuardPool

variable {pool pool' : GuardPool} {inUse : Nat → Bool} {region : UInt8}

theorem grant_eq_some (h : pool.grant inUse = (pool', some region)) :
    region.toNat < guardCapacity ∧ pool.holds region.toNat = false ∧
      inUse region.toNat = false ∧
      ∀ r, pool'.holds r = if r = region.toNat then true else pool.holds r := by
  unfold grant at h
  split at h
  · rename_i r hfind
    obtain ⟨rfl, hregion⟩ := Prod.mk.inj h
    obtain rfl := Option.some.inj hregion
    have hlt : r < guardCapacity := List.mem_range.mp (List.mem_of_find?_eq_some hfind)
    have hbound : r < protectionRegions := Nat.lt_of_lt_of_le hlt (by decide)
    have hindex : (UInt8.ofNat r).toNat = r := by
      rw [UInt8.toNat_ofNat']
      exact Nat.mod_eq_of_lt (Nat.lt_of_lt_of_le hbound (by decide))
    have hfree := List.find?_some hfind
    rw [Bool.and_eq_true, Bool.not_eq_true', Bool.not_eq_true'] at hfree
    rw [hindex]
    exact ⟨hlt, hfree.1, hfree.2, holds_setIfInBounds pool hbound true⟩
  · cases h

theorem grant_eq_none (h : pool.grant inUse = (pool', none)) :
    pool' = pool ∧ ∀ r < guardCapacity, pool.holds r = true ∨ inUse r = true := by
  unfold grant at h
  split at h
  · cases h
  · rename_i hfind
    obtain ⟨rfl, -⟩ := Prod.mk.inj h
    refine ⟨rfl, fun r hlt => ?_⟩
    have hused := List.find?_eq_none.mp hfind r (List.mem_range.mpr hlt)
    rw [Bool.and_eq_true, Bool.not_eq_true', Bool.not_eq_true'] at hused
    rcases hholds : pool.holds r with _ | _
    · rw [hholds] at hused
      exact .inr (by simpa using hused)
    · exact .inl rfl

theorem holds_of_giveBack (h : pool.giveBack region = .ok pool') (r : Nat) :
    pool'.holds r = if r = region.toNat then false else pool.holds r := by
  simp only [giveBack, bind_eq_ok, require_eq_ok, pure_eq_ok, exists_and_left, exists_const] at h
  obtain ⟨hbound, -, rfl⟩ := h
  exact holds_setIfInBounds pool hbound false r

theorem count_true_eq (marks : List Bool) :
    marks.count true =
      ((List.range marks.length).filter fun r => marks[r]?.getD false).length := by
  induction marks with
  | nil => rfl
  | cons mark marks ih =>
      have hlater : ((fun r => (mark :: marks)[r]?.getD false) ∘ Nat.succ) =
          fun r => marks[r]?.getD false := by
        funext r
        simp
      rw [List.length_cons, List.range_succ_eq_map, List.filter_cons, List.filter_map, hlater]
      cases mark <;> simp [ih]

theorem granted_eq (pool : GuardPool) :
    pool.granted = ((List.range protectionRegions).filter pool.holds).length := by
  unfold granted
  rw [count_true_eq, Vector.length_toList]
  congr 1
  refine List.filter_congr fun r _ => ?_
  simp [holds]

end GuardPool

/-! ## Hardware with a pool -/

inductive GuardUse where
  | granted (stack : StackRange) (region : UInt8)
  | returned (region : UInt8)
  deriving DecidableEq, Repr

namespace GuardUse

variable {uses : List GuardUse} {region : UInt8}

/-- The regions that have been granted and not returned, by a log that begins with the latest. -/
def outstanding : List GuardUse → List UInt8
  | [] => []
  | .granted _ region :: uses => region :: outstanding uses
  | .returned region :: uses => (outstanding uses).erase region

def Paired : List GuardUse → Prop
  | [] => True
  | .granted _ region :: uses => region ∉ outstanding uses ∧ Paired uses
  | .returned region :: uses => region ∈ outstanding uses ∧ Paired uses

theorem Paired.nodup (h : Paired uses) : (outstanding uses).Nodup := by
  induction uses with
  | nil => exact List.nodup_nil
  | cons use uses ih =>
      cases use with
      | granted stack region => exact List.nodup_cons.mpr ⟨h.1, ih h.2⟩
      | returned region => exact (ih h.2).erase region

end GuardUse

/--
Hardware whose guards come from a pool.  Clock and alarm are those of `rest`, and
`inUse` tells which regions are used for something else; both may change at any time.
-/
structure Pooled (R : Type) where
  rest : R
  pool : GuardPool
  inUse : Nat → Bool
  /-- Every grant and every return, latest first. -/
  uses : List GuardUse

namespace Pooled

variable {R : Type} {p p' : Pooled R} {region : UInt8}

def guardStack (p : Pooled R) (stack : StackRange) : Pooled R × Option UInt8 :=
  match p.pool.grant p.inUse with
  | (pool, some region) => ({ p with pool, uses := .granted stack region :: p.uses }, some region)
  | (pool, none) => ({ p with pool }, none)

def unguardStack (p : Pooled R) (region : UInt8) : Except Fault (Pooled R) := do
  let pool ← p.pool.giveBack region
  return { p with pool, uses := .returned region :: p.uses }

instance [Hardware R] : Hardware (Pooled R) where
  now p := Hardware.now p.rest
  setAlarm p deadline :=
    let (rest, accepted) := Hardware.setAlarm p.rest deadline
    ({ p with rest }, accepted)
  clearAlarm p := { p with rest := Hardware.clearAlarm p.rest }
  guardStack := guardStack
  unguardStack := unguardStack
  readyDecisionStack p := { p with rest := Hardware.readyDecisionStack p.rest }

structure SameGuards (p p' : Pooled R) : Prop where
  pool : p'.pool = p.pool
  uses : p'.uses = p.uses

theorem SameGuards.of_eq (h : p' = p) : SameGuards p p' :=
  ⟨by rw [h], by rw [h]⟩

theorem SameGuards.trans {p'' : Pooled R} (h : SameGuards p p') (h' : SameGuards p' p'') :
    SameGuards p p'' :=
  ⟨h'.pool.trans h.pool, h'.uses.trans h.uses⟩

structure Tallied (p : Pooled R) : Prop where
  paired : GuardUse.Paired p.uses
  outstanding : ∀ region : UInt8,
    region ∈ GuardUse.outstanding p.uses ↔ p.pool.holds region.toNat = true

theorem Tallied.congr (h : p.Tallied) (hsame : SameGuards p p') : p'.Tallied := by
  refine ⟨?_, ?_⟩
  · rw [hsame.uses]
    exact h.paired
  · rw [hsame.uses, hsame.pool]
    exact h.outstanding

theorem guardStack_eq_some {stack : StackRange} (h : p.guardStack stack = (p', some region)) :
    p.pool.grant p.inUse = (p'.pool, some region) ∧ p'.uses = .granted stack region :: p.uses := by
  unfold guardStack at h
  split at h
  · rename_i pool other hgrant
    obtain ⟨rfl, hregion⟩ := Prod.mk.inj h
    obtain rfl := Option.some.inj hregion
    exact ⟨hgrant, rfl⟩
  · cases h

theorem guardStack_eq_none {stack : StackRange} (h : p.guardStack stack = (p', none)) :
    p.pool.grant p.inUse = (p'.pool, none) ∧ SameGuards p p' := by
  unfold guardStack at h
  split at h
  · cases h
  · rename_i pool hgrant
    obtain ⟨rfl, -⟩ := Prod.mk.inj h
    exact ⟨hgrant, (GuardPool.grant_eq_none hgrant).1, rfl⟩

theorem unguardStack_eq_ok (h : p.unguardStack region = .ok p') :
    p.pool.giveBack region = .ok p'.pool ∧ p'.uses = .returned region :: p.uses := by
  simp only [unguardStack, bind_eq_ok, pure_eq_ok] at h
  obtain ⟨pool, hback, rfl⟩ := h
  exact ⟨hback, rfl⟩

theorem Tallied.granted {stack : StackRange} (h : p.Tallied)
    (hgrant : p.guardStack stack = (p', some region)) : p'.Tallied := by
  obtain ⟨hpool, huses⟩ := guardStack_eq_some hgrant
  obtain ⟨-, hfree, -, hholds⟩ := GuardPool.grant_eq_some hpool
  have hout : region ∉ GuardUse.outstanding p.uses := by
    rw [h.outstanding, hfree]
    decide
  refine ⟨?_, fun other => ?_⟩
  · rw [huses]
    exact ⟨hout, h.paired⟩
  · rw [huses, hholds, GuardUse.outstanding, List.mem_cons, h.outstanding]
    by_cases he : other = region
    · simp [he]
    · simp [he, UInt8.toNat_inj]

theorem Tallied.returned (h : p.Tallied) (hheld : p.pool.holds region.toNat = true)
    (hback : p.unguardStack region = .ok p') : p'.Tallied := by
  obtain ⟨hpool, huses⟩ := unguardStack_eq_ok hback
  have hholds := GuardPool.holds_of_giveBack hpool
  refine ⟨?_, fun other => ?_⟩
  · rw [huses]
    exact ⟨(h.outstanding region).mpr hheld, h.paired⟩
  · rw [huses, hholds, GuardUse.outstanding, h.paired.nodup.mem_erase_iff, h.outstanding]
    by_cases he : other = region
    · simp [he]
    · simp [he, UInt8.toNat_inj]

end Pooled

end CoopTasks
