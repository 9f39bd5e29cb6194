import CoopTasks.Fault

/-!
Which regions of the memory protection unit hold a stack guard.

Regions are few, so there may be none to grant, and the hardware may use some
on its own.  `GuardPool.holds` is the view: a grant adds the lowest region that
is free in both respects, and giving it back takes it away.
-/

namespace CoopTasks

/-- One mark for each region, set while the region is handed out. -/
structure GuardPool where
  marks : Vector Bool protectionRegions
  deriving DecidableEq, Repr

namespace GuardPool

def empty : GuardPool := ⟨Vector.replicate protectionRegions false⟩

def holds (pool : GuardPool) (region : Nat) : Bool :=
  pool.marks[region]?.getD false

def grant (pool : GuardPool) (inUse : Nat → Bool) : GuardPool × Option UInt8 :=
  match (List.range guardCapacity).find? fun r => !pool.holds r && !inUse r with
  | some r => (⟨pool.marks.setIfInBounds r true⟩, some (UInt8.ofNat r))
  | none => (pool, none)

def giveBack (pool : GuardPool) (region : UInt8) : Except Fault GuardPool := do
  require (region.toNat < protectionRegions) (.overflow .shiftLeft)
  require (pool.holds region.toNat = true) (.regionNotClaimed region)
  return ⟨pool.marks.setIfInBounds region.toNat false⟩

def granted (pool : GuardPool) : Nat :=
  pool.marks.toList.count true

@[simp] theorem holds_empty (region : Nat) : empty.holds region = false := by
  simp only [holds, empty, Vector.getElem?_replicate]
  split <;> rfl

theorem holds_setIfInBounds (pool : GuardPool) {region : Nat} (h : region < protectionRegions)
    (mark : Bool) (r : Nat) :
    holds ⟨pool.marks.setIfInBounds region mark⟩ r = if r = region then mark else pool.holds r := by
  simp only [holds, Vector.getElem?_setIfInBounds, h, if_true, eq_comm (a := region)]
  split <;> rfl

end GuardPool

end CoopTasks
