import CoopTasks.Fault

/-!
Stack guards in the memory protection unit.

The unit has no region smaller than 256 bytes, and a region is aligned to its
size.  A guard is therefore a region of 256 bytes with one of its eight
subregions enabled: the 32 bytes at the bottom of the stack.
-/

namespace CoopTasks

structure GuardRegion where
  base : UInt32
  attributes : UInt32
  deriving DecidableEq, Repr

namespace GuardRegion

def regionBytes : UInt64 := 256

def subregionBytes : UInt64 := 32

/-- Size field of a region of 256 bytes: the logarithm less one. -/
def sizeField : UInt32 := 7

def disableShift : UInt32 := 8

def noAccess : UInt32 := 0x10000000

def baseValid : UInt32 := 0x10

def subregion (base address : UInt64) : UInt64 :=
  (address - base) / subregionBytes

/-- The region that blocks the bytes from `bottom` on, which has to be a guard boundary. -/
def ofBottom (bottom : Address) : Except Fault GuardRegion := do
  let excess := bottom.toNat % guardBytes
  require (excess = 0) (.guardMisaligned excess)
  let base := bottom &&& ~~~(regionBytes - 1)
  let disabled := ~~~((1 : UInt32) <<< (subregion base bottom).toUInt32) &&& 0xff
  return {
    base := base.toUInt32 &&& ~~~(0xff : UInt32)
    attributes := (1 : UInt32) ||| sizeField <<< 1 ||| disabled <<< disableShift ||| noAccess }

def baseRegister (g : GuardRegion) (region : UInt8) : UInt32 :=
  g.base ||| baseValid ||| (region.toUInt32 &&& 0xf)

def traps (g : GuardRegion) (address : Address) : Bool :=
  let base := g.base.toUInt64
  if address < base ∨ base + regionBytes ≤ address then
    false
  else
    let disabled := g.attributes >>> disableShift &&& 0xff
    disabled &&& (1 : UInt32) <<< (subregion base address).toUInt32 == 0

end GuardRegion

end CoopTasks
