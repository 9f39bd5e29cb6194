/-!
The fixed sizes of the scheduler: how many tasks there can be, how large their
stacks are, and what the memory protection unit and the clocks offer.
Everything is known in advance, so nothing is ever allocated.
-/

namespace CoopTasks

/-- Task slots, slot 0 being reserved for the mainline. -/
abbrev slotCount : Nat := 16

def schedulerStackWords : Nat := 512

def leastStackWords : Nat := 64

def usualStackWords : Nat := 256

def fillPattern : UInt32 := 0xdeadbeef

def guardBytes : Nat := 32

def guardedWords : Nat := guardBytes / 4

abbrev protectionRegions : Nat := 8

/-- Regions, counted from the highest, that never hold a stack guard. -/
def reservedRegions : Nat := 1

def guardCapacity : Nat := protectionRegions - reservedRegions

def tickHertz : Nat := 1000

def systemClockHertz : Nat := 125000000

def frameWords : Nat := 14

def frameBytes : UInt64 := 56

/--
Saved stack pointer of a task that has exited.  Resuming it faults at once, and
it lies inside no stack.
-/
def exitedPointer : UInt64 := 1

def sleepCountMax : Int := 127

/-- Most early wakes that can be pending for one task, as a negative count. -/
def sleepCountMin : Int := -128

end CoopTasks
