import CoopTasks.Stack.GuardPool
import CoopTasks.Hardware

/-!
Simulated hardware: a clock that others move, one alarm, and stack guards.

The alarm accepts an instant that lies more than `lag` after the clock.  What
the scheduler asks of the board is kept in `events`, latest first.
-/

namespace CoopTasks

inductive BoardEvent where
  | armed (deadline : Instant) (accepted : Bool)
  | cancelled
  | guarded (bottom : Address) (region : Option UInt8)
  | unguarded (region : UInt8)
  deriving DecidableEq, Repr

structure Board where
  clock : Instant
  lag : UInt64
  alarm : Option Instant
  guards : Bool
  guardPool : GuardPool
  usedRegions : Nat
  prepared : Nat
  events : List BoardEvent
  deriving DecidableEq, Repr

namespace Board

def mainlinePointer : Address := 0x10000000

def pageBottom (number : Nat) : Address :=
  0x20000000 + UInt64.ofNat number * 0x1000

/-- A board without memory protection, whose alarm accepts every instant to come. -/
def start (clock : Instant) : Board where
  clock := clock
  lag := 0
  alarm := none
  guards := false
  guardPool := GuardPool.empty
  usedRegions := 0
  prepared := 0
  events := []

def record (b : Board) (event : BoardEvent) : Board :=
  { b with events := event :: b.events }

def accepts (b : Board) (deadline : Instant) : Bool :=
  decide (b.clock.after b.lag < deadline)

def setAlarm (b : Board) (deadline : Instant) : Board × Bool :=
  let accepted := b.accepts deadline
  let alarm := if accepted then some deadline else none
  ({ b with alarm }.record (.armed deadline accepted), accepted)

def clearAlarm (b : Board) : Board :=
  { b with alarm := none }.record .cancelled

def guardStack (b : Board) (stack : StackRange) : Board × Option UInt8 :=
  if b.guards then
    let (guardPool, region) := b.guardPool.grant b.usedRegions.testBit
    ({ b with guardPool }.record (.guarded stack.bottom region), region)
  else
    (b, none)

def unguardStack (b : Board) (region : UInt8) : Except Fault Board := do
  let guardPool ← b.guardPool.giveBack region
  return { b with guardPool }.record (.unguarded region)

def advanceTo (b : Board) (time : Instant) : Board :=
  { b with clock := b.clock.latest time }

instance : Hardware Board where
  now b := b.clock
  setAlarm := setAlarm
  clearAlarm := clearAlarm
  guardStack := guardStack
  unguardStack := unguardStack
  readyDecisionStack b := { b with prepared := b.prepared + 1 }

end Board

end CoopTasks
