import CoopTasks.Workload.Script

/-!
The demonstration: two pairs of tasks.

A parent starts a child and takes turns with it.  After both have finished, a
supervisor starts a consumer and a producer, joins the producer and then asks
for the end of the consumer.  Every task has a stack of its own.
-/

namespace CoopTasks.Demo

open Program (ask remark)

variable {μ : Type}

inductive Role where
  | parent
  | child
  | supervisor
  | consumer
  | producer
  deriving DecidableEq, Repr

def roles : List Role :=
  [.parent, .child, .supervisor, .consumer, .producer]

def Role.number : Role → Nat
  | .parent => 0
  | .child => 1
  | .supervisor => 2
  | .consumer => 3
  | .producer => 4

/-- Entries below this one are those of scripts, which interrupts can start. -/
def firstEntry : UInt32 := 0x100

def Role.entry (role : Role) : UInt32 :=
  firstEntry + UInt32.ofNat role.number

def Role.ofEntry? (entry : UInt32) : Option Role :=
  roles.find? fun role => role.entry = entry

def dataReady : Nat := 0

def items : UInt32 := 5

def parentRounds : UInt32 := 5

def childRounds : UInt32 := 3

def period : Duration := Duration.ofMillis 100

/--
Polls after which the supervisor gives up.  Its loop has no end of its own, and
a program has to have one: the cut is where no run gets to, since each vain poll
is a switch and `usualSwitchLimit` is less.  No theorem depends on it either,
because the first poll already finds the consumer gone.
-/
def pollLimit : Nat := 1000

/-! ## Steps on record -/

def log (message : String) : Program μ Unit :=
  remark "log" (.text message)

def start (role : Role) (param : UInt32) : Program μ Unit := do
  ask (.start role.entry param role.number)
  remark "start" .nothing

def giveWay : Program μ Unit := do
  ask .giveWay
  remark "yield" .nothing

def sleep (d : Duration) : Program μ Unit := do
  Program.sleepFor d
  remark "sleep" .nothing

def post : Program μ Unit := do
  ask (.post dataReady)
  remark "signal" (.signal (← ask (.signalState dataReady)))

def wait : Program μ Unit := do
  ask (.wait dataReady)
  remark "wait" (.signal (← ask (.signalState dataReady)))

def join (role : Role) : Program μ UInt32 := do
  let code ← ask (.join role.number)
  remark "join" (.code code)
  return code

def tryJoin (role : Role) : Program μ (Option UInt32) := do
  let code ← Program.pollJoin role.number
  remark "try_join" (.ofOption .code code)
  return code

/-! ## Tasks -/

def takeTurns (message : String) : Nat → Program μ Unit
  | 0 => return
  | rounds + 1 => do
      log message
      giveWay
      takeTurns message rounds

def parent (rounds childRounds : UInt32) : Program μ UInt32 := do
  start .child childRounds
  takeTurns "parent" rounds.toNat
  return 0

def child (rounds : UInt32) : Program μ UInt32 := do
  takeTurns "child" rounds.toNat
  return rounds

def produce : Nat → Program μ Unit
  | 0 => return
  | items + 1 => do
      sleep period
      post
      produce items

def producer (items : UInt32) : Program μ UInt32 := do
  produce items.toNat
  return items

def consume (number : Nat) : Nat → Program μ Unit
  | 0 => return
  | items + 1 => do
      wait
      let now ← ask .now
      log s!"consumed item {number} at {now.micros}us"
      consume (number + 1) items

def consumer (items : UInt32) : Program μ UInt32 := do
  consume 1 items.toNat
  return 0

def poll : Nat → Nat → Program μ Nat
  | 0, polls => return polls
  | limit + 1, polls => do
      match ← tryJoin .consumer with
      | some _ => return polls
      | none => poll limit (polls + 1)

def supervisor (items : UInt32) : Program μ UInt32 := do
  start .consumer items
  start .producer items
  let produced ← join .producer
  log s!"producer finished after {produced} items"
  let polls ← poll pollLimit 0
  log s!"consumer done after {polls} polls"
  return 0

def recorded (body : Program μ UInt32) : Program μ UInt32 := do
  let code ← body
  remark "return" (.code code)
  return code

def programOf (items param : UInt32) : Role → Program μ UInt32
  | .parent => parent param childRounds
  | .child => child param
  | .supervisor => supervisor items
  | .consumer => consumer param
  | .producer => producer param

def entries (items : UInt32) (entry param : UInt32) : Program μ UInt32 :=
  match Role.ofEntry? entry with
  | some role => recorded (programOf items param role)
  | none => Step.entry [] entry param

def mainline : Program μ Unit := do
  start .parent parentRounds
  let report ← ask (.taskOn Role.child.number)
  log s!"child exited with {optionText TaskReport.text report}"
  start .supervisor 0

def machine (now : Instant) (switchCost : UInt64)
    (interrupts : List (Instant × Program μ Unit)) : Machine μ :=
  Machine.start now (roles.map fun _ => usualStackWords) 1 0 switchCost interrupts

end CoopTasks.Demo
