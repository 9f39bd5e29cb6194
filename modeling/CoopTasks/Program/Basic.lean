import CoopTasks.Kernel.Call

/-!
Programs of tasks.

A program makes calls and goes on with their answers.  Beside the calls it can
let time pass, put a remark on record, and keep identities in places that all
programs share.  `μ` is the type of the messages that it may log.
-/

namespace CoopTasks

inductive Remark (μ : Type) where
  | nothing
  | message (message : μ)
  | text (text : String)
  | code (code : UInt32)
  | flag (value : Bool)
  | count (value : Nat)
  | time (time : Instant)
  | task (id : TaskId)
  | report (report : TaskReport)
  | signal (signal : Signal)
  | entry (number : Nat) (param : UInt32)
  deriving Repr

def Remark.ofOption (remark : α → Remark μ) : Option α → Remark μ
  | none => .nothing
  | some a => remark a

inductive Act (μ : Type) where
  | work (micros : UInt64)
  | remark (name : String) (remark : Remark μ)
  | keep (place : Nat) (id : Option TaskId)
  | kept (place : Nat)
  deriving Repr

abbrev Act.Answer : Act μ → Type
  | .work _ | .remark .. | .keep .. => Unit
  | .kept _ => Option TaskId

inductive Program (μ : Type) (α : Type) where
  | done (result : α)
  | call (call : Call) (next : call.Answer → Program μ α)
  | act (act : Act μ) (next : act.Answer → Program μ α)

namespace Program

variable {μ α β : Type}

def bind (p : Program μ α) (f : α → Program μ β) : Program μ β :=
  match p with
  | .done a => f a
  | .call c next => .call c fun answer => (next answer).bind f
  | .act a next => .act a fun answer => (next answer).bind f

instance : Monad (Program μ) where
  pure := .done
  bind := bind

/-! ## Single steps -/

def ask (c : Call) : Program μ c.Answer :=
  .call c .done

def perform (a : Act μ) : Program μ a.Answer :=
  .act a .done

def remark (name : String) (r : Remark μ) : Program μ Unit :=
  perform (.remark name r)

/-! ## Calls made of others -/

def sleepForever : Program μ Unit :=
  ask (.sleepUntil Instant.never)

def sleepFor (d : Duration) : Program μ Unit := do
  let now ← ask .now
  ask (.sleepUntil (now.add d))

def pollSignal (signal : Nat) : Program μ Bool := do
  ask .giveWay
  ask (.tryTake signal)

def pollJoin (stack : Nat) : Program μ (Option UInt32) := do
  ask .giveWay
  ask (.tryJoin stack)

def exit (code : UInt32) : Program μ α :=
  .call (.exit code) Empty.elim

def thenExit (body : Program μ UInt32) : Program μ Unit := do
  let code ← body
  exit code

def repeatUntil (body : Program μ (Option α)) : Nat → Program μ (Option α)
  | 0 => pure none
  | times + 1 => do
      match ← body with
      | some a => pure (some a)
      | none => repeatUntil body times

end Program

end CoopTasks
