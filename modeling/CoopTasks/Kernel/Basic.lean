import CoopTasks.Scheduler.Switch
import CoopTasks.Scheduler.Waiting
import CoopTasks.Stack.Memory

/-!
The kernel: a scheduler, the signals that tasks share, and the stacks.
-/

namespace CoopTasks

structure Kernel (H : Type) where
  scheduler : Scheduler H
  signals : List Signal
  memory : List Stack
  trampoline : UInt32

namespace Kernel

variable {H : Type}

def requireSignal (k : Kernel H) (number : Nat) : Except Fault Signal :=
  demand k.signals[number]? (.outOfBounds k.signals.length number)

def stackAt (k : Kernel H) (number : Nat) : Stack :=
  k.memory[number]?.getD ⟨0, []⟩

def rangeAt (k : Kernel H) (number : Nat) : StackRange :=
  (k.stackAt number).range

def setSignal (k : Kernel H) (number : Nat) (signal : Signal) : Kernel H :=
  { k with signals := k.signals.set number signal }

def setStack (k : Kernel H) (number : Nat) (stack : Stack) : Kernel H :=
  { k with memory := k.memory.set number stack }

def taskOn (k : Kernel H) (number : Nat) : Option TaskId :=
  k.scheduler.taskOn (k.rangeAt number)

def reportOn (k : Kernel H) (number : Nat) : Option TaskReport :=
  k.scheduler.reportOn (k.rangeAt number)

end Kernel

end CoopTasks
