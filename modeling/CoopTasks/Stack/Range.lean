import CoopTasks.Limits

/-!
The address range of a task stack.

`StackRange.holds` is the liveness test: the saved pointer of a suspended task
lies strictly inside its stack.
-/

namespace CoopTasks

abbrev Address := UInt64

namespace Address

def text (a : Address) : String :=
  "0x" ++ String.ofList (Nat.toDigits 16 a.toNat)

end Address

structure StackRange where
  bottom : Address
  top : Address
  deriving DecidableEq, Repr

namespace StackRange

def empty : StackRange := ⟨0, 0⟩

/--
Whether a pointer lies strictly inside.  Both ends are excluded: the pointer of
an untouched stack is its top, and a stack eaten up entirely has reached its
bottom.
-/
def holds (b : StackRange) (pointer : Address) : Bool :=
  decide (b.bottom < pointer ∧ pointer < b.top)

def isEmpty (b : StackRange) : Bool :=
  b.top == b.bottom

def length? (b : StackRange) : Option UInt64 :=
  if b.bottom ≤ b.top then some (b.top - b.bottom) else none

def framePointer (b : StackRange) : Address :=
  b.top - frameBytes

def text (b : StackRange) : String :=
  s!"{b.bottom.text}..{b.top.text}"

theorem holds_iff {b : StackRange} {pointer : Address} :
    b.holds pointer = true ↔
      b.bottom.toNat < pointer.toNat ∧ pointer.toNat < b.top.toNat := by
  simp [holds, UInt64.lt_iff_toNat_lt]

/-- No stack holds the pointer of an exited task, unless it begins at address zero. -/
theorem holds_exitedPointer {b : StackRange} (h : b.bottom ≠ 0) :
    b.holds exitedPointer = false := by
  have hpos : 0 < b.bottom.toNat := by
    rcases Nat.eq_zero_or_pos b.bottom.toNat with h0 | h0
    · exact absurd (UInt64.toNat_inj.mp h0) h
    · exact h0
  rw [Bool.eq_false_iff, ne_eq, holds_iff]
  rintro ⟨h1, -⟩
  have : exitedPointer.toNat = 1 := rfl
  omega

end StackRange

end CoopTasks
