import CoopTasks.Stack.Frame

/-!
The memory of a stack: how a fresh task is laid down on it, and how much of it
has never been used.
-/

namespace CoopTasks

structure Stack where
  bottom : Address
  words : List UInt32
  deriving DecidableEq, Repr

namespace Stack

/--
Lengths that a stack may have: room above the guard, and a top aligned as calls
expect.
-/
def ProperLength (length : Nat) : Prop :=
  leastStackWords + guardedWords ≤ length ∧ length % 2 = 0

def blank (bottom : Address) (length : Nat) : Stack :=
  ⟨bottom, List.replicate length 0⟩

def range (s : Stack) : StackRange :=
  ⟨s.bottom, s.bottom + 4 * UInt64.ofNat s.words.length⟩

def setUp (s : Stack) (frame : Frame) : Except Fault (Stack × Address) := do
  let (words, offset) ← frame.placeOn s.words
  return ({ s with words }, s.bottom + 4 * UInt64.ofNat offset)

def write (s : Stack) (index : Nat) (word : UInt32) : Stack :=
  { s with words := s.words.set index word }

/--
Words from the bottom that were never written since the task started.  The
words under the guard cannot be read and count as untouched.
-/
def headroom (s : Stack) : Nat :=
  guardedWords + untouched (s.words.drop guardedWords)

@[simp] theorem range_write (s : Stack) (index : Nat) (word : UInt32) :
    (s.write index word).range = s.range := by
  simp [write, range]

theorem range_setUp {s t : Stack} {frame : Frame} {pointer : Address}
    (h : s.setUp frame = .ok (t, pointer)) : t.range = s.range := by
  unfold setUp at h
  by_cases hlength : frameWords ≤ s.words.length
  · rw [Frame.placeOn_of_le frame hlength] at h
    obtain ⟨rfl, _⟩ := Prod.mk.inj (Except.ok.inj h)
    have hwords : (List.replicate (s.words.length - frameWords) fillPattern ++
        frame.words).length = s.words.length := by
      rw [List.length_append, List.length_replicate, Frame.length_words]
      omega
    simp only [range, hwords]
  · rw [Frame.placeOn_eq_error_iff.mpr ⟨by omega, rfl⟩] at h
    contradiction

end Stack

end CoopTasks
