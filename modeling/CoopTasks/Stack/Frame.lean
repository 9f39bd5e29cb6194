import CoopTasks.Fault

/-!
The context that a task starts from.

A suspended task is described by its saved pointer alone; the words above it
hold the registers.  A fresh task gets a frame of that shape made by hand: two
registers carry its entry and parameter, and the return address is a trampoline
that calls the entry and then exits.  The rest of the stack is filled with a
pattern, so that the words never touched can be counted later.
-/

namespace CoopTasks

structure Frame where
  entry : UInt32
  param : UInt32
  trampoline : UInt32
  deriving DecidableEq, Repr

namespace Frame

def words (f : Frame) : List UInt32 :=
  List.replicate 5 0 ++ [f.entry, f.param] ++ List.replicate 6 0 ++ [f.trampoline]

def ofStack? (memory : List UInt32) : Option Frame :=
  match (memory.drop (memory.length - frameWords)).drop 5 with
  | entry :: param :: rest => rest.getLast?.map fun trampoline => ⟨entry, param, trampoline⟩
  | _ => none

/--
A memory of the same length as the given one: the pattern below, the frame at
the top.  The position of the frame comes with it.
-/
def placeOn (f : Frame) (memory : List UInt32) : Except Fault (List UInt32 × Nat) := do
  require (frameWords ≤ memory.length) .stackTooSmall
  let offset := memory.length - frameWords
  return (List.replicate offset fillPattern ++ f.words, offset)

@[simp] theorem length_words (f : Frame) : f.words.length = frameWords := by
  simp [words, frameWords]

theorem ofStack?_append_words (below : List UInt32) (f : Frame) :
    ofStack? (below ++ f.words) = some f := by
  have hlength : (below ++ f.words).length - frameWords = below.length := by
    rw [List.length_append, length_words, Nat.add_sub_cancel]
  unfold ofStack?
  rw [hlength, List.drop_left]
  simp [words, List.replicate]

theorem placeOn_of_le {memory : List UInt32} (f : Frame) (h : frameWords ≤ memory.length) :
    f.placeOn memory =
      .ok (List.replicate (memory.length - frameWords) fillPattern ++ f.words,
        memory.length - frameWords) := by
  simp [placeOn, require, h, bind, Except.bind, pure, Except.pure]

theorem placeOn_eq_error_iff {memory : List UInt32} {f : Frame} {fault : Fault} :
    f.placeOn memory = .error fault ↔ memory.length < frameWords ∧ fault = .stackTooSmall := by
  by_cases h : frameWords ≤ memory.length
  · rw [placeOn_of_le f h]
    simp
    omega
  · simp [placeOn, require, h, bind, Except.bind, eq_comm]
    omega

end Frame

def untouched (memory : List UInt32) : Nat :=
  (memory.takeWhile (· == fillPattern)).length

end CoopTasks
