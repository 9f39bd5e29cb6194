import CoopTasks.Stack.Memory
import Mathlib.Algebra.Group.Nat.Defs
import Mathlib.Order.Bounds.Basic

/-!
How far a task has come down its stack.

A fresh stack holds the pattern up to its frame, and the frame begins with a word
that is not the pattern, so the scan ends right below it whatever the frame says
of entry and parameter.  From then on the headroom is the lowest word above the
guard that does not hold the pattern (`Stack.headroom_isLeast`), and a task that
never writes the pattern itself can only lose headroom.
-/

namespace CoopTasks

/-! ## The scan -/

theorem untouched_cons (word : UInt32) (rest : List UInt32) :
    untouched (word :: rest) = if word = fillPattern then untouched rest + 1 else 0 := by
  unfold untouched
  rw [List.takeWhile_cons]
  by_cases hfill : word = fillPattern
  · simp [hfill]
  · simp [hfill]

theorem untouched_le_length (memory : List UInt32) : untouched memory ≤ memory.length := by
  induction memory with
  | nil => exact Nat.le_refl 0
  | cons word rest ih =>
      rw [untouched_cons, List.length_cons]
      split <;> omega

theorem getElem?_of_lt_untouched {memory : List UInt32} {i : Nat} (h : i < untouched memory) :
    memory[i]? = some fillPattern := by
  induction memory generalizing i with
  | nil => exact absurd h (Nat.not_lt_zero i)
  | cons word rest ih =>
      rw [untouched_cons] at h
      split at h
      · rename_i hfill
        cases i with
        | zero => rw [List.getElem?_cons_zero, hfill]
        | succ i =>
            rw [List.getElem?_cons_succ]
            exact ih (Nat.lt_of_succ_lt_succ h)
      · exact absurd h (Nat.not_lt_zero i)

theorem getElem?_untouched_ne (memory : List UInt32) :
    memory[untouched memory]? ≠ some fillPattern := by
  induction memory with
  | nil => simp
  | cons word rest ih =>
      rw [untouched_cons]
      split
      · rwa [List.getElem?_cons_succ]
      · rename_i hfill
        simpa using hfill

theorem untouched_replicate_append (n : Nat) {word : UInt32} (hword : word ≠ fillPattern)
    (rest : List UInt32) : untouched (List.replicate n fillPattern ++ word :: rest) = n := by
  induction n with
  | zero => rw [List.replicate_zero, List.nil_append, untouched_cons, if_neg hword]
  | succ n ih => rw [List.replicate_succ, List.cons_append, untouched_cons, if_pos rfl, ih]

/-- The lowest register in a frame is zero, so no argument makes the scan run on. -/
theorem Frame.untouched_below (f : Frame) (n : Nat) :
    untouched (List.replicate n fillPattern ++ f.words) = n :=
  untouched_replicate_append n (by decide : (0 : UInt32) ≠ fillPattern) _

/-! ## Headroom -/

namespace Stack

variable {s t : Stack} {index : Nat} {word : UInt32}

def writeAll (s : Stack) (writes : List (Nat × UInt32)) : Stack :=
  writes.foldl (fun s w => s.write w.1 w.2) s

@[simp] theorem length_write (s : Stack) (index : Nat) (word : UInt32) :
    (s.write index word).words.length = s.words.length :=
  List.length_set

theorem length_writeAll (s : Stack) (writes : List (Nat × UInt32)) :
    (s.writeAll writes).words.length = s.words.length := by
  induction writes generalizing s with
  | nil => rfl
  | cons w rest ih => exact (ih (s.write w.1 w.2)).trans (s.length_write w.1 w.2)

def Touched (s : Stack) (index : Nat) : Prop :=
  guardedWords ≤ index ∧ ∃ word, s.words[index]? = some word ∧ word ≠ fillPattern

theorem headroom_isLeast (h : guardedWords ≤ s.words.length) :
    IsLeast {i | i = s.words.length ∨ s.Touched i} s.headroom := by
  have hle : s.headroom ≤ s.words.length := by
    have hscan := untouched_le_length (s.words.drop guardedWords)
    rw [List.length_drop] at hscan
    unfold headroom
    omega
  constructor
  · have hstop := getElem?_untouched_ne (s.words.drop guardedWords)
    rw [List.getElem?_drop] at hstop
    cases hword : s.words[s.headroom]? with
    | none => exact .inl (Nat.le_antisymm hle (List.getElem?_eq_none_iff.mp hword))
    | some word =>
        refine .inr ⟨Nat.le_add_right _ _, word, hword, ?_⟩
        rintro rfl
        exact hstop hword
  · rintro i (rfl | ⟨hguard, word, hword, hne⟩)
    · exact hle
    · by_contra hlt
      have hscanned : i - guardedWords < untouched (s.words.drop guardedWords) := by
        unfold headroom at hlt
        omega
      have hfill := getElem?_of_lt_untouched hscanned
      rw [List.getElem?_drop, Nat.add_sub_cancel' hguard, hword] at hfill
      exact hne (Option.some.inj hfill)

theorem headroom_write_of_guarded (s : Stack) (h : index < guardedWords) (word : UInt32) :
    (s.write index word).headroom = s.headroom := by
  unfold headroom write
  rw [List.drop_set_of_lt h]

theorem Touched.write {i : Nat} (h : s.Touched i)
    (hword : guardedWords ≤ index → word ≠ fillPattern) : (s.write index word).Touched i := by
  obtain ⟨hguard, old, hold, hne⟩ := h
  unfold Stack.write
  by_cases hi : index = i
  · subst hi
    obtain ⟨hlt, -⟩ := List.getElem?_eq_some_iff.mp hold
    exact ⟨hguard, word, List.getElem?_set_self hlt, hword hguard⟩
  · exact ⟨hguard, old, by rw [List.getElem?_set_ne hi, hold], hne⟩

theorem headroom_write_le (h : guardedWords ≤ s.words.length)
    (hword : guardedWords ≤ index → word ≠ fillPattern) :
    (s.write index word).headroom ≤ s.headroom := by
  have hleast := headroom_isLeast (s := s.write index word) (by simpa using h)
  refine hleast.2 ?_
  rcases (headroom_isLeast h).1 with hall | htouched
  · exact .inl (hall.trans (s.length_write index word).symm)
  · exact .inr (htouched.write hword)

theorem headroom_writeAll_le (h : guardedWords ≤ s.words.length) {writes : List (Nat × UInt32)}
    (hwrites : ∀ w ∈ writes, guardedWords ≤ w.1 → w.2 ≠ fillPattern) :
    (s.writeAll writes).headroom ≤ s.headroom := by
  induction writes generalizing s with
  | nil => exact Nat.le_refl _
  | cons w rest ih =>
      refine (ih (by simpa using h) fun v hv => hwrites v (List.mem_cons_of_mem w hv)).trans ?_
      exact headroom_write_le h (hwrites w List.mem_cons_self)

/-! ## A stack set up -/

theorem toNat_add_words {bottom : Address} {n : Nat} (h : bottom.toNat + 4 * n < 2 ^ 64) :
    (bottom + 4 * UInt64.ofNat n).toNat = bottom.toNat + 4 * n := by
  rw [UInt64.toNat_add, UInt64.toNat_mul, UInt64.toNat_ofNat']
  show (bottom.toNat + 4 * (n % 2 ^ 64) % 2 ^ 64) % 2 ^ 64 = _
  omega

theorem setUp_eq_ok (frame : Frame) (hlength : frameWords ≤ s.words.length) :
    s.setUp frame = .ok
      ({ s with words := List.replicate (s.words.length - frameWords) fillPattern ++ frame.words },
        s.bottom + 4 * UInt64.ofNat (s.words.length - frameWords)) := by
  rw [setUp, Frame.placeOn_of_le frame hlength]
  rfl

theorem ProperLength.room {length : Nat} (h : ProperLength length) :
    frameWords + guardedWords < length := by
  unfold ProperLength leastStackWords guardedWords guardBytes at h
  unfold frameWords guardedWords guardBytes
  omega

theorem headroom_setUp (s : Stack) (frame : Frame) {n : Nat} (h : guardedWords ≤ n) :
    headroom { s with words := List.replicate n fillPattern ++ frame.words } = n := by
  unfold headroom
  rw [List.drop_append_of_le_length (by simpa using h), List.drop_replicate, frame.untouched_below]
  exact Nat.add_sub_cancel' h

theorem setUp_spec (frame : Frame) (hlength : ProperLength s.words.length)
    (htop : s.bottom.toNat + 4 * s.words.length < 2 ^ 64) :
    ∃ t pointer, s.setUp frame = .ok (t, pointer) ∧ t.words.length = s.words.length ∧
      t.range = s.range ∧
      pointer.toNat = s.bottom.toNat + 4 * (s.words.length - frameWords) ∧
      t.range.holds pointer = true ∧ t.headroom = s.words.length - frameWords := by
  have hroom := hlength.room
  have hset := setUp_eq_ok frame (by omega : frameWords ≤ s.words.length)
  have hrange := range_setUp hset
  have hpointer : (s.bottom + 4 * UInt64.ofNat (s.words.length - frameWords)).toNat =
      s.bottom.toNat + 4 * (s.words.length - frameWords) :=
    toNat_add_words (by omega)
  refine ⟨_, _, hset, ?_, hrange, hpointer, ?_, s.headroom_setUp frame (by omega)⟩
  · rw [List.length_append, List.length_replicate, frame.length_words]
    omega
  · rw [hrange, StackRange.holds_iff, range, hpointer, toNat_add_words htop]
    unfold frameWords at *
    dsimp only
    omega

end Stack

/-! ## The whole -/

theorem Frame.placeOn_lays (f : Frame) {memory : List UInt32} (h : frameWords ≤ memory.length) :
    ∃ laid, f.placeOn memory = .ok (laid, memory.length - frameWords) ∧
      laid.length = memory.length ∧
      (∀ i < memory.length - frameWords, laid[i]? = some fillPattern) ∧
      laid.drop (memory.length - frameWords) = f.words ∧
      untouched laid = memory.length - frameWords := by
  refine ⟨_, f.placeOn_of_le h, ?_, ?_, ?_, f.untouched_below _⟩
  · rw [List.length_append, List.length_replicate, f.length_words, Nat.sub_add_cancel h]
  · intro i hi
    rw [List.getElem?_append_left (by simpa using hi), List.getElem?_replicate_of_lt hi]
  · exact List.drop_left' List.length_replicate

/--
A frame laid on any memory ends the scan right below it.  A stack that holds a
fresh frame holds its pointer, and its headroom is the room below the frame; from
then on the headroom is the lowest word above the guard that was written, and a
task that does not write the pattern never gains any.
-/
theorem measures_high_water :
    (∀ (f : Frame) (memory : List UInt32), 14 ≤ memory.length →
      ∃ laid, f.placeOn memory = .ok (laid, memory.length - 14) ∧ laid.length = memory.length ∧
        (∀ i < memory.length - 14, laid[i]? = some fillPattern) ∧
        laid.drop (memory.length - 14) =
          [0, 0, 0, 0, 0, f.entry, f.param, 0, 0, 0, 0, 0, 0, f.trampoline] ∧
        untouched laid = memory.length - 14) ∧
    (∀ (f : Frame) (s : Stack), Stack.ProperLength s.words.length →
      s.bottom.toNat + 4 * s.words.length < 2 ^ 64 →
      ∃ t pointer, s.setUp f = .ok (t, pointer) ∧ t.range = s.range ∧
        pointer.toNat = s.bottom.toNat + 4 * (s.words.length - 14) ∧
        t.range.holds pointer = true ∧ t.headroom = s.words.length - 14 ∧
        ∀ writes, let u := t.writeAll writes
          IsLeast {i | i = s.words.length ∨
            8 ≤ i ∧ ∃ word, u.words[i]? = some word ∧ word ≠ fillPattern} u.headroom ∧
          (∀ index < 8, ∀ word, (u.write index word).headroom = u.headroom) ∧
          ∀ more : List (Nat × UInt32), (∀ w ∈ more, 8 ≤ w.1 → w.2 ≠ fillPattern) →
            (u.writeAll more).headroom ≤ u.headroom) := by
  constructor
  · intro f memory h
    exact f.placeOn_lays h
  · intro f s hlength htop
    obtain ⟨t, pointer, hset, hwords, hrange, hpointer, hholds, hfresh⟩ :=
      s.setUp_spec f hlength htop
    refine ⟨t, pointer, hset, hrange, hpointer, hholds, hfresh, fun writes => ?_⟩
    have hsame : (t.writeAll writes).words.length = s.words.length :=
      (t.length_writeAll writes).trans hwords
    have hguarded : guardedWords ≤ (t.writeAll writes).words.length := by
      have := hlength.room
      omega
    refine ⟨?_, ?_, ?_⟩
    · exact hsame ▸ Stack.headroom_isLeast hguarded
    · exact fun index hindex word => Stack.headroom_write_of_guarded _ hindex word
    · exact fun more hmore => Stack.headroom_writeAll_le hguarded hmore

/-- Every argument of the frame is the pattern, and so is a word that is written later. -/
theorem measures_high_water_pattern :
    let frame : Frame := ⟨fillPattern, fillPattern, fillPattern⟩
    let s := Stack.blank 0x20000000 72
    Stack.ProperLength s.words.length ∧
      ∃ t pointer, s.setUp frame = .ok (t, pointer) ∧ t.range.holds pointer = true ∧
        t.headroom = 58 ∧
        ((t.writeAll [(40, 1), (30, fillPattern)]).writeAll [(2, fillPattern), (20, 0)]).headroom ≤
          (t.writeAll [(40, 1), (30, fillPattern)]).headroom ∧
        ∃ laid, frame.placeOn s.words = .ok (laid, 58) ∧ untouched laid = 58 := by
  intro frame s
  have hlength : Stack.ProperLength s.words.length := ⟨by decide, by decide⟩
  obtain ⟨hframe, hstack⟩ := measures_high_water
  obtain ⟨laid, hlaid, -, -, -, hbelow⟩ := hframe frame s.words (by decide)
  obtain ⟨t, pointer, hset, -, -, hholds, hfresh, hwrites⟩ := hstack frame s hlength (by decide)
  obtain ⟨-, -, hless⟩ := hwrites [(40, 1), (30, fillPattern)]
  exact ⟨hlength, t, pointer, hset, hholds, hfresh, hless _ (by decide), laid, hlaid, hbelow⟩

end CoopTasks
