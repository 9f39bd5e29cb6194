import CoopTasks.TaskId

/-!
Counting signals with room for one parked waiter.

Posting adds to a count that stops at its largest value and hands back the
waiter, for the caller to wake.  Acquiring takes one from the count.  A latched
signal lets everybody through and loses nothing.  A second waiter is refused
while the first is recorded, so neither can lose its wake.
-/

namespace CoopTasks

structure Signal where
  count : UInt8
  waiter : Option TaskId
  latched : Bool
  deriving DecidableEq, Repr

inductive WaitResult where
  /-- Something was taken, or the signal is latched. -/
  | acquired
  /-- The caller is the waiter and is marked asleep. -/
  | parked
  /-- Another task is the waiter. -/
  | busy
  deriving DecidableEq, Repr

namespace Signal

def idle : Signal := ⟨0, none, false⟩

def post (s : Signal) : Signal × Option TaskId :=
  ({ s with count := if s.count = 255 then 255 else s.count + 1, waiter := none }, s.waiter)

def latch (s : Signal) : Signal × Option TaskId :=
  ({ s with latched := true, waiter := none }, s.waiter)

/-- Takes one from the count if there is one; a latched signal gives without end. -/
def tryTake (s : Signal) : Signal × Bool :=
  if s.latched then (s, true)
  else if s.count = 0 then (s, false)
  else ({ s with count := s.count - 1 }, true)

def enlist (s : Signal) (id : TaskId) : Except TaskId Signal :=
  match s.waiter with
  | none => .ok { s with waiter := some id }
  | some other => if other = id then .ok s else .error other

theorem count_post (s : Signal) :
    s.post.1.count.toNat = min (s.count.toNat + 1) 255 := by
  have h := UInt8.toNat_lt s.count
  have h1 : (1 : UInt8).toNat = 1 := rfl
  have h255 : (255 : UInt8).toNat = 255 := rfl
  unfold post
  split
  · rename_i hc
    simp only [hc, h255]
    omega
  · rename_i hc
    have : s.count.toNat ≠ 255 := fun e => hc (UInt8.toNat_inj.mp e)
    simp only [UInt8.toNat_add, h1]
    omega

theorem count_of_tryTake {s t : Signal} (h : s.tryTake = (t, true)) :
    s.latched = true ∧ t = s ∨ t.count.toNat + 1 = s.count.toNat := by
  have h1 : (1 : UInt8).toNat = 1 := rfl
  unfold tryTake at h
  split at h
  · rename_i hl
    exact .inl ⟨hl, (Prod.mk.inj h).1.symm⟩
  · split at h
    · simp at h
    · rename_i hc
      obtain rfl := (Prod.mk.inj h).1
      have hpos : s.count.toNat ≠ 0 := fun e => hc (UInt8.toNat_inj.mp e)
      right
      have hle : (1 : UInt8) ≤ s.count := by
        rw [UInt8.le_iff_toNat_le, h1]
        omega
      simp only [UInt8.toNat_sub_of_le _ _ hle, h1]
      omega

theorem waiter_tryTake (s : Signal) : s.tryTake.1.waiter = s.waiter := by
  unfold tryTake
  split
  · rfl
  · split <;> rfl

theorem latched_tryTake (s : Signal) : s.tryTake.1.latched = s.latched := by
  unfold tryTake
  split
  · rfl
  · split <;> rfl

theorem tryTake_eq_false {s t : Signal} :
    s.tryTake = (t, false) ↔ s.latched = false ∧ s.count = 0 ∧ t = s := by
  unfold tryTake
  by_cases hl : s.latched = true
  · simp [hl]
  · by_cases hc : s.count = 0
    · simp [hl, hc, eq_comm (a := s)]
    · simp [hl, hc]

end Signal

end CoopTasks
