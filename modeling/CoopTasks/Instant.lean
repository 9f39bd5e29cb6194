/-!
Points in time, counted in microseconds since boot.

Additions stop at `Instant.never`, the largest instant, which doubles as
the deadline of a sleep without one.  `toNat` is the view that the arithmetic
is stated in: `toNat_clamp`, `toNat_add` and `toNat_since`.
-/

namespace CoopTasks

structure Instant where
  micros : UInt64
  deriving DecidableEq, Repr

structure Duration where
  nanos : Nat
  deriving DecidableEq, Repr

def Duration.ofParts (seconds nanos : Nat) : Duration :=
  ⟨seconds * 1000000000 + nanos⟩

def Duration.ofMillis (millis : Nat) : Duration :=
  ⟨millis * 1000000⟩

def Duration.wholeMicros (d : Duration) : Nat :=
  d.nanos / 1000

namespace Instant

instance : LE Instant := ⟨fun a b => a.micros ≤ b.micros⟩
instance : LT Instant := ⟨fun a b => a.micros < b.micros⟩
instance (a b : Instant) : Decidable (a ≤ b) := inferInstanceAs (Decidable (a.micros ≤ b.micros))
instance (a b : Instant) : Decidable (a < b) := inferInstanceAs (Decidable (a.micros < b.micros))
instance : Ord Instant := ⟨fun a b => compare a.micros b.micros⟩

def zero : Instant := ⟨0⟩

/-- The largest instant: as a deadline, none at all. -/
def never : Instant := ⟨0xffffffffffffffff⟩

def isNever (t : Instant) : Bool :=
  t == never

def toNat (t : Instant) : Nat :=
  t.micros.toNat

def clamp (micros : Nat) : Instant :=
  ⟨UInt64.ofNat (min micros (UInt64.size - 1))⟩

def ofMillis (millis : UInt64) : Instant :=
  clamp (millis.toNat * 1000)

def after (t : Instant) (micros : UInt64) : Instant :=
  clamp (t.toNat + micros.toNat)

def add (t : Instant) (d : Duration) : Instant :=
  clamp (t.toNat + d.wholeMicros)

instance : HAdd Instant Duration Instant := ⟨add⟩

def since (t earlier : Instant) : UInt64 :=
  if earlier ≤ t then t.micros - earlier.micros else 0

def latest (a b : Instant) : Instant :=
  if a ≤ b then b else a

theorem le_iff {a b : Instant} : a ≤ b ↔ a.toNat ≤ b.toNat :=
  UInt64.le_iff_toNat_le

theorem lt_iff {a b : Instant} : a < b ↔ a.toNat < b.toNat :=
  UInt64.lt_iff_toNat_lt

theorem ext_iff_toNat {a b : Instant} : a = b ↔ a.toNat = b.toNat := by
  cases a
  cases b
  simp [toNat, UInt64.toNat_inj]

theorem toNat_lt (t : Instant) : t.toNat < UInt64.size :=
  UInt64.toNat_lt_size t.micros

@[simp] theorem toNat_zero : zero.toNat = 0 := rfl

@[simp] theorem toNat_never : never.toNat = UInt64.size - 1 := rfl

theorem le_never (t : Instant) : t ≤ never := by
  have hlt := t.toNat_lt
  rw [le_iff, toNat_never]
  omega

theorem isNever_iff {t : Instant} : t.isNever = true ↔ t = never := by
  simp [isNever]

@[simp] theorem toNat_clamp (n : Nat) : (clamp n).toNat = min n (UInt64.size - 1) := by
  simp only [clamp, toNat, UInt64.toNat_ofNat', UInt64.size]
  omega

@[simp] theorem toNat_after (t : Instant) (micros : UInt64) :
    (t.after micros).toNat = min (t.toNat + micros.toNat) (UInt64.size - 1) :=
  toNat_clamp _

@[simp] theorem toNat_add (t : Instant) (d : Duration) :
    (t.add d).toNat = min (t.toNat + d.wholeMicros) (UInt64.size - 1) :=
  toNat_clamp _

theorem toNat_since (t earlier : Instant) :
    (t.since earlier).toNat = t.toNat - earlier.toNat := by
  unfold since
  split
  · rename_i h
    exact UInt64.toNat_sub_of_le _ _ h
  · rename_i h
    rw [le_iff] at h
    simp
    omega

theorem toNat_latest (a b : Instant) : (latest a b).toNat = max a.toNat b.toNat := by
  unfold latest
  split <;> rename_i h <;> rw [le_iff] at h <;> omega

end Instant

end CoopTasks
