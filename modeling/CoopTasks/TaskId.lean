/-!
Names of tasks.

An identity names one run of a slot: the slot, and the number of the start that
put the run there.  An identity kept past the end of its run therefore differs
from the one of whatever runs in the slot next.
-/

namespace CoopTasks

structure TaskId where
  slot : UInt8
  generation : UInt32
  deriving DecidableEq, Repr

namespace TaskId

def mainline : TaskId := ⟨0, 0⟩

/-- The run of a start in a slot, which has to fit the slot number of an identity. -/
def ofSlot? (slot : Nat) (generation : UInt32) : Option TaskId :=
  if slot ≤ 255 then some ⟨UInt8.ofNat slot, generation⟩ else none

def index (id : TaskId) : Nat :=
  id.slot.toNat

def isMainline (id : TaskId) : Bool :=
  id.slot == 0

instance : Ord TaskId :=
  ⟨fun a b => (compare a.slot b.slot).then (compare a.generation b.generation)⟩

def text (id : TaskId) : String :=
  if id.isMainline then "mainline" else s!"#{id.slot}"

def fullText (id : TaskId) : String :=
  s!"TaskId \x7b slot: {id.slot}, generation: {id.generation} \x7d"

theorem index_lt (id : TaskId) : id.index < 256 :=
  UInt8.toNat_lt id.slot

theorem index_mk {slot : Nat} (h : slot < 256) (generation : UInt32) :
    (⟨UInt8.ofNat slot, generation⟩ : TaskId).index = slot := by
  simp only [index, UInt8.toNat_ofNat']
  omega

theorem ext_of_index {a b : TaskId} (hindex : a.index = b.index)
    (hgeneration : a.generation = b.generation) : a = b := by
  cases a
  cases b
  simp only [index, UInt8.toNat_inj] at hindex
  simp_all

theorem isMainline_iff {id : TaskId} : id.isMainline = true ↔ id.index = 0 := by
  simp only [isMainline, index, beq_iff_eq, ← UInt8.toNat_inj]
  rfl

theorem isMainline_eq_false {id : TaskId} : id.isMainline = false ↔ id.index ≠ 0 := by
  rw [Bool.eq_false_iff, ne_eq, isMainline_iff]

end TaskId

end CoopTasks
