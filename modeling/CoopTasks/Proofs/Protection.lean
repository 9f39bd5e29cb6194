import CoopTasks.Stack.GuardRegion
import Mathlib.Algebra.Group.Nat.Defs

/-!
A guard keeps tasks out of the lowest bytes of a stack, and out of no others.

The guard is told to the protection unit through two registers.
`ProtectedRegion.ofRegisters` reads them back as the unit does: it knows nothing
of how they were put together.  What a guard traps by its own account and what
the unit denies with its registers are the same bytes: `blocks_lowest_bytes`.
-/

namespace CoopTasks

structure ProtectedRegion where
  /-- The region that the base register selects by its own number, if it does. -/
  number : Option Nat
  base : Nat
  size : Nat
  /-- One bit for each subregion, set where the region does not apply. -/
  disabled : BitVec 8
  /-- Who may read and write, zero standing for nobody. -/
  permission : BitVec 3
  enabled : Bool
  deriving DecidableEq, Repr

namespace ProtectedRegion

def ofRegisters (base attributes : UInt32) : ProtectedRegion where
  number :=
    if base.toBitVec.getLsbD 4 then some (base.toBitVec.extractLsb' 0 4).toNat else none
  base := (base &&& ~~~(0xff : UInt32)).toNat
  size := 2 ^ ((attributes.toBitVec.extractLsb' 1 5).toNat + 1)
  disabled := attributes.toBitVec.extractLsb' 8 8
  permission := attributes.toBitVec.extractLsb' 24 3
  enabled := attributes.toBitVec.getLsbD 0

/-- Whether nobody gets at an address: it lies in a subregion that is not disabled. -/
def Denies (r : ProtectedRegion) (address : Nat) : Prop :=
  r.enabled = true ∧ r.permission = 0 ∧ r.base ≤ address ∧ address < r.base + r.size ∧
    r.disabled.getLsbD ((address - r.base) / (r.size / 8)) = false

end ProtectedRegion

/-! ## Addresses and their block -/

theorem toNat_and_not_low {w : Nat} (x : BitVec w) (n : Nat) :
    (x &&& ~~~(BitVec.ofNat w (2 ^ n - 1))).toNat = x.toNat / 2 ^ n * 2 ^ n := by
  apply Nat.eq_of_testBit_eq
  intro i
  rw [BitVec.testBit_toNat, BitVec.getLsbD_and, BitVec.getLsbD_not, BitVec.getLsbD_ofNat,
    Nat.testBit_two_pow_sub_one, Nat.testBit_mul_two_pow, Nat.testBit_div_two_pow,
    BitVec.testBit_toNat]
  by_cases hw : i < w
  · by_cases hn : n ≤ i
    · have hlow : ¬i < n := by omega
      simp [hw, hn, hlow]
    · have hlow : i < n := by omega
      simp [hw, hn, hlow]
  · by_cases hn : n ≤ i
    · rw [Nat.sub_add_cancel hn, BitVec.getLsbD_of_ge x i (by omega)]
      simp
    · simp [hw, hn]

namespace GuardRegion

theorem toNat_blockBase (address : Address) :
    (address &&& ~~~(regionBytes - 1)).toNat = address.toNat / 256 * 256 :=
  toNat_and_not_low address.toBitVec 8

theorem toNat_and_not_ff (x : UInt32) :
    (x &&& ~~~(0xff : UInt32)).toNat = x.toNat / 256 * 256 :=
  toNat_and_not_low x.toBitVec 8

/-- The number of the subregion that an address falls in, within its block. -/
def subregionOf (address : Nat) : Fin 8 :=
  Fin.ofNat 8 (address / 32)

theorem subregionOf_val {base address : Nat} (hbase : base = address / 256 * 256) :
    (address - base) / 32 = (subregionOf address).val := by
  rw [subregionOf, Fin.val_ofNat]
  omega

theorem subregion_eq {base address : UInt64} (hbase : base.toNat = address.toNat / 256 * 256) :
    (subregion base address).toUInt32 = UInt32.ofNat (subregionOf address.toNat) := by
  have hle : base ≤ address := by
    rw [UInt64.le_iff_toNat_le]
    omega
  have hnumber : (subregion base address).toNat = (address.toNat - base.toNat) / 32 := by
    rw [subregion, UInt64.toNat_div, UInt64.toNat_sub_of_le _ _ hle]
    rfl
  apply UInt32.toNat_inj.mp
  rw [UInt64.toNat_toUInt32, hnumber, subregionOf_val hbase, UInt32.toNat_ofNat']

theorem within_iff {bottom address : Nat} (haligned : bottom % guardBytes = 0) :
    (bottom / 256 * 256 ≤ address ∧ address < bottom / 256 * 256 + 256 ∧
        subregionOf address = subregionOf bottom) ↔
      bottom ≤ address ∧ address < bottom + guardBytes := by
  rw [Fin.ext_iff, subregionOf, subregionOf, Fin.val_ofNat, Fin.val_ofNat]
  unfold guardBytes at *
  omega

/-! ## The registers of a guard -/

def enabling (sub : Fin 8) : UInt32 :=
  (1 : UInt32) ||| sizeField <<< 1 |||
    (~~~((1 : UInt32) <<< UInt32.ofNat sub) &&& 0xff) <<< disableShift ||| noAccess

/-- A guard of the lowest bytes from `bottom` on, in the terms of the unit. -/
structure Covers (g : GuardRegion) (bottom : Nat) : Prop where
  aligned : bottom % guardBytes = 0
  base : g.base.toNat = bottom / 256 * 256
  attributes : g.attributes = enabling (subregionOf bottom)

theorem ofBottom_eq_error_iff {bottom : Address} {fault : Fault} :
    ofBottom bottom = .error fault ↔ bottom.toNat % guardBytes ≠ 0 ∧
      fault = .guardMisaligned (bottom.toNat % guardBytes) := by
  unfold ofBottom
  by_cases haligned : bottom.toNat % guardBytes = 0
  · simp [haligned, require, bind, Except.bind, pure, Except.pure]
  · simp [haligned, require, bind, Except.bind, eq_comm]

theorem ofBottom_covers {bottom : Address} (haligned : bottom.toNat % guardBytes = 0)
    (hlow : bottom.toNat < 2 ^ 32) :
    ∃ g, ofBottom bottom = .ok g ∧ g.Covers bottom.toNat := by
  have hblock := toNat_blockBase bottom
  cases hok : ofBottom bottom with
  | error fault => exact absurd haligned (ofBottom_eq_error_iff.mp hok).1
  | ok g =>
      simp only [ofBottom, haligned, require, if_true, bind, Except.bind, pure, Except.pure,
        Except.ok.injEq] at hok
      subst hok
      refine ⟨_, rfl, haligned, ?_, ?_⟩
      · rw [toNat_and_not_ff, UInt64.toNat_toUInt32, hblock]
        omega
      · dsimp only
        rw [subregion_eq hblock]
        rfl

theorem enabling_traps (sub other : Fin 8) :
    ((enabling sub >>> disableShift &&& 0xff) &&& (1 : UInt32) <<< UInt32.ofNat other == 0) = true ↔
      other = sub := by
  revert sub other
  decide

theorem Covers.traps_iff {g : GuardRegion} {bottom : Nat} (h : g.Covers bottom)
    (address : Address) :
    g.traps address = true ↔ bottom ≤ address.toNat ∧ address.toNat < bottom + guardBytes := by
  have hstart : g.base.toUInt64.toNat = bottom / 256 * 256 := by
    rw [UInt32.toNat_toUInt64, h.base]
  have hend : (g.base.toUInt64 + regionBytes).toNat = bottom / 256 * 256 + 256 := by
    have hbase := g.base.toNat_lt
    rw [h.base] at hbase
    rw [UInt64.toNat_add, hstart]
    show (bottom / 256 * 256 + 256) % 2 ^ 64 = _
    omega
  rw [← within_iff h.aligned]
  unfold traps
  dsimp only
  by_cases houtside : address < g.base.toUInt64 ∨ g.base.toUInt64 + regionBytes ≤ address
  · rw [if_pos houtside, Bool.false_eq_true, false_iff]
    rw [UInt64.lt_iff_toNat_lt, UInt64.le_iff_toNat_le, hend, hstart] at houtside
    rintro ⟨hfrom, hto, -⟩
    omega
  · rw [if_neg houtside]
    rw [UInt64.lt_iff_toNat_lt, UInt64.le_iff_toNat_le, hend, hstart] at houtside
    have hsame : bottom / 256 * 256 = address.toNat / 256 * 256 := by omega
    rw [h.attributes, subregion_eq (hstart.trans hsame)]
    refine (enabling_traps (subregionOf bottom) (subregionOf address.toNat)).trans ?_
    constructor
    · intro hsub
      exact ⟨by omega, by omega, hsub⟩
    · rintro ⟨-, -, hsub⟩
      exact hsub

/-! ## The registers, read back -/

theorem toNat_baseRegister {g : GuardRegion} {bottom : Nat}
    (hbase : g.base.toNat = bottom / 256 * 256) {region : UInt8} (hregion : region < 16) :
    (g.baseRegister region).toNat = bottom / 256 * 256 + 16 + region.toNat := by
  have hlt : region.toNat < 2 ^ 4 := UInt8.lt_iff_toNat_lt.mp hregion
  have hnumber : (region.toUInt32 &&& 0xf).toNat = region.toNat := by
    rw [UInt32.toNat_and, UInt8.toNat_toUInt32]
    show region.toNat &&& (2 ^ 4 - 1) = region.toNat
    rw [Nat.and_two_pow_sub_one_eq_mod, Nat.mod_eq_of_lt hlt]
  have hlow : 16 ||| region.toNat = 16 + region.toNat :=
    (Nat.two_pow_add_eq_or_of_lt hlt 1).symm
  have hwhole : bottom / 256 * 256 ||| (16 + region.toNat) =
      bottom / 256 * 256 + (16 + region.toNat) := by
    have hbyte : 16 + region.toNat < 2 ^ 8 := by omega
    have h := Nat.two_pow_add_eq_or_of_lt hbyte (bottom / 256)
    rw [Nat.mul_comm] at h
    exact h.symm
  rw [baseRegister, UInt32.toNat_or, UInt32.toNat_or, hbase, hnumber, Nat.or_assoc]
  show bottom / 256 * 256 ||| (16 ||| region.toNat) = _
  rw [hlow, hwhole, Nat.add_assoc]

theorem enabling_readBack (sub : Fin 8) :
    2 ^ (((enabling sub).toBitVec.extractLsb' 1 5).toNat + 1) = 256 ∧
      (enabling sub).toBitVec.extractLsb' 8 8 = ~~~(1#8 <<< sub.val) ∧
      (enabling sub).toBitVec.extractLsb' 24 3 = 0 ∧
      (enabling sub).toBitVec.getLsbD 0 = true := by
  revert sub
  decide

theorem Covers.ofRegisters_eq {g : GuardRegion} {bottom : Nat} (h : g.Covers bottom)
    {region : UInt8} (hregion : region < 16) :
    ProtectedRegion.ofRegisters (g.baseRegister region) g.attributes =
      { number := some region.toNat
        base := bottom / 256 * 256
        size := 256
        disabled := ~~~(1#8 <<< (subregionOf bottom).val)
        permission := 0
        enabled := true } := by
  have hlt : region.toNat < 16 := UInt8.lt_iff_toNat_lt.mp hregion
  have hregister := toNat_baseRegister h.base hregion
  have hvalid : (g.baseRegister region).toBitVec.getLsbD 4 = true := by
    rw [← BitVec.testBit_toNat, UInt32.toNat_toBitVec, hregister, Nat.testBit_eq_decide_div_mod_eq,
      decide_eq_true_iff]
    omega
  have hnumber : ((g.baseRegister region).toBitVec.extractLsb' 0 4).toNat = region.toNat := by
    rw [BitVec.extractLsb'_toNat, UInt32.toNat_toBitVec, hregister, Nat.shiftRight_zero]
    omega
  have hbase : (g.baseRegister region &&& ~~~(0xff : UInt32)).toNat = bottom / 256 * 256 := by
    rw [toNat_and_not_ff, hregister]
    omega
  obtain ⟨hsize, hdisabled, hpermission, henabled⟩ := enabling_readBack (subregionOf bottom)
  unfold ProtectedRegion.ofRegisters
  rw [h.attributes, hvalid, hnumber, hbase, hsize, hdisabled, hpermission, henabled, if_pos rfl]

theorem Covers.denies_iff {g : GuardRegion} {bottom : Nat} (h : g.Covers bottom) {region : UInt8}
    (hregion : region < 16) (address : Nat) :
    (ProtectedRegion.ofRegisters (g.baseRegister region) g.attributes).Denies address ↔
      bottom ≤ address ∧ address < bottom + guardBytes := by
  rw [h.ofRegisters_eq hregion, ← within_iff h.aligned]
  have henabled (sub other : Fin 8) :
      (~~~(1#8 <<< sub.val)).getLsbD other.val = false ↔ other = sub := by
    revert sub other
    decide
  unfold ProtectedRegion.Denies
  dsimp only
  constructor
  · rintro ⟨-, -, hfrom, hto, hsub⟩
    have hsame : bottom / 256 * 256 = address / 256 * 256 := by omega
    rw [hsame, subregionOf_val rfl] at hsub
    exact ⟨hfrom, hto, (henabled _ _).mp hsub⟩
  · rintro ⟨hfrom, hto, hsub⟩
    have hsame : bottom / 256 * 256 = address / 256 * 256 := by omega
    refine ⟨rfl, rfl, hfrom, hto, ?_⟩
    rw [hsame, subregionOf_val rfl]
    exact (henabled _ _).mpr hsub

/--
Both by its own account and as the unit reads its registers, a guard keeps tasks
out of the lowest bytes of the stack and lets them at every other address.
-/
theorem blocks_lowest_bytes (bottom : Address) :
    (∀ fault, ofBottom bottom = .error fault ↔
      bottom.toNat % 32 ≠ 0 ∧ fault = .guardMisaligned (bottom.toNat % 32)) ∧
    (bottom.toNat % 32 = 0 → bottom.toNat < 2 ^ 32 →
      ∃ g, ofBottom bottom = .ok g ∧
        (∀ address : Address, g.traps address = true ↔
          bottom.toNat ≤ address.toNat ∧ address.toNat < bottom.toNat + 32) ∧
        ∀ region : UInt8, region < 16 →
          let read := ProtectedRegion.ofRegisters (g.baseRegister region) g.attributes
          read.number = some region.toNat ∧ read.enabled = true ∧ read.permission = 0 ∧
            ∀ address, read.Denies address ↔
              bottom.toNat ≤ address ∧ address < bottom.toNat + 32) := by
  refine ⟨fun fault => ofBottom_eq_error_iff, fun haligned hlow => ?_⟩
  obtain ⟨g, hok, hcovers⟩ := ofBottom_covers haligned hlow
  refine ⟨g, hok, hcovers.traps_iff, fun region hregion => ?_⟩
  refine ⟨?_, ?_, ?_, hcovers.denies_iff hregion⟩ <;> rw [hcovers.ofRegisters_eq hregion]

theorem blocks_lowest_bytes_midBlock :
    ∃ g, ofBottom 0x20001060 = .ok g ∧ g.traps 0x2000107f = true ∧ g.traps 0x20001080 = false ∧
      (ProtectedRegion.ofRegisters (g.baseRegister 2) g.attributes).number = some 2 := by
  obtain ⟨g, hok, htraps, hread⟩ :=
    (blocks_lowest_bytes 0x20001060).2 (by decide) (by decide)
  refine ⟨g, hok, (htraps _).mpr (by decide), ?_, (hread 2 (by decide)).1⟩
  rw [Bool.eq_false_iff, ne_eq, htraps]
  decide

end GuardRegion

end CoopTasks
