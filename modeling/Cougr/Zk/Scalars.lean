import Cougr.Zk.Groth16.Theorems
import Cougr.Library.FixedWidth

namespace Cougr.Zk

section Encoders

-- `to_le_bytes` in the first four bytes of a zeroed array.
def u32ToScalar (val : UInt32) : Scalar where
  bytes := ⟨(copyFromSlice (List.replicate 32 0) 0 (FixedWidth.leBytes 4 val.toNat)).toArray, by
    simp [copyFromSlice]⟩

def i32ToScalar (val : Int32) : Scalar where
  bytes := ⟨(copyFromSlice (List.replicate 32 0) 0 (FixedWidth.leBytes 4 val.toUInt32.toNat)).toArray, by
    simp [copyFromSlice]⟩

-- The scalars of the tests: `to_be_bytes` in the last eight bytes.
def mockScalar (value : UInt64) : Scalar where
  bytes := ⟨(copyFromSlice (List.replicate 32 0) 24 (FixedWidth.beBytes 8 value.toNat)).toArray, by
    simp [copyFromSlice]⟩

-- A value with its four bytes in the other order.
def swapped (val : UInt32) : Nat := FixedWidth.beValue (FixedWidth.leBytes 4 val.toNat)

theorem swapped_lt (val : UInt32) : swapped val < 2 ^ 32 := by
  have hlt := FixedWidth.beValue_lt (FixedWidth.leBytes 4 val.toNat)
  rwa [FixedWidth.length_leBytes] at hlt

theorem swapped_inj {first second : UInt32} : swapped first = swapped second ↔ first = second := by
  rw [swapped, swapped, FixedWidth.beValue_inj (by simp), ← List.reverse_inj, ← FixedWidth.beBytes,
    ← FixedWidth.beBytes, FixedWidth.beBytes_inj first.toNat_lt second.toNat_lt, UInt32.toNat_inj]

theorem swapped_eq_zero_iff {val : UInt32} : swapped val = 0 ↔ val = 0 := by
  have hzero : swapped 0 = 0 := rfl
  rw [← hzero, swapped_inj]

theorem value_u32ToScalar (val : UInt32) : (u32ToScalar val).value = swapped val * 2 ^ 224 := by
  have hbytes : (u32ToScalar val).bytes.toList = FixedWidth.leBytes 4 val.toNat ++ List.replicate 28 0 := by
    simp [u32ToScalar, copyFromSlice]
  have hvalue := FixedWidth.beValue_append (FixedWidth.leBytes 4 val.toNat) (List.replicate 28 0)
  have hshift : 256 ^ 28 = 2 ^ 224 := by norm_num
  rw [FixedWidth.beValue_replicate_zero, List.length_replicate, Nat.add_zero, hshift, ← hbytes] at hvalue
  exact hvalue

theorem value_mockScalar (value : UInt64) : (mockScalar value).value = value.toNat := by
  have hbytes : (mockScalar value).bytes.toList = List.replicate 24 0 ++ FixedWidth.beBytes 8 value.toNat := by
    simp [mockScalar, copyFromSlice]
  have hvalue := FixedWidth.beValue_append (List.replicate 24 0) (FixedWidth.beBytes 8 value.toNat)
  have hwidth : 256 ^ 8 = 2 ^ 64 := by norm_num
  rw [FixedWidth.beValue_replicate_zero, Nat.zero_mul, Nat.zero_add, FixedWidth.beValue_beBytes, hwidth, ← hbytes,
    Nat.mod_eq_of_lt value.toNat_lt] at hvalue
  exact hvalue

end Encoders

section Field

-- The order of the groups of BN254.
def scalarOrder : Nat := 21888242871839275222246405745257275088548364400416034343698204186575808495617

-- The host reads the bytes of a scalar as a big-endian integer, modulo the order.
def ReadsBigEndian (fromBytes : BytesN 32 → ZMod scalarOrder) : Prop :=
  ∀ bytes, fromBytes bytes = (Scalar.value ⟨bytes⟩ : ZMod scalarOrder)

-- Multiples of `2 ^ 224` below `2 ^ 256` reach no number of 32 bits modulo the order, but zero.
theorem shifted_eq_intCast_iff {w : Nat} {v : Int} (hw : w < 2 ^ 32) (hlow : -2 ^ 31 ≤ v) (hhigh : v < 2 ^ 32) :
    ((w * 2 ^ 224 : Nat) : ZMod scalarOrder) = (v : ZMod scalarOrder) ↔ w = 0 ∧ v = 0 := by
  constructor
  · intro h
    rw [← Int.cast_natCast, ZMod.intCast_eq_intCast_iff_dvd_sub] at h
    obtain ⟨k, hk⟩ := h
    unfold scalarOrder at hk
    push_cast at hk
    have hupper : k ≤ 0 := by omega
    have hlower : -5 ≤ k := by omega
    interval_cases k <;> omega
  · rintro ⟨rfl, rfl⟩
    rw [Nat.zero_mul, Nat.cast_zero, Int.cast_zero]

theorem shifted_eq_shifted_iff {w w' : Nat} (hw : w < 2 ^ 32) (hw' : w' < 2 ^ 32) :
    ((w * 2 ^ 224 : Nat) : ZMod scalarOrder) = ((w' * 2 ^ 224 : Nat) : ZMod scalarOrder) ↔ w = w' := by
  constructor
  · intro h
    have hodd : Nat.gcd scalarOrder (2 ^ 224) = 1 := Nat.Coprime.pow_right 224 (by decide)
    have hmod := Nat.ModEq.cancel_right_of_coprime hodd ((ZMod.natCast_eq_natCast_iff _ _ _).mp h)
    have horder : 2 ^ 32 < scalarOrder := by decide
    exact hmod.eq_of_lt_of_lt (hw.trans horder) (hw'.trans horder)
  · intro h
    rw [h]

-- The values denote themselves, distinct values distinct elements, and the scalar of the tests is the same.
structure Faithful (fromBytes : BytesN 32 → ZMod scalarOrder) (u : UInt32) (i : Int32) : Prop where
  u32 : fromBytes (u32ToScalar u).bytes = (u.toNat : ZMod scalarOrder)
  i32 : fromBytes (i32ToScalar i).bytes = (i.toInt : ZMod scalarOrder)
  distinctU32 : ∀ other, fromBytes (u32ToScalar other).bytes = fromBytes (u32ToScalar u).bytes → other = u
  distinctI32 : ∀ other, fromBytes (i32ToScalar other).bytes = fromBytes (i32ToScalar i).bytes → other = i
  apart : fromBytes (i32ToScalar i).bytes = fromBytes (u32ToScalar u).bytes → i.toInt = u.toNat
  mock : ∀ value : UInt64, (value.toNat = u.toNat → mockScalar value = u32ToScalar u) ∧
    (value.toNat = i.toInt → mockScalar value = i32ToScalar i)

variable {fromBytes : BytesN 32 → ZMod scalarOrder}

theorem fromBytes_u32ToScalar (hreads : ReadsBigEndian fromBytes) (val : UInt32) :
    fromBytes (u32ToScalar val).bytes = ((swapped val * 2 ^ 224 : Nat) : ZMod scalarOrder) := by
  rw [hreads, ← value_u32ToScalar]

theorem u32ToScalar_denotes_iff (hreads : ReadsBigEndian fromBytes) (val : UInt32) :
    fromBytes (u32ToScalar val).bytes = (val.toNat : ZMod scalarOrder) ↔ val = 0 := by
  have hlt := val.toNat_lt
  have hiff := @shifted_eq_intCast_iff (swapped val) val.toNat (swapped_lt val) (by omega) (by omega)
  rw [Int.cast_natCast, swapped_eq_zero_iff] at hiff
  rw [fromBytes_u32ToScalar hreads, hiff, and_iff_left_iff_imp]
  rintro rfl
  rfl

theorem i32ToScalar_denotes_iff (hreads : ReadsBigEndian fromBytes) (val : Int32) :
    fromBytes (i32ToScalar val).bytes = (val.toInt : ZMod scalarOrder) ↔ val = 0 := by
  have hlow := val.le_toInt
  have hhigh := val.toInt_lt
  have hiff := @shifted_eq_intCast_iff (swapped val.toUInt32) val.toInt (swapped_lt _) (by omega) (by omega)
  have hbytes : fromBytes (i32ToScalar val).bytes = _ := fromBytes_u32ToScalar hreads val.toUInt32
  rw [hbytes, hiff, swapped_eq_zero_iff, ← Int32.toInt_inj]
  constructor
  · intro h
    exact h.2
  · intro h
    have hzero := Int32.toInt_inj.mp h
    subst hzero
    exact ⟨rfl, rfl⟩

theorem fromBytes_u32ToScalar_inj (hreads : ReadsBigEndian fromBytes) (first second : UInt32) :
    fromBytes (u32ToScalar first).bytes = fromBytes (u32ToScalar second).bytes ↔ first = second := by
  rw [fromBytes_u32ToScalar hreads, fromBytes_u32ToScalar hreads,
    shifted_eq_shifted_iff (swapped_lt first) (swapped_lt second), swapped_inj]

-- The scalars of the tests are written as they are read.
theorem mockScalar_denotes (hreads : ReadsBigEndian fromBytes) (value : UInt64) :
    fromBytes (mockScalar value).bytes = (value.toNat : ZMod scalarOrder) := by
  rw [hreads, ← value_mockScalar]

-- Read from the other end, a value stands for itself only if it is zero; distinct values of one type stay
-- distinct, and a negative value stands for the same element as the unsigned one with its bits.
theorem faithful_iff (hreads : ReadsBigEndian fromBytes) (u : UInt32) (i : Int32) :
    (Faithful fromBytes u i ↔ u = 0 ∧ i = 0) ∧
    (∀ other, fromBytes (u32ToScalar other).bytes = fromBytes (u32ToScalar u).bytes ↔ other = u) ∧
    (∀ other, fromBytes (i32ToScalar other).bytes = fromBytes (i32ToScalar i).bytes ↔ other = i) ∧
    (fromBytes (i32ToScalar i).bytes = fromBytes (u32ToScalar u).bytes ↔ i.toUInt32 = u) := by
  have hdistinct : ∀ other : Int32,
      fromBytes (i32ToScalar other).bytes = fromBytes (i32ToScalar i).bytes ↔ other = i := by
    intro other
    have hsame : other.toUInt32 = i.toUInt32 ↔ other = i :=
      ⟨fun h => Int32.toBitVec.inj (congrArg UInt32.toBitVec h), congrArg Int32.toUInt32⟩
    rw [← hsame]
    exact fromBytes_u32ToScalar_inj hreads other.toUInt32 i.toUInt32
  refine ⟨?_, fun other => fromBytes_u32ToScalar_inj hreads other u, hdistinct,
    fromBytes_u32ToScalar_inj hreads i.toUInt32 u⟩
  constructor
  · intro hfaithful
    exact ⟨(u32ToScalar_denotes_iff hreads u).mp hfaithful.u32,
      (i32ToScalar_denotes_iff hreads i).mp hfaithful.i32⟩
  · rintro ⟨rfl, rfl⟩
    refine ⟨(u32ToScalar_denotes_iff hreads 0).mpr rfl, (i32ToScalar_denotes_iff hreads 0).mpr rfl,
      fun other => (fromBytes_u32ToScalar_inj hreads other 0).mp, fun other => (hdistinct other).mp,
      fun _ => rfl, fun value => ?_⟩
    have hzero : ∀ value : UInt64, value.toNat = 0 → mockScalar value = u32ToScalar 0 := by
      intro value hvalue
      obtain rfl : value = 0 := UInt64.toNat_inj.mp hvalue
      rfl
    exact ⟨hzero value, fun h => hzero value (Int.natCast_eq_zero.mp h)⟩

def readBigEndian (bytes : BytesN 32) : ZMod scalarOrder := (Scalar.value ⟨bytes⟩ : ZMod scalarOrder)

theorem zero_faithful : Faithful readBigEndian 0 0 :=
  (faithful_iff (fun _ => rfl) 0 0).1.mpr ⟨rfl, rfl⟩

-- One stands for another number, and minus one for the same as the largest unsigned value.
theorem one_misread : ¬Faithful readBigEndian 1 (-1) ∧
    readBigEndian (i32ToScalar (-1)).bytes = readBigEndian (u32ToScalar 4294967295).bytes := by
  refine ⟨fun hfaithful => ?_, rfl⟩
  have hone := (@u32ToScalar_denotes_iff readBigEndian (fun _ => rfl) 1).mp hfaithful.u32
  exact absurd hone (by decide)

end Field

end Cougr.Zk
