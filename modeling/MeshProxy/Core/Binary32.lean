/-
IEEE 754 binary32 values as bit patterns, as far as comparisons with zero and finiteness go.

A protobuf `float` field may hold any of the 2^32 patterns. Programs guard such values with `x > 0` or `x != 0`; what
these guards let through is decided by the exponent, the mantissa and the sign alone:
- `gtZero_nonfinite`: of the non-finite values, `x > 0` lets through exactly +∞ (NaN and −∞ compare false);
- `neZero_nonfinite`: `x != 0` lets all of them through.
-/
import Mathlib.Tactic

namespace MeshProxy.Binary32

/-- a binary32 value, by its bits -/
structure F32 where
  bits : BitVec 32
deriving DecidableEq, Repr

namespace F32

/-- biased exponent field -/
def expo (x : F32) : ℕ := x.bits.toNat / 2 ^ 23 % 2 ^ 8

/-- trailing mantissa field -/
def mant (x : F32) : ℕ := x.bits.toNat % 2 ^ 23

/-- sign bit -/
def neg (x : F32) : Bool := 2 ^ 31 ≤ x.bits.toNat

def isNaN (x : F32) : Bool := x.expo = 255 ∧ x.mant ≠ 0

/-- +0 and −0 -/
def isZero (x : F32) : Bool := x.expo = 0 ∧ x.mant = 0

def isFinite (x : F32) : Bool := x.expo ≠ 255

/-- the comparison `x > 0` -/
def gtZero (x : F32) : Bool := !x.isNaN && !x.isZero && !x.neg

/-- the comparison `x < 0` -/
def ltZero (x : F32) : Bool := !x.isNaN && !x.isZero && x.neg

/-- the comparison `x != 0`, true of NaN -/
def neZero (x : F32) : Bool := !x.isZero

def zero : F32 := ⟨0#32⟩
def posInf : F32 := ⟨0x7F800000#32⟩
def nan : F32 := ⟨0x7FC00000#32⟩

instance : Inhabited F32 := ⟨zero⟩

@[simp] theorem zero_isFinite : zero.isFinite = true := by decide

theorem isFinite_eq_false {x : F32} : x.isFinite = false ↔ x.expo = 255 := by simp [isFinite]

/-- **`> 0` lets through exactly +∞** of the values that are not finite -/
theorem gtZero_nonfinite {x : F32} (h : x.isFinite = false) : x.gtZero = true ↔ x = posInf := by
  have hlt := x.bits.isLt
  have he : x.bits.toNat / 8388608 % 256 = 255 := isFinite_eq_false.1 h
  constructor
  · intro hg
    simp [gtZero, isNaN, isZero, neg, expo, mant, he] at hg
    have hv : x.bits.toNat = 0x7F800000 := by omega
    cases x with
    | mk bits => exact congrArg F32.mk (BitVec.eq_of_toNat_eq hv)
  · rintro rfl; decide

/-- **`!= 0` lets every non-finite value through** -/
theorem neZero_nonfinite {x : F32} (h : x.isFinite = false) : x.neZero = true := by
  rw [isFinite_eq_false] at h
  simp [neZero, isZero, h]

/-- a finite value is zero, positive or negative -/
theorem ltZero_iff {x : F32} (h : x.isFinite = true) : x.ltZero = true ↔ x.isZero = false ∧ x.gtZero = false := by
  have hnan : x.isNaN = false := by
    simp only [isFinite, decide_eq_true_eq] at h
    simp [isNaN, h]
  cases hz : x.isZero <;> cases hn : x.neg <;> simp [ltZero, gtZero, hnan, hz, hn]

end F32

end MeshProxy.Binary32
