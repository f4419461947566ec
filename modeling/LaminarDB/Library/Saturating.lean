import Mathlib

/-!
# Signed 64-bit integers with saturating and wrapping arithmetic

A value is an integer between the two bounds of the type. If the exact result of an
operation lies outside, a saturating operation gives the nearer bound, a wrapping one the
result modulo the size of the type and a checked one nothing.
-/

namespace LaminarDB.Library

structure I64 where
  toInt : Int
  lower : -2 ^ 63 ≤ toInt
  upper : toInt ≤ 2 ^ 63 - 1
deriving DecidableEq

namespace I64

variable {left right : I64}

@[ext]
theorem ext (same : left.toInt = right.toInt) : left = right := by
  cases right
  cases same
  rfl

theorem toInt_injective : Function.Injective I64.toInt := fun _ _ => ext

instance : LinearOrder I64 := LinearOrder.lift' I64.toInt toInt_injective

theorem le_iff : left ≤ right ↔ left.toInt ≤ right.toInt := Iff.rfl

theorem lt_iff : left < right ↔ left.toInt < right.toInt := Iff.rfl

variable (value : Int) {divisor : Int}

/-- The integer nearest to `value`. -/
def clamp : I64 where
  toInt := max (-2 ^ 63) (min (2 ^ 63 - 1) value)
  lower := by omega
  upper := by omega

def minValue : I64 := clamp (-2 ^ 63)

def maxValue : I64 := clamp (2 ^ 63 - 1)

@[simp]
theorem toInt_minValue : minValue.toInt = -2 ^ 63 := rfl

theorem minValue_le {value : I64} : minValue ≤ value := value.lower

theorem clamp_toInt : clamp left.toInt = left := by
  have lower := left.lower
  have upper := left.upper
  ext
  simp only [clamp]
  omega

theorem clamp_mono {left right : Int} (ordered : left ≤ right) : clamp left ≤ clamp right := by
  rw [le_iff]
  simp only [clamp]
  omega

def wrap : I64 where
  toInt := value.bmod (2 ^ 64)
  lower := by
    have least := Int.le_bmod (x := value) (m := 2 ^ 64) (by decide)
    omega
  upper := by
    have greatest := Int.bmod_lt (x := value) (m := 2 ^ 64) (by decide)
    omega

def saturatingAdd (left right : I64) : I64 := clamp (left.toInt + right.toInt)

def saturatingSub (left right : I64) : I64 := clamp (left.toInt - right.toInt)

def saturatingMul (left : I64) (factor : Int) : I64 := clamp (left.toInt * factor)

/-- Division that rounds towards zero; the result of a division by a positive
number is never out of bounds. -/
def div (left : I64) (divisor : Int) : I64 := clamp (left.toInt.tdiv divisor)

def divEuclid (left : I64) (divisor : Int) : I64 := clamp (left.toInt / divisor)

theorem saturatingAdd_mono (ordered : left ≤ right) {amount : I64} :
    left.saturatingAdd amount ≤ right.saturatingAdd amount := by
  apply clamp_mono
  have := le_iff.mp ordered
  omega

theorem saturatingSub_mono (ordered : left ≤ right) {amount : I64} :
    left.saturatingSub amount ≤ right.saturatingSub amount := by
  apply clamp_mono
  have := le_iff.mp ordered
  omega

theorem saturatingMul_mono (ordered : left ≤ right) {factor : Int}
    (positive : 0 ≤ factor) : left.saturatingMul factor ≤ right.saturatingMul factor :=
  clamp_mono (Int.mul_le_mul_of_nonneg_right (le_iff.mp ordered) positive)

theorem divEuclid_mono (ordered : left ≤ right)
    (positive : 0 < divisor) : left.divEuclid divisor ≤ right.divEuclid divisor :=
  clamp_mono (Int.ediv_le_ediv positive (le_iff.mp ordered))

/-- An operation that overflows if its exact result is out of bounds. -/
def checked : Option I64 :=
  if inside : -2 ^ 63 ≤ value ∧ value ≤ 2 ^ 63 - 1 then some ⟨value, inside.1, inside.2⟩ else none

theorem checked_eq_some_iff {value : Int} : checked value = some left ↔ left.toInt = value := by
  unfold checked
  split
  · rw [Option.some.injEq, I64.ext_iff, eq_comm]
  · rename_i outside
    refine ⟨nofun, fun same => absurd ⟨?_, ?_⟩ outside⟩
    · exact same ▸ left.lower
    · exact same ▸ left.upper

/-- The quotient rounded down, from a division that rounds towards zero. -/
def floorDiv (left divisor : I64) : Option I64 :=
  if 0 ≤ left.toInt then some (left.div divisor.toInt)
  else do
    let lowered ← checked (left.toInt - divisor.toInt)
    let lowered ← checked (lowered.toInt + 1)
    some (lowered.div divisor.toInt)

theorem tdiv_sub_add_one {value : Int} (negative : value < 0) (positive : 0 < divisor) :
    (value - divisor + 1).tdiv divisor = value / divisor := by
  have remainder := Int.emod_nonneg value positive.ne'
  have below := Int.emod_lt_of_pos value positive
  have whole := Int.mul_ediv_add_emod value divisor
  have lowered : value - divisor + 1 =
      -(divisor - 1 - value % divisor + divisor * -(value / divisor)) := by
    rw [Int.mul_neg]
    omega
  rw [lowered, Int.neg_tdiv, Int.tdiv_eq_ediv_of_nonneg (by omega),
    Int.add_mul_ediv_left _ _ positive.ne', Int.ediv_eq_zero_of_lt (by omega) (by omega),
    Int.zero_add, Int.neg_neg]

theorem toInt_divEuclid (positive : 0 < divisor) :
    (left.divEuclid divisor).toInt = left.toInt / divisor := by
  have size := Int.natAbs_ediv_le_natAbs left.toInt divisor
  have negative := fun below : left.toInt < 0 => Int.ediv_neg_of_neg_of_pos below positive
  have lower := left.lower
  have upper := left.upper
  simp only [divEuclid, clamp]
  omega

theorem floorDiv_eq_some_iff {divisor quotient : I64} (positive : 0 < divisor.toInt) :
    floorDiv left divisor = some quotient ↔
      (left.toInt < 0 → -2 ^ 63 ≤ left.toInt - divisor.toInt) ∧
        quotient.toInt = left.toInt / divisor.toInt := by
  rw [← toInt_divEuclid positive, ← I64.ext_iff, eq_comm (a := quotient)]
  unfold floorDiv
  split
  · rename_i nonneg
    rw [Option.some.injEq, div, Int.tdiv_eq_ediv_of_nonneg nonneg]
    exact ⟨fun same => ⟨fun negative => absurd nonneg (not_le.mpr negative), same⟩, And.right⟩
  · rename_i negative
    simp only [bind, Option.bind_eq_some_iff, checked_eq_some_iff, Option.some.injEq]
    have rounded := tdiv_sub_add_one (not_le.mp negative) positive
    constructor
    · rintro ⟨first, isFirst, second, isSecond, same⟩
      rw [div, isSecond, isFirst, rounded] at same
      exact ⟨fun _ => isFirst ▸ first.lower, same⟩
    · rintro ⟨fits, same⟩
      have lower := fits (not_le.mp negative)
      exact ⟨⟨_, lower, by omega⟩, rfl, ⟨left.toInt - divisor.toInt + 1, by omega, by omega⟩, rfl,
        (congrArg clamp rounded).trans same⟩

end I64

end LaminarDB.Library
