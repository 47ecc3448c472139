import Spice.Lib.Numbers
import Mathlib.Data.Int.Notation

namespace Spice
namespace Lib

/-!
# Numbers as an `int`

The value that a number has as a C `int` of 32 bits: numbers that are too large wrap.
-/

/-- A number as an `int`. -/
def int32 (value : Int) : Int := value.bmod (2 ^ 32)

/-- Whether a number is an `int`. -/
def IsInt32 (value : Int) : Prop := -2 ^ 31 ≤ value ∧ value < 2 ^ 31

instance (value : Int) : Decidable (IsInt32 value) := inferInstanceAs (Decidable (_ ∧ _))

theorem int32_of_isInt32 {value : Int} (isInt : IsInt32 value) : int32 value = value := by
  unfold IsInt32 at isInt
  exact Int.bmod_eq_of_le (by omega) (by omega)

theorem isInt32_int32 (value : Int) : IsInt32 (int32 value) := by
  have least := @Int.le_bmod value (2 ^ 32) (by decide)
  have most := @Int.bmod_lt value (2 ^ 32) (by decide)
  unfold int32 IsInt32
  omega

theorem int32_of_lt {value : Nat} (small : value < 2 ^ 31) : int32 value = value :=
  int32_of_isInt32 ⟨by omega, by omega⟩

theorem lt_of_int32 {value : Nat} (same : int32 value = value) : value < 2 ^ 31 := by
  have bound := (isInt32_int32 value).2
  omega

theorem int32_of_ge {value : Nat} (large : 2 ^ 31 ≤ value) (small : value < 2 ^ 32) :
    int32 value = (value : Int) - 2 ^ 32 := by
  unfold int32
  rw [Int.bmod_neg]
  · omega
  · omega

theorem int32_int32_mul (first second : Int) : int32 (int32 first * second) = int32 (first * second) :=
  Int.bmod_mul_bmod

theorem int32_mul_int32 (first second : Int) : int32 (first * int32 second) = int32 (first * second) :=
  Int.mul_bmod_bmod

theorem int32_int32_add (first second : Int) : int32 (int32 first + second) = int32 (first + second) :=
  Int.bmod_add_bmod

theorem int32_int32_sub (first second : Int) : int32 (int32 first - second) = int32 (first - second) :=
  Int.bmod_sub_bmod

end Lib
end Spice
