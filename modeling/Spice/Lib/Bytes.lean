import Spice.Lib.Numbers
import Mathlib.Data.List.Basic

namespace Spice
namespace Lib

/-!
# Little-endian fields

Fixed-width unsigned fields as they lie in memory or on the wire, the least
significant byte first.
-/

def littleEndian (bytes : List UInt8) : Nat := bytes.foldr (fun byte value => byte.toNat + 256 * value) 0

/-- The field of a given width that holds a value. -/
def toLittleEndian : Nat -> Nat -> List UInt8
  | 0, _ => []
  | width + 1, value => UInt8.ofNat value :: toLittleEndian width (value / 256)

theorem littleEndian_lt (bytes : List UInt8) : littleEndian bytes < 256 ^ bytes.length := by
  induction bytes with
  | nil => exact Nat.one_pos
  | cons byte bytes ih =>
      have bounded := byte.toNat_lt
      simp only [littleEndian, List.foldr_cons, List.length_cons, Nat.pow_succ] at ih ⊢
      omega

@[simp] theorem length_toLittleEndian (width value : Nat) : (toLittleEndian width value).length = width := by
  induction width generalizing value with
  | zero => rfl
  | succ width ih => rw [toLittleEndian, List.length_cons, ih]

/-- A value that fits comes back. -/
theorem littleEndian_toLittleEndian (width value : Nat) (fits : value < 256 ^ width) :
    littleEndian (toLittleEndian width value) = value := by
  induction width generalizing value with
  | zero =>
      have zero : value = 0 := by simpa using fits
      rw [zero]
      rfl
  | succ width ih =>
      have quotient : value / 256 < 256 ^ width := by
        rw [Nat.pow_succ] at fits
        omega
      have rest := ih (value / 256) quotient
      simp only [littleEndian] at rest
      simp only [littleEndian, toLittleEndian, List.foldr_cons, rest, UInt8.toNat_ofNat']
      omega

/-- The field of a given width at an offset; `none` when it is not inside of the bytes. -/
def fieldAt (bytes : List UInt8) (offset width : Nat) : Option Nat :=
  if offset + width ≤ bytes.length then some (littleEndian ((bytes.drop offset).take width)) else none

theorem fieldAt_eq_some {bytes : List UInt8} {offset width value : Nat}
    (found : fieldAt bytes offset width = some value) :
    offset + width ≤ bytes.length ∧ value < 256 ^ width := by
  unfold fieldAt at found
  split at found
  · rename_i inside
    cases found
    have bound := littleEndian_lt ((bytes.drop offset).take width)
    rw [List.length_take, List.length_drop, Nat.min_eq_left (by omega)] at bound
    exact ⟨inside, bound⟩
  · cases found

theorem fieldAt_of_inside {bytes : List UInt8} {offset width : Nat} (inside : offset + width ≤ bytes.length) :
    Exists fun value => fieldAt bytes offset width = some value := ⟨_, if_pos inside⟩

theorem fieldAt_skip {bytes rest : List UInt8} {offset width : Nat} (long : bytes.length ≤ offset) :
    fieldAt (bytes ++ rest) offset width = fieldAt rest (offset - bytes.length) width := by
  unfold fieldAt
  rw [List.length_append, List.drop_append, List.drop_of_length_le long, List.nil_append]
  congr 1
  rw [eq_iff_iff]
  omega

theorem fieldAt_head {rest : List UInt8} {width value : Nat} (fits : value < 256 ^ width) :
    fieldAt (toLittleEndian width value ++ rest) 0 width = some value := by
  have length := length_toLittleEndian width value
  unfold fieldAt
  rw [if_pos (by rw [List.length_append, length]; omega), List.drop_zero,
    List.take_append_of_le_length (Nat.le_of_eq length.symm), List.take_of_length_le (Nat.le_of_eq length),
    littleEndian_toLittleEndian width value fits]

theorem fieldAt_skip_field {rest : List UInt8} {before value offset width : Nat} (long : before ≤ offset) :
    fieldAt (toLittleEndian before value ++ rest) offset width = fieldAt rest (offset - before) width := by
  have length := length_toLittleEndian before value
  rw [fieldAt_skip (by rw [length]; exact long), length]

end Lib
end Spice
