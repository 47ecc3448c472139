import Spice.Lib.Numbers
import Mathlib.Data.List.Basic

namespace Spice
namespace Lib

/-!
# Copies into and out of a ring

A copy that fails outside of its arrays, and the copies in two parts that go on at the
start of an array when its end is reached.
-/

variable {α : Type}

/-- `memcpy` of elements; `none` when it leaves one of the arrays. -/
def copyInto (array : List α) (place : Nat) (source : List α) (start count : Nat) : Option (List α) :=
  if place + count ≤ array.length ∧ start + count ≤ source.length then
    some (array.take place ++ (source.drop start).take count ++ array.drop (place + count))
  else none

/-- Elements are copied to a place and on from the start. -/
def ringWrite (array : List α) (place : Nat) (source : List α) (count : Nat) : Option (List α) :=
  let now := min (array.length - place) count
  (copyInto array place source 0 now).bind fun written =>
    if count - now = 0 then some written else copyInto written 0 source now (count - now)

/-- Elements are copied from a place and on from the start. -/
def ringRead (array : List α) (place count : Nat) : Option (List α) :=
  let now := min count (array.length - place)
  if place + now ≤ array.length ∧ count - now ≤ array.length then
    some ((array.drop place).take now ++ array.take (count - now))
  else none

section Copies

variable {array source written : List α} {place start count index : Nat}

theorem length_copyInto (copied : copyInto array place source start count = some written) :
    written.length = array.length := by
  unfold copyInto at copied
  split at copied
  · cases copied
    simp only [List.length_append, List.length_take, List.length_drop]
    omega
  · cases copied

/-- What is where after a copy. -/
theorem getElem?_copyInto (copied : copyInto array place source start count = some written) (index : Nat) :
    written[index]? = if place ≤ index ∧ index < place + count then source[start + (index - place)]?
      else array[index]? := by
  unfold copyInto at copied
  split at copied
  · rename_i fits
    cases copied
    by_cases before : index < place
    · rw [if_neg (by omega), List.append_assoc, List.getElem?_append_left (by rw [List.length_take]; omega),
        List.getElem?_take_of_lt before]
    · rw [List.append_assoc, List.getElem?_append_right (by rw [List.length_take]; omega), List.length_take,
        Nat.min_eq_left (by omega)]
      by_cases inside : index < place + count
      · rw [if_pos ⟨by omega, inside⟩,
          List.getElem?_append_left (by simp only [List.length_take, List.length_drop]; omega),
          List.getElem?_take_of_lt (by omega), List.getElem?_drop]
      · rw [if_neg (by omega), List.getElem?_append_right (by simp only [List.length_take, List.length_drop]; omega),
          List.getElem?_drop, List.length_take, List.length_drop]
        congr 1
        omega
  · cases copied

/-- A copy of no more than the ring holds succeeds. -/
theorem ringWrite_spec (inRing : place < array.length) (fits : count ≤ array.length)
    (isSource : count ≤ source.length) :
    Exists fun written => ringWrite array place source count = some written ∧ written.length = array.length ∧
      forall index, index < array.length -> written[index]? =
        if (index + array.length - place) % array.length <
          count then source[(index + array.length - place) % array.length]?
        else array[index]? := by
  have away : forall index, index < array.length -> (index + array.length - place) % array.length =
      if place ≤ index then index - place else index + array.length - place := by
    intro index inside
    split
    · rw [show index + array.length - place = index - place + array.length by omega, Nat.add_mod_right]
      exact Nat.mod_eq_of_lt (by omega)
    · exact Nat.mod_eq_of_lt (by omega)
  have first : copyInto array place source 0 (min (array.length - place) count) = some _ :=
    if_pos ⟨by omega, by omega⟩
  have firstAt := fun index => getElem?_copyInto first index
  have firstLength := length_copyInto first
  unfold ringWrite
  dsimp only
  rw [first, Option.bind_some]
  generalize array.take place ++ (source.drop 0).take (min (array.length - place) count) ++
    array.drop (place + min (array.length - place) count) = part at firstAt firstLength
  split
  · refine ⟨part, rfl, firstLength, fun index inside => ?_⟩
    rw [firstAt, away index inside]
    by_cases after : place ≤ index
    · rw [if_pos after, Nat.zero_add]
      congr 1
      rw [eq_iff_iff]
      omega
    · rw [if_neg after, if_neg (by omega), if_neg (by omega)]
  · have second : copyInto part 0 source (min (array.length - place) count) (count - min (array.length - place) count) =
        some _ := if_pos ⟨by omega, by omega⟩
    refine ⟨_, second, (length_copyInto second).trans firstLength, fun index inside => ?_⟩
    rw [getElem?_copyInto second, firstAt, away index inside]
    by_cases after : place ≤ index
    · rw [if_pos after, if_neg (by omega), if_pos (by omega), if_pos (by omega), Nat.zero_add]
    · rw [if_neg after, if_neg (show ¬ (place ≤ index ∧ _) from fun both => after both.1)]
      by_cases early : index < count - min (array.length - place) count
      · rw [if_pos ⟨Nat.zero_le _, by omega⟩, if_pos (by omega)]
        congr 1
        omega
      · rw [if_neg (by omega), if_neg (by omega)]

/-- A read from the ring, around its end. -/
theorem ringRead_spec (inRing : place < array.length) (fits : count ≤ array.length) :
    Exists fun read => ringRead array place count = some read ∧ read.length = count ∧
      forall index, index < count -> read[index]? = array[(place + index) % array.length]? := by
  unfold ringRead
  dsimp only
  rw [if_pos ⟨by omega, by omega⟩]
  refine ⟨_, rfl, ?_, ?_⟩
  · simp only [List.length_append, List.length_take, List.length_drop]
    omega
  · intro index inside
    have length : ((array.drop place).take (min count (array.length - place))).length =
        min count (array.length - place) := by
      rw [List.length_take, List.length_drop]
      omega
    by_cases now : index < min count (array.length - place)
    · rw [List.getElem?_append_left (by omega), List.getElem?_take_of_lt now, List.getElem?_drop,
        Nat.mod_eq_of_lt (by omega)]
    · rw [List.getElem?_append_right (by omega), length, List.getElem?_take_of_lt (by omega)]
      rw [show place + index = (place + index - array.length) + array.length by omega, Nat.add_mod_right,
        Nat.mod_eq_of_lt (by omega)]
      congr 1
      omega

end Copies

end Lib
end Spice
