import Spice.Lib.Numbers
import Mathlib.Data.Finset.Card
import Mathlib.Data.List.Nodup
import Mathlib.Data.List.TakeWhile

namespace Spice
namespace Lib

/-!
# The most recently used

A list ordered by use, the newest first, is cut at a capacity whenever a value
is used.  Against the history of all uses, a value is still in the list as long
as fewer than `capacity` different values were used after it.
-/

namespace Recency

variable {Value : Type} [DecidableEq Value]

/-- Use a value: it moves to the front, and what no longer fits is dropped. -/
def use (capacity : Nat) (list : List Value) (value : Value) : List Value :=
  (value :: list.erase value).take capacity

def dropped (capacity : Nat) (list : List Value) (value : Value) : List Value :=
  (value :: list.erase value).drop capacity

/-- The different values used after the last use of this one. -/
def newer (history : List Value) (value : Value) : Finset Value :=
  (history.takeWhile (fun other => other ≠ value)).toFinset

/-- Every value with fewer than `capacity` newer ones is in the list, behind
exactly these. -/
def Follows (capacity : Nat) (list history : List Value) : Prop :=
  forall value, value ∈ history -> (newer history value).card < capacity ->
    value ∈ list ∧ newer list value = newer history value

theorem Follows.refl (capacity : Nat) (list : List Value) : Follows capacity list list :=
  fun _ member _ => ⟨member, rfl⟩

variable {capacity : Nat} {list history : List Value} {value other : Value}

theorem newer_cons_self (history : List Value) (value : Value) : newer (value :: history) value = ∅ := by
  simp [newer]

theorem newer_cons_of_ne (different : other ≠ value) :
    newer (other :: history) value = insert other (newer history value) := by
  simp [newer, different]

/-- Taking a value out takes it out of what is newer than another. -/
theorem newer_erase (nodup : list.Nodup) (different : other ≠ value) :
    newer (list.erase other) value = (newer list value).erase other := by
  induction list with
  | nil => rfl
  | cons first rest ih =>
      have tail := List.nodup_cons.mp nodup
      by_cases isOther : first = other
      · subst isOther
        rw [List.erase_cons_head, newer_cons_of_ne different, Finset.erase_insert]
        intro member
        exact tail.1 (List.takeWhile_subset _ (List.mem_toFinset.mp member))
      · rw [List.erase_cons_tail (by simpa using isOther)]
        by_cases isValue : first = value
        · subst isValue
          rw [newer_cons_self, newer_cons_self, Finset.erase_empty]
        · rw [newer_cons_of_ne isValue, newer_cons_of_ne isValue, ih tail.2, Finset.erase_insert_of_ne isOther]

/-- A value with few newer ones is within the capacity. -/
theorem mem_take (nodup : list.Nodup) (member : value ∈ list) (few : (newer list value).card < capacity) :
    value ∈ list.take capacity ∧ newer (list.take capacity) value = newer list value := by
  induction list generalizing capacity with
  | nil => cases member
  | cons first rest ih =>
      have tail := List.nodup_cons.mp nodup
      cases capacity with
      | zero => exact absurd few (Nat.not_lt_zero _)
      | succ capacity =>
          rw [List.take_succ_cons]
          by_cases isValue : first = value
          · subst isValue
            exact ⟨List.mem_cons_self, by rw [newer_cons_self, newer_cons_self]⟩
          · have inRest : value ∈ rest := (List.mem_cons.mp member).resolve_left (fun same => isValue same.symm)
            have notBefore : first ∉ newer rest value := fun before =>
              tail.1 (List.takeWhile_subset _ (List.mem_toFinset.mp before))
            rw [newer_cons_of_ne isValue, Finset.card_insert_of_notMem notBefore] at few
            rcases ih tail.2 inRest (Nat.lt_of_succ_lt_succ few) with ⟨kept, same⟩
            refine ⟨List.mem_cons_of_mem _ kept, ?_⟩
            rw [newer_cons_of_ne isValue, newer_cons_of_ne isValue, same]

theorem nodup_front (nodup : list.Nodup) (value : Value) : (value :: list.erase value).Nodup :=
  List.nodup_cons.mpr ⟨List.Nodup.not_mem_erase nodup, nodup.erase value⟩

theorem insert_erase_same (values : Finset Value) (value : Value) :
    insert value (values.erase value) = insert value values := by
  ext other
  simp only [Finset.mem_insert, Finset.mem_erase]
  tauto

/-- The list follows the history over a use. -/
theorem Follows.use (follows : Follows capacity list history) (nodup : list.Nodup) (value : Value) :
    Follows capacity (use capacity list value) (value :: history) := by
  intro other member few
  by_cases same : value = other
  · subst same
    have few : (newer (value :: list.erase value) value).card < capacity := by
      rw [newer_cons_self] at few ⊢
      exact few
    rcases mem_take (nodup_front nodup value) List.mem_cons_self few with ⟨kept, front⟩
    exact ⟨kept, front.trans (by rw [newer_cons_self, newer_cons_self])⟩
  · have inHistory : other ∈ history := (List.mem_cons.mp member).resolve_left (fun isValue => same isValue.symm)
    rw [newer_cons_of_ne same] at few ⊢
    have before : (newer history other).card < capacity :=
      lt_of_le_of_lt (Finset.card_le_card (Finset.subset_insert _ _)) few
    rcases follows other inHistory before with ⟨inList, sameNewer⟩
    have front : newer (value :: list.erase value) other = insert value (newer history other) := by
      rw [newer_cons_of_ne same, newer_erase nodup same, sameNewer, insert_erase_same]
    have isThere : other ∈ value :: list.erase value :=
      List.mem_cons_of_mem _ ((List.mem_erase_of_ne (fun isValue => same isValue.symm)).mpr inList)
    rcases mem_take (nodup_front nodup value) isThere (by rw [front]; exact few) with ⟨kept, keptNewer⟩
    exact ⟨kept, keptNewer.trans front⟩

end Recency

end Lib
end Spice
