import Spice.Lib.Numbers
import Mathlib.Data.List.Basic

namespace Spice
namespace Lib

/-!
# Moves in place

A memory is changed region by region: every place of a region gets the value of its
source.  If no region has the source of a place that comes later, this is one move of all
regions at once.  The regions may stand in an order that goes back in every run of equal
keys.
-/

universe u v

variable {Place : Type u} {Value : Type v}

/-- Every place of a region gets the value of its source. -/
def moveOn (source : Place -> Place) (memory : Place -> Value) (region : Place -> Bool) : Place -> Value :=
  fun place => if region place then memory (source place) else memory place

/-- The first region has no source of a place of the second. -/
def Spares (source : Place -> Place) (first second : Place -> Bool) : Prop :=
  forall place, second place = true -> first (source place) = false

/-- Moves that spare each other's sources act as one. -/
theorem foldl_moveOn {source : Place -> Place} :
    forall {regions : List (Place -> Bool)} (memory : Place -> Value), regions.Pairwise (Spares source) ->
      regions.foldl (moveOn source) memory =
        moveOn source memory (fun place => regions.any (fun region => region place)) := by
  intro regions
  induction regions with
  | nil => exact fun memory _ => rfl
  | cons region rest ih =>
      intro memory spares
      rcases List.pairwise_cons.mp spares with ⟨first, later⟩
      rw [List.foldl_cons, ih _ later]
      funext place
      unfold moveOn
      simp only [List.any_cons, Bool.or_eq_true]
      by_cases inRest : rest.any (fun region => region place) = true
      · rcases List.any_eq_true.mp inRest with ⟨other, member, has⟩
        rw [if_pos inRest, if_pos (Or.inr inRest), if_neg (ne_true_of_eq_false (first other member place has))]
      · rw [if_neg inRest]
        simp only [inRest, Bool.false_eq_true, or_false]

section Runs

variable {Item : Type u} (key : Item -> Int)

/-- A run with a key so far, its last item first, and what comes after it. -/
def reverseRunsFrom (value : Int) (run : List Item) : List Item -> List Item
  | [] => run
  | item :: rest =>
      if key item = value then reverseRunsFrom value (item :: run) rest
      else run ++ reverseRunsFrom (key item) [item] rest

/-- Every run of items with equal keys is turned around. -/
def reverseRuns : List Item -> List Item
  | [] => []
  | item :: rest => reverseRunsFrom key (key item) [item] rest

theorem mem_reverseRunsFrom {item : Item} : forall {rest run : List Item} {value : Int},
    item ∈ reverseRunsFrom key value run rest <-> item ∈ run ∨ item ∈ rest := by
  intro rest
  induction rest with
  | nil =>
      intro run value
      simp [reverseRunsFrom]
  | cons first rest ih =>
      intro run value
      unfold reverseRunsFrom
      split
      · rw [ih, List.mem_cons, List.mem_cons]
        tauto
      · rw [List.mem_append, ih, List.mem_singleton, List.mem_cons]

theorem mem_reverseRuns {item : Item} {items : List Item} : item ∈ reverseRuns key items <-> item ∈ items := by
  cases items with
  | nil => exact Iff.rfl
  | cons first rest => rw [reverseRuns, mem_reverseRunsFrom, List.mem_singleton, List.mem_cons]

variable {order : Item -> Item -> Prop}

/-- The items of a run stand in the opposite order, and those of different runs in the same. -/
theorem pairwise_reverseRunsFrom
    (apart : forall first second third, order first second -> order second third -> key first ≠ key second ->
      key first ≠ key third) :
    forall {rest run : List Item} {value : Int}, (forall item, item ∈ run -> key item = value) ->
      (run.reverse ++ rest).Pairwise order -> (reverseRunsFrom key value run rest).Pairwise (fun first second =>
          if key first = key second then order second first else order first second) := by
  intro rest
  induction rest with
  | nil =>
      intro run value same ordered
      rw [List.append_nil, List.pairwise_reverse] at ordered
      refine ordered.imp_of_mem (fun {first second} isFirst isSecond before => ?_)
      rw [if_pos ((same first isFirst).trans (same second isSecond).symm)]
      exact before
  | cons item rest ih =>
      intro run value same ordered
      unfold reverseRunsFrom
      split
      · next isSame =>
        refine ih ?_ (by simpa using ordered)
        intro other member
        rcases List.mem_cons.mp member with rfl | inRun
        · exact isSame
        · exact same other inRun
      · next differs =>
        rcases List.pairwise_append.mp ordered with ⟨inRun, later, across⟩
        refine List.pairwise_append.mpr ⟨?_, ?_, ?_⟩
        · refine (List.pairwise_reverse.mp inRun).imp_of_mem (fun {first second} isFirst isSecond before => ?_)
          rw [if_pos ((same first isFirst).trans (same second isSecond).symm)]
          exact before
        · exact ih (fun other member => by rw [List.mem_singleton.mp member]) later
        · intro first isFirst second isSecond
          rw [mem_reverseRunsFrom, List.mem_singleton, <- List.mem_cons] at isSecond
          have before := across first (List.mem_reverse.mpr isFirst)
          have isKey : key first ≠ key item := fun equal => differs (equal.symm.trans (same first isFirst))
          have notSame : key first ≠ key second := by
            rcases List.mem_cons.mp isSecond with rfl | inRest
            · exact isKey
            · exact apart first item second (before item List.mem_cons_self)
                ((List.pairwise_cons.mp later).1 second inRest) isKey
          rw [if_neg notSame]
          exact before second isSecond

theorem pairwise_reverseRuns
    (apart : forall first second third, order first second -> order second third -> key first ≠ key second ->
      key first ≠ key third)
    {items : List Item} (ordered : items.Pairwise order) : (reverseRuns key items).Pairwise (fun first second =>
      if key first = key second then order second first else order first second) := by
  cases items with
  | nil => exact List.Pairwise.nil
  | cons item rest =>
      exact pairwise_reverseRunsFrom key apart (fun other member => by rw [List.mem_singleton.mp member]) ordered

end Runs

end Lib
end Spice
