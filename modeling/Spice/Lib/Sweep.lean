import Spice.Lib.Numbers
import Mathlib.Data.List.Perm.Subperm
import Mathlib.Data.List.Nodup

namespace Spice
namespace Lib

/-!
# Sweeping a list for what depends on earlier items

A sweep goes through a list once, with some areas to start from.  An item that depends on
one of them is marked, and its own area is added to them for the items after it.  The items
that are marked are exactly those that are reached from the areas at the start along
dependencies of later items on earlier ones.
-/

universe u v

variable {Item : Type u} {Area : Type v} (depends : Item -> Area -> Bool) (areaOf : Item -> Area)

/-- The places that a sweep marks, counted from `start` on. -/
def marked (areas : List Area) (start : Nat) : List Item -> List Nat
  | [] => []
  | item :: rest =>
      if areas.any (depends item) then start :: marked (areas ++ [areaOf item]) (start + 1) rest
      else marked areas (start + 1) rest

/-- A place is reached when its item depends on an area of the start, or on that of an earlier place that is reached. -/
inductive Reached (areas : List Area) (items : List Item) : Nat -> Prop
  | first {index : Nat} {item : Item} {area : Area} (isItem : items[index]? = some item) (member : area ∈ areas)
      (isDependent : depends item area = true) : Reached areas items index
  | later {older index : Nat} {source item : Item} (before : older < index) (reached : Reached areas items older)
      (isSource : items[older]? = some source) (isItem : items[index]? = some item)
      (isDependent : depends item (areaOf source) = true) : Reached areas items index

def ReachesAtMost (areas : List Area) (items : List Item) (count : Nat) : Prop :=
  forall indices : List Nat, indices.Nodup ->
    (forall index, index ∈ indices -> Reached depends areaOf areas items index) ->
    indices.length ≤ count

variable {depends areaOf}

theorem reached_zero {areas : List Area} {item : Item} {rest : List Item} :
    Reached depends areaOf areas (item :: rest) 0 <-> areas.any (depends item) = true := by
  rw [List.any_eq_true]
  constructor
  · intro reached
    cases reached with
    | first isItem member isDependent =>
        cases isItem
        exact ⟨_, member, isDependent⟩
    | later before => exact absurd before (Nat.not_lt_zero _)
  · rintro ⟨area, member, isDependent⟩
    exact Reached.first rfl member isDependent

/-- The items behind the first see its area with the others. -/
theorem reached_succ {areas : List Area} {item : Item} {rest : List Item} {index : Nat} :
    Reached depends areaOf areas (item :: rest) (index + 1) <->
      Reached depends areaOf (if areas.any (depends item) then areas ++ [areaOf item] else areas) rest index := by
  constructor
  · intro reached
    generalize isPlace : index + 1 = place at reached
    induction reached generalizing index with
    | first isItem member isDependent =>
        rw [<- isPlace, List.getElem?_cons_succ] at isItem
        refine Reached.first isItem ?_ isDependent
        split
        · exact List.mem_append_left _ member
        · exact member
    | @later older place source other before reached isSource isItem isDependent ih =>
        rw [<- isPlace, List.getElem?_cons_succ] at isItem
        cases older with
        | zero =>
            cases isSource
            have isMarked := reached_zero.mp reached
            rw [if_pos isMarked]
            exact Reached.first isItem (List.mem_append_right _ List.mem_cons_self) isDependent
        | succ older =>
            rw [List.getElem?_cons_succ] at isSource
            exact Reached.later (by omega) (ih rfl) isSource isItem isDependent
  · intro reached
    induction reached with
    | first isItem member isDependent =>
        split at member
        · rename_i isMarked
          rcases List.mem_append.mp member with inAreas | isOwn
          · exact Reached.first isItem inAreas isDependent
          · rw [List.mem_singleton.mp isOwn] at isDependent
            exact Reached.later (Nat.succ_pos _) (reached_zero.mpr isMarked) rfl isItem isDependent
        · exact Reached.first isItem member isDependent
    | later before _ isSource isItem isDependent ih =>
        exact Reached.later (Nat.succ_lt_succ before) ih isSource isItem isDependent

theorem reached_nil {areas : List Area} {index : Nat} : ¬ Reached depends areaOf areas [] index := by
  intro reached
  cases reached with
  | first isItem => cases isItem
  | later _ _ _ isItem => cases isItem

/-- The sweep marks what is reached. -/
theorem mem_marked {areas : List Area} {start place : Nat} {items : List Item} :
    place ∈ marked depends areaOf areas start items <->
      Exists fun index => place = start + index ∧ Reached depends areaOf areas items index := by
  induction items generalizing areas start with
  | nil => exact ⟨fun impossible => (by cases impossible), fun ⟨index, _, reached⟩ => absurd reached reached_nil⟩
  | cons item rest ih =>
      have tail : place ∈ marked depends areaOf (if areas.any (depends item) then areas ++ [areaOf item]
          else areas) (start + 1) rest <->
          Exists fun index => place = start + (index + 1) ∧ Reached depends areaOf areas
            (item :: rest) (index + 1) := by
        rw [ih]
        refine exists_congr (fun index => ?_)
        rw [reached_succ, Nat.add_right_comm, Nat.add_assoc]
      unfold marked
      constructor
      · intro member
        split at member
        · rename_i isMarked
          rcases List.mem_cons.mp member with isFirst | inRest
          · exact ⟨0, isFirst, reached_zero.mpr isMarked⟩
          · rw [if_pos isMarked] at tail
            rcases tail.mp inRest with ⟨index, isPlace, reached⟩
            exact ⟨index + 1, isPlace, reached⟩
        · rename_i isMarked
          rw [if_neg isMarked] at tail
          rcases tail.mp member with ⟨index, isPlace, reached⟩
          exact ⟨index + 1, isPlace, reached⟩
      · rintro ⟨index, isPlace, reached⟩
        cases index with
        | zero =>
            rw [if_pos (reached_zero.mp reached), isPlace]
            exact List.mem_cons_self
        | succ index =>
            have inRest := tail.mpr ⟨index, isPlace, reached⟩
            split
            · rename_i isMarked
              rw [if_pos isMarked] at inRest
              exact List.mem_cons_of_mem _ inRest
            · rename_i isMarked
              rw [if_neg isMarked] at inRest
              exact inRest

theorem marked_nodup (areas : List Area) (start : Nat) (items : List Item) :
    (marked depends areaOf areas start items).Nodup := by
  induction items generalizing areas start with
  | nil => exact List.nodup_nil
  | cons item rest ih =>
      unfold marked
      split
      · refine List.nodup_cons.mpr ⟨fun member => ?_, ih _ _⟩
        rcases mem_marked.mp member with ⟨index, impossible, _⟩
        omega
      · exact ih _ _

theorem reachesAtMost_iff {areas : List Area} {items : List Item} {count : Nat} :
    ReachesAtMost depends areaOf areas items count <-> (marked depends areaOf areas 0 items).length ≤ count := by
  constructor
  · intro most
    refine most _ (marked_nodup areas 0 items) (fun index member => ?_)
    rcases mem_marked.mp member with ⟨place, isPlace, reached⟩
    rw [isPlace, Nat.zero_add]
    exact reached
  · intro short indices distinct reached
    have inMarked : indices ⊆ marked depends areaOf areas 0 items := fun index member =>
      mem_marked.mpr ⟨index, (Nat.zero_add _).symm, reached index member⟩
    exact Nat.le_trans (List.subperm_of_subset distinct inMarked).length_le short

end Lib
end Spice
