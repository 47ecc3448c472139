import Spice.Lib.Numbers
import Mathlib.Algebra.BigOperators.Group.List.Basic
import Mathlib.Data.List.Nodup
import Mathlib.Logic.Function.Basic

namespace Spice
namespace Lib

/-!
# A hash table whose nodes are also in a ring

A cache keeps every node twice: in the chain of its hash key, and in a ring
ordered by use.  The operations change both; what has to be kept is that the
two hold the same nodes.
-/

/-- The chains and the ring.  The node used last is first in the ring. -/
structure HashRing (Node : Type) where
  table : Nat -> List Node
  ring : List Node

namespace HashRing

variable {Node : Type}

def empty : HashRing Node where
  table := fun _ => []
  ring := []

/-- Walk along a chain to a node and take it out; nothing if the chain ends first. -/
def unchain [DecidableEq Node] (node : Node) : List Node -> Option (List Node)
  | [] => none
  | first :: rest => if first = node then some rest else (unchain node rest).map (fun others => first :: others)

/-- Put a new node first in its chain and in the ring. -/
def insert (links : HashRing Node) (key : Nat) (node : Node) : HashRing Node where
  table := Function.update links.table key (node :: links.table key)
  ring := node :: links.ring

/-- Move a node to the front of the ring. -/
def touch [DecidableEq Node] (links : HashRing Node) (node : Node) : HashRing Node :=
  { links with ring := node :: links.ring.erase node }

/-- Take a node out of its chain and of the ring. -/
def unlink [DecidableEq Node] (links : HashRing Node) (key : Nat) (node : Node) : Option (HashRing Node) :=
  (unchain node (links.table key)).map (fun chain =>
    { table := Function.update links.table key chain, ring := links.ring.erase node })

/-- The sizes of some nodes. -/
def total (size : Node -> Nat) (nodes : List Node) : Int := (nodes.map (fun node => (size node : Int))).sum

/-- The chains and the ring hold the same nodes, each once. -/
structure Agree (keyOf : Node -> Nat) (links : HashRing Node) : Prop where
  ring : links.ring.Nodup
  chain : forall key, (links.table key).Nodup
  members : forall key node, node ∈ links.table key <-> node ∈ links.ring ∧ keyOf node = key

theorem unchain_eq [DecidableEq Node] {node : Node} {chain : List Node} (member : node ∈ chain) :
    unchain node chain = some (chain.erase node) := by
  induction chain with
  | nil => cases member
  | cons first rest ih =>
      unfold unchain
      by_cases same : first = node
      · rw [if_pos same, same, List.erase_cons_head]
      · have inRest : node ∈ rest := (List.mem_cons.mp member).resolve_left (fun isFirst => same isFirst.symm)
        have other : (first == node) = false := beq_false_of_ne same
        rw [if_neg same, ih inRest, List.erase_cons_tail (by simp [other])]
        rfl

section Total

variable (size : Node -> Nat)

theorem total_nil : total size [] = 0 := rfl

theorem total_cons (node : Node) (nodes : List Node) : total size (node :: nodes) = size node + total size nodes := by
  simp [total]

theorem total_append (front back : List Node) : total size (front ++ back) = total size front + total size back := by
  simp [total]

theorem total_perm {nodes others : List Node} (perm : nodes.Perm others) : total size nodes = total size others :=
  (perm.map _).sum_eq

theorem total_nonneg (nodes : List Node) : 0 ≤ total size nodes := by
  induction nodes with
  | nil => exact Int.le_refl 0
  | cons node rest ih =>
      rw [total_cons]
      omega

end Total

namespace Agree

variable {keyOf : Node -> Nat} {links : HashRing Node} {node : Node}

theorem empty : Agree keyOf (HashRing.empty : HashRing Node) where
  ring := List.nodup_nil
  chain := fun _ => List.nodup_nil
  members := by
    intro key node
    constructor
    · intro member
      cases member
    · rintro ⟨member, -⟩
      cases member

/-- A node is inserted in its chain, and in front of the ring. -/
theorem insert (agree : Agree keyOf links) (isNew : node ∉ links.ring) :
    Agree keyOf (links.insert (keyOf node) node) := by
  have notChained : node ∉ links.table (keyOf node) := fun member => isNew ((agree.members _ node).mp member).1
  refine ⟨List.nodup_cons.mpr ⟨isNew, agree.ring⟩, ?_, ?_⟩
  · intro key
    simp only [HashRing.insert]
    by_cases same : key = keyOf node
    · subst same
      rw [Function.update_self]
      exact List.nodup_cons.mpr ⟨notChained, agree.chain _⟩
    · rw [Function.update_of_ne same]
      exact agree.chain key
  · intro key other
    simp only [HashRing.insert, List.mem_cons]
    by_cases same : key = keyOf node
    · subst same
      rw [Function.update_self, List.mem_cons, agree.members]
      constructor
      · rintro (rfl | found)
        · exact ⟨Or.inl rfl, rfl⟩
        · exact ⟨Or.inr found.1, found.2⟩
      · rintro ⟨rfl | found, isKey⟩
        · exact Or.inl rfl
        · exact Or.inr ⟨found, isKey⟩
    · rw [Function.update_of_ne same, agree.members]
      constructor
      · exact fun found => ⟨Or.inr found.1, found.2⟩
      · rintro ⟨rfl | found, isKey⟩
        · exact absurd isKey.symm same
        · exact ⟨found, isKey⟩

variable [DecidableEq Node]

theorem perm_touch (member : node ∈ links.ring) : (links.touch node).ring.Perm links.ring :=
  (List.perm_cons_erase member).symm

theorem touch (agree : Agree keyOf links) (member : node ∈ links.ring) : Agree keyOf (links.touch node) where
  ring := (perm_touch member).nodup_iff.mpr agree.ring
  chain := agree.chain
  members := by
    intro key other
    rw [(perm_touch member).mem_iff]
    exact agree.members key other

/-- A node of the ring is found in its chain. -/
theorem unlink (agree : Agree keyOf links) (member : node ∈ links.ring) :
    Exists fun next => links.unlink (keyOf node) node = some next ∧ next.ring = links.ring.erase node ∧
      Agree keyOf next := by
  have chained : node ∈ links.table (keyOf node) := (agree.members _ node).mpr ⟨member, rfl⟩
  refine ⟨{ table := Function.update links.table (keyOf node) ((links.table (keyOf node)).erase node)
            ring := links.ring.erase node }, ?_, rfl, agree.ring.erase node, ?_, ?_⟩
  · rw [HashRing.unlink, unchain_eq chained]
    rfl
  · intro key
    simp only
    by_cases same : key = keyOf node
    · subst same
      rw [Function.update_self]
      exact (agree.chain _).erase node
    · rw [Function.update_of_ne same]
      exact agree.chain key
  · intro key other
    simp only
    rw [agree.ring.mem_erase_iff]
    by_cases same : key = keyOf node
    · subst same
      rw [Function.update_self, (agree.chain _).mem_erase_iff, agree.members]
      exact and_assoc.symm
    · rw [Function.update_of_ne same, agree.members]
      constructor
      · rintro ⟨inRing, isKey⟩
        refine ⟨⟨?_, inRing⟩, isKey⟩
        rintro rfl
        exact same isKey.symm
      · exact fun found => ⟨found.1.2, found.2⟩

theorem erase_last {front : List Node} (agree : Agree keyOf links) (split : links.ring = front ++ [node]) :
    links.ring.erase node = front := by
  have notFront : node ∉ front := by
    have nodup := agree.ring
    rw [split] at nodup
    exact fun inFront => List.disjoint_of_nodup_append nodup inFront List.mem_cons_self
  rw [split, List.erase_append_right _ notFront, List.erase_cons_head, List.append_nil]

end Agree

end HashRing

end Lib
end Spice
