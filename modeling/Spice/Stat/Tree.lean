import Spice.Lib.Run
import Mathlib.Data.Finset.Card
import Mathlib.Data.Finset.Range
import Mathlib.Data.List.Lex
import Mathlib.Data.List.Perm.Subperm
import Mathlib.Logic.Function.Basic
import Mathlib.Order.Basic

namespace Spice
namespace Stat

open Lib

/-!
# The tree of statistics

The nodes live in an array of fixed size.  A node refers to its first child and to its
next sibling by index, and siblings are sorted by name.  A removal only takes the flag
that the node is enabled: the node stays where it is linked, until its slot is given to a
new node, which is then linked once more.

A step that returns nothing is a failed assertion, an access outside of the array or a
loop without an end: a search that has made more rounds than there are slots has come to
one of them twice.
-/

def maxStatNodes : Nat := 100

def nameMax : Nat := 20

/-- The characters of a name; `strcmp` is their lexicographic order. -/
abbrev Name := List Nat

/-- A `StatNodeRef`; `none` is `INVALID_STAT_REF`. -/
abbrev StatNodeRef := Option Nat

/-- `SpiceStatNode`, with its flags. -/
structure SpiceStatNode where
  value : Nat
  enabled : Bool
  visible : Bool
  counter : Bool
  nextSiblingIndex : StatNodeRef
  firstChildIndex : StatNodeRef
  name : Name

structure SpiceStat where
  generation : UInt32
  numOfNodes : UInt32
  rootIndex : StatNodeRef
  nodes : Nat -> SpiceStatNode

namespace SpiceStat

/-- After `memset` and the root. -/
def init : SpiceStat := ⟨0, 0, none, fun _ => ⟨0, false, false, false, some 0, some 0, []⟩⟩

variable (stat : SpiceStat)

/-- An access to the array. -/
def node (ref : Nat) : Option SpiceStatNode := if ref < maxStatNodes then some (stat.nodes ref) else none

def setNode (ref : Nat) (change : SpiceStatNode -> SpiceStatNode) : SpiceStat :=
  { stat with nodes := Function.update stat.nodes ref (change (stat.nodes ref)) }

/-- Where the children of a parent begin. -/
def head : StatNodeRef -> Option StatNodeRef
  | none => some stat.rootIndex
  | some parent => (stat.node parent).map SpiceStatNode.firstChildIndex

def setHead (ref : Nat) : StatNodeRef -> SpiceStat
  | none => { stat with rootIndex := some ref }
  | some parent => stat.setNode parent fun node => { node with firstChildIndex := some ref }

/-- The search of `stat_add_node`. -/
def findNode (name : Name) : Nat -> StatNodeRef -> Option StatNodeRef
  | _, none => some none
  | 0, some _ => none
  | rounds + 1, some ref => (stat.node ref).bind fun node =>
      if name ≠ node.name then findNode name rounds node.nextSiblingIndex else some (some ref)

/-- The search of `insert_stat_node`, with `pos`. -/
def findPlace (name : Name) : Nat -> StatNodeRef -> StatNodeRef -> Option StatNodeRef
  | _, pos, none => some pos
  | 0, _, some _ => none
  | rounds + 1, pos, some index => (stat.node index).bind fun node =>
      if node.name < name then findPlace name rounds (some index) node.nextSiblingIndex else some pos

def insertStatNode (parent : StatNodeRef) (ref : Nat) : Option SpiceStat :=
  let stat := stat.setNode ref fun node => { node with firstChildIndex := none }
  (stat.head parent).bind fun first =>
    (stat.findPlace (stat.nodes ref).name (maxStatNodes + 1) none first).map fun pos =>
    match pos with
    | none => (stat.setNode ref fun node => { node with nextSiblingIndex := first }).setHead ref parent
    | some pos =>
        (stat.setNode ref fun node => { node with nextSiblingIndex := (stat.nodes pos).nextSiblingIndex }).setNode pos
        fun node => { node with nextSiblingIndex := some ref }

/-- The first slot that is not enabled; behind the last one the loop leaves the array. -/
def freeSlot : Option Nat := (List.range maxStatNodes).find? fun ref => !(stat.nodes ref).enabled

def statAddNode (parent : StatNodeRef) (name : Name) (visible : Bool) : Option (SpiceStat × StatNodeRef) :=
  if name = [] then none
  else if nameMax ≤ name.length then some (stat, none)
  else (stat.head parent).bind fun first => (stat.findNode name (maxStatNodes + 1) first).bind fun found =>
    if found.isSome then some (stat, found)
    else if maxStatNodes ≤ stat.numOfNodes.toNat then some (stat, none)
    else
      let stat := { stat with generation := stat.generation + 1, numOfNodes := stat.numOfNodes + 1 }
      stat.freeSlot.bind fun ref =>
        ((stat.setNode ref fun node =>
          { node with value := 0, enabled := true, visible := visible, counter := false, name := name }).insertStatNode
            parent ref).map fun stat => (stat, some ref)

def statRemove (ref : Nat) : Option SpiceStat :=
  if ref < maxStatNodes then
    let stat := stat.setNode ref fun node => { node with enabled := false }
    some { stat with generation := stat.generation + 1, numOfNodes := stat.numOfNodes - 1 }
  else none

/-- `stat_add_counter`; a counter is given by its node. -/
def statAddCounter (parent : StatNodeRef) (name : Name) (visible : Bool) : Option (SpiceStat × StatNodeRef) :=
  (stat.statAddNode parent name visible).map fun (stat, ref) =>
    (ref.elim stat fun ref => stat.setNode ref fun node => { node with counter := true }, ref)

end SpiceStat

/-- The calls; a counter is removed through its node. -/
inductive Op
  | addNode (parent : StatNodeRef) (name : Name) (visible : Bool)
  | addCounter (parent : StatNodeRef) (name : Name) (visible : Bool)
  | removeNode (ref : Nat)
  | removeCounter (ref : Nat)

/-- The statistics, and which parent each slot was last taken for. -/
structure Tree where
  stat : SpiceStat
  parents : Nat -> StatNodeRef

namespace Tree

def init : Tree := ⟨.init, fun _ => none⟩

variable (tree : Tree)

/-- A slot that was not enabled and is returned now belongs to this parent. -/
def added (parent : StatNodeRef) (result : SpiceStat × StatNodeRef) : Tree where
  stat := result.1
  parents := result.2.elim tree.parents fun ref =>
    if (tree.stat.nodes ref).enabled then tree.parents else Function.update tree.parents ref parent

def step : Op -> Option Tree
  | .addNode parent name visible => (tree.stat.statAddNode parent name visible).map (tree.added parent)
  | .addCounter parent name visible => (tree.stat.statAddCounter parent name visible).map (tree.added parent)
  | .removeNode ref => (tree.stat.statRemove ref).map fun stat => { tree with stat := stat }
  | .removeCounter ref => (tree.stat.statRemove ref).map fun stat => { tree with stat := stat }

/-! ## What is asked for -/

/-- From an index on, the siblings are these nodes and no other. -/
def Linked (nodes : Nat -> SpiceStatNode) : StatNodeRef -> List Nat -> Prop
  | start, [] => start = none
  | start, ref :: rest => start = some ref ∧ Linked nodes (nodes ref).nextSiblingIndex rest

/-- The root, or an enabled node. -/
def Holds (parent : StatNodeRef) : Prop :=
  forall ref, parent = some ref -> ref < maxStatNodes ∧ (tree.stat.nodes ref).enabled = true

/-- The sibling list of a parent: finite, sorted, and just its enabled nodes. -/
structure Listed (parent : StatNodeRef) (refs : List Nat) : Prop where
  linked : forall first, tree.stat.head parent = some first -> Linked tree.stat.nodes first refs
  sorted : refs.Pairwise fun one other => (tree.stat.nodes one).name < (tree.stat.nodes other).name
  members : forall ref, ref ∈ refs <-> (ref < maxStatNodes ∧ (tree.stat.nodes ref).enabled = true) ∧
    tree.parents ref = parent

structure Sound : Prop where
  lists : forall parent, tree.Holds parent -> Exists fun refs => tree.Listed parent refs
  owned : forall ref, ref < maxStatNodes -> (tree.stat.nodes ref).enabled = true -> tree.Holds (tree.parents ref)
  rooted : Exists fun depth : Nat -> Nat => forall ref, ref < maxStatNodes -> (tree.stat.nodes ref).enabled = true ->
    forall parent, tree.parents ref = some parent -> depth parent < depth ref
  counted : tree.stat.numOfNodes.toNat =
    ((Finset.range maxStatNodes).filter fun ref => (tree.stat.nodes ref).enabled = true).card

/-- A node is added to the root or to an enabled node, and nothing is removed. -/
def Kept : Op -> Prop
  | .addNode parent name _ => name ≠ [] ∧ tree.Holds parent
  | .addCounter parent name _ => name ≠ [] ∧ tree.Holds parent
  | .removeNode _ => False
  | .removeCounter _ => False

/-! ## The searches -/

variable {tree}

theorem node_of_lt {stat : SpiceStat} {ref : Nat} (inside : ref < maxStatNodes) :
    stat.node ref = some (stat.nodes ref) := if_pos inside

/-- A node is found among the siblings. -/
theorem findNode_of_linked {stat : SpiceStat} (name : Name) : forall {refs : List Nat} {rounds : Nat}
    {start : StatNodeRef},
    Linked stat.nodes start refs -> refs.length ≤ rounds -> (forall ref, ref ∈ refs -> ref < maxStatNodes) ->
      stat.findNode name rounds start = some (refs.find? fun ref => name = (stat.nodes ref).name) := by
  intro refs
  induction refs with
  | nil =>
      intro rounds start linked _ _
      rw [show start = none from linked]
      cases rounds <;> rfl
  | cons ref rest ih =>
      intro rounds start linked fits inside
      rcases rounds with _ | rounds
      · exact absurd fits (Nat.not_succ_le_zero _)
      · rw [linked.1, SpiceStat.findNode, node_of_lt (inside ref List.mem_cons_self), Option.bind_some, List.find?_cons]
        by_cases same : name = (stat.nodes ref).name
        · rw [if_neg (not_not_intro same), decide_eq_true same]
        · rw [if_pos same, decide_eq_false same]
          exact ih linked.2 (Nat.le_of_succ_le_succ fits) fun ref member => inside ref (List.mem_cons_of_mem _ member)

/-- The place of a name: behind the last node before it. -/
theorem findPlace_of_linked {stat : SpiceStat} (name : Name) : forall {refs : List Nat} {rounds : Nat}
    {start pos : StatNodeRef},
    Linked stat.nodes start refs -> refs.length ≤ rounds -> (forall ref, ref ∈ refs -> ref < maxStatNodes) ->
      Exists fun before => Exists fun after => refs = before ++ after ∧
        (forall ref, ref ∈ before -> (stat.nodes ref).name < name) ∧
        (forall ref, ref ∈ after.head? -> ¬ (stat.nodes ref).name < name) ∧
        stat.findPlace name rounds pos start = some (before.getLast?.or pos) := by
  intro refs
  induction refs with
  | nil =>
      intro rounds start pos linked _ _
      refine ⟨[], [], rfl, fun _ member => absurd member List.not_mem_nil, fun _ none => (nomatch none), ?_⟩
      rw [show start = none from linked]
      cases rounds <;> rfl
  | cons ref rest ih =>
      intro rounds start pos linked fits inside
      rcases rounds with _ | rounds
      · exact absurd fits (Nat.not_succ_le_zero _)
      · rw [linked.1, SpiceStat.findPlace, node_of_lt (inside ref List.mem_cons_self), Option.bind_some]
        by_cases less : (stat.nodes ref).name < name
        · have below := Nat.le_of_succ_le_succ fits
          rcases @ih rounds _ (some ref) linked.2 below fun ref member => inside ref (List.mem_cons_of_mem _ member)
            with ⟨before, after, split, small, large, found⟩
          refine ⟨ref :: before, after, by rw [split, List.cons_append], ?_, large, ?_⟩
          · rintro other member
            rcases List.mem_cons.mp member with rfl | member
            · exact less
            · exact small other member
          · rw [if_pos less, found, List.getLast?_cons]
            cases before.getLast? <;> rfl
        · refine ⟨[], ref :: rest, rfl, fun _ member => absurd member List.not_mem_nil, fun other isHead => ?_, ?_⟩
          · rw [← Option.some.inj isHead]
            exact less
          · rw [if_neg less]
            rfl

/-! ## The siblings -/

theorem Linked.congr {nodes other : Nat -> SpiceStatNode} : forall {refs : List Nat} {start : StatNodeRef},
    Linked nodes start refs -> (forall ref, ref ∈ refs ->
      (other ref).nextSiblingIndex = (nodes ref).nextSiblingIndex) ->
      Linked other start refs := by
  intro refs
  induction refs with
  | nil => exact fun linked _ => linked
  | cons ref rest ih =>
      intro start linked same
      refine ⟨linked.1, ?_⟩
      rw [same ref List.mem_cons_self]
      exact ih linked.2 fun other member => same other (List.mem_cons_of_mem _ member)

theorem Linked.unique {nodes : Nat -> SpiceStatNode} : forall {refs others : List Nat} {start : StatNodeRef},
    Linked nodes start refs -> Linked nodes start others -> refs = others := by
  intro refs
  induction refs with
  | nil =>
      rintro (_ | ⟨other, rest⟩) start linked linkedOther
      · rfl
      · exact nomatch (show start = none from linked).symm.trans linkedOther.1
  | cons ref rest ih =>
      rintro (_ | ⟨other, others⟩) start linked linkedOther
      · exact nomatch (show start = none from linkedOther).symm.trans linked.1
      · have same : ref = other := Option.some.inj (linked.1.symm.trans linkedOther.1)
        subst same
        rw [ih linked.2 linkedOther.2]

/-- A node is linked in behind the ones before it. -/
theorem Linked.insert {nodes other : Nat -> SpiceStatNode} {ref : Nat} : forall {before after : List Nat}
    {start : StatNodeRef},
    Linked nodes start (before ++ after) -> (before ++ after).Nodup -> ref ∉ before ->
      (forall pos, pos ∈ before.getLast? -> (other pos).nextSiblingIndex = some ref ∧
        (other ref).nextSiblingIndex = (nodes pos).nextSiblingIndex) ->
          (before = [] -> (other ref).nextSiblingIndex = start) ->
      (forall old, old ∈ before ++ after -> old ≠ before.getLast?.getD ref ->
        (other old).nextSiblingIndex = (nodes old).nextSiblingIndex) ->
      (ref ∉ after) -> Linked other (if before = [] then some ref else start) (before ++ ref :: after) := by
  intro before
  induction before with
  | nil =>
      intro after start linked nodup _ _ isHead same fresh
      rw [if_pos rfl]
      refine ⟨rfl, ?_⟩
      rw [isHead rfl]
      exact linked.congr fun old member => same old member fun isRef =>
        fresh (show ref ∈ after from (show old = ref from isRef) ▸ member)
  | cons first rest ih =>
      intro after start linked nodup notBefore isLast _ same fresh
      rw [if_neg (List.cons_ne_nil _ _)]
      refine ⟨linked.1, ?_⟩
      rcases rest with _ | ⟨second, rest⟩
      · rcases isLast first rfl with ⟨toRef, onward⟩
        rw [toRef]
        refine ⟨rfl, ?_⟩
        rw [onward]
        exact linked.2.congr fun old member => same old (List.mem_cons_of_mem _ member) fun isLast =>
          (List.nodup_cons.mp nodup).1 (show first ∈ after from (show old = first from isLast) ▸ member)
      · have last : (first :: second :: rest).getLast? = (second :: rest).getLast? := by
          rw [List.getLast?_cons, List.getLast?_cons, Option.getD_some]
        have others := ih linked.2 (List.nodup_cons.mp nodup).2
            (fun member => notBefore (List.mem_cons_of_mem _ member))
          (fun pos isPos => isLast pos (last ▸ isPos)) (fun nil => nomatch nil)
          (fun old member other => same old (List.mem_cons_of_mem _ member) (last ▸ other)) fresh
        rw [if_neg (List.cons_ne_nil _ _)] at others
        rw [same first List.mem_cons_self ?_]
        · exact others
        · rw [last]
          intro isLast
          refine (List.nodup_cons.mp nodup).1 (List.mem_append_left _ ?_)
          rw [isLast, List.getLast?_cons, Option.getD_some]
          exact List.mem_of_getLast? (by rw [List.getLast?_cons])

variable {parent : StatNodeRef}

theorem Listed.nodup {refs : List Nat} (listed : tree.Listed parent refs) : refs.Nodup :=
  listed.sorted.imp fun {one other} less (same : one = other) => lt_irrefl (tree.stat.nodes one).name (same ▸ less)

theorem Listed.inside {refs : List Nat} (listed : tree.Listed parent refs) {ref : Nat} (member : ref ∈ refs) :
    ref < maxStatNodes := ((listed.members ref).mp member).1.1

theorem Listed.length_le {refs : List Nat} (listed : tree.Listed parent refs) : refs.length ≤ maxStatNodes := by
  have within : refs ⊆ List.range maxStatNodes := fun ref member => List.mem_range.mpr (listed.inside member)
  have fits := (List.subperm_of_subset listed.nodup within).length_le
  rwa [List.length_range] at fits

theorem Holds.head (holds : tree.Holds parent) : Exists fun first => tree.stat.head parent = some first := by
  cases parent with
  | none => exact ⟨_, rfl⟩
  | some parent => exact ⟨_, by rw [SpiceStat.head, node_of_lt (holds parent rfl).1, Option.map_some]⟩

/-! ## A node is added -/

/-- What becomes of the array when a node is linked in behind the ones before it. -/
structure Inserted (stat next : SpiceStat) (parent : StatNodeRef) (ref : Nat) (name : Name)
    (before : List Nat) : Prop where
  num : next.numOfNodes = stat.numOfNodes + 1
  self : (next.nodes ref).enabled = true ∧ (next.nodes ref).name = name ∧ (next.nodes ref).firstChildIndex = none
  others : forall old, old ≠ ref -> (next.nodes old).enabled = (stat.nodes old).enabled ∧
    (next.nodes old).name = (stat.nodes old).name
  nexts : forall old, old ≠ ref -> old ∉ before.getLast? ->
    (next.nodes old).nextSiblingIndex = (stat.nodes old).nextSiblingIndex
  last : forall pos, pos ∈ before.getLast? -> (next.nodes pos).nextSiblingIndex = some ref ∧
    (next.nodes ref).nextSiblingIndex = (stat.nodes pos).nextSiblingIndex
  first : before = [] -> stat.head parent = some (next.nodes ref).nextSiblingIndex
  head : forall start, stat.head parent = some start ->
    next.head parent = some (if before = [] then some ref else start)
  heads : forall other, other ≠ parent -> other ≠ some ref -> next.head other = stat.head other

theorem head_congr {stat other : SpiceStat} (root : parent = none -> other.rootIndex = stat.rootIndex)
    (first : forall ref, parent = some ref -> (other.nodes ref).firstChildIndex = (stat.nodes ref).firstChildIndex) :
    other.head parent = stat.head parent := by
  cases parent with
  | none => exact congrArg some (root rfl)
  | some parent =>
      by_cases inside : parent < maxStatNodes
      · rw [SpiceStat.head, SpiceStat.head, node_of_lt inside, node_of_lt inside, Option.map_some, Option.map_some,
          first parent rfl]
      · rw [SpiceStat.head, SpiceStat.head, SpiceStat.node, SpiceStat.node, if_neg inside, if_neg inside]

theorem nodes_setNode (stat : SpiceStat) (ref : Nat) (change : SpiceStatNode -> SpiceStatNode) (old : Nat) :
    (stat.setNode ref change).nodes old = if old = ref then change (stat.nodes ref) else stat.nodes old :=
  Function.update_apply _ _ _ _

/-- The slot has been filled, and is in no list. -/
structure Filled (stat mid : SpiceStat) (ref : Nat) (name : Name) : Prop where
  num : mid.numOfNodes = stat.numOfNodes + 1
  root : mid.rootIndex = stat.rootIndex
  self : (mid.nodes ref).enabled = true ∧ (mid.nodes ref).name = name ∧ (mid.nodes ref).firstChildIndex = none
  others : forall old, old ≠ ref -> mid.nodes old = stat.nodes old

variable {stat mid : SpiceStat} {parent : StatNodeRef} {ref : Nat} {name : Name} {start : StatNodeRef}

theorem Filled.head (filled : Filled stat mid ref name) {other : StatNodeRef} (notRef : other ≠ some ref) :
    mid.head other = stat.head other :=
  head_congr (fun _ => filled.root) fun old isOld =>
    congrArg SpiceStatNode.firstChildIndex (filled.others old fun same =>
    notRef (same ▸ isOld))

/-- The node becomes the first sibling. -/
theorem Filled.insertFirst (filled : Filled stat mid ref name) (isHead : stat.head parent = some start)
    (notSelf : parent ≠ some ref) :
    Inserted stat ((mid.setNode ref fun node => { node with nextSiblingIndex := start }).setHead ref parent) parent ref
      name [] := by
  cases parent with
  | none =>
      refine ⟨filled.num, ?_, fun old other => ?_, fun old other _ => ?_, fun _ none => (nomatch none), fun _ => ?_,
        fun _ _ => rfl, ?_⟩
      · simpa [SpiceStat.setHead, nodes_setNode] using filled.self
      · simp [SpiceStat.setHead, nodes_setNode, other, filled.others old other]
      · simp [SpiceStat.setHead, nodes_setNode, other, filled.others old other]
      · simp [SpiceStat.setHead, nodes_setNode, isHead]
      · intro other notRoot notRef
        rw [← filled.head notRef]
        refine head_congr (fun root => absurd root notRoot) fun old isOld => ?_
        have different : old ≠ ref := fun same => notRef (same ▸ isOld)
        simp [SpiceStat.setHead, nodes_setNode, different]
  | some parent =>
      have different : parent ≠ ref := fun same => notSelf (congrArg some same)
      have other' : ref ≠ parent := Ne.symm different
      refine ⟨filled.num, ?_, fun old other => ?_, fun old other _ => ?_, fun _ none => (nomatch none),
        fun _ => ?_, ?_, ?_⟩
      · simpa [SpiceStat.setHead, nodes_setNode, other'] using filled.self
      · by_cases same : old = parent
        · simp [SpiceStat.setHead, nodes_setNode, same, different, filled.others parent different]
        · simp [SpiceStat.setHead, nodes_setNode, same, other, filled.others old other]
      · by_cases same : old = parent
        · simp [SpiceStat.setHead, nodes_setNode, same, different, filled.others parent different]
        · simp [SpiceStat.setHead, nodes_setNode, same, other, filled.others old other]
      · simp [SpiceStat.setHead, nodes_setNode, other', isHead]
      · intro first isFirst
        by_cases inside : parent < maxStatNodes
        · simp [SpiceStat.head, node_of_lt inside, SpiceStat.setHead, nodes_setNode]
        · rw [SpiceStat.head, SpiceStat.node, if_neg inside] at isFirst
          exact nomatch isFirst
      · intro other notParent notRef
        rw [← filled.head notRef]
        refine head_congr (fun _ => rfl) fun old isOld => ?_
        have notRef : old ≠ ref := fun same => notRef (same ▸ isOld)
        have notParent : old ≠ parent := fun same => notParent (same ▸ isOld)
        simp [SpiceStat.setHead, nodes_setNode, notRef, notParent]

/-- The node is put behind a sibling. -/
theorem Filled.insertBehind (filled : Filled stat mid ref name) {pos : Nat} {before : List Nat}
    (isLast : before.getLast? = some pos)
    (different : pos ≠ ref) (notSelf : parent ≠ some ref) :
    Inserted stat ((mid.setNode ref fun node =>
      { node with nextSiblingIndex := (mid.nodes pos).nextSiblingIndex }).setNode pos
      fun node => { node with nextSiblingIndex := some ref }) parent ref name before := by
  have other' : ref ≠ pos := Ne.symm different
  have some_ : before ≠ [] := List.ne_nil_of_mem (List.mem_of_getLast? isLast)
  have heads : forall other, other ≠ some ref -> ((mid.setNode ref fun node => { node with
      nextSiblingIndex := (mid.nodes pos).nextSiblingIndex }).setNode pos fun node => { node with
        nextSiblingIndex := some ref }).head other = stat.head other := by
    intro other notRef
    rw [← filled.head notRef]
    refine head_congr (fun _ => rfl) fun old isOld => ?_
    have notRef : old ≠ ref := fun same => notRef (same ▸ isOld)
    by_cases same : old = pos
    · simp [nodes_setNode, same, different]
    · simp [nodes_setNode, same, notRef]
  refine ⟨filled.num, ?_, fun old other => ?_, fun old other notLast => ?_, ?_, fun empty => absurd empty some_, ?_, ?_⟩
  · simpa [nodes_setNode, other'] using filled.self
  · by_cases same : old = pos
    · simp [nodes_setNode, same, different, filled.others pos different]
    · simp [nodes_setNode, same, other, filled.others old other]
  · have notPos : old ≠ pos := fun same => notLast (same ▸ isLast)
    simp [nodes_setNode, notPos, other, filled.others old other]
  · intro last isPos
    rw [isLast] at isPos
    cases isPos
    simp [nodes_setNode, other', filled.others pos different]
  · intro first isFirst
    rw [if_neg some_, ← isFirst]
    exact heads parent notSelf
  · exact fun other _ notRef => heads other notRef

/-- The node gets its place in the order of names. -/
theorem insertStatNode_of_linked {visible : Bool} {refs : List Nat} (isHead : stat.head parent = some start)
    (notSelf : parent ≠ some ref)
    (linked : Linked stat.nodes start refs) (fits : refs.length ≤ maxStatNodes)
    (inside : forall old, old ∈ refs -> old < maxStatNodes)
    (fresh : ref ∉ refs) : Exists fun next => Exists fun before => Exists fun after => refs = before ++ after ∧
      (forall old, old ∈ before -> (stat.nodes old).name < name) ∧
        (forall old, old ∈ after.head? -> ¬ (stat.nodes old).name < name) ∧
      ({ stat with generation := stat.generation + 1, numOfNodes := stat.numOfNodes + 1 }.setNode ref fun node =>
        { node with value := 0, enabled := true, visible := visible, counter := false, name := name }).insertStatNode
          parent ref =
          some next ∧ Inserted stat next parent ref name before := by
  unfold SpiceStat.insertStatNode
  dsimp only
  generalize isMid : SpiceStat.setNode (SpiceStat.setNode _ ref _) ref _ = mid
  have filled : Filled stat mid ref name := by
    rw [← isMid]
    exact ⟨rfl, rfl, by simp [nodes_setNode], fun old other => by simp [nodes_setNode, other]⟩
  have notRef : forall old, old ∈ refs -> old ≠ ref := fun old member same => fresh (same ▸ member)
  rcases @findPlace_of_linked mid name refs (maxStatNodes + 1) start none (linked.congr fun old member =>
    congrArg SpiceStatNode.nextSiblingIndex (filled.others old (notRef old member))) (Nat.le_succ_of_le fits) inside
    with ⟨before, after, split, small, large, found⟩
  have same : forall old, old ∈ refs -> (stat.nodes old).name = (mid.nodes old).name := fun old member =>
    congrArg SpiceStatNode.name (filled.others old (notRef old member)).symm
  have smaller : forall old, old ∈ before -> (stat.nodes old).name < name := fun old member =>
    same old (split ▸ List.mem_append_left _ member) ▸ small old member
  have larger : forall old, old ∈ after.head? -> ¬ (stat.nodes old).name < name := fun old member =>
    same old (split ▸ List.mem_append_right _ (List.mem_of_mem_head? member)) ▸ large old member
  rw [filled.head notSelf, isHead, Option.bind_some, filled.self.2.1, found, Option.map_some, Option.or_none]
  refine ⟨_, before, after, split, smaller, larger, rfl, ?_⟩
  cases isLast : before.getLast? with
  | none =>
      rw [List.getLast?_eq_none_iff.mp isLast]
      exact filled.insertFirst isHead notSelf
  | some pos =>
      have member : pos ∈ refs := split ▸ List.mem_append_left _ (List.mem_of_getLast? isLast)
      exact filled.insertBehind isLast (notRef pos member) notSelf

/-- A free slot was filled, and its node linked in. -/
theorem Sound.inserted (sound : tree.Sound) (holds : tree.Holds parent) {refs before after : List Nat}
    (listed : tree.Listed parent refs)
    (small : ref < maxStatNodes) (free : (tree.stat.nodes ref).enabled = false)
    (fresh : forall old, old ∈ refs -> name ≠ (tree.stat.nodes old).name)
    (room : tree.stat.numOfNodes.toNat < maxStatNodes) (split : refs = before ++ after)
    (smaller : forall old, old ∈ before -> (tree.stat.nodes old).name < name)
    (larger : forall old, old ∈ after.head? -> ¬ (tree.stat.nodes old).name < name) {next : Tree}
    (inserted : Inserted tree.stat next.stat parent ref name before) (isParent : next.parents ref = parent)
    (parentOld : forall old, old ≠ ref -> next.parents old = tree.parents old) : next.Sound := by
  have notRef : forall {old}, (tree.stat.nodes old).enabled = true -> old ≠ ref := fun enabled same =>
    Bool.false_ne_true (free.symm.trans (same ▸ enabled))
  have notIn : forall {other others}, tree.Listed other others -> ref ∉ others := fun listed member =>
    notRef ((listed.members ref).mp member).1.2 rfl
  have enabledOld : forall {old}, old ≠ ref ->
      ((next.stat.nodes old).enabled = true <-> (tree.stat.nodes old).enabled = true) :=
    fun other => by rw [(inserted.others _ other).1]
  have keeps : forall {other}, tree.Holds other -> next.Holds other := fun holds old isOld =>
    ⟨(holds old isOld).1, (enabledOld (notRef (holds old isOld).2)).mpr (holds old isOld).2⟩
  have notSelf : forall {other}, tree.Holds other -> other ≠ some ref := fun holds same => notRef (holds ref same).2 rfl
  rcases holds.head with ⟨start, isStart⟩
  refine ⟨fun other holdsOther => ?_, fun old isOld enabled => ?_, ?_, ?_⟩
  · by_cases own : other = parent
    · subst own
      refine ⟨before ++ ref :: after, ⟨fun first isFirst => ?_, ?_, fun old => ?_⟩⟩
      · have linked := listed.linked start isStart
        rw [split] at linked
        rw [inserted.head start isStart] at isFirst
        rw [← Option.some.inj isFirst]
        refine linked.insert (split ▸ listed.nodup)
          (fun member => notIn listed (split ▸ List.mem_append_left _ member)) inserted.last
          (fun empty => ?_) (fun old member different => ?_) fun member =>
            notIn listed (split ▸ List.mem_append_right _ member)
        · exact Option.some.inj ((inserted.first empty).symm.trans isStart)
        · rw [← split] at member
          refine inserted.nexts old (fun same => notIn listed (same ▸ member)) fun isLast => different ?_
          rw [Option.mem_def.mp isLast, Option.getD_some]
      · have sorted := listed.sorted
        rw [split, List.pairwise_append] at sorted
        have names : forall old, old ∈ refs -> (next.stat.nodes old).name = (tree.stat.nodes old).name :=
          fun old member =>
          (inserted.others old fun same => notIn listed (same ▸ member)).2
        have namesBefore := fun old (member : old ∈ before) => names old (split ▸ List.mem_append_left _ member)
        have namesAfter := fun old (member : old ∈ after) => names old (split ▸ List.mem_append_right _ member)
        have larger : forall old, old ∈ after -> name < (tree.stat.nodes old).name := by
          intro old member
          rcases after with _ | ⟨first, rest⟩
          · exact absurd member List.not_mem_nil
          · have above : name < (tree.stat.nodes first).name := lt_of_le_of_ne (not_lt.mp (larger first rfl))
              (fresh first (split ▸ List.mem_append_right _ List.mem_cons_self))
            rcases List.mem_cons.mp member with rfl | member
            · exact above
            · exact above.trans ((List.pairwise_cons.mp sorted.2.1).1 old member)
        rw [List.pairwise_append, List.pairwise_cons]
        refine ⟨sorted.1.imp_of_mem fun one other less => ?_,
          ⟨fun old member => ?_, sorted.2.1.imp_of_mem fun one other less => ?_⟩,
          fun one member old isOld => ?_⟩
        · rwa [namesBefore _ one, namesBefore _ other]
        · rw [inserted.self.2.1, namesAfter old member]
          exact larger old member
        · rwa [namesAfter _ one, namesAfter _ other]
        · rcases List.mem_cons.mp isOld with rfl | isOld
          · rw [inserted.self.2.1, namesBefore one member]
            exact smaller one member
          · rw [namesBefore one member, namesAfter old isOld]
            exact sorted.2.2 one member old isOld
      · by_cases same : old = ref
        · rw [same]
          exact iff_of_true (List.mem_append_right _ List.mem_cons_self) ⟨⟨small, inserted.self.1⟩, isParent⟩
        · rw [enabledOld same, parentOld old same, ← listed.members old, split, List.mem_append, List.mem_append,
            List.mem_cons]
          simp only [same, false_or]
    · by_cases self : other = some ref
      · subst self
        refine ⟨[], ⟨fun first isFirst => ?_, List.Pairwise.nil, fun old => ?_⟩⟩
        · rw [SpiceStat.head, node_of_lt small, Option.map_some] at isFirst
          rw [← Option.some.inj isFirst]
          exact inserted.self.2.2
        · refine iff_of_false List.not_mem_nil fun found => ?_
          by_cases same : old = ref
          · rw [same, isParent] at found
            exact own found.2.symm
          · rw [enabledOld same, parentOld old same] at found
            exact notSelf (sound.owned old found.1.1 found.1.2) found.2
      · have holdsOld : tree.Holds other := fun old isOld =>
          ⟨(holdsOther old isOld).1, (enabledOld fun same => self (same ▸ isOld)).mp (holdsOther old isOld).2⟩
        rcases sound.lists other holdsOld with ⟨others, listedOther⟩
        have different : forall old, old ∈ others -> old ≠ ref :=
          fun old member => notRef ((listedOther.members old).mp member).1.2
        refine ⟨others, ⟨fun first isFirst => ?_, ?_, fun old => ?_⟩⟩
        · rw [inserted.heads other own self] at isFirst
          refine (listedOther.linked first isFirst).congr fun old member =>
            inserted.nexts old (different old member) fun isLast => own ?_
          have isOwn := (listed.members old).mp (split ▸ List.mem_append_left _ (List.mem_of_getLast? isLast))
          exact ((listedOther.members old).mp member).2.symm.trans isOwn.2
        · refine listedOther.sorted.imp_of_mem fun one other less => ?_
          rwa [(inserted.others _ (different _ one)).2, (inserted.others _ (different _ other)).2]
        · by_cases same : old = ref
          · rw [same, isParent]
            exact iff_of_false (notIn listedOther) fun found => own found.2.symm
          · rw [enabledOld same, parentOld old same]
            exact listedOther.members old
  · by_cases same : old = ref
    · rw [same, isParent]
      exact keeps holds
    · rw [parentOld old same]
      exact keeps (sound.owned old isOld ((enabledOld same).mp enabled))
  · rcases sound.rooted with ⟨depth, below⟩
    refine ⟨Function.update depth ref (parent.elim 0 depth + 1), fun old isOld enabled above isAbove => ?_⟩
    by_cases same : old = ref
    · rw [same, isParent] at isAbove
      subst isAbove
      rw [same, Function.update_self, Function.update_of_ne (notRef (holds above rfl).2)]
      exact Nat.lt_succ_self _
    · rw [parentOld old same] at isAbove
      have enabled := (enabledOld same).mp enabled
      rw [Function.update_of_ne same, Function.update_of_ne (notRef (sound.owned old isOld enabled above isAbove).2)]
      exact below old isOld enabled above isAbove
  · have more : (Finset.range maxStatNodes).filter (fun old => (next.stat.nodes old).enabled = true) =
        insert ref ((Finset.range maxStatNodes).filter fun old => (tree.stat.nodes old).enabled = true) := by
      ext old
      rw [Finset.mem_insert, Finset.mem_filter, Finset.mem_filter, Finset.mem_range]
      by_cases same : old = ref
      · rw [same]
        exact iff_of_true ⟨small, inserted.self.1⟩ (.inl rfl)
      · rw [enabledOld same]
        simp only [same, false_or]
    have isNew : ref ∉ (Finset.range maxStatNodes).filter fun old => (tree.stat.nodes old).enabled = true :=
      fun member =>
      notRef (Finset.mem_filter.mp member).2 rfl
    rw [more, Finset.card_insert_of_notMem isNew, ← sound.counted, inserted.num, UInt32.toNat_add, UInt32.toNat_one]
    unfold maxStatNodes at room
    omega

theorem Sound.free (sound : tree.Sound) (room : tree.stat.numOfNodes.toNat < maxStatNodes) :
    Exists fun ref => tree.stat.freeSlot = some ref ∧ ref < maxStatNodes ∧ (tree.stat.nodes ref).enabled = false := by
  unfold SpiceStat.freeSlot
  cases found : (List.range maxStatNodes).find? fun ref => !(tree.stat.nodes ref).enabled with
  | none =>
      have all : (Finset.range maxStatNodes).filter (fun old => (tree.stat.nodes old).enabled = true) =
          Finset.range maxStatNodes :=
        Finset.filter_true_of_mem fun old member => by
          simpa using List.find?_eq_none.mp found old (List.mem_range.mpr (Finset.mem_range.mp member))
      rw [sound.counted, all, Finset.card_range] at room
      exact absurd room (lt_irrefl _)
  | some ref =>
      have free := List.find?_some found
      exact ⟨ref, rfl, List.mem_range.mp (List.mem_of_find?_eq_some found), by simpa using free⟩

/-- `stat_add_node` comes to its end, and leaves a tree. -/
theorem Sound.statAddNode (sound : tree.Sound) (holds : tree.Holds parent) (some_ : name ≠ []) (visible : Bool) :
    Exists fun result => tree.stat.statAddNode parent name visible = some result ∧ (tree.added parent result).Sound ∧
      forall ref, result.2 = some ref -> ref < maxStatNodes := by
  unfold SpiceStat.statAddNode
  rw [if_neg some_]
  by_cases long : nameMax ≤ name.length
  · rw [if_pos long]
    exact ⟨_, rfl, sound, fun _ none => nomatch none⟩
  rw [if_neg long]
  rcases holds.head with ⟨start, isStart⟩
  rcases sound.lists parent holds with ⟨refs, listed⟩
  have linked := listed.linked start isStart
  rw [isStart, Option.bind_some, findNode_of_linked name linked (Nat.le_succ_of_le listed.length_le) fun _ =>
    listed.inside, Option.bind_some]
  cases found : refs.find? fun ref => name = (tree.stat.nodes ref).name with
  | some ref =>
      have member := (listed.members ref).mp (List.mem_of_find?_eq_some found)
      rw [if_pos (show (some ref).isSome = true from rfl)]
      refine ⟨_, rfl, ?_, fun other isOther => Option.some.inj isOther ▸ member.1.1⟩
      unfold added
      rw [Option.elim_some, if_pos member.1.2]
      exact sound
  | none =>
      rw [if_neg (show ¬ (none : StatNodeRef).isSome = true from Bool.false_ne_true)]
      by_cases full : maxStatNodes ≤ tree.stat.numOfNodes.toNat
      · rw [if_pos full]
        exact ⟨_, rfl, sound, fun _ none => nomatch none⟩
      · rw [if_neg full]
        have room := Nat.lt_of_not_le full
        rcases sound.free room with ⟨ref, isFree, small, free⟩
        have fresh : forall old, old ∈ refs -> name ≠ (tree.stat.nodes old).name := fun old member => by
          simpa using List.find?_eq_none.mp found old member
        have notIn : ref ∉ refs := fun member =>
            Bool.false_ne_true (free.symm.trans ((listed.members ref).mp member).1.2)
        have notSelf : parent ≠ some ref := fun same => Bool.false_ne_true (free.symm.trans (holds ref same).2)
        rcases @insertStatNode_of_linked tree.stat parent ref name start visible refs isStart notSelf linked
          listed.length_le (fun _ => listed.inside)
          notIn with ⟨next, before, after, split, smaller, larger, isNext, inserted⟩
        dsimp only
        rw [show ({ tree.stat with generation := tree.stat.generation + 1, numOfNodes := tree.stat.numOfNodes + 1 } :
          SpiceStat).freeSlot =
          some ref from isFree, Option.bind_some, isNext, Option.map_some]
        refine ⟨_, rfl, ?_, fun other isOther => Option.some.inj isOther ▸ small⟩
        refine sound.inserted holds listed small free fresh room split smaller larger inserted ?_ fun old other => ?_
        · unfold added
          rw [Option.elim_some, if_neg fun enabled => Bool.false_ne_true (free.symm.trans enabled)]
          exact Function.update_self _ _ _
        · unfold added
          rw [Option.elim_some, if_neg fun enabled => Bool.false_ne_true (free.symm.trans enabled)]
          exact Function.update_of_ne other _ _

/-- Nothing but a flag for the value of a node has changed. -/
theorem Sound.setCounter (sound : tree.Sound) (ref : Nat) :
    Sound { tree with stat := tree.stat.setNode ref fun node => { node with counter := true } } := by
  have enabled : forall old, ((tree.stat.setNode ref fun node => { node with counter := true }).nodes old).enabled =
      (tree.stat.nodes old).enabled := fun old => by rw [nodes_setNode]; split <;> simp_all
  have name : forall old, ((tree.stat.setNode ref fun node => { node with counter := true }).nodes old).name =
      (tree.stat.nodes old).name := fun old => by rw [nodes_setNode]; split <;> simp_all
  have head : forall parent, (tree.stat.setNode ref fun node => { node with counter := true }).head parent =
      tree.stat.head parent :=
    fun parent => head_congr (fun _ => rfl) fun old _ => by rw [nodes_setNode]; split <;> simp_all
  refine ⟨fun parent holds => ?_, fun old => ?_, ?_, ?_⟩
  · rcases sound.lists parent fun old isOld => ⟨(holds old isOld).1, (enabled old).symm.trans (holds old isOld).2⟩
      with ⟨refs, listed⟩
    refine ⟨refs, ⟨fun first isFirst => ?_, ?_, fun old => ?_⟩⟩
    · refine (listed.linked first ((head parent).symm.trans isFirst)).congr fun old _ => ?_
      dsimp only
      rw [nodes_setNode]
      split <;> simp_all
    · simpa only [name] using listed.sorted
    · simpa only [enabled] using listed.members old
  · simpa only [Holds, enabled] using sound.owned old
  · simpa only [enabled] using sound.rooted
  · show tree.stat.numOfNodes.toNat = _
    simpa only [enabled] using sound.counted

theorem Sound.statAddCounter (sound : tree.Sound) (holds : tree.Holds parent) (some_ : name ≠ []) (visible : Bool) :
    Exists fun result => tree.stat.statAddCounter parent name visible = some result ∧
      (tree.added parent result).Sound := by
  rcases sound.statAddNode holds some_ visible with ⟨⟨next, ref⟩, isNext, nextSound, -⟩
  unfold SpiceStat.statAddCounter
  rw [isNext, Option.map_some]
  refine ⟨_, rfl, ?_⟩
  cases ref with
  | none => exact nextSound
  | some ref => exact nextSound.setCounter ref

/-! ## A node is removed -/

/-- The node stays in the list of its parent, or the number does not fit. -/
theorem not_sound_of_statRemove (sound : tree.Sound) {next : SpiceStat}
    (removed : tree.stat.statRemove ref = some next) :
    ¬ Sound { tree with stat := next } := by
  unfold SpiceStat.statRemove at removed
  split at removed
  · rename_i small
    cases removed
    intro after
    have isRef : ((tree.stat.setNode ref fun node => { node with enabled := false }).nodes ref).enabled = false := by
      rw [nodes_setNode, if_pos rfl]
    have others : forall old, old ≠ ref ->
        (tree.stat.setNode ref fun node => { node with enabled := false }).nodes old =
        tree.stat.nodes old := fun old other => by rw [nodes_setNode, if_neg other]
    cases enabled : (tree.stat.nodes ref).enabled with
    | true =>
        have holds := sound.owned ref small enabled
        rcases sound.lists _ holds with ⟨refs, listed⟩
        have member := (listed.members ref).mpr ⟨⟨small, enabled⟩, rfl⟩
        rcases sound.rooted with ⟨depth, below⟩
        have notSelf : forall old, tree.parents ref = some old -> old ≠ ref := fun old isOld same =>
          lt_irrefl _ (same ▸ below ref small enabled old isOld)
        rcases after.lists (tree.parents ref) fun old isOld => ⟨(holds old isOld).1, by
          dsimp only
          rw [others old (notSelf old isOld)]
          exact (holds old isOld).2⟩ with ⟨left, listedLeft⟩
        rcases holds.head with ⟨start, isStart⟩
        have sameHead : ({ (tree.stat.setNode ref fun node => { node with enabled := false }) with
            generation := tree.stat.generation + 1
            numOfNodes := tree.stat.numOfNodes - 1 } : SpiceStat).head (tree.parents ref) = some start := by
          rw [← isStart]
          exact head_congr (fun _ => rfl) fun old isOld =>
            congrArg SpiceStatNode.firstChildIndex (others old (notSelf old isOld))
        have same := (listedLeft.linked start sameHead).unique ((listed.linked start isStart).congr fun old _ => by
          dsimp only
          rw [nodes_setNode]
          split <;> simp_all)
        exact Bool.false_ne_true (isRef.symm.trans ((listedLeft.members ref).mp (same ▸ member)).1.2)
    | false =>
        have same : forall old, ((tree.stat.setNode ref fun node => { node with enabled := false }).nodes old).enabled =
            (tree.stat.nodes old).enabled := fun old => by rw [nodes_setNode]; split <;> simp_all
        have counted := after.counted
        dsimp only at counted
        simp only [same] at counted
        rw [← sound.counted] at counted
        have less : (tree.stat.numOfNodes - 1).toNat = tree.stat.numOfNodes.toNat := counted
        have bounded := tree.stat.numOfNodes.toNat_lt
        rw [UInt32.toNat_sub, UInt32.toNat_one] at less
        omega
  · cases removed

/-! ## Runs -/

theorem init_sound : init.Sound := by
  refine ⟨fun parent holds => ⟨[], ?_⟩, fun _ _ enabled => (nomatch enabled),
    ⟨fun _ => 0, fun _ _ enabled => (nomatch enabled)⟩, ?_⟩
  · cases parent with
    | none => exact ⟨fun first isFirst => Option.some.inj isFirst.symm, List.Pairwise.nil, fun _ =>
        iff_of_false List.not_mem_nil fun found => (nomatch found.1.2)⟩
    | some parent => exact nomatch (holds parent rfl).2
  · exact (Finset.card_eq_zero.mpr (Finset.filter_eq_empty_iff.mpr fun _ _ enabled => (nomatch enabled))).symm

theorem Sound.step (sound : tree.Sound) {op : Op} (kept : tree.Kept op) :
    Exists fun next => tree.step op = some next ∧ next.Sound := by
  cases op with
  | addNode parent name visible =>
      rcases sound.statAddNode kept.2 kept.1 visible with ⟨result, isResult, nextSound, -⟩
      exact ⟨_, by rw [Tree.step, isResult, Option.map_some], nextSound⟩
  | addCounter parent name visible =>
      rcases sound.statAddCounter kept.2 kept.1 visible with ⟨result, isResult, nextSound⟩
      exact ⟨_, by rw [Tree.step, isResult, Option.map_some], nextSound⟩
  | removeNode ref => exact kept.elim
  | removeCounter ref => exact kept.elim

/-- While nodes are only added, and under the root or a node that is enabled, every call comes to its end and leaves a
tree; the first removal leaves none. -/
theorem statistics_tree (ops : List Op) (kept : Meets Tree.step (fun _ tree op => tree.Kept op) [] Tree.init ops) :
    AllStates Tree.step (fun _ tree => tree.Sound) [] Tree.init ops ∧
      forall (ref : Nat) (op : Op), op = .removeNode ref ∨ op = .removeCounter ref ->
        ¬ AllStates Tree.step (fun _ tree => tree.Sound) [] Tree.init (ops ++ [op]) := by
  have keep : forall (past : List Op) (tree : Tree) (op : Op), tree.Sound -> tree.Kept op ->
      Exists fun next => tree.step op = some next ∧ next.Sound := fun _ _ _ sound kept => sound.step kept
  have same : forall (_ : List Op) (tree : Tree), tree.Sound -> tree.Sound := fun _ _ sound => sound
  have all := allStates_of_meets same keep init_sound kept
  refine ⟨all, fun ref op isRemoval removed => ?_⟩
  rcases all ops (List.prefix_refl _) with ⟨tree, ran, sound⟩
  rcases removed (ops ++ [op]) (List.prefix_refl _) with ⟨final, ranFinal, finalSound⟩
  rw [run_append, ran, Option.bind_some] at ranFinal
  rcases (run_cons_eq_some _).mp ranFinal with ⟨next, stepped, same⟩
  rw [← Option.some.inj same] at finalSound
  have isRemoved : (tree.stat.statRemove ref).map (fun stat => { tree with stat := stat }) = some next := by
    rcases isRemoval with rfl | rfl <;> exact stepped
  rcases Option.map_eq_some_iff.mp isRemoved with ⟨stat, isStat, rfl⟩
  exact not_sound_of_statRemove sound isStat finalSound

def checkKept (tree : Tree) : Op -> Bool
  | .addNode parent name _ => name != [] && parent.all fun ref =>
      decide (ref < maxStatNodes) && (tree.stat.nodes ref).enabled
  | .addCounter parent name _ => name != [] && parent.all fun ref =>
      decide (ref < maxStatNodes) && (tree.stat.nodes ref).enabled
  | .removeNode _ => false
  | .removeCounter _ => false

theorem kept_of_check (_ : List Op) (tree : Tree) (op : Op) (checked : checkKept tree op = true) : tree.Kept op := by
  have holds : forall {parent : StatNodeRef},
      (parent.all fun ref => decide (ref < maxStatNodes) && (tree.stat.nodes ref).enabled) = true ->
      tree.Holds parent := by
    rintro parent all ref rfl
    simpa using all
  cases op with
  | addNode parent name visible =>
      rw [checkKept, Bool.and_eq_true] at checked
      exact ⟨bne_iff_ne.mp checked.1, holds checked.2⟩
  | addCounter parent name visible =>
      rw [checkKept, Bool.and_eq_true] at checked
      exact ⟨bne_iff_ne.mp checked.1, holds checked.2⟩
  | removeNode ref => cases checked
  | removeCounter ref => cases checked

def workerOps : List Op := [.addNode none [113] true, .addCounter (some 0) [119] true, .addCounter (some 0) [99] true]

theorem statistics_tree_worker : AllStates Tree.step (fun _ tree => tree.Sound) [] Tree.init workerOps ∧
    forall (ref : Nat) (op : Op), op = .removeNode ref ∨ op = .removeCounter ref ->
      ¬ AllStates Tree.step (fun _ tree => tree.Sound) [] Tree.init (workerOps ++ [op]) :=
  statistics_tree workerOps (Meets.of_check kept_of_check _ _ _ (by decide +kernel))

/-- The slot of a removed node is taken while the list still has it; the next search goes around. -/
theorem search_without_end : ¬ AllStates Tree.step (fun _ tree => tree.Sound) [] Tree.init
    [.addNode none [97] true, .removeNode 0, .addNode none [98] true, .addNode none [99] true] := by
  intro all
  rcases all _ (List.prefix_refl _) with ⟨final, ran, -⟩
  have ended : (run Tree.step Tree.init
      [.addNode none [97] true, .removeNode 0, .addNode none [98] true, .addNode none [99] true]).isSome = false :=
        by decide +kernel
  rw [ran] at ended
  cases ended

end Tree
end Stat
end Spice
