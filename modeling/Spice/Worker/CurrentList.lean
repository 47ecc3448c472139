import Spice.Worker.Tree
import Mathlib.Data.Multiset.AddSub
import Mathlib.Data.Multiset.MapFold
import Mathlib.Data.Multiset.Count
import Mathlib.Tactic.Abel

namespace Spice
namespace Tree

/-!
# What is in the tree

The operations on the tree rearrange the drawables and take some of them out.  This
module says that nothing is lost on the way: every drawable is still in a ring, or
was handed to `current_remove`, and the same holds for the containers.
-/

/-- A drawable of the tree, and whether it has a shadow. -/
abbrev Entry := Drawable × Bool

def entry (item : DrawItem) : Entry := (item.drawable, item.shadow.isSome)

/-- The entries of some drawables, in any order. -/
def tally (items : List DrawItem) : Multiset Entry := (items.map entry : List Entry)

@[simp] theorem tally_nil : tally [] = 0 := rfl

@[simp] theorem tally_cons (item : DrawItem) (rest : List DrawItem) :
    tally (item :: rest) = {entry item} + tally rest := rfl

@[simp] theorem tally_append (one two : List DrawItem) : tally (one ++ two) = tally one + tally two := by
  simp only [tally, List.map_append]
  exact (Multiset.coe_add _ _).symm

@[simp] theorem drawsAll_append (one two : List TreeItem) : drawsAll (one ++ two) = drawsAll one ++ drawsAll two := by
  induction one with
  | nil => rfl
  | cons item rest ih => rw [List.cons_append, drawsAll, drawsAll, ih, List.append_assoc]

@[simp] theorem containersAll_append (one two : List TreeItem) :
    containersAll (one ++ two) = containersAll one + containersAll two := by
  induction one with
  | nil => exact (Nat.zero_add _).symm
  | cons item rest ih => rw [List.cons_append, containersAll, containersAll, ih, Nat.add_assoc]

@[simp] theorem drawsAll_cons (item : TreeItem) (rest : List TreeItem) :
    drawsAll (item :: rest) = draws item ++ drawsAll rest := rfl

@[simp] theorem drawsAll_nil : drawsAll [] = [] := rfl

@[simp] theorem containersAll_cons (item : TreeItem) (rest : List TreeItem) :
    containersAll (item :: rest) = containers item + containersAll rest := rfl

@[simp] theorem containersAll_nil : containersAll [] = 0 := rfl

@[simp] theorem draws_draw (item : DrawItem) : draws (.draw item) = [item] := rfl

@[simp] theorem draws_container (head : Container) (items : List TreeItem) :
    draws (.container head items) = drawsAll items := rfl

@[simp] theorem containers_draw (item : DrawItem) : containers (.draw item) = 0 := rfl

@[simp] theorem containers_container (head : Container) (items : List TreeItem) :
    containers (.container head items) = containersAll items + 1 := rfl

/-- The drawables in the rings and those removed, and the containers. -/
def account (items : List TreeItem) (walk : Walk) : Multiset Entry := tally (drawsAll items) + tally walk.removed

def places (items : List TreeItem) (walk : Walk) : Nat := containersAll items + walk.containers

/-- Nothing is lost between two states of a walk. -/
structure Conserves (items : List TreeItem) (walk : Walk) (next : List TreeItem) (after : Walk) : Prop where
  account : account next after = account items walk
  places : places next after = places items walk

namespace Conserves

variable {items next last : List TreeItem} {walk after final : Walk}

theorem refl (items : List TreeItem) (walk : Walk) : Conserves items walk items walk := ⟨rfl, rfl⟩

theorem trans (one : Conserves items walk next after) (two : Conserves next after last final) :
    Conserves items walk last final :=
  ⟨two.account.trans one.account, two.places.trans one.places⟩

theorem frame (conserves : Conserves items walk next after) (front back : List TreeItem) :
    Conserves (front ++ items ++ back) walk (front ++ next ++ back) after := by
  have drawables := conserves.account
  have counted := conserves.places
  simp only [Tree.account, Tree.places] at drawables counted
  refine ⟨?_, ?_⟩
  · simp only [Tree.account, drawsAll_append, tally_append]
    calc tally (drawsAll front) + tally (drawsAll next) + tally (drawsAll back) + tally after.removed
        = tally (drawsAll front) + tally (drawsAll back) + (tally (drawsAll next) + tally after.removed) := by abel
      _ = tally (drawsAll front) + tally (drawsAll back) + (tally (drawsAll items) + tally walk.removed) := by
          rw [drawables]
      _ = tally (drawsAll front) + tally (drawsAll items) + tally (drawsAll back) + tally walk.removed := by abel
  · simp only [Tree.places, containersAll_append]
    omega

theorem cons {item : TreeItem} {rest others : List TreeItem} (one : Conserves [item] walk next after)
    (two : Conserves rest after others final) : Conserves (item :: rest) walk (next ++ others) final := by
  have first := one.frame [] rest
  have second := two.frame next []
  simp only [List.nil_append, List.append_nil, List.singleton_append] at first second
  exact first.trans second

theorem container (conserves : Conserves items walk next after) (one two : Container) :
    Conserves [.container one items] walk [.container two next] after := by
  have drawables := conserves.account
  have counted := conserves.places
  simp only [Tree.account, Tree.places] at drawables counted
  refine ⟨?_, ?_⟩
  · simpa only [Tree.account, drawsAll_cons, draws_container, drawsAll_nil, List.append_nil] using drawables
  · simp only [Tree.places, containersAll_cons, containers_container, containersAll_nil]
    omega

theorem remove (item : TreeItem) (walk : Walk) : Conserves [item] walk [] (walk.currentRemove item) := by
  refine ⟨?_, ?_⟩
  · simp only [Tree.account, Walk.currentRemove, drawsAll_cons, drawsAll_nil, List.append_nil, tally_append, tally_nil,
      zero_add]
  · simp only [Tree.places, Walk.currentRemove, containersAll_cons, containersAll_nil]
    omega

theorem of_same {item other : TreeItem} (drawables : tally (draws other) = tally (draws item))
    (counted : containers other = containers item) (removed : after.removed = walk.removed)
    (containers : after.containers = walk.containers) : Conserves [item] walk [other] after := by
  refine ⟨?_, ?_⟩
  · simp only [Tree.account, drawsAll_cons, drawsAll_nil, List.append_nil, drawables, removed]
  · simp only [Tree.places, containersAll_cons, containersAll_nil, counted, containers]

end Conserves

theorem entry_excludeDraw (rgn : Region) (item : DrawItem) : entry (excludeDraw rgn item).1 = entry item := by
  unfold excludeDraw
  simp only
  split
  · rfl
  · split
    · next noShadow => simp only [entry, noShadow]
    · next shadow isShadow => simp only [entry, isShadow, Option.isSome_some]

mutual

theorem tally_mapShadow (change : Shadow -> Shadow) : forall item : TreeItem,
    tally (draws (mapShadow change item)) = tally (draws item)
  | .draw item => by simp only [mapShadow, draws_draw, tally_cons, entry, Option.isSome_map]
  | .container head items => by
      simp only [mapShadow, draws_container]
      exact tally_mapLastShadow change items

theorem tally_mapLastShadow (change : Shadow -> Shadow) : forall items : List TreeItem,
    tally (drawsAll (mapLastShadow change items)) = tally (drawsAll items)
  | [] => rfl
  | [item] => by
      simp only [mapLastShadow, drawsAll_cons, drawsAll_nil, List.append_nil]
      exact tally_mapShadow change item
  | first :: item :: rest => by
      simp only [mapLastShadow, drawsAll_cons, tally_append]
      have others := tally_mapLastShadow change (item :: rest)
      simp only [drawsAll_cons, tally_append] at others
      rw [others]

end

mutual

theorem containers_mapShadow (change : Shadow -> Shadow) : forall item : TreeItem,
    containers (mapShadow change item) = containers item
  | .draw _ => rfl
  | .container head items => by
      simp only [mapShadow, containers_container]
      rw [containers_mapLastShadow change items]

theorem containers_mapLastShadow (change : Shadow -> Shadow) : forall items : List TreeItem,
    containersAll (mapLastShadow change items) = containersAll items
  | [] => rfl
  | [item] => by
      simp only [mapLastShadow, containersAll_cons, containersAll_nil]
      rw [containers_mapShadow change item]
  | first :: item :: rest => by
      simp only [mapLastShadow, containersAll_cons]
      have others := containers_mapLastShadow change (item :: rest)
      simp only [containersAll_cons] at others
      rw [others]

end

mutual

/-- An exclusion loses nothing: what leaves the tree is in the walk. -/
theorem exclude_conserves : forall (item : TreeItem) (walk : Walk),
    Conserves [item] walk (exclude item walk).1.toList (exclude item walk).2
  | .draw item, walk => by
      simp only [exclude]
      have same : tally (draws (.draw (excludeDraw (walk.visit item.rgn).rgn item).1)) =
          tally (draws (.draw item)) := by
        simp only [draws_draw, tally_cons, entry_excludeDraw]
      have kept : Conserves [.draw item] walk [.draw (excludeDraw (walk.visit item.rgn).rgn item).1]
          { walk.visit item.rgn with rgn := (excludeDraw (walk.visit item.rgn).rgn item).2 } :=
        Conserves.of_same same rfl rfl rfl
      split
      · exact kept.trans (Conserves.remove _ _)
      · exact kept
  | .container head items, walk => by
      simp only [exclude]
      split
      · exact Conserves.of_same rfl rfl rfl rfl
      · split
        · refine Conserves.trans ?_ (Conserves.remove _ _)
          exact Conserves.of_same rfl rfl rfl rfl
        · have visited : Conserves [.container head items] walk [.container head items] (walk.visit head.rgn) :=
            Conserves.of_same rfl rfl rfl rfl
          exact visited.trans ((excludeAll_conserves items (walk.visit head.rgn)).container head _)

theorem excludeAll_conserves : forall (items : List TreeItem) (walk : Walk),
    Conserves items walk (excludeAll items walk).1 (excludeAll items walk).2
  | [], walk => Conserves.refl [] walk
  | item :: rest, walk => by
      simp only [excludeAll]
      exact (exclude_conserves item walk).cons (excludeAll_conserves rest (exclude item walk).2)

end

theorem excludeShadow_conserves (item : TreeItem) (walk : Walk) :
    Conserves [item] walk [(excludeShadow item walk).1] (excludeShadow item walk).2 := by
  unfold excludeShadow
  split
  · exact Conserves.refl _ _
  · exact Conserves.of_same (tally_mapShadow _ _) (containers_mapShadow _ _) rfl rfl

theorem excludeRoot_conserves : forall (items : List TreeItem) (walk : Walk),
    Conserves items walk (excludeRoot items walk).1 (excludeRoot items walk).2
  | [], walk => Conserves.refl [] walk
  | item :: rest, walk => by
      have first := exclude_conserves item walk
      simp only [excludeRoot]
      split
      · next walk isNone =>
          rw [isNone] at first
          exact first.cons (excludeRoot_conserves rest walk)
      · next left walk isSome =>
          rw [isSome] at first
          exact (first.trans (excludeShadow_conserves left walk)).cons
            (excludeRoot_conserves rest (excludeShadow left walk).2)

theorem excludeRegion_conserves (root : Bool) (items : List TreeItem) (walk : Walk) :
    Conserves items walk (excludeRegion root items walk).1 (excludeRegion root items walk).2 := by
  unfold excludeRegion
  split
  · exact excludeRoot_conserves items walk
  · exact excludeAll_conserves items walk

theorem excludeNext_conserves : forall (items : List TreeItem) (walk : Walk),
    Conserves items walk (excludeNext items walk).1 (excludeNext items walk).2
  | [], walk => Conserves.refl [] walk
  | item :: rest, walk => by
      have first := exclude_conserves item walk
      simp only [excludeNext]
      split
      · next walk isNone =>
          rw [isNone] at first
          exact first.cons (excludeNext_conserves rest walk)
      · next left walk isSome =>
          rw [isSome] at first
          exact first.cons (Conserves.refl rest walk)

/-- What `red_current_add_equal` can do. -/
structure Equal (item other : DrawItem) (ending : Ending) : Prop where
  noShadow : item.shadow = none
  otherNoShadow : other.shadow = none
  sameEffect : item.drawable.effect = other.drawable.effect
  cases : ending = .replaced other ∧ (item.drawable.effect = .opaqueDraw ∨ item.drawable.effect = .opaqueBrush) ∨
    ending = .reverted other ∧ item.drawable.effect = .revertOnDup ∨
      ending = .repeated other ∧ item.drawable.effect = .nopOnDup

variable {item : DrawItem} {sibling : TreeItem}

/-- How an equal item is replaced. -/
theorem redCurrentAddEqual_cases {ending : Ending}
    (isEqual : redCurrentAddEqual item sibling = some ending) :
    Exists fun other => sibling = .draw other ∧ Equal item other ending := by
  cases sibling with
  | container head items => cases isEqual
  | draw other =>
      refine ⟨other, rfl, ?_⟩
      simp only [redCurrentAddEqual] at isEqual
      split at isEqual
      · cases isEqual
      · next plain =>
          simp only [Bool.or_eq_true, not_or, Bool.not_eq_true, Option.isSome_eq_false_iff, Option.isNone_iff_eq_none,
            bne_eq_false_iff_eq] at plain
          refine ⟨plain.1.1, plain.1.2, plain.2, ?_⟩
          split at isEqual
          · next isEffect => exact Or.inl ⟨(Option.some.inj isEqual).symm, Or.inl isEffect⟩
          · next isEffect =>
              split at isEqual
              · exact Or.inr (Or.inl ⟨(Option.some.inj isEqual).symm, isEffect⟩)
              · cases isEqual
          · next isEffect =>
              split at isEqual
              · exact Or.inl ⟨(Option.some.inj isEqual).symm, Or.inr isEffect⟩
              · cases isEqual
          · next isEffect =>
              split at isEqual
              · exact Or.inr (Or.inr ⟨(Option.some.inj isEqual).symm, isEffect⟩)
              · cases isEqual
          · cases isEqual

/-- The drawables that `red_current_add_equal` takes out of the tree. -/
def Ending.lost : Ending -> List DrawItem
  | .replaced other => [other]
  | .reverted other => [other]
  | _ => []

/-- The drawable, if it is in the tree afterwards. -/
def Ending.gained (item : DrawItem) : Ending -> List DrawItem
  | .inserted => [item]
  | .replaced _ => [item]
  | _ => []

theorem Ending.mem_gained {ending : Ending} {one : Entry} (member : one ∈ tally (ending.gained item)) :
    one = entry item := by
  cases ending with
  | inserted => exact Multiset.mem_singleton.mp member
  | replaced other => exact Multiset.mem_singleton.mp member
  | reverted other => exact absurd member (Multiset.notMem_zero _)
  | repeated other => exact absurd member (Multiset.notMem_zero _)
  | ignored => exact absurd member (Multiset.notMem_zero _)

/-- Nothing is lost when a drawable is added: the ring has what stays there, and the drawable. -/
structure Adds (item : DrawItem) (items : List TreeItem) (walk : Walk) (added : Added) : Prop where
  account : Exists fun stays : Multiset Entry =>
    tally (drawsAll added.ring) = stays + tally (added.ending.gained item) ∧
      stays + tally added.walk.removed + tally added.ending.lost = account items walk
  places : places added.ring added.walk = places items walk + added.newContainers
  created : added.newContainers ≤ containersAll added.ring

namespace Adds

variable {item : DrawItem} {items next : List TreeItem} {walk after : Walk} {added : Added}

theorem after_conserves (conserves : Conserves items walk next after) (adds : Adds item next after added) :
    Adds item items walk added := by
  rcases adds.account with ⟨stays, inRing, left⟩
  exact ⟨⟨stays, inRing, by rw [left, conserves.account]⟩, by rw [adds.places, conserves.places], adds.created⟩

theorem front {other : DrawItem} (same : entry other = entry item) (conserves : Conserves items walk next after) :
    Adds item items walk { ring := .draw other :: next, walk := after, newContainers := 0, ending := .inserted } := by
  have drawables := conserves.account
  have counted := conserves.places
  simp only [Tree.account, Tree.places] at drawables counted
  refine ⟨⟨tally (drawsAll next), ?_, ?_⟩, ?_, Nat.zero_le _⟩
  · simp only [drawsAll_cons, draws_draw, Ending.gained, tally_append, tally_cons, tally_nil, add_zero, same]
    exact add_comm _ _
  · simp only [Tree.account, Ending.lost, tally_nil, add_zero]
    exact drawables
  · simp only [Tree.places, containersAll_cons, containers_draw]
    omega

/-- The item is inserted before some others. -/
theorem insertItem (container : Option Nat) (before : List TreeItem) (base : Option (List TreeItem)) (walk : Walk) :
    Adds item (before ++ base.getD []) walk (insertItem item container before base walk) := by
  unfold Tree.insertItem
  cases base with
  | none =>
      rw [Option.getD_none, List.append_nil]
      exact front rfl (Conserves.refl before walk)
  | some behind =>
      simp only [Option.getD_some]
      split
      · have excluded := (excludeRegion_conserves container.isNone behind
            { walk with rgn := walk.rgn ∪ item.rgn }).frame before []
        simp only [List.append_nil] at excluded
        have started : Conserves (before ++ behind) walk (before ++ behind) { walk with rgn := walk.rgn ∪ item.rgn } :=
          ⟨rfl, rfl⟩
        exact front rfl (started.trans excluded)
      · exact front rfl (Conserves.refl _ walk)

theorem insertAtShadow (before : List TreeItem) (owner : TreeItem) (behind : List TreeItem) (walk : Walk) :
    Adds item (before ++ owner :: behind) walk (insertAtShadow item before owner behind walk) := by
  unfold Tree.insertAtShadow
  split
  · have first := (excludeShadow_conserves owner { walk with rgn := walk.rgn ∪ item.rgn }).cons
      (excludeRoot_conserves behind (excludeShadow owner { walk with rgn := walk.rgn ∪ item.rgn }).2)
    have excluded := first.frame before []
    simp only [List.append_nil, List.singleton_append] at excluded
    have started : Conserves (before ++ owner :: behind) walk (before ++ owner :: behind)
        { walk with rgn := walk.rgn ∪ item.rgn } := ⟨rfl, rfl⟩
    exact front rfl (started.trans excluded)
  · exact front rfl (Conserves.refl _ walk)

/-- The item is added inside of a container. -/
theorem container {head other : Container} {before rest : List TreeItem} (adds : Adds item items walk added) :
    Adds item (before ++ .container head items :: rest) walk
      { added with ring := before ++ .container other added.ring :: rest } := by
  rcases adds.account with ⟨stays, inRing, left⟩
  have counted := adds.places
  have created := adds.created
  simp only [Tree.account, Tree.places] at left counted
  refine ⟨⟨tally (drawsAll before) + tally (drawsAll rest) + stays, ?_, ?_⟩, ?_, ?_⟩
  · simp only [drawsAll_append, drawsAll_cons, draws_container, tally_append, inRing]
    abel
  · simp only [Tree.account, drawsAll_append, drawsAll_cons, draws_container, tally_append]
    calc tally (drawsAll before) + tally (drawsAll rest) + stays + tally added.walk.removed + tally added.ending.lost
        = tally (drawsAll before) + tally (drawsAll rest) +
          (stays + tally added.walk.removed + tally added.ending.lost) := by
          abel
      _ = tally (drawsAll before) + tally (drawsAll rest) + (tally (drawsAll items) + tally walk.removed) :=
        by rw [left]
      _ = tally (drawsAll before) + (tally (drawsAll items) + tally (drawsAll rest)) + tally walk.removed := by abel
  · simp only [Tree.places, containersAll_append, containersAll_cons, containers_container]
    omega
  · simp only [containersAll_append, containersAll_cons, containers_container]
    omega

/-- The item and the one below it get a container. -/
theorem newContainer {head : Container} {parent : Option Nat} {other : DrawItem} {before rest : List TreeItem}
    (adds : Adds item [.draw { other with container := parent, containerRoot := true }] walk added) :
    Adds item (before ++ .draw other :: rest) walk
      { added with
        ring := before ++ .container head added.ring :: rest
        newContainers := added.newContainers + 1 } := by
  rcases adds.account with ⟨stays, inRing, left⟩
  have counted := adds.places
  have created := adds.created
  simp only [Tree.account, Tree.places, drawsAll_cons, draws_draw, drawsAll_nil, List.append_nil, tally_cons, tally_nil,
    containersAll_cons, containers_draw, containersAll_nil, add_zero] at left counted
  have same : entry { other with container := parent, containerRoot := true } = entry other := rfl
  rw [same] at left
  refine ⟨⟨tally (drawsAll before) + tally (drawsAll rest) + stays, ?_, ?_⟩, ?_, ?_⟩
  · simp only [drawsAll_append, drawsAll_cons, draws_container, tally_append, inRing]
    abel
  · simp only [Tree.account, drawsAll_append, drawsAll_cons, draws_draw, tally_append, tally_cons, tally_nil, add_zero]
    calc tally (drawsAll before) + tally (drawsAll rest) + stays + tally added.walk.removed + tally added.ending.lost
        = tally (drawsAll before) + tally (drawsAll rest) +
          (stays + tally added.walk.removed + tally added.ending.lost) := by
          abel
      _ = tally (drawsAll before) + tally (drawsAll rest) + ({entry other} + tally walk.removed) := by rw [left]
      _ = tally (drawsAll before) + ({entry other} + tally (drawsAll rest)) + tally walk.removed := by abel
  · simp only [Tree.places, containersAll_append, containersAll_cons, containers_container, containers_draw]
    omega
  · simp only [containersAll_append, containersAll_cons, containers_container]
    omega

/-- The item takes the place of an equal one. -/
theorem equal {container : Option Nat} {ending : Ending} {front back : List TreeItem}
    (isEqual : redCurrentAddEqual item sibling = some ending) :
    Adds item (front ++ sibling :: back) walk
      { ring := front ++ (equalRing item container ending sibling ++ back), walk := walk, newContainers := 0
        ending := ending } := by
  rcases redCurrentAddEqual_cases isEqual with ⟨other, rfl, equal⟩
  have around : Tree.account (front ++ .draw other :: back) walk =
      tally (drawsAll front) + tally (drawsAll back) + tally walk.removed + {entry other} := by
    simp only [Tree.account, drawsAll_append, drawsAll_cons, draws_draw, tally_append, tally_cons, tally_nil, add_zero]
    abel
  rcases equal.cases with ⟨rfl, _⟩ | ⟨rfl, _⟩ | ⟨rfl, _⟩
  · refine ⟨⟨tally (drawsAll front) + tally (drawsAll back), ?_, ?_⟩, ?_, Nat.zero_le _⟩
    · have same : tally (draws (addedTo container item)) = {entry item} := rfl
      simp only [equalRing, Ending.gained, drawsAll_append, drawsAll_cons, drawsAll_nil, List.append_nil,
        tally_append, tally_cons, tally_nil, add_zero, same]
      abel
    · rw [around]
      simp only [Ending.lost, tally_cons, tally_nil, add_zero]
    · simp only [Tree.places, equalRing, addedTo, containersAll_append, containersAll_cons, containers_draw,
        containersAll_nil, Nat.add_zero]
  · refine ⟨⟨tally (drawsAll front) + tally (drawsAll back), ?_, ?_⟩, ?_, Nat.zero_le _⟩
    · simp only [equalRing, Ending.gained, drawsAll_append, List.nil_append, tally_append, tally_nil,
        add_zero]
    · rw [around]
      simp only [Ending.lost, tally_cons, tally_nil, add_zero]
    · simp only [Tree.places, equalRing, containersAll_append, containersAll_cons, containers_draw, containersAll_nil]
      omega
  · refine ⟨⟨tally (drawsAll (front ++ .draw other :: back)), ?_, ?_⟩, ?_, Nat.zero_le _⟩
    · simp only [equalRing, Ending.gained, List.singleton_append, tally_nil, add_zero]
    · simp only [Tree.account, Ending.lost, tally_nil, add_zero]
    · simp only [Tree.places, equalRing, List.singleton_append, Nat.add_zero]

end Adds

/-- The siblings that wait go back to the ring. -/
theorem flushInside_conserves {root : Bool} {before : List TreeItem} {pending : Option (List TreeItem)}
    {rest : List TreeItem} {walk : Walk} {flushed : Flushed}
    (isFlushed : flushInside root before pending sibling rest walk = some flushed) :
    Conserves (before ++ pending.getD [] ++ sibling :: rest) walk
      (flushed.before ++ flushed.sibling :: flushed.rest) flushed.walk := by
  unfold flushInside at isFlushed
  cases pending with
  | none =>
      cases isFlushed
      rw [Option.getD_none, List.append_nil]
      exact Conserves.refl _ walk
  | some others =>
      have first := excludeRegion_conserves root others walk
      have second := exclude_conserves sibling (excludeRegion root others walk).2
      simp only at isFlushed
      split at isFlushed
      · cases isFlushed
      · next left middle isLeft =>
          rw [isLeft] at second
          cases isFlushed
          have third : Conserves [left] middle
              [(if root then excludeShadow left middle else (left, middle)).1]
              (if root then excludeShadow left middle else (left, middle)).2 := by
            split
            · exact excludeShadow_conserves left middle
            · exact Conserves.refl _ _
          have fourth := excludeRegion_conserves root rest
            (if root then excludeShadow left middle else (left, middle)).2
          have one := first.frame before (sibling :: rest)
          have two := (second.trans third).cons fourth
          have two := two.frame (before ++ (excludeRegion root others walk).1) []
          simp only [List.append_nil, List.singleton_append] at two
          rw [Option.getD_some]
          have both := one.trans two
          exact ⟨both.account, both.places⟩

/-- The loop of `red_current_add` loses nothing. -/
theorem addLoop_adds : forall (fuel : Nat) (container : Option Nat) (before : List TreeItem)
    (pending : Option (List TreeItem)) (rest : List TreeItem) (walk : Walk) (added : Added),
    addLoop item fuel container before pending rest walk = some added ->
      Adds item (before ++ pending.getD [] ++ rest) walk added := by
  intro fuel
  induction fuel with
  | zero =>
      intro _ _ _ _ _ _ isAdded
      cases isAdded
  | succ fuel ih =>
      intro container before pending rest walk added isAdded
      cases rest with
      | nil =>
          cases isAdded
          rw [List.append_nil]
          exact Adds.insertItem container before pending walk
      | cons sibling rest =>
          cases addLoop_iteration isAdded with
          | pass apart clear loop =>
              have adds := ih container _ none rest walk added loop
              simpa using adds
          | passBehind others apart clear loop =>
              have adds := ih container before _ rest walk added loop
              simpa using adds
          | atShadow shadow isRoot apart isShadow meets ends =>
              rw [ends, Option.getD_none, List.append_nil]
              exact Adds.insertAtShadow before sibling rest walk
          | behindShadow others shadow isRoot apart isShadow meets ends =>
              rw [ends, List.append_assoc]
              exact Adds.insertItem container before (some (others ++ sibling :: rest)) walk
          | equal _ ending meets place same isEqual ends =>
              rw [ends, fromBase, <- List.append_assoc]
              exact Adds.equal isEqual
          | remove _ meets place covers isOpaque noShadow loop =>
              have removed := (Conserves.remove sibling walk).frame (before ++ pending.getD []) rest
              rw [List.append_assoc _ [sibling]] at removed
              rw [List.append_nil] at removed
              exact (ih container before pending rest _ added loop).after_conserves removed
          | removeShadow shadow meets place covers isOpaque isShadow loop =>
              have removed := (Conserves.remove sibling { walk with rgn := walk.rgn ∪ shadow.onHold }).frame before rest
              have adds := (ih container before (some []) rest _ added loop)
              have started : Conserves (before ++ [sibling] ++ rest) walk (before ++ [sibling] ++ rest)
                  { walk with rgn := walk.rgn ∪ shadow.onHold } := ⟨rfl, rfl⟩
              simpa using adds.after_conserves (started.trans removed)
          | removeFlushed others left owner leftOwner after meets place covers isOpaque isOwner hasShadow excluded stays
              same loop =>
              have first := (excludeRegion_conserves container.isNone others walk).frame before (sibling :: rest)
              have second := exclude_conserves sibling (excludeRegion container.isNone others walk).2
              rw [excluded] at second
              have held : Conserves [left] after [left] { after with rgn := after.rgn ∪ heldBehind left } := ⟨rfl, rfl⟩
              have third := ((second.trans held).trans (Conserves.remove left _)).frame
                (before ++ (excludeRegion container.isNone others walk).1) rest
              simp only [List.append_assoc, List.singleton_append, List.nil_append] at first third
              have adds := ih container _ (some []) rest _ added loop
              simp only [Option.getD_some, List.append_nil, List.append_assoc] at adds ⊢
              exact adds.after_conserves (first.trans third)
          | flushedAway others after meets place covers isOpaque hasShadow excluded loop =>
              have first := (excludeRegion_conserves container.isNone others walk).frame before (sibling :: rest)
              have second := exclude_conserves sibling (excludeRegion container.isNone others walk).2
              rw [excluded] at second
              have third := (second.cons (excludeNext_conserves rest after)).frame
                (before ++ (excludeRegion container.isNone others walk).1) []
              simp only [List.append_nil, Option.toList_none, List.nil_append] at third
              have adds := ih container _ none _ _ added loop
              simp only [Option.getD_none, List.append_nil] at adds
              exact adds.after_conserves (first.trans third)
          | insideContainer _ flushed head items inner meets place within isOpaque isFlushed isContainer loop ends =>
              have flush := flushInside_conserves isFlushed
              rw [isContainer] at flush
              have adds := ih (some head.id) [] none items flushed.walk inner loop
              rw [ends]
              exact adds.container.after_conserves flush
          | insideRoot _ flushed other meets place within isOpaque isFlushed isDraw isRoot ends =>
              have flush := flushInside_conserves isFlushed
              rw [isDraw] at flush
              rw [ends]
              exact (Adds.insertItem container flushed.before (some
                (.draw other :: flushed.rest)) flushed.walk).after_conserves
                flush
          | insideNew _ flushed other inner meets place within isOpaque isFlushed isDraw notRoot isInner ends =>
              have flush := flushInside_conserves isFlushed
              rw [isDraw] at flush
              have adds : Adds item
                  [.draw { other with container := some (newContainer item other).id, containerRoot := true }]
                  flushed.walk inner := by
                rw [isInner]
                exact Adds.insertItem _ [] (some [.draw { other with
                  container := some (newContainer item other).id, containerRoot := true }]) flushed.walk
              rw [ends]
              exact adds.newContainer.after_conserves flush
          | overlaps _ meets place notCovered notInside ends =>
              rw [ends, List.append_assoc]
              exact Adds.insertItem container before (some (fromBase pending (sibling :: rest))) walk

/-- How a drawable can be added. -/
def Ending.From (item : DrawItem) (ending : Ending) : Prop :=
  ending = .inserted ∨ Exists fun other => Equal item other ending

theorem insertItem_ending (item : DrawItem) (container : Option Nat) (before : List TreeItem)
    (base : Option (List TreeItem)) (walk : Walk) :
    (insertItem item container before base walk).ending = .inserted := by
  unfold insertItem
  cases base with
  | none => rfl
  | some behind =>
      simp only
      split
      · rfl
      · rfl

theorem insertAtShadow_ending (item : DrawItem) (before : List TreeItem) (owner : TreeItem) (behind : List TreeItem)
    (walk : Walk) : (insertAtShadow item before owner behind walk).ending = .inserted := by
  unfold insertAtShadow
  split
  · rfl
  · rfl

/-- How the loop ends. -/
theorem addLoop_ending : forall (fuel : Nat) (container : Option Nat) (before : List TreeItem)
    (pending : Option (List TreeItem)) (rest : List TreeItem) (walk : Walk) (added : Added),
    addLoop item fuel container before pending rest walk = some added -> added.ending.From item := by
  intro fuel
  induction fuel with
  | zero =>
      intro _ _ _ _ _ _ isAdded
      cases isAdded
  | succ fuel ih =>
      intro container before pending rest walk added isAdded
      cases rest with
      | nil =>
          cases isAdded
          exact Or.inl (insertItem_ending item container before pending walk)
      | cons sibling rest =>
          cases addLoop_iteration isAdded with
          | pass apart clear loop => exact ih _ _ _ _ _ _ loop
          | passBehind others apart clear loop => exact ih _ _ _ _ _ _ loop
          | atShadow shadow isRoot apart isShadow meets ends => exact Or.inl (by rw [ends, insertAtShadow_ending])
          | behindShadow others shadow isRoot apart isShadow meets ends =>
              exact Or.inl (by rw [ends, insertItem_ending])
          | equal _ ending meets place same isEqual ends =>
              rw [ends]
              rcases redCurrentAddEqual_cases isEqual with ⟨other, _, equal⟩
              exact Or.inr ⟨other, equal⟩
          | remove _ meets place covers isOpaque noShadow loop => exact ih _ _ _ _ _ _ loop
          | removeShadow shadow meets place covers isOpaque isShadow loop => exact ih _ _ _ _ _ _ loop
          | removeFlushed others left owner leftOwner after meets place covers isOpaque isOwner hasShadow excluded stays
              same loop =>
              exact ih _ _ _ _ _ _ loop
          | flushedAway others after meets place covers isOpaque hasShadow excluded loop => exact ih _ _ _ _ _ _ loop
          | insideContainer _ flushed head items inner meets place within isOpaque isFlushed isContainer loop ends =>
              have inside := ih _ _ _ _ _ _ loop
              rw [ends]
              exact inside
          | insideRoot _ flushed other meets place within isOpaque isFlushed isDraw isRoot ends =>
              exact Or.inl (by rw [ends, insertItem_ending])
          | insideNew _ flushed other inner meets place within isOpaque isFlushed isDraw notRoot isInner ends =>
              exact Or.inl (by rw [ends, isInner, insertItem_ending])
          | overlaps _ meets place notCovered notInside ends => exact Or.inl (by rw [ends, insertItem_ending])

mutual

/-- The equal item that a drawable which is not opaque comes to, with what is done there.  Such a
drawable only goes past the items that it does not meet, and into the items around it. -/
def firstEqual (item : DrawItem) (root : Bool) : List TreeItem -> Option Ending
  | [] => none
  | sibling :: rest =>
      if Disjoint item.rgn sibling.rgn then
        match findShadow sibling with
        | none => firstEqual item root rest
        | some shadow => if root = true ∧ Not (Disjoint item.rgn shadow.rgn) then none else firstEqual item root rest
      else
        match placeOf item sibling with
        | .equal ending => some ending
        | .inside => equalInside item sibling
        | _ => none

def equalInside (item : DrawItem) : TreeItem -> Option Ending
  | .draw _ => none
  | .container _ items => firstEqual item false items

end

theorem firstEqual_pass {root : Bool} (rest : List TreeItem)
    (apart : Disjoint item.rgn sibling.rgn)
    (clear : root = true -> forall shadow, findShadow sibling = some shadow -> Disjoint item.rgn shadow.rgn) :
    firstEqual item root (sibling :: rest) = firstEqual item root rest := by
  rw [firstEqual, if_pos apart]
  cases isShadow : findShadow sibling with
  | none => rfl
  | some shadow =>
      simp only
      rw [if_neg (fun stops => stops.2 (clear stops.1 shadow isShadow))]

theorem firstEqual_atShadow {root : Bool} {shadow : Shadow} (rest : List TreeItem)
    (isRoot : root = true) (apart : Disjoint item.rgn sibling.rgn) (isShadow : findShadow sibling = some shadow)
    (meets : Not (Disjoint item.rgn shadow.rgn)) : firstEqual item root (sibling :: rest) = none := by
  rw [firstEqual, if_pos apart, isShadow]
  simp only
  rw [if_pos ⟨isRoot, meets⟩]

/-- How a drawable is added that is not opaque. -/
theorem addLoop_firstEqual (transparent : item.drawable.effect ≠ .opaqueDraw) :
    forall (fuel : Nat) (container : Option Nat) (before rest : List TreeItem) (walk : Walk) (added : Added),
      addLoop item fuel container before none rest walk = some added ->
        added.ending = (firstEqual item container.isNone rest).getD .inserted := by
  intro fuel
  induction fuel with
  | zero =>
      intro _ _ _ _ _ isAdded
      cases isAdded
  | succ fuel ih =>
      intro container before rest walk added isAdded
      cases rest with
      | nil =>
          cases isAdded
          exact insertItem_ending item container before none walk
      | cons sibling rest =>
          cases addLoop_iteration isAdded with
          | pass apart clear loop =>
              rw [firstEqual_pass rest apart clear]
              exact ih _ _ _ _ _ loop
          | atShadow shadow isRoot apart isShadow meets ends =>
              rw [firstEqual_atShadow rest isRoot apart isShadow meets, ends, insertAtShadow_ending]
              rfl
          | equal _ ending meets place same isEqual ends =>
              rw [firstEqual, if_neg meets, place, ends]
              rfl
          | remove _ meets place covers isOpaque noShadow loop => exact absurd isOpaque transparent
          | removeShadow shadow meets place covers isOpaque isShadow loop => exact absurd isOpaque transparent
          | insideContainer _ flushed head items inner meets place within isOpaque isFlushed isContainer loop ends =>
              cases isFlushed
              simp only at isContainer loop
              subst isContainer
              have inside := ih _ _ _ _ _ loop
              rw [firstEqual, if_neg meets, place, ends]
              exact inside
          | insideRoot _ flushed other meets place within isOpaque isFlushed isDraw isRoot ends =>
              cases isFlushed
              simp only at isDraw
              subst isDraw
              rw [firstEqual, if_neg meets, place, ends, insertItem_ending]
              rfl
          | insideNew _ flushed other inner meets place within isOpaque isFlushed isDraw notRoot isInner ends =>
              cases isFlushed
              simp only at isDraw
              subst isDraw
              rw [firstEqual, if_neg meets, place, ends, isInner]
              exact insertItem_ending _ _ _ _ _
          | overlaps _ meets place notCovered notInside ends =>
              rw [firstEqual, if_neg meets, place, ends, insertItem_ending]
              rfl

/-- The item of a drawable as it gets into the tree: a `COPY_BITS` has a shadow. -/
def newItem (drawable : Drawable) (rgn : Region) : DrawItem where
  drawable := drawable
  rgn := rgn
  container := none
  shadow :=
    match drawable.type with
    | .copyBits srcX srcY =>
        some { rgn := Region.offset rgn (srcX - drawable.bbox.left) (srcY - drawable.bbox.top), onHold := ∅ }
    | _ => none
  containerRoot := false

/-- An item with a shadow is added. -/
theorem redCurrentAddWithShadow_adds (ring : List TreeItem) (item : DrawItem) (x y : Int) (rgn : Region)
    (asserted : Bool) :
    Adds { item with shadow := some { rgn := Region.offset item.rgn x y, onHold := ∅ } } ring (.start rgn asserted)
      (redCurrentAddWithShadow ring item x y) := by
  unfold redCurrentAddWithShadow
  split
  · exact ⟨⟨tally (drawsAll ring), by simp [Ending.gained], by simp [Tree.account, Ending.lost, Walk.start]⟩, rfl,
      Nat.zero_le _⟩
  · simp only
    split
    · have others := excludeRoot_conserves ring (excludeShadow
        (.draw { item with shadow := some { rgn := Region.offset item.rgn x y, onHold := ∅ } })
          (.start item.rgn true)).2
      have started : Conserves ring (.start rgn asserted) ring (excludeShadow
          (.draw { item with shadow := some { rgn := Region.offset item.rgn x y, onHold := ∅ } })
            (.start item.rgn true)).2 :=
        ⟨rfl, rfl⟩
      exact Adds.front rfl (started.trans others)
    · have started : Conserves ring (.start rgn asserted) ring (.start ∅ true) := ⟨rfl, rfl⟩
      exact Adds.front rfl started

/-- Any item is added, or it replaces another. -/
theorem redCurrentAddQxl_adds {ring : List TreeItem} {drawable : Drawable} {rgn : Region} {added : Added}
    (isAdded : redCurrentAddQxl ring drawable rgn = some added) :
    Adds (newItem drawable rgn) ring (.start ∅ true) added := by
  unfold redCurrentAddQxl at isAdded
  simp only at isAdded
  split at isAdded
  · next srcX srcY isCopy =>
      cases isAdded
      have isItem : newItem drawable rgn = DrawItem.mk drawable rgn none
          (some { rgn := Region.offset rgn (srcX - drawable.bbox.left) (srcY - drawable.bbox.top), onHold := ∅ })
            false := by
        simp only [newItem, isCopy]
      rw [isItem]
      exact redCurrentAddWithShadow_adds ring
        { drawable := drawable, rgn := rgn, container := none, shadow := none, containerRoot := false }
        _ _ ∅ true
  · next notCopy =>
      have isItem : newItem drawable rgn = DrawItem.mk drawable rgn none none false := by
        simp only [newItem]
      rw [isItem]
      have adds := addLoop_adds _ _ _ _ _ _ _ isAdded
      have started : Conserves ring (.start ∅ true) ring (.start ∅ (decide (rgn ≠ ∅))) := ⟨rfl, rfl⟩
      exact adds.after_conserves started

/-- Only an opaque drawable or an opaque brush is put in the place of another. -/
theorem redCurrentAddQxl_replaced {ring : List TreeItem} {drawable : Drawable} {rgn : Region} {added : Added}
    {other : DrawItem} (isAdded : redCurrentAddQxl ring drawable rgn = some added)
    (ends : added.ending = .replaced other) :
    (newItem drawable rgn).shadow = none ∧ (drawable.effect = .opaqueDraw ∨
        drawable.effect = .opaqueBrush ∧ firstEqual (newItem drawable rgn) true ring = some (.replaced other)) := by
  unfold redCurrentAddQxl at isAdded
  simp only at isAdded
  split at isAdded
  · cases isAdded
    unfold redCurrentAddWithShadow at ends
    split at ends
    · cases ends
    · simp only at ends
      split at ends
      · cases ends
      · cases ends
  · next notCopy =>
      have isItem : newItem drawable rgn = DrawItem.mk drawable rgn none none false := by
        simp only [newItem]
      rw [isItem]
      refine ⟨rfl, ?_⟩
      by_cases isOpaque : drawable.effect = .opaqueDraw
      · exact Or.inl isOpaque
      · have found := addLoop_firstEqual isOpaque _ _ _ _ _ _ isAdded
        rw [ends, Option.isNone_none] at found
        rcases addLoop_ending _ _ _ _ _ _ _ isAdded with inserted | ⟨equal, isEqual⟩
        · rw [ends] at inserted
          cases inserted
        · refine Or.inr ⟨?_, ?_⟩
          · rcases isEqual.cases with ⟨_, isEffect | isEffect⟩ | ⟨isEnding, _⟩ | ⟨isEnding, _⟩
            · exact absurd isEffect isOpaque
            · exact isEffect
            · rw [ends] at isEnding
              cases isEnding
            · rw [ends] at isEnding
              cases isEnding
          · cases isFirst : firstEqual (DrawItem.mk drawable rgn none none false) true ring with
            | none =>
                rw [isFirst] at found
                cases found
            | some ending =>
                rw [isFirst] at found
                exact congrArg some found.symm

theorem tally_setContainer (container : Option Nat) (items : List TreeItem) :
    tally (drawsAll (items.map (TreeItem.setContainer container))) = tally (drawsAll items) := by
  induction items with
  | nil => rfl
  | cons item rest ih =>
      have same : tally (draws (item.setContainer container)) = tally (draws item) := by
        cases item with
        | draw item => rfl
        | container head items => rfl
      rw [List.map_cons, drawsAll_cons, drawsAll_cons, tally_append, tally_append, ih, same]

theorem containersAll_setContainer (container : Option Nat) (items : List TreeItem) :
    containersAll (items.map (TreeItem.setContainer container)) = containersAll items := by
  induction items with
  | nil => rfl
  | cons item rest ih =>
      have same : containers (item.setContainer container) = containers item := by
        cases item with
        | draw item => rfl
        | container head items => rfl
      rw [List.map_cons, containersAll_cons, containersAll_cons, ih, same]

mutual

/-- A drawable that is freed leaves the tree. -/
theorem freeDrawable_conserves (key : Nat) : forall item : TreeItem,
    tally (drawsAll (freeDrawable key item).items) + tally (freeDrawable key item).removed = tally (draws item) ∧
      containersAll (freeDrawable key item).items + (freeDrawable key item).containers = containers item
  | .draw item => by
      simp only [freeDrawable]
      split
      · simp
      · simp
  | .container head items => by
      have inner := freeDrawables_conserves key items
      simp only [freeDrawable]
      split
      · simp only [tally_setContainer, containersAll_setContainer, containers_container, draws_container]
        exact ⟨inner.1, by omega⟩
      · refine ⟨?_, ?_⟩
        · simp only [drawsAll_cons, draws_container, drawsAll_nil, List.append_nil]
          exact inner.1
        · simp only [containersAll_cons, containers_container, containersAll_nil]
          omega

theorem freeDrawables_conserves (key : Nat) : forall items : List TreeItem,
    tally (drawsAll (freeDrawables key items).items) + tally (freeDrawables key items).removed =
      tally (drawsAll items) ∧
      containersAll (freeDrawables key items).items + (freeDrawables key items).containers = containersAll items
  | [] => by simp [freeDrawables]
  | item :: rest => by
      have first := freeDrawable_conserves key item
      have others := freeDrawables_conserves key rest
      simp only [freeDrawables, drawsAll_append, tally_append, containersAll_append, drawsAll_cons, containersAll_cons]
      refine ⟨?_, by omega⟩
      rw [<- first.1, <- others.1]
      abel

end

end Tree
end Spice
