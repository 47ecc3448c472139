import Spice.Lib.Numbers
import Mathlib.Data.Finset.Image
import Mathlib.Data.Finset.Max
import Mathlib.Data.Finset.SDiff
import Mathlib.Data.List.Perm.Basic
import Mathlib.Order.Interval.Finset.Defs

namespace Spice
namespace Tree

/-!
# The current tree

The drawables that a surface shows are kept in rings, the newest first.  A drawable
that lies inside an opaque one goes to a container, which has a ring of its own and
the opaque drawable, its root, at the end.  A `COPY_BITS` has a shadow, the area that
it reads, right behind it.

A drawable that is hidden is taken out of the tree, and a part of one that is hidden
out of its region.  What a shadow covers must not be taken away from the drawables
below, since it is still to be read; the shadow keeps it `on_hold`.

Here the rings are lists.  A shadow is kept with its owner: it is linked only in the
ring of the surface, right behind the item of that ring that its owner is the end of.
Regions are sets of pixels, with exact operations.
-/

abbrev Region := Finset (Int × Int)

namespace Region

def offset (rgn : Region) (x y : Int) : Region := rgn.image (fun point => (point.1 + x, point.2 + y))

/-- `extents.x1` and `extents.y1`. -/
def left (rgn : Region) : Int := (rgn.image Prod.fst).min.untopD 0

def top (rgn : Region) : Int := (rgn.image Prod.snd).min.untopD 0

end Region

/-- `QXL_EFFECT_*`. -/
inductive Effect
  | blend
  | opaqueDraw
  | revertOnDup
  | blacknessOnDup
  | whitenessOnDup
  | nopOnDup
  | nop
  | opaqueBrush
deriving DecidableEq

/-- `SpiceBrush`, as far as it is compared. -/
inductive Brush
  | solid (color : Nat)
  | other
deriving DecidableEq

/-- `SpiceLineAttr`, as far as it is compared. -/
structure LineAttr where
  flags : Nat
  styleNseg : Nat
deriving DecidableEq

structure Rect where
  left : Int
  top : Int
  right : Int
  bottom : Int
deriving DecidableEq

/-- The type of a `RedDrawable`, with what is read of it here.  A path is its segments, with
their flags and points. -/
inductive DrawType
  | stroke (attr : LineAttr) (path : List (Nat × List (Int × Int))) (brush : Brush)
  | fill (brush : Brush)
  | copyBits (srcX srcY : Int)
  | other
deriving DecidableEq

/-- `Drawable`, as it was queued. -/
structure Drawable where
  key : Nat
  surfaceId : Nat
  effect : Effect
  bbox : Rect
  type : DrawType
deriving DecidableEq

def isEqualBrush : Brush -> Brush -> Bool
  | .solid one, .solid two => one == two
  | _, _ => false

def isEqualLineAttr (one two : LineAttr) : Bool :=
  one.flags == two.flags && one.styleNseg == two.styleNseg && one.styleNseg == 0

def isSameGeometry (one two : Drawable) : Bool :=
  match one.type, two.type with
  | .stroke attr path _, .stroke otherAttr otherPath _ => isEqualLineAttr attr otherAttr && path == otherPath
  | .fill _, .fill _ => one.bbox == two.bbox
  | _, _ => false

def isSameDrawable (one two : Drawable) : Bool :=
  isSameGeometry one two &&
    match one.type, two.type with
    | .stroke _ _ brush, .stroke _ _ otherBrush => isEqualBrush brush otherBrush
    | .fill brush, .fill otherBrush => isEqualBrush brush otherBrush
    | _, _ => false

structure Shadow where
  rgn : Region
  onHold : Region
deriving DecidableEq

/-- `DrawItem`, with the drawable that it belongs to, and its container. -/
structure DrawItem where
  drawable : Drawable
  rgn : Region
  container : Option Nat
  shadow : Option Shadow
  containerRoot : Bool
deriving DecidableEq

/-- `Container`, without its items: which one it is, and its own container. -/
structure Container where
  id : Nat
  container : Option Nat
  rgn : Region
deriving DecidableEq

/-- `TreeItem`: a drawable, or a container with its items. -/
inductive TreeItem
  | draw (item : DrawItem)
  | container (head : Container) (items : List TreeItem)

namespace TreeItem

def rgn : TreeItem -> Region
  | draw item => item.rgn
  | container head _ => head.rgn

/-- The `container` of an item is set. -/
def setContainer (container : Option Nat) : TreeItem -> TreeItem
  | .draw item => .draw { item with container := container }
  | .container head items => .container { head with container := container } items

def isOpaqueItem : TreeItem -> Bool
  | draw item => item.drawable.effect == .opaqueDraw
  | container _ _ => true

end TreeItem

mutual

/-- `__find_shadow`, with its owner: the drawable at the end. -/
def findOwner : TreeItem -> Option DrawItem
  | .draw item => some item
  | .container _ items => findLastOwner items

def findLastOwner : List TreeItem -> Option DrawItem
  | [] => none
  | [item] => findOwner item
  | _ :: item :: rest => findLastOwner (item :: rest)

end

def findShadow (item : TreeItem) : Option Shadow := (findOwner item).bind (fun owner => owner.shadow)

mutual

/-- Change the shadow of the drawable at the end. -/
def mapShadow (change : Shadow -> Shadow) : TreeItem -> TreeItem
  | .draw item => .draw { item with shadow := item.shadow.map change }
  | .container head items => .container head (mapLastShadow change items)

def mapLastShadow (change : Shadow -> Shadow) : List TreeItem -> List TreeItem
  | [] => []
  | [item] => [mapShadow change item]
  | first :: item :: rest => first :: mapLastShadow change (item :: rest)

end

mutual

def draws : TreeItem -> List DrawItem
  | .draw item => [item]
  | .container _ items => drawsAll items

def drawsAll : List TreeItem -> List DrawItem
  | [] => []
  | item :: rest => draws item ++ drawsAll rest

end

mutual

def containers : TreeItem -> Nat
  | .draw _ => 0
  | .container _ items => containersAll items + 1

def containersAll : List TreeItem -> Nat
  | [] => 0
  | item :: rest => containers item + containersAll rest

end

/-- What happens to the tree: the region that is left to exclude, the drawables and the number of
containers that were removed, and whether all assertions held. -/
structure Walk where
  rgn : Region
  removed : List DrawItem
  containers : Nat
  asserted : Bool

namespace Walk

variable (walk : Walk)

/-- The assertion of `exclude_region` that no region is empty.  It is made here also for the
items behind the point where nothing is left to exclude. -/
def visit (rgn : Region) : Walk := { walk with asserted := walk.asserted && decide (rgn ≠ ∅) }

def currentRemove (item : TreeItem) : Walk :=
  { walk with removed := draws item ++ walk.removed, containers := walk.containers + Tree.containers item }

end Walk

/-- `__exclude_region` of a drawable. -/
def excludeDraw (rgn : Region) (item : DrawItem) : DrawItem × Region :=
  let andRgn := rgn ∩ item.rgn
  if andRgn = ∅ then (item, rgn)
  else
    let rgn := if item.drawable.effect = .opaqueDraw then rgn \ andRgn else rgn
    match item.shadow with
    | none => ({ item with rgn := item.rgn \ andRgn }, rgn)
    | some shadow =>
        let moved := Region.offset andRgn (Region.left shadow.rgn - Region.left item.rgn)
          (Region.top shadow.rgn - Region.top item.rgn)
        let held := moved ∩ shadow.onHold
        ({ item with
            rgn := item.rgn \ andRgn
            shadow := some { rgn := shadow.rgn \ moved, onHold := shadow.onHold \ held } }, rgn ∪ held)

/-- What the shadow behind an item has on hold. -/
def heldBehind (item : TreeItem) : Region :=
  match findShadow item with
  | none => ∅
  | some shadow => shadow.onHold

mutual

/-- `exclude_region` for one item, without the shadow behind it. -/
def exclude : TreeItem -> Walk -> Option TreeItem × Walk
  | .draw item, walk =>
      let walk := walk.visit item.rgn
      let result := excludeDraw walk.rgn item
      if result.1.rgn = ∅ then (none, { walk with rgn := result.2 }.currentRemove (.draw result.1))
      else (some (.draw result.1), { walk with rgn := result.2 })
  | .container head items, walk =>
      let walk := walk.visit head.rgn
      let andRgn := walk.rgn ∩ head.rgn
      if andRgn = ∅ then (some (.container head items), walk)
      else if head.rgn \ andRgn = ∅ then
        (none, { walk with rgn := (walk.rgn \ andRgn) ∪ heldBehind (.container head items) }.currentRemove
          (.container head items))
      else
        let result := excludeAll items walk
        (some (.container { head with rgn := head.rgn \ andRgn } result.1), result.2)

/-- `exclude_region` in the ring of a container. -/
def excludeAll : List TreeItem -> Walk -> List TreeItem × Walk
  | [], walk => ([], walk)
  | item :: rest, walk =>
      let first := exclude item walk
      let others := excludeAll rest first.2
      (first.1.toList ++ others.1, others.2)

end

/-- `exclude_region` for the shadow behind an item of the surface's ring. -/
def excludeShadow (item : TreeItem) (walk : Walk) : TreeItem × Walk :=
  match findShadow item with
  | none => (item, walk)
  | some shadow =>
      let walk := walk.visit shadow.rgn
      let andRgn := walk.rgn ∩ shadow.rgn
      (mapShadow (fun shadow => { shadow with onHold := shadow.onHold ∪ andRgn }) item,
        { walk with rgn := walk.rgn \ andRgn })

/-- `exclude_region` in the ring of the surface. -/
def excludeRoot : List TreeItem -> Walk -> List TreeItem × Walk
  | [], walk => ([], walk)
  | item :: rest, walk =>
      match exclude item walk with
      | (none, walk) => excludeRoot rest walk
      | (some item, walk) =>
          let behind := excludeShadow item walk
          let others := excludeRoot rest behind.2
          (behind.1 :: others.1, others.2)

def excludeRegion (root : Bool) (items : List TreeItem) (walk : Walk) : List TreeItem × Walk :=
  if root then excludeRoot items walk else excludeAll items walk

/-- `exclude_region` that has removed the item where it was to stop: it goes on until an item
stays. -/
def excludeNext : List TreeItem -> Walk -> List TreeItem × Walk
  | [], walk => ([], walk)
  | item :: rest, walk =>
      match exclude item walk with
      | (none, walk) => excludeNext rest walk
      | (some item, walk) => (item :: rest, walk)

/-- How a drawable is added: it is inserted, or `red_current_add_equal` has dealt with it, putting it
in the place of another, removing the other, or doing nothing; or it is ignored. -/
inductive Ending
  | inserted
  | replaced (other : DrawItem)
  | reverted (other : DrawItem)
  | repeated (other : DrawItem)
  | ignored
deriving DecidableEq

def redCurrentAddEqual (item : DrawItem) : TreeItem -> Option Ending
  | .container _ _ => none
  | .draw other =>
      if item.shadow.isSome || other.shadow.isSome || item.drawable.effect != other.drawable.effect then none
      else
        match item.drawable.effect with
        | .opaqueDraw => some (.replaced other)
        | .revertOnDup => if isSameDrawable item.drawable other.drawable then some (.reverted other) else none
        | .opaqueBrush => if isSameGeometry item.drawable other.drawable then some (.replaced other) else none
        | .nopOnDup => if isSameDrawable item.drawable other.drawable then some (.repeated other) else none
        | _ => none

/-- A ring after `red_current_add`, with the number of new containers. -/
structure Added where
  ring : List TreeItem
  walk : Walk
  newContainers : Nat
  ending : Ending

/-- `__current_add_drawable` in the ring of a container, or of the surface.  The walk has left the
container in the item. -/
def addedTo (container : Option Nat) (item : DrawItem) : TreeItem := .draw { item with container := container }

def equalRing (item : DrawItem) (container : Option Nat) (ending : Ending) (sibling : TreeItem) : List TreeItem :=
  match ending with
  | .replaced _ => [addedTo container item]
  | .reverted _ => []
  | _ => [sibling]

/-- The end of `red_current_add`.  The ring is cut at `exclude_base`; there is none when the walk
has come to the end. -/
def insertItem (item : DrawItem) (container : Option Nat) (before : List TreeItem) (base : Option (List TreeItem))
    (walk : Walk) : Added :=
  match base with
  | none => { ring := addedTo container item :: before, walk := walk, newContainers := 0, ending := .inserted }
  | some behind =>
      if item.drawable.effect = .opaqueDraw then
        let result := excludeRegion container.isNone behind { walk with rgn := walk.rgn ∪ item.rgn }
        { ring := addedTo container item :: (before ++ result.1), walk := result.2, newContainers := 0
          ending := .inserted }
      else
        { ring := addedTo container item :: (before ++ behind), walk := walk, newContainers := 0, ending := .inserted }

/-- The same in the ring of the surface when `exclude_base` is the shadow behind an item. -/
def insertAtShadow (item : DrawItem) (before : List TreeItem) (owner : TreeItem) (behind : List TreeItem)
    (walk : Walk) :
    Added :=
  if item.drawable.effect = .opaqueDraw then
    let first := excludeShadow owner { walk with rgn := walk.rgn ∪ item.rgn }
    let others := excludeRoot behind first.2
    { ring := addedTo none item :: (before ++ first.1 :: others.1), walk := others.2, newContainers := 0
      ending := .inserted }
  else
    { ring := addedTo none item :: (before ++ owner :: behind), walk := walk, newContainers := 0, ending := .inserted }

/-- The ring from `exclude_base` on, when the walk is at `rest`. -/
def fromBase (pending : Option (List TreeItem)) (rest : List TreeItem) : List TreeItem := pending.getD [] ++ rest

/-- The tests of `red_current_add` for a sibling that the drawable shares pixels with. -/
inductive Place
  | equal (ending : Ending)
  | contains
  | inside
  | overlaps
deriving DecidableEq

def placeOf (item : DrawItem) (sibling : TreeItem) : Place :=
  match if item.rgn = sibling.rgn then redCurrentAddEqual item sibling else none with
  | some ending => .equal ending
  | none =>
      if sibling.rgn ⊆ item.rgn ∧ item.drawable.effect = .opaqueDraw then .contains
      else if item.rgn ⊆ sibling.rgn ∧ sibling.isOpaqueItem = true then .inside
      else .overlaps

/-- The item before the walk went into a container, and what is left of the walk. -/
structure Flushed where
  before : List TreeItem
  sibling : TreeItem
  rest : List TreeItem
  walk : Walk

/-- `exclude_region` before the drawable goes into an item.  Nothing, when the item itself is removed
and used afterwards. -/
def flushInside (root : Bool) (before : List TreeItem) (pending : Option (List TreeItem)) (sibling : TreeItem)
    (rest : List TreeItem) (walk : Walk) : Option Flushed :=
  match pending with
  | none => some { before := before, sibling := sibling, rest := rest, walk := walk }
  | some passed =>
      let first := excludeRegion root passed walk
      match exclude sibling first.2 with
      | (none, _) => none
      | (some sibling, walk) =>
          let behind := if root then excludeShadow sibling walk else (sibling, walk)
          let others := excludeRegion root rest behind.2
          some {
            before := before ++ first.1
            sibling := behind.1
            rest := others.1
            walk := { others.2 with rgn := ∅ } }

/-- `__new_container`, for a drawable that others get into.  A container is known by the drawable
that it was made for. -/
def newContainer (item other : DrawItem) : Container where
  id := item.drawable.key
  container := other.container
  rgn := other.rgn

/-- The loop of `red_current_add` in one ring, which is that of a container or of the surface.
`before` is what was passed before `exclude_base`, and `pending` what was passed from there on;
`walk.rgn` is `exclude_rgn`. -/
def addLoop (item : DrawItem) : Nat -> Option Nat -> List TreeItem -> Option (List TreeItem) -> List TreeItem -> Walk ->
    Option Added
  | 0, _, _, _, _, _ => none
  | _ + 1, container, before, pending, [], walk => some (insertItem item container before pending walk)
  | fuel + 1, container, before, pending, sibling :: rest, walk =>
      let root := container.isNone
      let pass := fun (passed : TreeItem) =>
        match pending with
        | none => addLoop item fuel container (before ++ [passed]) none rest walk
        | some others => addLoop item fuel container before (some (others ++ [passed])) rest walk
      if Disjoint item.rgn sibling.rgn then
        match findShadow sibling with
        | none => pass sibling
        | some shadow =>
            if root = true ∧ Not (Disjoint item.rgn shadow.rgn) then
              match pending with
              | none => some (insertAtShadow item before sibling rest walk)
              | some others => some (insertItem item container before (some (others ++ sibling :: rest)) walk)
            else pass sibling
      else
        match placeOf item sibling with
        | .equal ending =>
            some { ring := before ++ fromBase pending (equalRing item container ending sibling ++ rest), walk := walk
                   newContainers := 0, ending := ending }
        | .contains =>
            match findOwner sibling, findShadow sibling, pending with
            | some owner, some _, some others =>
                let first := excludeRegion root others walk
                match exclude sibling first.2 with
                | (none, walk) =>
                    let next := excludeNext rest walk
                    addLoop item fuel container (before ++ first.1) none next.1 next.2
                | (some sibling, walk) =>
                    match findOwner sibling with
                    | none => none
                    | some left =>
                        if left.drawable.key = owner.drawable.key then
                          addLoop item fuel container (before ++ first.1) (some []) rest
                            ({ walk with rgn := walk.rgn ∪ heldBehind sibling }.currentRemove sibling)
                        else none
            | _, some shadow, none =>
                addLoop item fuel container before (some []) rest
                  ({ walk with rgn := walk.rgn ∪ shadow.onHold }.currentRemove sibling)
            | _, _, _ => addLoop item fuel container before pending rest (walk.currentRemove sibling)
        | .inside =>
            match flushInside root before pending sibling rest walk with
            | none => none
            | some flushed =>
                match flushed.sibling with
                | .container head items =>
                    (addLoop item fuel (some head.id) [] none items flushed.walk).map (fun added =>
                      { added with ring := flushed.before ++ .container head added.ring :: flushed.rest })
                | .draw other =>
                    if other.containerRoot then
                      some (insertItem item container flushed.before (some (.draw other :: flushed.rest)) flushed.walk)
                    else
                      let head := newContainer item other
                      let inner := insertItem item (some head.id) []
                        (some [.draw { other with container := some head.id, containerRoot := true }]) flushed.walk
                      some { inner with
                        ring := flushed.before ++ .container head inner.ring :: flushed.rest
                        newContainers := inner.newContainers + 1 }
        | .overlaps => some (insertItem item container before (some (fromBase pending (sibling :: rest))) walk)

/-- What one round of the loop of `red_current_add` can do. -/
inductive Iteration (item : DrawItem) (fuel : Nat) (container : Option Nat) (before : List TreeItem)
    (sibling : TreeItem)
    (rest : List TreeItem) (walk : Walk) (added : Added) : Option (List TreeItem) -> Prop
  | pass (apart : Disjoint item.rgn sibling.rgn)
      (clear : container.isNone = true -> forall shadow, findShadow sibling = some shadow ->
        Disjoint item.rgn shadow.rgn)
      (loop : addLoop item fuel container (before ++ [sibling]) none rest walk = some added) :
      Iteration item fuel container before sibling rest walk added none
  | passBehind (others : List TreeItem) (apart : Disjoint item.rgn sibling.rgn)
      (clear : container.isNone = true -> forall shadow, findShadow sibling = some shadow ->
        Disjoint item.rgn shadow.rgn)
      (loop : addLoop item fuel container before (some (others ++ [sibling])) rest walk = some added) :
      Iteration item fuel container before sibling rest walk added (some others)
  | atShadow (shadow : Shadow) (isRoot : container.isNone = true) (apart : Disjoint item.rgn sibling.rgn)
      (isShadow : findShadow sibling = some shadow) (meets : Not (Disjoint item.rgn shadow.rgn))
      (ends : added = insertAtShadow item before sibling rest walk) :
      Iteration item fuel container before sibling rest walk added none
  | behindShadow (others : List TreeItem) (shadow : Shadow) (isRoot : container.isNone = true)
      (apart : Disjoint item.rgn sibling.rgn) (isShadow : findShadow sibling = some shadow)
      (meets : Not (Disjoint item.rgn shadow.rgn))
      (ends : added = insertItem item container before (some (others ++ sibling :: rest)) walk) :
      Iteration item fuel container before sibling rest walk added (some others)
  | equal (pending : Option (List TreeItem)) (ending : Ending) (meets : Not (Disjoint item.rgn sibling.rgn))
      (place : placeOf item sibling = .equal ending) (same : item.rgn = sibling.rgn)
      (isEqual : redCurrentAddEqual item sibling = some ending)
      (ends : added = {
        ring := before ++ fromBase pending (equalRing item container ending sibling ++ rest)
        walk := walk
        newContainers := 0
        ending := ending }) :
      Iteration item fuel container before sibling rest walk added pending
  | remove (pending : Option (List TreeItem)) (meets : Not (Disjoint item.rgn sibling.rgn))
      (place : placeOf item sibling = .contains) (covers : sibling.rgn ⊆ item.rgn)
      (isOpaque : item.drawable.effect = .opaqueDraw) (noShadow : findShadow sibling = none)
      (loop : addLoop item fuel container before pending rest (walk.currentRemove sibling) = some added) :
      Iteration item fuel container before sibling rest walk added pending
  | removeShadow (shadow : Shadow) (meets : Not (Disjoint item.rgn sibling.rgn))
      (place : placeOf item sibling = .contains) (covers : sibling.rgn ⊆ item.rgn)
        (isOpaque : item.drawable.effect = .opaqueDraw)
      (isShadow : findShadow sibling = some shadow)
      (loop : addLoop item fuel container before (some []) rest
        ({ walk with rgn := walk.rgn ∪ shadow.onHold }.currentRemove sibling) = some added) :
      Iteration item fuel container before sibling rest walk added none
  | removeFlushed (others : List TreeItem) (left : TreeItem) (owner leftOwner : DrawItem) (after : Walk)
      (meets : Not (Disjoint item.rgn sibling.rgn)) (place : placeOf item sibling = .contains)
      (covers : sibling.rgn ⊆ item.rgn) (isOpaque : item.drawable.effect = .opaqueDraw)
      (isOwner : findOwner sibling = some owner) (hasShadow : owner.shadow.isSome = true)
      (excluded : exclude sibling (excludeRegion container.isNone others walk).2 = (some left, after))
      (stays : findOwner left = some leftOwner) (same : leftOwner.drawable.key = owner.drawable.key)
      (loop : addLoop item fuel container (before ++ (excludeRegion container.isNone others walk).1) (some []) rest
        ({ after with rgn := after.rgn ∪ heldBehind left }.currentRemove left) = some added) :
      Iteration item fuel container before sibling rest walk added (some others)
  | flushedAway (others : List TreeItem) (after : Walk) (meets : Not (Disjoint item.rgn sibling.rgn))
      (place : placeOf item sibling = .contains) (covers : sibling.rgn ⊆ item.rgn)
      (isOpaque : item.drawable.effect = .opaqueDraw) (hasShadow : (findShadow sibling).isSome = true)
      (excluded : exclude sibling (excludeRegion container.isNone others walk).2 = (none, after))
      (loop : addLoop item fuel container (before ++ (excludeRegion container.isNone others walk).1) none
        (excludeNext rest after).1
        (excludeNext rest after).2 = some added) :
      Iteration item fuel container before sibling rest walk added (some others)
  | insideContainer (pending : Option (List TreeItem)) (flushed : Flushed) (head : Container) (items : List TreeItem)
      (inner : Added) (meets : Not (Disjoint item.rgn sibling.rgn)) (place : placeOf item sibling = .inside)
      (within : item.rgn ⊆ sibling.rgn) (isOpaque : sibling.isOpaqueItem = true)
      (isFlushed : flushInside container.isNone before pending sibling rest walk = some flushed)
      (isContainer : flushed.sibling = .container head items)
      (loop : addLoop item fuel (some head.id) [] none items flushed.walk = some inner)
      (ends : added = { inner with ring := flushed.before ++ .container head inner.ring :: flushed.rest }) :
      Iteration item fuel container before sibling rest walk added pending
  | insideRoot (pending : Option (List TreeItem)) (flushed : Flushed) (other : DrawItem)
      (meets : Not (Disjoint item.rgn sibling.rgn)) (place : placeOf item sibling = .inside)
      (within : item.rgn ⊆ sibling.rgn) (isOpaque : sibling.isOpaqueItem = true)
      (isFlushed : flushInside container.isNone before pending sibling rest walk = some flushed)
      (isDraw : flushed.sibling = .draw other) (isRoot : other.containerRoot = true)
      (ends : added = insertItem item container flushed.before (some (.draw other :: flushed.rest)) flushed.walk) :
      Iteration item fuel container before sibling rest walk added pending
  | insideNew (pending : Option (List TreeItem)) (flushed : Flushed) (other : DrawItem) (inner : Added)
      (meets : Not (Disjoint item.rgn sibling.rgn)) (place : placeOf item sibling = .inside)
      (within : item.rgn ⊆ sibling.rgn) (isOpaque : sibling.isOpaqueItem = true)
      (isFlushed : flushInside container.isNone before pending sibling rest walk = some flushed)
      (isDraw : flushed.sibling = .draw other) (notRoot : other.containerRoot = false)
      (isInner : inner = insertItem item (some (newContainer item other).id) []
        (some [.draw { other with container := some (newContainer item other).id, containerRoot := true }])
          flushed.walk)
      (ends : added = { inner with
        ring := flushed.before ++ .container (newContainer item other) inner.ring :: flushed.rest
        newContainers := inner.newContainers + 1 }) :
      Iteration item fuel container before sibling rest walk added pending
  | overlaps (pending : Option (List TreeItem)) (meets : Not (Disjoint item.rgn sibling.rgn))
      (place : placeOf item sibling = .overlaps)
      (notCovered : Not (sibling.rgn ⊆ item.rgn ∧ item.drawable.effect = .opaqueDraw))
      (notInside : Not (item.rgn ⊆ sibling.rgn ∧ sibling.isOpaqueItem = true))
      (ends : added = insertItem item container before (some (fromBase pending (sibling :: rest))) walk) :
      Iteration item fuel container before sibling rest walk added pending

theorem findShadow_eq {item : TreeItem} {shadow : Shadow} (isShadow : findShadow item = some shadow) :
    Exists fun owner => findOwner item = some owner ∧ owner.shadow = some shadow :=
  Option.bind_eq_some_iff.mp isShadow

variable {sibling : TreeItem}

theorem placeOf_equal {item : DrawItem} {ending : Ending} (place : placeOf item sibling = .equal ending) :
    item.rgn = sibling.rgn ∧ redCurrentAddEqual item sibling = some ending := by
  unfold placeOf at place
  split at place
  · next found isEqual =>
      cases place
      split at isEqual
      · next same => exact ⟨same, isEqual⟩
      · cases isEqual
  · split at place
    · cases place
    · split at place
      · cases place
      · cases place

theorem placeOf_contains {item : DrawItem} (place : placeOf item sibling = .contains) :
    sibling.rgn ⊆ item.rgn ∧ item.drawable.effect = .opaqueDraw := by
  unfold placeOf at place
  split at place
  · cases place
  · split at place
    · next covers => exact covers
    · split at place
      · cases place
      · cases place

theorem placeOf_inside {item : DrawItem} (place : placeOf item sibling = .inside) :
    item.rgn ⊆ sibling.rgn ∧ sibling.isOpaqueItem = true := by
  unfold placeOf at place
  split at place
  · cases place
  · split at place
    · cases place
    · split at place
      · next within => exact within
      · cases place

theorem placeOf_overlaps {item : DrawItem} (place : placeOf item sibling = .overlaps) :
    Not (sibling.rgn ⊆ item.rgn ∧ item.drawable.effect = .opaqueDraw) ∧
      Not (item.rgn ⊆ sibling.rgn ∧ sibling.isOpaqueItem = true) := by
  unfold placeOf at place
  split at place
  · cases place
  · split at place
    · cases place
    · next notCovered =>
        split at place
        · cases place
        · next notInside => exact ⟨notCovered, notInside⟩

/-- What one iteration of the loop does. -/
theorem addLoop_iteration {item : DrawItem} {fuel : Nat} {container : Option Nat} {before : List TreeItem}
    {pending : Option (List TreeItem)} {rest : List TreeItem} {walk : Walk} {added : Added}
    (isAdded : addLoop item (fuel + 1) container before pending (sibling :: rest) walk = some added) :
    Iteration item fuel container before sibling rest walk added pending := by
  unfold addLoop at isAdded
  simp only at isAdded
  by_cases apart : Disjoint item.rgn sibling.rgn
  · rw [if_pos apart] at isAdded
    cases isShadow : findShadow sibling with
    | none =>
        rw [isShadow] at isAdded
        have clear : container.isNone = true -> forall shadow, findShadow sibling = some shadow ->
            Disjoint item.rgn shadow.rgn := by
          intro _ shadow found
          rw [isShadow] at found
          cases found
        cases pending with
        | none => exact .pass apart clear isAdded
        | some others => exact .passBehind others apart clear isAdded
    | some shadow =>
        rw [isShadow] at isAdded
        by_cases meets : container.isNone = true ∧ Not (Disjoint item.rgn shadow.rgn)
        · simp only [if_pos meets] at isAdded
          cases pending with
          | none => exact .atShadow shadow meets.1 apart isShadow meets.2 (Option.some.inj isAdded).symm
          | some others =>
              exact .behindShadow others shadow meets.1 apart isShadow meets.2 (Option.some.inj isAdded).symm
        · simp only [if_neg meets] at isAdded
          have clear : container.isNone = true -> forall other, findShadow sibling = some other ->
              Disjoint item.rgn other.rgn := by
            intro isRoot other found
            rw [isShadow] at found
            cases found
            exact Decidable.not_not.mp (fun notApart => meets ⟨isRoot, notApart⟩)
          cases pending with
          | none => exact .pass apart clear isAdded
          | some others => exact .passBehind others apart clear isAdded
  · rw [if_neg apart] at isAdded
    cases place : placeOf item sibling with
    | equal ending =>
        rw [place] at isAdded
        rcases placeOf_equal place with ⟨same, isEqual⟩
        exact .equal pending ending apart place same isEqual (Option.some.inj isAdded).symm
    | contains =>
        rw [place] at isAdded
        rcases placeOf_contains place with ⟨covers, isOpaque⟩
        cases isShadow : findShadow sibling with
        | none =>
            simp only [isShadow] at isAdded
            have loop : addLoop item fuel container before pending rest (walk.currentRemove sibling) = some added := by
              cases isOwner : findOwner sibling with
              | none =>
                  cases pending with
                  | none => simpa only [isOwner] using isAdded
                  | some others => simpa only [isOwner] using isAdded
              | some owner =>
                  cases pending with
                  | none => simpa only [isOwner] using isAdded
                  | some others => simpa only [isOwner] using isAdded
            exact .remove pending apart place covers isOpaque isShadow loop
        | some shadow =>
            rcases findShadow_eq isShadow with ⟨owner, isOwner, hasShadow⟩
            cases pending with
            | none =>
                simp only [isShadow, isOwner] at isAdded
                exact .removeShadow shadow apart place covers isOpaque isShadow isAdded
            | some others =>
                simp only [isShadow, isOwner] at isAdded
                split at isAdded
                · next after excluded =>
                    exact .flushedAway others after apart place covers isOpaque (by rw [isShadow]; rfl) excluded isAdded
                · next left after excluded =>
                    split at isAdded
                    · cases isAdded
                    · next leftOwner stays =>
                        split at isAdded
                        · next same =>
                            exact .removeFlushed others left owner leftOwner after apart place covers isOpaque isOwner
                              (by rw [hasShadow]; rfl) excluded stays same isAdded
                        · cases isAdded
    | inside =>
        rw [place] at isAdded
        rcases placeOf_inside place with ⟨within, isOpaque⟩
        simp only at isAdded
        split at isAdded
        · cases isAdded
        · next flushed isFlushed =>
            split at isAdded
            · next head items isContainer =>
                rcases Option.map_eq_some_iff.mp isAdded with ⟨inner, loop, ends⟩
                exact .insideContainer pending flushed head items inner apart place within isOpaque isFlushed
                  isContainer loop
                  ends.symm
            · next other isDraw =>
                split at isAdded
                · next isRoot =>
                    exact .insideRoot pending flushed other apart place within isOpaque isFlushed isDraw isRoot
                      (Option.some.inj isAdded).symm
                · next notRoot =>
                    exact .insideNew pending flushed other _ apart place within isOpaque isFlushed isDraw
                      (Bool.not_eq_true _ |>.mp notRoot) rfl (Option.some.inj isAdded).symm
    | overlaps =>
        rw [place] at isAdded
        rcases placeOf_overlaps place with ⟨notCovered, notInside⟩
        exact .overlaps pending apart place notCovered notInside (Option.some.inj isAdded).symm

mutual

/-- The number of items, which bounds the length of a walk. -/
def size : TreeItem -> Nat
  | .draw _ => 1
  | .container _ items => sizeAll items + 1

def sizeAll : List TreeItem -> Nat
  | [] => 0
  | item :: rest => size item + sizeAll rest

end

/-- Nothing has happened yet. -/
def Walk.start (rgn : Region) (asserted : Bool) : Walk :=
  { rgn := rgn, removed := [], containers := 0, asserted := asserted }

def redCurrentAdd (ring : List TreeItem) (item : DrawItem) : Option Added :=
  addLoop item (sizeAll ring + 1) none [] none ring (.start ∅ (decide (item.rgn ≠ ∅)))

/-- `red_current_add_with_shadow`.  Without a distance there is no shadow, and nothing happens. -/
def redCurrentAddWithShadow (ring : List TreeItem) (item : DrawItem) (x y : Int) : Added :=
  if x = 0 ∧ y = 0 then { ring := ring, walk := .start ∅ true, newContainers := 0, ending := .ignored }
  else
    let item := { item with shadow := some { rgn := Region.offset item.rgn x y, onHold := ∅ } }
    if item.drawable.effect = .opaqueDraw then
      let first := excludeShadow (.draw item) (.start item.rgn true)
      let others := excludeRoot ring first.2
      { ring := first.1 :: others.1, walk := others.2, newContainers := 0, ending := .inserted }
    else { ring := .draw item :: ring, walk := .start ∅ true, newContainers := 0, ending := .inserted }

def redCurrentAddQxl (ring : List TreeItem) (drawable : Drawable) (rgn : Region) : Option Added :=
  let item : DrawItem := { drawable := drawable, rgn := rgn, container := none, shadow := none, containerRoot := false }
  match drawable.type with
  | .copyBits srcX srcY =>
      some (redCurrentAddWithShadow ring item (srcX - drawable.bbox.left) (srcY - drawable.bbox.top))
  | _ => redCurrentAdd ring item

/-- What `free_one_drawable` leaves of an item, in the place of it: the drawable is removed, and
`container_cleanup` goes up from its container, as long as there is at most one item left. -/
structure Freed where
  items : List TreeItem
  removed : List DrawItem
  containers : Nat
  cleaning : Bool

mutual

/-- `free_one_drawable`: `current_remove_drawable` and `container_cleanup`. -/
def freeDrawable (key : Nat) : TreeItem -> Freed
  | .draw item =>
      if item.drawable.key = key then { items := [], removed := [item], containers := 0, cleaning := true }
      else { items := [.draw item], removed := [], containers := 0, cleaning := false }
  | .container head items =>
      let freed := freeDrawables key items
      if freed.cleaning = true ∧ freed.items.length ≤ 1 then
        { freed with items := freed.items.map (TreeItem.setContainer head.container), containers := freed.containers +
          1 }
      else { freed with items := [.container head freed.items], cleaning := false }

def freeDrawables (key : Nat) : List TreeItem -> Freed
  | [] => { items := [], removed := [], containers := 0, cleaning := false }
  | item :: rest =>
      let first := freeDrawable key item
      let others := freeDrawables key rest
      { items := first.items ++ others.items, removed := first.removed ++ others.removed
        containers := first.containers + others.containers, cleaning := first.cleaning || others.cleaning }

end

end Tree
end Spice
