import Spice.Lib.Numbers
import Mathlib.Data.List.Chain
import Mathlib.Data.Set.Basic
import Mathlib.Order.Lattice

namespace Spice
namespace Region

/-!
# Testing two regions

`region_test` of `region.c` with `test_generic` and `test_band`.  A region of pixman is either one
rectangle, its extents, or a list of rectangles in bands: the rectangles of a band are as high as
each other, stand from left to right and do not touch, and the bands stand from top to bottom.
Two bands that touch have other rectangles.

The bits of a result are kept as one truth value for each flag.
-/

/-! ## Flags -/

/-- The bits of a query and of a result. -/
inductive Flag
  | leftExclusive
  | rightExclusive
  | shared
deriving DecidableEq

def Flag.bit : Flag -> UInt32
  | .leftExclusive => 1
  | .rightExclusive => 2
  | .shared => 4

/-- Which bits are set. -/
def Flags : Type := Flag -> Bool

namespace Flags

def none : Flags := fun _ => false

/-- `res |= flag`. -/
def set (res : Flags) (flag : Flag) : Flags := fun other => decide (other = flag) || res other

/-- `res |= flag`, under a condition. -/
def setIf (res : Flags) (condition : Bool) (flag : Flag) : Flags := if condition then res.set flag else res

/-- `res |= flag`, where there is a flag. -/
def setSome (res : Flags) : Option Flag -> Flags
  | .none => res
  | .some flag => res.set flag

/-- `res & query`. -/
def and (res query : Flags) : Flags := fun flag => res flag && query flag

/-- `(res & query) == query`. -/
def covers (res query : Flags) : Bool :=
  (!query .leftExclusive || res .leftExclusive) && (!query .rightExclusive || res .rightExclusive) &&
    (!query .shared || res .shared)

def ofMask (mask : UInt32) : Flags := fun flag => mask &&& flag.bit ≠ 0

def toMask (flags : Flags) : UInt32 :=
  (if flags .leftExclusive then 1 else 0) ||| (if flags .rightExclusive then 2 else 0) |||
    (if flags .shared then 4 else 0)

end Flags

def regionTestAll : UInt32 := 7

/-! ## Regions -/

/-- A `pixman_box32_t`. -/
structure Box where
  x1 : Int
  y1 : Int
  x2 : Int
  y2 : Int
deriving DecidableEq

def Box.Has (box : Box) (point : Int × Int) : Prop :=
  (box.x1 ≤ point.1 ∧ point.1 < box.x2) ∧ box.y1 ≤ point.2 ∧ point.2 < box.y2

instance (box : Box) (point : Int × Int) : Decidable (box.Has point) := inferInstanceAs (Decidable (_ ∧ _))

/-- The boxes of a row are not empty, stand from left to right and do not touch. -/
structure RowOk (boxes : List Box) : Prop where
  wide : forall box, box ∈ boxes -> box.x1 < box.x2
  apart : boxes.Pairwise fun first second => first.x2 < second.x1

structure Band where
  y1 : Int
  y2 : Int
  boxes : List Box

structure Band.Ok (band : Band) : Prop where
  high : band.y1 < band.y2
  some : band.boxes ≠ []
  row : RowOk band.boxes
  same : forall box, box ∈ band.boxes -> box.y1 = band.y1 ∧ box.y2 = band.y2

/-- Where the boxes of a band start and end. -/
def Band.spans (band : Band) : List (Int × Int) := band.boxes.map fun box => (box.x1, box.x2)

/-- The boxes of bands, one band after the other. -/
def boxesOf (bands : List Band) : List Box := bands.flatMap Band.boxes

/-- The bands stand from top to bottom, and two that touch could not be one. -/
structure BandsOk (bands : List Band) : Prop where
  each : forall band, band ∈ bands -> band.Ok
  below : bands.Pairwise fun first second => first.y2 ≤ second.y1
  apart : bands.IsChain fun first second => first.y2 = second.y1 -> first.spans ≠ second.spans

/-- The smallest box around some boxes. -/
structure ExtentsOf (extents : Box) (boxes : List Box) : Prop where
  within : forall box, box ∈ boxes -> (extents.x1 ≤ box.x1 ∧ box.x2 ≤ extents.x2) ∧ extents.y1 ≤ box.y1 ∧
    box.y2 ≤ extents.y2
  left : Exists fun box => box ∈ boxes ∧ box.x1 = extents.x1
  right : Exists fun box => box ∈ boxes ∧ box.x2 = extents.x2
  top : Exists fun box => box ∈ boxes ∧ box.y1 = extents.y1
  bottom : Exists fun box => box ∈ boxes ∧ box.y2 = extents.y2

/-- What pixman keeps of a region: one that is a rectangle has no data, and an empty one has data
without rectangles. -/
def Canonical (extents : Box) : Option (List Box) -> Prop
  | none => extents.x1 < extents.x2 ∧ extents.y1 < extents.y2
  | some rects => rects = [] ∨
      (2 ≤ rects.length ∧ ExtentsOf extents rects ∧ Exists fun bands => BandsOk bands ∧ rects = boxesOf bands)

/-- A `QRegion`. -/
structure QRegion where
  extents : Box
  data : Option (List Box)
  canonical : Canonical extents data

namespace QRegion

def rectangles (region : QRegion) : List Box := region.data.getD [region.extents]

def notEmpty (region : QRegion) : Bool := region.data ≠ some []

def points (region : QRegion) : Set (Int × Int) := { point | Exists fun box => box ∈ region.rectangles ∧ box.Has point }

end QRegion

/-! ## The test -/

/-- `EXTENTCHECK`. -/
def extentCheck (r1 r2 : Box) : Bool := !(r1.x2 ≤ r2.x1 || r1.x1 ≥ r2.x2 || r1.y2 ≤ r2.y1 || r1.y1 ≥ r2.y2)

def subsumes (r1 r2 : Box) : Bool := r1.x1 ≤ r2.x1 && r1.x2 ≥ r2.x2 && r1.y1 ≤ r2.y1 && r1.y2 ≥ r2.y2

/-- `FIND_BAND`: the rectangles of the band of the first one, and those after it. -/
def findBand (first : Box) (rest : List Box) : List Box × List Box :=
  (first :: rest.takeWhile (fun box => box.y1 = first.y1), rest.dropWhile (fun box => box.y1 = first.y1))

/-- The rectangles that are left when one list has ended. -/
def leftOver (res : Flags) (r1 r2 : List Box) : Flags :=
  if r1 ≠ [] then res.set .leftExclusive else if r2 ≠ [] then res.set .rightExclusive else res

/-- What two rectangles of a band show. -/
def testBoxes (res : Flags) (r1 r2 : Box) : Flags :=
  if max r1.x1 r2.x1 < min r1.x2 r2.x2 then
    ((res.set .shared).setIf (r1.x1 < r2.x1 || r1.x2 > r2.x2) .leftExclusive).setIf
      (r2.x1 < r1.x1 || r2.x2 > r1.x2) .rightExclusive
  else if r1.x1 < r2.x1 then res.set .leftExclusive
  else res.set .rightExclusive

/-- The loop of `test_band`. -/
def testBandLoop (query : Flags) : Nat -> Flags -> List Box -> List Box -> Flags
  | fuel + 1, res, r1 :: rest1, r2 :: rest2 =>
      let x2 := min r1.x2 r2.x2
      let res := testBoxes res r1 r2
      if res.covers query then res
      else
        testBandLoop query fuel res (if r1.x2 = x2 then rest1 else r1 :: rest1)
          (if r2.x2 = x2 then rest2 else r2 :: rest2)
  | _, res, r1, r2 => leftOver res r1 r2

def testBand (query res : Flags) (r1 r2 : List Box) : Flags := testBandLoop query (r1.length + r2.length) res r1 r2

/-- The rows of a band that are above the other region: which region is alone there. -/
def aloneAbove (ybot : Int) (r1 r2 : Box) : Option Flag :=
  if r1.y1 < r2.y1 then if max r1.y1 ybot ≠ min r1.y2 r2.y1 then some .leftExclusive else none
  else if r2.y1 < r1.y1 then if max r2.y1 ybot ≠ min r2.y2 r1.y1 then some .rightExclusive else none
  else none

/-- The loop of `test_generic`. -/
def testGenericLoop (query : Flags) : Nat -> Int -> Flags -> List Box -> List Box -> Flags
  | fuel + 1, ybot, res, r1 :: rest1, r2 :: rest2 =>
      let band1 := findBand r1 rest1
      let band2 := findBand r2 rest2
      let alone := aloneAbove ybot r1 r2
      let ytop := if r1.y1 < r2.y1 then r2.y1 else r1.y1
      let res := res.setSome alone
      if alone.isSome && res.covers query then res.and query
      else
        let ybot := min r1.y2 r2.y2
        let res := if ybot > ytop then testBand query res band1.1 band2.1 else res
        if ybot > ytop && res.covers query then res.and query
        else
          testGenericLoop query fuel ybot res (if r1.y2 = ybot then band1.2 else r1 :: rest1)
            (if r2.y2 = ybot then band2.2 else r2 :: rest2)
  | _, _, res, r1, r2 => (leftOver res r1 r2).and query

def testGeneric (reg1 reg2 : QRegion) (query : Flags) : Flags :=
  match reg1.rectangles, reg2.rectangles with
  | r1 :: rest1, r2 :: rest2 =>
      testGenericLoop query ((r1 :: rest1).length + (r2 :: rest2).length) (min r1.y1 r2.y1) .none (r1 :: rest1)
        (r2 :: rest2)
  -- both regions have rectangles
  | _, _ => .none

/-- The bits that `region_test` returns for a query.  Where the second region is `none`, it is the
same object as the first one. -/
def regionTestFlags (reg1 : QRegion) (other : Option QRegion) (query : Flags) : Flags :=
  let reg2 := other.getD reg1
  if !reg1.notEmpty || !reg2.notEmpty || !extentCheck reg1.extents reg2.extents then
    ((Flags.none.setIf reg1.notEmpty .leftExclusive).setIf reg2.notEmpty .rightExclusive).and query
  else if reg1.data.isNone && reg2.data.isNone then
    (((Flags.none.set .shared).setIf (!subsumes reg1.extents reg2.extents) .rightExclusive).setIf
      (!subsumes reg2.extents reg1.extents) .leftExclusive).and query
  else if reg2.data.isNone && subsumes reg2.extents reg1.extents then
    ((Flags.none.set .shared).set .rightExclusive).and query
  else if reg1.data.isNone && subsumes reg1.extents reg2.extents then
    ((Flags.none.set .shared).set .leftExclusive).and query
  else if other.isNone then (Flags.none.set .shared).and query
  else testGeneric reg1 reg2 query

def regionTest (reg1 : QRegion) (other : Option QRegion) (mask : UInt32) : UInt32 :=
  (regionTestFlags reg1 other (Flags.ofMask (if mask ≠ 0 then mask &&& regionTestAll else regionTestAll))).toMask

/-! ## What is expected -/

open Classical in
/-- The bits that `slow_region_test` returns for a query, on the points of the regions. -/
noncomputable def slowRegionTestFlags (first second : Set (Int × Int)) (query : Flags) : Flags
  | .leftExclusive => query .leftExclusive && decide (first ∩ second ≠ first)
  | .rightExclusive => query .rightExclusive && decide (first ∩ second ≠ second)
  | .shared => query .shared && decide (first ∩ second).Nonempty

noncomputable def slowRegionTest (first second : Set (Int × Int)) (mask : UInt32) : UInt32 :=
  (slowRegionTestFlags first second (Flags.ofMask mask)).toMask

def Shows {Point : Type} (first second : Point -> Prop) : Flag -> Point -> Prop
  | .leftExclusive, point => first point ∧ ¬ second point
  | .rightExclusive, point => second point ∧ ¬ first point
  | .shared, point => first point ∧ second point

end Region
end Spice
