import Spice.Lib.Int32
import Spice.Lib.Moves
import Spice.Region.TestExact

namespace Spice
namespace Canvas
namespace CopyBits

open Lib Spice.Region

/-!
# Copying within a surface

`COPY_BITS` moves pixels of a surface by an offset.  They are moved in place: the
rectangles of the clipped destination one after the other, and the lines of each one after
the other, both in an order that depends on the offset.

Of pixman there are the rectangles of the region that its intersections give; a surface is
the values of its pixels.  A byte offset that is no `int` ends the model.
-/

/-- The pixman formats of surfaces, and `pixman_image_get_depth`. -/
inductive SurfaceFormat
  | a1
  | a8
  | x1r5g5b5
  | r5g6b5
  | x8r8g8b8
  | a8r8g8b8
deriving DecidableEq

def SurfaceFormat.depth : SurfaceFormat -> Nat
  | .a1 => 1
  | .a8 => 8
  | .x1r5g5b5 => 15
  | .r5g6b5 => 16
  | .x8r8g8b8 => 24
  | .a8r8g8b8 => 32

def getBpp (format : SurfaceFormat) : Nat :=
  if format.depth = 24 then 32 else if format.depth = 15 then 16 else format.depth

/-- The values of the pixels. -/
abbrev Image := Int × Int -> UInt32

/-- `memcpy` and `memmove` of a line of pixels with so many bytes each. -/
def copyLine (bytes : Nat) (srcX srcY width destX destY : Int) (image : Image) : Image :=
  if bytes = 0 then image
  else fun point =>
    if point.2 = destY ∧ destX ≤ point.1 ∧ point.1 < destX + width then image (point.1 - destX + srcX, srcY)
    else image point

/-- `copy_bits_up`, and `copy_bits_same_line`. -/
def copyBitsUp (bytes : Nat) (srcX srcY width height destX destY : Int) (image : Image) : Image :=
  (List.range height.toNat).foldl
    (fun image (line : Nat) => copyLine bytes srcX (srcY + line) width destX (destY + line) image) image

def copyBitsDown (bytes : Nat) (srcX srcY width height destX destY : Int) (image : Image) : Image :=
  (List.range height.toNat).reverse.foldl
    (fun image (line : Nat) => copyLine bytes srcX (srcY + line) width destX (destY + line) image) image

/-- The pixels that `spice_pixman_copy_rect` leaves. -/
def copyRect (format : SurfaceFormat) (srcX srcY width height destX destY : Int) (image : Image) : Image :=
  let bytes := getBpp format / 8
  if srcY < destY then copyBitsDown bytes srcX srcY width height destX destY image
  else copyBitsUp bytes srcX srcY width height destX destY image

/-- The byte offsets of a rectangle are `int`; `copy_bits_down` starts with the last line. -/
def ByteOffsets (stride : Int) (format : SurfaceFormat) (srcX srcY width height destX destY : Int) : Prop :=
  (if srcY < destY then IsInt32 ((srcY + height - 1) * stride) ∧ IsInt32 ((destY - 1) * stride)
    else IsInt32 (srcY * stride) ∧ IsInt32 (destY * stride)) ∧
  IsInt32 (height * stride) ∧ IsInt32 (width * (getBpp format / 8 : Nat)) ∧
  IsInt32 (srcX * (getBpp format / 8 : Nat)) ∧ IsInt32 (destX * (getBpp format / 8 : Nat))

instance (stride : Int) (format : SurfaceFormat) (srcX srcY width height destX destY : Int) :
    Decidable (ByteOffsets stride format srcX srcY width height destX destY) := by
  unfold ByteOffsets
  infer_instance

def spicePixmanCopyRect (stride : Int) (format : SurfaceFormat) (srcX srcY width height destX destY : Int)
    (image : Image) : Option Image :=
  if ByteOffsets stride format srcX srcY width height destX destY then
    some (copyRect format srcX srcY width height destX destY image)
  else none

/-- The order of the rectangles in `copy_region`: in the loops of the south-west and the north-east, which start
with the last and with the first one, the rectangles of a line are turned around. -/
def copyOrder (destRects : List Region.Box) (dx dy : Int) : List Region.Box :=
  if 0 < dy then
    if 0 ≤ dx then destRects.reverse else reverseRuns Region.Box.y1 destRects.reverse
  else if 0 < dx then reverseRuns Region.Box.y1 destRects
  else destRects

def copyRegion (stride : Int) (format : SurfaceFormat) (destRects : List Region.Box) (dx dy : Int) (image : Image) :
    Option Image :=
  (copyOrder destRects dx dy).foldlM
    (fun image box => spicePixmanCopyRect stride format (box.x1 - dx) (box.y1 - dy) (box.x2 - box.x1)
      (box.y2 - box.y1) box.x1 box.y1 image) image

/-- The size, the format and the stride of a canvas. -/
structure CanvasBase where
  width : Nat
  height : Nat
  format : SurfaceFormat
  stride : Int
  wide : width < 2 ^ 31
  high : height < 2 ^ 31

/-- The points of `pixman_region32_init_rect`; a rectangle whose end is no `int` is none. -/
def rectPoints (x y width height : Int) : Set (Int × Int) :=
  { point | (x ≤ point.1 ∧ point.1 < int32 (x + width)) ∧ y ≤ point.2 ∧ point.2 < int32 (y + height) }

/-- The destination clipped to the canvas and the clip region: `canvas_clip_pixman`. -/
def clipped (canvas : CanvasBase) (bbox : Region.Box) (clip : Option QRegion) : Set (Int × Int) :=
  { point | bbox.Has point ∧ ((0 ≤ point.1 ∧ point.1 < canvas.width) ∧ 0 ≤ point.2 ∧ point.2 < canvas.height) ∧
    forall region, region ∈ clip -> point ∈ region.points }

/-- The offset, as an `int`. -/
def offsetX (bbox : Region.Box) (srcX : Int) : Int := int32 (bbox.x1 - srcX)

def offsetY (bbox : Region.Box) (srcY : Int) : Int := int32 (bbox.y1 - srcY)

/-- `canvas_copy_bits`, where `destRegion` is what the intersections give. -/
def canvasCopyBits (canvas : CanvasBase) (bbox : Region.Box) (srcX srcY : Int) (destRegion : QRegion) (image : Image) :
    Option Image :=
  let dx := offsetX bbox srcX
  let dy := offsetY bbox srcY
  if dx ≠ 0 ∨ dy ≠ 0 then copyRegion canvas.stride canvas.format destRegion.rectangles dx dy image else some image

def destPoints (canvas : CanvasBase) (bbox : Region.Box) (clip : Option QRegion) (srcX srcY : Int) : Set (Int × Int) :=
  { point | point ∈ clipped canvas bbox clip ∧
    point ∈ rectPoints (offsetX bbox srcX) (offsetY bbox srcY) canvas.width canvas.height }

/-! ## What is asked for -/

def sourceOf (bbox : Region.Box) (srcX srcY : Int) (point : Int × Int) : Int × Int :=
  (point.1 - (bbox.x1 - srcX), point.2 - (bbox.y1 - srcY))

/-- The point is in the clipped destination, and its source is inside of the surface. -/
def Moves (canvas : CanvasBase) (bbox : Region.Box) (clip : Option QRegion) (srcX srcY : Int)
    (point : Int × Int) : Prop :=
  point ∈ clipped canvas bbox clip ∧
    (0 ≤ (sourceOf bbox srcX srcY point).1 ∧ (sourceOf bbox srcX srcY point).1 < canvas.width) ∧
    0 ≤ (sourceOf bbox srcX srcY point).2 ∧ (sourceOf bbox srcX srcY point).2 < canvas.height

/-- Every point gets the value that its source had, and the others keep theirs. -/
structure MovedAtOnce (canvas : CanvasBase) (bbox : Region.Box) (clip : Option QRegion) (srcX srcY : Int)
    (image final : Image) : Prop where
  moved : forall point, Moves canvas bbox clip srcX srcY point -> final point = image (sourceOf bbox srcX srcY point)
  kept : forall point, ¬ Moves canvas bbox clip srcX srcY point -> final point = image point

/-- The pixels of the canvas have bytes, and the offset and the end of the surface that is moved by it are an `int`. -/
structure Regular (canvas : CanvasBase) (bbox : Region.Box) (srcX srcY : Int) : Prop where
  bytes : canvas.format ≠ .a1
  x : IsInt32 (bbox.x1 - srcX)
  y : IsInt32 (bbox.y1 - srcY)
  right : bbox.x1 - srcX + canvas.width < 2 ^ 31
  bottom : bbox.y1 - srcY + canvas.height < 2 ^ 31

/-- What goes wrong is not seen: where the offset is no `int`, a pixel gets the value that it has, and else the pixels
that are not moved have the values of their sources. -/
def Unseen (canvas : CanvasBase) (bbox : Region.Box) (clip : Option QRegion) (srcX srcY : Int) (image : Image) : Prop :=
  if IsInt32 (bbox.x1 - srcX) ∧ IsInt32 (bbox.y1 - srcY) then
    forall point, Moves canvas bbox clip srcX srcY point -> image point = image (sourceOf bbox srcX srcY point)
  else canvas.format ≠ .a1 -> forall point, point ∈ destPoints canvas bbox clip srcX srcY ->
    image (point.1 - offsetX bbox srcX, point.2 - offsetY bbox srcY) = image point

/-- The byte offsets of the rectangles of the region are `int`, if they are copied. -/
def OffsetsFit (canvas : CanvasBase) (bbox : Region.Box) (srcX srcY : Int) (destRegion : QRegion) : Prop :=
  offsetX bbox srcX ≠ 0 ∨ offsetY bbox srcY ≠ 0 -> forall box, box ∈ destRegion.rectangles ->
    ByteOffsets canvas.stride canvas.format (box.x1 - offsetX bbox srcX) (box.y1 - offsetY bbox srcY)
      (box.x2 - box.x1) (box.y2 - box.y1) box.x1 box.y1

/-! ## One rectangle -/

def boxHas (box : Region.Box) (point : Int × Int) : Bool :=
  decide ((box.x1 ≤ point.1 ∧ point.1 < box.x2) ∧ box.y1 ≤ point.2 ∧ point.2 < box.y2)

theorem boxHas_iff {box : Region.Box} {point : Int × Int} : boxHas box point = true <-> box.Has point :=
  decide_eq_true_iff

def lineHas (box : Region.Box) (line : Nat) (point : Int × Int) : Bool :=
  decide (point.2 = box.y1 + line ∧ box.x1 ≤ point.1 ∧ point.1 < box.x2)

/-- Where a point is copied from. -/
def shifted (dx dy : Int) (point : Int × Int) : Int × Int := (point.1 - dx, point.2 - dy)

theorem copyLine_eq {bytes : Nat} (some : bytes ≠ 0) (box : Region.Box) (dx dy : Int) (line : Nat) (image : Image) :
    copyLine bytes (box.x1 - dx) (box.y1 - dy + line) (box.x2 - box.x1) box.x1 (box.y1 + line) image =
      moveOn (shifted dx dy) image (lineHas box line) := by
  funext point
  unfold copyLine moveOn lineHas shifted
  rw [if_neg some, add_sub_cancel]
  simp only [decide_eq_true_eq]
  split
  · next inside =>
    rw [inside.1]
    congr 2
    · omega
    · omega
  · rfl

/-- Lines that spare each other's sources copy the picture as it was. -/
theorem foldl_lines {bytes : Nat} (some : bytes ≠ 0) (box : Region.Box) (dx dy : Int) {lines : List Nat} (image : Image)
    (spares : (lines.map (lineHas box)).Pairwise (Spares (shifted dx dy)))
    (all : forall line : Nat, line ∈ lines <-> line < (box.y2 - box.y1).toNat) :
    lines.foldl (fun image (line : Nat) =>
      copyLine bytes (box.x1 - dx) (box.y1 - dy + line) (box.x2 - box.x1) box.x1 (box.y1 + line) image) image =
        moveOn (shifted dx dy) image (boxHas box) := by
  have same : (fun (image : Image) (line : Nat) =>
      copyLine bytes (box.x1 - dx) (box.y1 - dy + line) (box.x2 - box.x1) box.x1 (box.y1 + line) image) =
        fun image line => moveOn (shifted dx dy) image (lineHas box line) := by
    funext image line
    exact copyLine_eq some box dx dy line image
  rw [same, <- List.foldl_map, foldl_moveOn image spares]
  congr 1
  funext point
  rw [Bool.eq_iff_iff, boxHas_iff, List.any_map, List.any_eq_true]
  unfold Region.Box.Has lineHas
  simp only [Function.comp_apply, decide_eq_true_eq]
  constructor
  · rintro ⟨line, member, row, left, right⟩
    have less := (all line).mp member
    omega
  · rintro ⟨⟨left, right⟩, top, bottom⟩
    refine ⟨(point.2 - box.y1).toNat, (all _).mpr ?_, ?_, left, right⟩
    · omega
    · omega

/-- The lines of a rectangle are copied in the right order. -/
theorem copyRect_eq {format : SurfaceFormat} (some : format ≠ .a1) (box : Region.Box) (dx dy : Int) (image : Image) :
    copyRect format (box.x1 - dx) (box.y1 - dy) (box.x2 - box.x1) (box.y2 - box.y1) box.x1 box.y1 image =
      moveOn (shifted dx dy) image (boxHas box) := by
  have bytes : getBpp format / 8 ≠ 0 := by
    cases format <;> first | exact absurd rfl some | decide
  have clear : forall {first second : Nat}, (if 0 < dy then second < first else first < second) ->
      Spares (shifted dx dy) (lineHas box first) (lineHas box second) := by
    intro first second before point inSecond
    unfold lineHas shifted at *
    simp only [decide_eq_true_eq, decide_eq_false_iff_not] at *
    split at before <;> omega
  unfold copyRect
  dsimp only
  split
  · next down =>
    unfold copyBitsDown
    refine foldl_lines bytes box dx dy image ?_ (fun line => by rw [List.mem_reverse, List.mem_range])
    rw [List.map_reverse, List.pairwise_reverse, List.pairwise_map]
    refine List.pairwise_lt_range.imp (fun {first second} less => clear ?_)
    rw [if_pos (by omega)]
    exact less
  · next up =>
    unfold copyBitsUp
    refine foldl_lines bytes box dx dy image ?_ (fun line => List.mem_range)
    rw [List.pairwise_map]
    refine List.pairwise_lt_range.imp (fun {first second} less => clear ?_)
    rw [if_neg (by omega)]
    exact less

/-! ## The order of the rectangles -/

/-- How the rectangles of a region stand: in another band below, or to the right in the same band. -/
def Before (first second : Region.Box) : Prop :=
  (first.y1 < first.y2 ∧ first.y2 ≤ second.y1 ∧ second.y1 < second.y2) ∨
    (first.y1 = second.y1 ∧ first.y2 = second.y2 ∧ first.y1 < first.y2 ∧ first.x2 ≤ second.x1)

/-- The rectangles come from top to bottom and from left to right. -/
theorem rectangles_before (region : QRegion) : region.rectangles.Pairwise Before := by
  by_cases nonempty : region.notEmpty = true
  · rcases QRegion.banded nonempty with ⟨bands, ok, same, _, _⟩
    rw [same, boxesOf, List.pairwise_flatMap]
    refine ⟨fun band member => ?_, ok.below.imp_of_mem (fun {first second} isFirst isSecond below => ?_)⟩
    · have bandOk := ok.each band member
      refine bandOk.row.apart.imp_of_mem (fun {first second} isFirst isSecond apart => Or.inr ?_)
      have one := bandOk.same first isFirst
      have two := bandOk.same second isSecond
      have high := bandOk.high
      omega
    · intro one inFirst two inSecond
      have oneBand := (ok.each first isFirst).same one inFirst
      have twoBand := (ok.each second isSecond).same two inSecond
      have oneHigh := (ok.each first isFirst).high
      have twoHigh := (ok.each second isSecond).high
      exact Or.inl (by omega)
  · have empty : region.data = some [] := by simpa [QRegion.notEmpty] using nonempty
    rw [QRegion.rectangles, empty]
    exact List.Pairwise.nil

/-- A rectangle that is copied before another has nothing of its source. -/
theorem copyOrder_spares (region : QRegion) (dx dy : Int) :
    ((copyOrder region.rectangles dx dy).map boxHas).Pairwise (Spares (shifted dx dy)) := by
  have before := rectangles_before region
  have clear : forall {first second : Region.Box},
      (forall point : Int × Int, second.Has point -> ¬ first.Has (shifted dx dy point)) ->
      Spares (shifted dx dy) (boxHas first) (boxHas second) := by
    intro first second apart point inSecond
    exact eq_false_of_ne_true (fun inFirst => apart point (boxHas_iff.mp inSecond) (boxHas_iff.mp inFirst))
  unfold copyOrder
  rw [List.pairwise_map]
  split
  · next south =>
    split
    · next east =>
      rw [List.pairwise_reverse]
      refine before.imp (fun {first second} order => clear (fun point inFirst inSecond => ?_))
      unfold Before Region.Box.Has shifted at *
      dsimp only at *
      omega
    · next west =>
      have turned := @pairwise_reverseRuns _ Region.Box.y1 (fun first second => Before second first)
        (fun first second third one two => by unfold Before at *; omega) _ (List.pairwise_reverse.mpr before)
      refine turned.imp (fun {first second} order => clear (fun point inSecond inFirst => ?_))
      unfold Before Region.Box.Has shifted at *
      dsimp only at *
      split at order <;> omega
  · next north =>
    split
    · next east =>
      have turned := @pairwise_reverseRuns _ Region.Box.y1 Before
          (fun first second third one two => by unfold Before at *; omega) _ before
      refine turned.imp (fun {first second} order => clear (fun point inSecond inFirst => ?_))
      unfold Before Region.Box.Has shifted at *
      dsimp only at *
      split at order <;> omega
    · next west =>
      refine before.imp (fun {first second} order => clear (fun point inSecond inFirst => ?_))
      unfold Before Region.Box.Has shifted at *
      dsimp only at *
      omega

theorem mem_copyOrder {box : Region.Box} {destRects : List Region.Box} {dx dy : Int} :
    box ∈ copyOrder destRects dx dy <-> box ∈ destRects := by
  unfold copyOrder
  split
  · split
    · exact List.mem_reverse
    · rw [mem_reverseRuns, List.mem_reverse]
  · split
    · exact mem_reverseRuns Region.Box.y1
    · exact Iff.rfl

/-- The rectangles one after the other, when each is copied under a condition. -/
theorem foldlM_guarded {Item : Type} {guard : Item -> Prop} [DecidablePred guard] {copy : Image -> Item -> Image} :
    forall {items : List Item} {image : Image},
      items.foldlM (fun image item => if guard item then some (copy image item) else none) image = open Classical in
        if forall item, item ∈ items -> guard item then some (items.foldl copy image) else none := by
  intro items
  induction items with
  | nil => exact fun {image} => (if_pos (fun item member => absurd member List.not_mem_nil)).symm
  | cons item rest ih =>
      intro image
      rw [List.foldlM_cons]
      by_cases holds : guard item
      · rw [if_pos holds]
        refine ih.trans ?_
        simp only [List.forall_mem_cons, holds, true_and, List.foldl_cons]
      · rw [if_neg holds, if_neg (fun all => holds (all item List.mem_cons_self))]
        rfl

/-- The rectangles are copied in the right order. -/
theorem foldl_copyRect {format : SurfaceFormat} (some : format ≠ .a1) (region : QRegion) (dx dy : Int) (image : Image) :
    (copyOrder region.rectangles dx dy).foldl (fun image box =>
      copyRect format (box.x1 - dx) (box.y1 - dy) (box.x2 - box.x1) (box.y2 - box.y1) box.x1 box.y1 image) image =
        moveOn (shifted dx dy) image (fun point => region.rectangles.any (fun box => boxHas box point)) := by
  have same : (fun (image : Image) (box : Region.Box) =>
      copyRect format (box.x1 - dx) (box.y1 - dy) (box.x2 - box.x1) (box.y2 - box.y1) box.x1 box.y1 image) =
        fun image box => moveOn (shifted dx dy) image (boxHas box) := by
    funext image box
    exact copyRect_eq some box dx dy image
  rw [same, <- List.foldl_map, foldl_moveOn image (copyOrder_spares region dx dy)]
  congr 1
  funext point
  rw [Bool.eq_iff_iff, List.any_map, List.any_eq_true, List.any_eq_true]
  simp only [mem_copyOrder, Function.comp_apply]

theorem foldl_copyRect_a1 (destRects : List Region.Box) (dx dy : Int) (image : Image) :
    destRects.foldl (fun image box =>
      copyRect .a1 (box.x1 - dx) (box.y1 - dy) (box.x2 - box.x1) (box.y2 - box.y1) box.x1 box.y1 image) image =
        image := by
  have none : forall srcX srcY width height destX destY,
      copyRect .a1 srcX srcY width height destX destY image = image := by
    intro srcX srcY width height destX destY
    unfold copyRect copyBitsDown copyBitsUp
    split
    · exact List.foldl_fixed' (fun _ => rfl) _
    · exact List.foldl_fixed' (fun _ => rfl) _
  exact List.foldl_fixed' (fun box => none _ _ _ _ _ _) _

/-- The values of the pixels after `canvas_copy_bits`. -/
noncomputable def copied (canvas : CanvasBase) (bbox : Region.Box) (clip : Option QRegion) (srcX srcY : Int)
    (image : Image) : Image :=
  fun point => open Classical in
    if canvas.format ≠ .a1 ∧ point ∈ destPoints canvas bbox clip srcX srcY then
      image (shifted (offsetX bbox srcX) (offsetY bbox srcY) point)
    else image point

/-- The copies of all rectangles together. -/
theorem foldl_eq_copied {canvas : CanvasBase} {bbox : Region.Box} {clip : Option QRegion} {srcX srcY : Int}
    {destRegion : QRegion} (points : destRegion.points = destPoints canvas bbox clip srcX srcY) (image : Image) :
    (copyOrder destRegion.rectangles (offsetX bbox srcX) (offsetY bbox srcY)).foldl (fun image box =>
      copyRect canvas.format (box.x1 - offsetX bbox srcX) (box.y1 - offsetY bbox srcY) (box.x2 - box.x1)
        (box.y2 - box.y1) box.x1 box.y1 image) image = copied canvas bbox clip srcX srcY image := by
  funext point
  unfold copied
  rw [<- points]
  by_cases none : canvas.format = .a1
  · rw [none, foldl_copyRect_a1, if_neg (fun both => both.1 rfl)]
  · have covered : destRegion.rectangles.any (fun box => boxHas box point) = true <-> point ∈ destRegion.points := by
      rw [List.any_eq_true]
      exact exists_congr fun box => and_congr_right fun _ => boxHas_iff
    rw [foldl_copyRect none]
    unfold moveOn
    by_cases inside : point ∈ destRegion.points
    · rw [if_pos (covered.mpr inside), if_pos (And.intro none inside)]
    · rw [if_neg (mt covered.mp inside), if_neg (fun both => inside both.2)]

/-- The command comes to its end exactly if all byte offsets are `int`, with the pixels copied. -/
theorem canvasCopyBits_eq {canvas : CanvasBase} {bbox : Region.Box} {clip : Option QRegion} {srcX srcY : Int}
    {destRegion : QRegion}
    (points : (offsetX bbox srcX ≠ 0 ∨ offsetY bbox srcY ≠ 0) ->
      destRegion.points = destPoints canvas bbox clip srcX srcY)
    (image : Image) : canvasCopyBits canvas bbox srcX srcY destRegion image = open Classical in
      if OffsetsFit canvas bbox srcX srcY destRegion then some (copied canvas bbox clip srcX srcY image) else none := by
  unfold canvasCopyBits OffsetsFit
  by_cases moves : offsetX bbox srcX ≠ 0 ∨ offsetY bbox srcY ≠ 0
  · rw [if_pos moves, <- foldl_eq_copied (points moves)]
    refine foldlM_guarded.trans ?_
    simp only [mem_copyOrder, moves, true_implies]
  · have same : copied canvas bbox clip srcX srcY image = image := by
      funext point
      have still : shifted (offsetX bbox srcX) (offsetY bbox srcY) point = point := by
        unfold shifted
        rw [not_or, not_not, not_not] at moves
        rw [moves.1, moves.2, sub_zero, sub_zero]
      unfold copied
      rw [still, ite_self]
    rw [if_neg moves, if_pos (fun does => absurd does moves), same]

/-! ## The points that are copied -/

section Points

variable {canvas : CanvasBase} {bbox : Region.Box} {clip : Option QRegion} {srcX srcY : Int} {point : Int × Int}

/-- Only an offset that is an `int` leaves a source inside of the surface. -/
theorem isInt32_of_moves (moves : Moves canvas bbox clip srcX srcY point) :
    IsInt32 (bbox.x1 - srcX) ∧ IsInt32 (bbox.y1 - srcY) := by
  have wide := canvas.wide
  have high := canvas.high
  unfold Moves clipped sourceOf at moves
  unfold IsInt32
  simp only [Set.mem_ofPred_eq] at moves
  omega

theorem shifted_eq_sourceOf (x : IsInt32 (bbox.x1 - srcX)) (y : IsInt32 (bbox.y1 - srcY)) :
    shifted (offsetX bbox srcX) (offsetY bbox srcY) point = sourceOf bbox srcX srcY point := by
  unfold shifted sourceOf offsetX offsetY
  rw [int32_of_isInt32 x, int32_of_isInt32 y]

/-- One side of the surface that is moved. -/
theorem side_iff {offset value : Int} {size : Nat} (small : size < 2 ^ 31) (isInt : IsInt32 offset) :
    (offset ≤ value ∧ value < int32 (offset + size)) <->
      offset + size < 2 ^ 31 ∧ 0 ≤ value - offset ∧ value - offset < size := by
  unfold IsInt32 at isInt
  by_cases fits : offset + size < 2 ^ 31
  · have same : int32 (offset + size) = offset + size := int32_of_isInt32 ⟨by omega, fits⟩
    omega
  · have wraps := @int32_of_ge (offset + size).toNat (by omega) (by omega)
    rw [Int.toNat_of_nonneg (by omega)] at wraps
    omega

theorem mem_destPoints_iff (x : IsInt32 (bbox.x1 - srcX)) (y : IsInt32 (bbox.y1 - srcY)) :
    point ∈ destPoints canvas bbox clip srcX srcY <-> Moves canvas bbox clip srcX srcY point ∧
        bbox.x1 - srcX + canvas.width < 2 ^ 31 ∧ bbox.y1 - srcY + canvas.height < 2 ^ 31 := by
  unfold destPoints rectPoints Moves sourceOf offsetX offsetY
  simp only [Set.mem_ofPred_eq]
  rw [int32_of_isInt32 x, int32_of_isInt32 y, side_iff canvas.wide x, side_iff canvas.high y]
  tauto

/-- The copy is one move of all pixels, but where pixels have no bytes of their own or an `int` is too small; there
only if it is not seen. -/
theorem movedAtOnce_copied_iff (canvas : CanvasBase) (bbox : Region.Box) (clip : Option QRegion) (srcX srcY : Int)
    (image : Image) : MovedAtOnce canvas bbox clip srcX srcY image (copied canvas bbox clip srcX srcY image) <->
      Regular canvas bbox srcX srcY ∨ Unseen canvas bbox clip srcX srcY image := by
  by_cases isInt : IsInt32 (bbox.x1 - srcX) ∧ IsInt32 (bbox.y1 - srcY)
  · have which := fun point => @mem_destPoints_iff canvas bbox clip srcX srcY point isInt.1 isInt.2
    have source := fun point => @shifted_eq_sourceOf bbox srcX srcY point isInt.1 isInt.2
    have kept : forall point, ¬ Moves canvas bbox clip srcX srcY point ->
        copied canvas bbox clip srcX srcY image point = image point :=
      fun point stays => if_neg (fun both => stays ((which point).mp both.2).1)
    by_cases regular : Regular canvas bbox srcX srcY
    · refine iff_of_true ⟨fun point moves => ?_, kept⟩ (Or.inl regular)
      rw [<- source]
      exact if_pos ⟨regular.bytes, (which point).mpr ⟨moves, regular.right, regular.bottom⟩⟩
    · have same : forall point, copied canvas bbox clip srcX srcY image point = image point := by
        intro point
        refine if_neg ?_
        rintro ⟨bytes, moves⟩
        rcases (which point).mp moves with ⟨_, right, bottom⟩
        exact regular ⟨bytes, isInt.1, isInt.2, right, bottom⟩
      unfold Unseen
      rw [if_pos isInt]
      constructor
      · exact fun moved => Or.inr fun point moves => (same point).symm.trans (moved.moved point moves)
      · rintro (is | unseen)
        · exact absurd is regular
        · exact ⟨fun point moves => (same point).trans (unseen point moves), kept⟩
  · have stays : forall point, ¬ Moves canvas bbox clip srcX srcY point :=
      fun point moves => isInt (isInt32_of_moves moves)
    unfold Unseen
    rw [if_neg isInt]
    constructor
    · refine fun moved => Or.inr fun bytes point isDest => ?_
      exact (if_pos ⟨bytes, isDest⟩).symm.trans (moved.kept point (stays point))
    · rintro (is | unseen)
      · exact absurd ⟨is.x, is.y⟩ isInt
      · refine ⟨fun point moves => absurd moves (stays point), fun point _ => ?_⟩
        unfold copied
        split
        · next isDest => exact unseen isDest.1 point isDest.2
        · rfl

/-- `canvas_copy_bits` comes to its end with one move of all pixels if and only if all byte offsets are `int` and the
copy is such a move. -/
theorem copy_bits_iff (canvas : CanvasBase) (bbox : Region.Box) (clip : Option QRegion) (srcX srcY : Int)
    (destRegion : QRegion) (image : Image)
    (points : (offsetX bbox srcX ≠ 0 ∨ offsetY bbox srcY ≠ 0) ->
      destRegion.points = destPoints canvas bbox clip srcX srcY) :
    (Exists fun final => canvasCopyBits canvas bbox srcX srcY destRegion image = some final ∧
      MovedAtOnce canvas bbox clip srcX srcY image final) <->
      OffsetsFit canvas bbox srcX srcY destRegion ∧
        (Regular canvas bbox srcX srcY ∨ Unseen canvas bbox clip srcX srcY image) := by
  rw [canvasCopyBits_eq points, <- movedAtOnce_copied_iff]
  by_cases fit : OffsetsFit canvas bbox srcX srcY destRegion
  · rw [if_pos fit]
    constructor
    · rintro ⟨final, isFinal, moved⟩
      cases isFinal
      exact ⟨fit, moved⟩
    · exact fun both => ⟨_, rfl, both.2⟩
  · rw [if_neg fit]
    refine iff_of_false ?_ (fun both => fit both.1)
    rintro ⟨final, isFinal, _⟩
    cases isFinal

end Points

/-! ## Two pixels, and the first is moved to the second -/

def second : QRegion := ⟨⟨1, 0, 2, 1⟩, none, by decide, by decide⟩

def twoPixels (format : SurfaceFormat) : CanvasBase := ⟨2, 1, format, -8, by decide, by decide⟩

def firstSet : Image := fun point => if point = (0, 0) then 1 else 0

theorem second_points (format : SurfaceFormat) :
    second.points = destPoints (twoPixels format) ⟨1, 0, 2, 1⟩ none 0 0 := by
  funext point
  refine propext ((QRegion.points_rectangle rfl point).trans ?_)
  have right : int32 (1 + 2) = 3 := by decide
  have bottom : int32 (0 + 1) = 1 := by decide
  have x : offsetX ⟨1, 0, 2, 1⟩ 0 = 1 := by decide
  have y : offsetY ⟨1, 0, 2, 1⟩ 0 = 0 := by decide
  change Region.Box.Has ⟨1, 0, 2, 1⟩ point <-> point ∈ destPoints (twoPixels format) ⟨1, 0, 2, 1⟩ none 0 0
  unfold destPoints clipped rectPoints twoPixels Region.Box.Has
  rw [x, y]
  simp only [Set.mem_ofPred_eq, Option.not_mem_none, false_implies, implies_true, and_true, Nat.cast_ofNat,
    Nat.cast_one,
    right, bottom]
  omega

theorem second_fits (format : SurfaceFormat) : OffsetsFit (twoPixels format) ⟨1, 0, 2, 1⟩ 0 0 second := by
  have all : forall box, box ∈ second.rectangles -> ByteOffsets (-8) format (box.x1 - 1) (box.y1 - 0)
      (box.x2 - box.x1) (box.y2 - box.y1) box.x1 box.y1 := by
    cases format <;> decide
  exact fun _ => all

theorem copy_bits_second : Exists fun final =>
    canvasCopyBits (twoPixels .x8r8g8b8) ⟨1, 0, 2, 1⟩ 0 0 second firstSet = some final ∧
      MovedAtOnce (twoPixels .x8r8g8b8) ⟨1, 0, 2, 1⟩ none 0 0 firstSet final :=
  (copy_bits_iff (twoPixels .x8r8g8b8) ⟨1, 0, 2, 1⟩ none 0 0 second firstSet (fun _ => second_points .x8r8g8b8)).mpr
    ⟨second_fits .x8r8g8b8, Or.inl
      ⟨by decide, by unfold IsInt32; decide, by unfold IsInt32; decide, by decide, by decide⟩⟩

/-- A surface of one bit for each pixel is left as it is. -/
theorem bits_not_moved : second.points = destPoints (twoPixels .a1) ⟨1, 0, 2, 1⟩ none 0 0 ∧
    canvasCopyBits (twoPixels .a1) ⟨1, 0, 2, 1⟩ 0 0 second firstSet = some firstSet ∧
    ¬ MovedAtOnce (twoPixels .a1) ⟨1, 0, 2, 1⟩ none 0 0 firstSet firstSet := by
  refine ⟨second_points .a1, ?_, fun moved => ?_⟩
  · have same : copied (twoPixels .a1) ⟨1, 0, 2, 1⟩ none 0 0 firstSet = firstSet :=
      funext fun point => if_neg (fun both => both.1 rfl)
    rw [canvasCopyBits_eq (fun _ => second_points .a1), if_pos (second_fits .a1), same]
  · have value := moved.moved (1, 0) ⟨⟨by unfold Region.Box.Has; decide, by decide,
      fun _ none => absurd none (Option.not_mem_none _)⟩, by decide, by decide⟩
    revert value
    decide

end CopyBits
end Canvas
end Spice
