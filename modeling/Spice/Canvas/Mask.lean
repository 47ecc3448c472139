import Mathlib.Data.Nat.Bitwise
import Mathlib.Tactic.Ring
import Spice.Lib.Int32

namespace Spice
namespace Canvas

open Lib

/-!
# Clipping by a mask

`canvas_mask_pixman` of `canvas_base.c` with the functions that get the mask, as they are
compiled for the software canvas.  A mask image has one bit for each pixel, and pixman reads
it in words of 32 bits, the lowest bit first.  Bytes of an image are numbered from where
`pixman_image_get_data` points to; with a negative stride the rows go downwards from there.

The regions of pixman are known by the pixels they contain, and its functions on them are
taken to be exact.  Overflow of an `int` and reading through `NULL` are `none`.
-/

def bitOf (byte : UInt8) (index : Nat) : Bool := byte.toNat.testBit index

/-- The size of an image of pixman in the format `PIXMAN_a1`.  An image without columns or rows
that pixman makes has a stride of 0 and no data. -/
structure Shape where
  width : Nat
  height : Nat
  stride : Int
  covers : height = 0 ∨ 4 * ((width + 31) / 32) ≤ stride.natAbs

namespace Shape

/-- Where the data starts in the memory of the image. -/
def start (shape : Shape) : Int := if shape.stride < 0 then -shape.stride * (shape.height - 1) else 0

/-- The image has the pixel. -/
def Inside (shape : Shape) (column row : Int) : Prop :=
  (0 ≤ column ∧ column < shape.width) ∧ 0 ≤ row ∧ row < shape.height

instance (shape : Shape) (column row : Int) : Decidable (shape.Inside column row) :=
  inferInstanceAs (Decidable ((_ ∧ _) ∧ _ ∧ _))

def InsideWord (shape : Shape) (place : Int) : Prop :=
  0 ≤ shape.start + place ∧ shape.start + place + 4 ≤ shape.stride.natAbs * shape.height

instance (shape : Shape) (place : Int) : Decidable (shape.InsideWord place) :=
  inferInstanceAs (Decidable (_ ∧ _))

end Shape

/-- An image of pixman in the format `PIXMAN_a1`. -/
structure MaskImage extends Shape where
  data : Int -> UInt8

def MaskImage.bit (image : MaskImage) (column row : Int) : Bool :=
  bitOf (image.data (image.stride * row + column / 8)) (column % 8).toNat

/-! ## Masks from bitmaps -/

/-- A `SpiceBitmap` of one of the formats with one bit for each pixel.  The size of its chunks is a
`uint32_t`. -/
structure MaskBitmap where
  x : Nat
  y : Nat
  stride : Nat
  topDown : Bool
  bigEndian : Bool
  data : Nat -> UInt8
  covers : (x + 7) / 8 ≤ stride
  sized : stride * y < 2 ^ 32

/-- The bit of a pixel of a bitmap.  The first row is the lowest one, unless the bitmap is top
down, and the first pixel of a byte is its lowest bit, unless the format is big endian. -/
def MaskBitmap.bit (bitmap : MaskBitmap) (column row : Nat) : Bool :=
  bitOf (bitmap.data (bitmap.stride * (if bitmap.topDown then row else bitmap.y - 1 - row) + column / 8))
    (if bitmap.bigEndian then 7 - column % 8 else column % 8)

/-- The table of `revers_bits`. -/
def reversTable : List UInt8 :=
  [0x0, 0x80, 0x40, 0xc0, 0x20, 0xa0, 0x60, 0xe0,
    0x10, 0x90, 0x50, 0xd0, 0x30, 0xb0, 0x70, 0xf0,
    0x8, 0x88, 0x48, 0xc8, 0x28, 0xa8, 0x68, 0xe8,
    0x18, 0x98, 0x58, 0xd8, 0x38, 0xb8, 0x78, 0xf8,
    0x4, 0x84, 0x44, 0xc4, 0x24, 0xa4, 0x64, 0xe4,
    0x14, 0x94, 0x54, 0xd4, 0x34, 0xb4, 0x74, 0xf4,
    0xc, 0x8c, 0x4c, 0xcc, 0x2c, 0xac, 0x6c, 0xec,
    0x1c, 0x9c, 0x5c, 0xdc, 0x3c, 0xbc, 0x7c, 0xfc,
    0x2, 0x82, 0x42, 0xc2, 0x22, 0xa2, 0x62, 0xe2,
    0x12, 0x92, 0x52, 0xd2, 0x32, 0xb2, 0x72, 0xf2,
    0xa, 0x8a, 0x4a, 0xca, 0x2a, 0xaa, 0x6a, 0xea,
    0x1a, 0x9a, 0x5a, 0xda, 0x3a, 0xba, 0x7a, 0xfa,
    0x6, 0x86, 0x46, 0xc6, 0x26, 0xa6, 0x66, 0xe6,
    0x16, 0x96, 0x56, 0xd6, 0x36, 0xb6, 0x76, 0xf6,
    0xe, 0x8e, 0x4e, 0xce, 0x2e, 0xae, 0x6e, 0xee,
    0x1e, 0x9e, 0x5e, 0xde, 0x3e, 0xbe, 0x7e, 0xfe,
    0x1, 0x81, 0x41, 0xc1, 0x21, 0xa1, 0x61, 0xe1,
    0x11, 0x91, 0x51, 0xd1, 0x31, 0xb1, 0x71, 0xf1,
    0x9, 0x89, 0x49, 0xc9, 0x29, 0xa9, 0x69, 0xe9,
    0x19, 0x99, 0x59, 0xd9, 0x39, 0xb9, 0x79, 0xf9,
    0x5, 0x85, 0x45, 0xc5, 0x25, 0xa5, 0x65, 0xe5,
    0x15, 0x95, 0x55, 0xd5, 0x35, 0xb5, 0x75, 0xf5,
    0xd, 0x8d, 0x4d, 0xcd, 0x2d, 0xad, 0x6d, 0xed,
    0x1d, 0x9d, 0x5d, 0xdd, 0x3d, 0xbd, 0x7d, 0xfd,
    0x3, 0x83, 0x43, 0xc3, 0x23, 0xa3, 0x63, 0xe3,
    0x13, 0x93, 0x53, 0xd3, 0x33, 0xb3, 0x73, 0xf3,
    0xb, 0x8b, 0x4b, 0xcb, 0x2b, 0xab, 0x6b, 0xeb,
    0x1b, 0x9b, 0x5b, 0xdb, 0x3b, 0xbb, 0x7b, 0xfb,
    0x7, 0x87, 0x47, 0xc7, 0x27, 0xa7, 0x67, 0xe7,
    0x17, 0x97, 0x57, 0xd7, 0x37, 0xb7, 0x77, 0xf7,
    0xf, 0x8f, 0x4f, 0xcf, 0x2f, 0xaf, 0x6f, 0xef,
    0x1f, 0x9f, 0x5f, 0xdf, 0x3f, 0xbf, 0x7f, 0xff]

def reversBits (byte : UInt8) : UInt8 := reversTable.getD byte.toNat 0

/-- The bytes of a line that starts at a place, taken from another line. -/
def copyLine (convert : UInt8 -> UInt8) (source : Nat -> UInt8) (lineSize src : Nat) (dest : Int)
    (data : Int -> UInt8) : Int -> UInt8 :=
  fun place =>
    if dest ≤ place ∧ place < dest + lineSize then convert (source (src + (place - dest).toNat)) else data place

def copyLines (convert : UInt8 -> UInt8) (source : Nat -> UInt8) (lineSize srcStride : Nat) (destStride : Int) :
    Nat -> Nat -> Int -> (Int -> UInt8) -> Int -> UInt8
  | 0, _, _, data => data
  | lines + 1, src, dest, data =>
      copyLines convert source lineSize srcStride destStride lines (src + srcStride) (dest + destStride)
        (copyLine convert source lineSize src dest data)

def MaskBitmap.convert (bitmap : MaskBitmap) (invers : Bool) (byte : UInt8) : UInt8 :=
  let ordered := if bitmap.bigEndian then reversBits byte else byte
  if invers then ~~~ordered else ordered

/-- The shape of the image that `surface_create` makes, if pixman can make it. -/
def surfaceCreate (width height : Nat) : Option Shape :=
  if width + 31 < 2 ^ 31 ∧ height < 2 ^ 31 then
    some
      { width := width
        height := height
        stride := if width = 0 ∨ height = 0 then 0 else 4 * (((width + 31) / 32 : Nat) : Int)
        covers := by split <;> omega }
  else none

def canvasGetBitmapMask (bitmap : MaskBitmap) (invers : Bool) : Option MaskImage :=
  (surfaceCreate bitmap.x bitmap.y).bind fun shape =>
    -- there is no line if the end of the lines is where they start
    let lines := if bitmap.stride = 0 then 0 else bitmap.y
    let copied := copyLines (bitmap.convert invers) bitmap.data ((bitmap.x + 7) / 8) bitmap.stride
    -- the stride is an `int`, and with a negative one the end of the lines is not reached
    if 2 ^ 31 ≤ bitmap.stride ∧ 0 < bitmap.y then none
    else if bitmap.topDown then
      some { shape with data := copied shape.stride lines 0 0 (fun _ => 0) }
    else
      -- `spice_return_val_if_fail(bitmap->y > 0, NULL)`
      if bitmap.y = 0 then none
      else if IsInt32 (shape.stride * ((bitmap.y : Int) - 1)) then
        some { shape with data := copied (-shape.stride) lines 0 (shape.stride * ((bitmap.y : Int) - 1)) (fun _ => 0) }
      else none

/-! ## Regions -/

/-- A `pixman_box32_t`. -/
structure Box where
  x1 : Int
  y1 : Int
  x2 : Int
  y2 : Int
deriving DecidableEq

def Box.Contains (box : Box) (px py : Int) : Prop := (box.x1 ≤ px ∧ px < box.x2) ∧ box.y1 ≤ py ∧ py < box.y2

instance (box : Box) (px py : Int) : Decidable (box.Contains px py) :=
  inferInstanceAs (Decidable ((_ ∧ _) ∧ _ ∧ _))

/-- A `pixman_region32_t` with its extents. -/
structure Region where
  contains : Int -> Int -> Bool
  extents : Box
  bounded : forall px py, contains px py = true -> extents.Contains px py

/-! ## The mask -/

/-- Where a mask comes from.  `cacheMe` is set if the image is to be put into the cache, and the
image of the cache or of the surface is what these have. -/
inductive MaskSource
  | bitmap (source : MaskBitmap) (cacheMe : Bool)
  | fromCache (image : Option MaskImage)
  | surface (image : Option MaskImage)

/-- A `SpiceQMask` with its bitmap. -/
structure QMask where
  source : MaskSource
  inverse : Bool
  posX : Int
  posY : Int

/-- The image that `canvas_mask_pixman` starts from, and `needs_invert`: `canvas_get_mask`, or the
image of a surface. -/
def canvasGetMask (mask : QMask) : Option (MaskImage × Bool) :=
  match mask.source with
  | .bitmap source cacheMe =>
      let isInvers := mask.inverse && !cacheMe
      (canvasGetBitmapMask source isInvers).map fun image => (image, mask.inverse && !isInvers)
  | .fromCache found => found.map fun image => (image, mask.inverse)
  | .surface found => found.map fun image => (image, mask.inverse)

def toMask (extents : Box) (mask : QMask) (x y : Int) : Box where
  x1 := extents.x1 - (x - mask.posX)
  y1 := extents.y1 - (y - mask.posY)
  x2 := extents.x2 - (x - mask.posX)
  y2 := extents.y2 - (y - mask.posY)

/-- Clip one pair of coordinates to the size of the mask. -/
def clipRange (low high : Int) (size : Nat) : Int × Int :=
  let first := if low < 0 then 0 else low
  let second := if (size : Int) ≤ high then (size : Int) else high
  (first, if second < first then first else second)

/-- The part of the mask that is used, before its left edge is rounded down. -/
def clipToMask (shape : Shape) (box : Box) : Box where
  x1 := (clipRange box.x1 box.x2 shape.width).1
  x2 := (clipRange box.x1 box.x2 shape.width).2
  y1 := (clipRange box.y1 box.y2 shape.height).1
  y2 := (clipRange box.y1 box.y2 shape.height).2

/-- `extents.x1 & ~(0x1f)`. -/
def roundDown (column : Int) : Int := column / 32 * 32

/-- Everything the code computes with an `int` fits. -/
def FitsInt (shape : Shape) (mask : QMask) (x y : Int) (extents : Box) : Prop :=
  let moved := toMask extents mask x y
  let used := clipToMask shape moved
  (IsInt32 (x - mask.posX) ∧ IsInt32 (y - mask.posY)) ∧
    (IsInt32 moved.x1 ∧ IsInt32 moved.y1 ∧ IsInt32 moved.x2 ∧ IsInt32 moved.y2) ∧
      IsInt32 (shape.stride * used.y1) ∧
        (IsInt32 (mask.posX - roundDown used.x1) ∧ IsInt32 (mask.posY - used.y1)) ∧
          (IsInt32 (-(mask.posX - roundDown used.x1)) ∧ IsInt32 (-(mask.posY - used.y1))) ∧
            IsInt32 (-(mask.posX - roundDown used.x1) + x) ∧ IsInt32 (-(mask.posY - used.y1) + y)

instance (shape : Shape) (mask : QMask) (x y : Int) (extents : Box) :
    Decidable (FitsInt shape mask x y extents) :=
  inferInstanceAs (Decidable ((_ ∧ _) ∧ (_ ∧ _ ∧ _ ∧ _) ∧ _ ∧ (_ ∧ _) ∧ (_ ∧ _) ∧ _ ∧ _))

/-- The sub-image that is turned into a region: its size, and where its data starts.  With `NULL`
for the data pixman makes a clear one. -/
structure SubImage where
  width : Int
  height : Int
  stride : Int
  place : Int
  clear : Bool

def SubImage.Reads (sub : SubImage) (place : Int) : Prop :=
  sub.clear = false ∧ Exists fun row : Int => Exists fun word : Int =>
    (0 ≤ row ∧ row < sub.height) ∧ (0 ≤ word ∧ 32 * word < sub.width) ∧
      place = sub.place + sub.stride * row + 4 * word

def SubImage.region (sub : SubImage) (data : Int -> UInt8) (px py : Int) : Bool :=
  decide ((0 ≤ px ∧ px < sub.width) ∧ 0 ≤ py ∧ py < sub.height) && !sub.clear &&
    bitOf (data (sub.place + sub.stride * py + px / 8)) (px % 8).toNat

/-- `pixman_region32_inverse` in a rectangle at the origin. -/
def inverseIn (width height : Int) (region : Int -> Int -> Bool) (px py : Int) : Bool :=
  decide ((0 ≤ px ∧ px < width) ∧ 0 ≤ py ∧ py < height) && !region px py

def translate (dx dy : Int) (region : Int -> Int -> Bool) (px py : Int) : Bool := region (px - dx) (py - dy)

/-- The result of `canvas_mask_pixman`: the region, and the image with the part that is read. -/
structure MaskRun where
  contains : Int -> Int -> Bool
  image : MaskImage
  sub : SubImage

/-- The sub-image of a mask image that `canvas_mask_pixman` cuts out. -/
def cutOut (shape : Shape) (used : Box) : SubImage where
  width := used.x2 - roundDown used.x1
  height := used.y2 - used.y1
  stride := shape.stride
  -- the data is a pointer to bytes here, and this adds the number of words
  place := shape.stride * used.y1 + roundDown used.x1 / 32
  clear := shape.stride = 0 && roundDown used.x1 / 32 = 0

/-- `canvas_mask_pixman` for a mask with a bitmap. -/
def canvasMaskPixman (destRegion : Region) (mask : QMask) (x y : Int) : Option MaskRun :=
  (canvasGetMask mask).bind fun found =>
    let image := found.1
    let used := clipToMask image.toShape (toMask destRegion.extents mask x y)
    let sub := cutOut image.toShape used
    let region := sub.region image.data
    let inverted := if found.2 then inverseIn sub.width sub.height region else region
    let maskRegion := translate (-(mask.posX - roundDown used.x1) + x) (-(mask.posY - used.y1) + y) inverted
    if FitsInt image.toShape mask x y destRegion.extents then
      some
        { contains := fun px py => destRegion.contains px py && maskRegion px py
          image := image
          sub := sub }
    else none

/-! ## What is expected -/

def MaskImage.bit? (image : MaskImage) (column row : Int) : Option Bool :=
  if image.Inside column row then some (image.bit column row) else none

def MaskSource.bit? : MaskSource -> Int -> Int -> Option Bool
  | .bitmap source _, column, row =>
      if (0 ≤ column ∧ column < source.x) ∧ 0 ≤ row ∧ row < source.y then
        some (source.bit column.toNat row.toNat)
      else none
  | .fromCache found, column, row => found.bind fun image => image.bit? column row
  | .surface found, column, row => found.bind fun image => image.bit? column row

/-- The pixel stays in the region: the mask has a bit for it, which is set, or clear for an
inverse mask. -/
def QMask.Keeps (mask : QMask) (x y px py : Int) : Prop :=
  mask.source.bit? (px - x + mask.posX) (py - y + mask.posY) = some (!mask.inverse)

/-- The region is clipped by exactly the mask, and only words of the mask image are read. -/
def ClipsExactly (destRegion : Region) (mask : QMask) (x y : Int) : Prop :=
  Exists fun run => canvasMaskPixman destRegion mask x y = some run ∧
    (forall px py, run.contains px py = true <-> destRegion.contains px py = true ∧ mask.Keeps x y px py) ∧
      forall place, run.sub.Reads place -> run.image.toShape.InsideWord place

/-! ## The image of a bitmap -/

theorem bitOf_reversBits (byte : UInt8) {index : Nat} (inByte : index < 8) :
    bitOf (reversBits byte) index = bitOf byte (7 - index) := by
  have table : forall value, value < 256 -> forall place, place < 8 ->
      (reversTable.getD value 0).toNat.testBit place = value.testBit (7 - place) := by decide +kernel
  exact table byte.toNat byte.toNat_lt index inByte

theorem bitOf_not (byte : UInt8) {index : Nat} (inByte : index < 8) : bitOf (~~~byte) index = !bitOf byte index := by
  have bound := byte.toNat_lt
  unfold bitOf
  rw [UInt8.toNat_not, show UInt8.size - 1 - byte.toNat = 2 ^ 8 - (byte.toNat + 1) by simp only [UInt8.size]; omega,
    Nat.testBit_two_pow_sub_succ bound, decide_eq_true inByte, Bool.true_and]

theorem bitOf_convert (bitmap : MaskBitmap) (invers : Bool) (byte : UInt8) {index : Nat} (inByte : index < 8) :
    bitOf (bitmap.convert invers byte) index =
      (bitOf byte (if bitmap.bigEndian then 7 - index else index) ^^ invers) := by
  unfold MaskBitmap.convert
  cases invers <;> cases bitmap.bigEndian <;> simp [bitOf_not _ inByte, bitOf_reversBits _ inByte]

section CopyLines

variable {convert : UInt8 -> UInt8} {source : Nat -> UInt8} {lineSize srcStride : Nat} {destStride : Int}

/-- Lines are copied to their own places only. -/
theorem copyLines_untouched (lines src : Nat) (dest : Int) (data : Int -> UInt8) {place : Int}
    (clear : forall line, line < lines -> place < dest + destStride * line ∨
      dest + destStride * line + lineSize ≤ place) :
    copyLines convert source lineSize srcStride destStride lines src dest data place = data place := by
  induction lines generalizing src dest data with
  | zero => rfl
  | succ lines ih =>
      have first := clear 0 (by omega)
      rw [Nat.cast_zero, Int.mul_zero, Int.add_zero] at first
      unfold copyLines
      rw [ih]
      · unfold copyLine
        rw [if_neg (by omega)]
      · intro line inside
        have later := clear (line + 1) (by omega)
        have step : destStride * ((line + 1 : Nat) : Int) = destStride + destStride * line := by push_cast; ring
        rw [step] at later
        omega

/-- Each line is copied whole. -/
theorem copyLines_line (fits : (lineSize : Int) ≤ destStride.natAbs) (lines src : Nat) (dest : Int)
    (data : Int -> UInt8) {line column : Nat} (inLines : line < lines) (inLine : column < lineSize) :
    copyLines convert source lineSize srcStride destStride lines src dest data (dest + destStride * line + column) =
      convert (source (src + srcStride * line + column)) := by
  induction lines generalizing src dest data line with
  | zero => omega
  | succ lines ih =>
      unfold copyLines
      cases line with
      | zero =>
          rw [copyLines_untouched]
          · unfold copyLine
            rw [if_pos (by omega)]
            congr 2
            omega
          · intro later _
            have grows : destStride.natAbs ≤ (destStride * (later + 1)).natAbs := by
              rw [Int.natAbs_mul]
              exact Nat.le_mul_of_pos_right _ (by omega)
            have step : destStride * (later + 1) = destStride + destStride * later := by ring
            have sameSign : (0 ≤ destStride -> 0 ≤ destStride * (later + 1)) ∧
                (destStride ≤ 0 -> destStride * (later + 1) ≤ 0) :=
              ⟨fun up => Int.mul_nonneg up (by omega), fun down => Int.mul_nonpos_of_nonpos_of_nonneg down (by omega)⟩
            omega
      | succ line =>
          have found := ih (src + srcStride) (dest + destStride) (copyLine convert source lineSize src dest data)
            (show line < lines by omega)
          have place : dest + destStride * ((line + 1 : Nat) : Int) + column =
              dest + destStride + destStride * line + column := by push_cast; ring
          have from' : src + srcStride * (line + 1) + column = src + srcStride + srcStride * line + column := by ring
          rw [place, from', found]

end CopyLines

/-- The shape of the image of a bitmap, if the code makes one. -/
def MaskBitmap.shape (bitmap : MaskBitmap) : Option Shape :=
  (surfaceCreate bitmap.x bitmap.y).filter fun shape =>
    (bitmap.stride < 2 ^ 31 || bitmap.y = 0) &&
      (bitmap.topDown || (0 < bitmap.y && decide (IsInt32 (shape.stride * ((bitmap.y : Int) - 1)))))

def MaskSource.shape : MaskSource -> Option Shape
  | .bitmap source _ => source.shape
  | .fromCache found => found.map MaskImage.toShape
  | .surface found => found.map MaskImage.toShape

/-- The mask that is made has the shape that its bitmap promises. -/
theorem canvasGetBitmapMask_shape (bitmap : MaskBitmap) (invers : Bool) :
    (canvasGetBitmapMask bitmap invers).map MaskImage.toShape = bitmap.shape := by
  unfold canvasGetBitmapMask MaskBitmap.shape
  cases surfaceCreate bitmap.x bitmap.y with
  | none => rfl
  | some shape =>
      rw [Option.bind_some, Option.filter_some]
      by_cases large : 2 ^ 31 ≤ bitmap.stride ∧ 0 < bitmap.y
      · have tooLarge : (decide (bitmap.stride < 2 ^ 31) || decide (bitmap.y = 0)) = false := by
          rw [Bool.or_eq_false_iff, decide_eq_false_iff_not, decide_eq_false_iff_not]
          omega
        rw [tooLarge]
        simp only [if_pos large]
        rfl
      · have small : (decide (bitmap.stride < 2 ^ 31) || decide (bitmap.y = 0)) = true := by
          rw [Bool.or_eq_true, decide_eq_true_iff, decide_eq_true_iff]
          omega
        rw [small]
        simp only [if_neg large]
        cases bitmap.topDown with
        | true => rfl
        | false =>
            rcases Nat.eq_zero_or_pos bitmap.y with none | some
            · simp [none]
            · by_cases fits : IsInt32 (shape.stride * ((bitmap.y : Int) - 1))
              · simp [fits, some, Nat.pos_iff_ne_zero.mp some]
              · simp [fits, some, Nat.pos_iff_ne_zero.mp some]

theorem surfaceCreate_some {width height : Nat} {shape : Shape} (made : surfaceCreate width height = some shape) :
    shape.width = width ∧ shape.height = height ∧
      (0 < width -> 0 < height -> shape.stride = 4 * (((width + 31) / 32 : Nat) : Int)) := by
  unfold surfaceCreate at made
  split at made
  · cases made
    refine ⟨rfl, rfl, fun wide high => if_neg (by omega)⟩
  · cases made

/-- The bits of the image are those of the bitmap, or the others. -/
theorem canvasGetBitmapMask_bit {bitmap : MaskBitmap} {invers : Bool} {image : MaskImage}
    (made : canvasGetBitmapMask bitmap invers = some image) {column row : Nat} (inColumns : column < bitmap.x)
    (inRows : row < bitmap.y) : image.bit column row = (bitmap.bit column row ^^ invers) := by
  have covers := bitmap.covers
  have inLine : column / 8 < (bitmap.x + 7) / 8 := by omega
  have inByte : column % 8 < 8 := Nat.mod_lt _ (by decide)
  unfold canvasGetBitmapMask at made
  obtain ⟨shape, created, made⟩ := Option.bind_eq_some_iff.mp made
  obtain ⟨-, -, stride⟩ := surfaceCreate_some created
  have wide := stride (by omega) (by omega)
  have bit : ((column : Int) % 8).toNat = column % 8 := by omega
  have fits : (((bitmap.x + 7) / 8 : Nat) : Int) ≤ shape.stride.natAbs := by omega
  simp only [if_neg (show ¬ bitmap.stride = 0 by omega)] at made
  unfold MaskBitmap.bit MaskImage.bit
  split at made
  · cases made
  · split at made
    · rename_i topDown
      cases made
      have line := @copyLines_line (bitmap.convert invers) bitmap.data _ bitmap.stride _ fits bitmap.y 0 0
        (fun _ => 0) row (column / 8) inRows inLine
      rw [Int.zero_add, Nat.zero_add] at line
      rw [if_pos topDown, bit, ← bitOf_convert bitmap invers _ inByte, ← line]
      rfl
    · rename_i bottomUp
      split at made
      · cases made
      · split at made
        · cases made
          have line := @copyLines_line (bitmap.convert invers) bitmap.data _ bitmap.stride (-shape.stride) (by omega)
            bitmap.y 0 (shape.stride * ((bitmap.y : Int) - 1)) (fun _ => 0) (bitmap.y - 1 - row) (column / 8)
            (by omega) inLine
          have place : shape.stride * ((bitmap.y : Int) - 1) + -shape.stride * ((bitmap.y - 1 - row : Nat) : Int) =
              shape.stride * row := by
            rw [Nat.cast_sub (by omega), Nat.cast_sub (by omega)]
            push_cast
            ring
          rw [place, Nat.zero_add] at line
          rw [if_neg bottomUp, bit, ← bitOf_convert bitmap invers _ inByte, ← line]
          rfl
        · cases made

/-- The image of a mask has its bits, or the others: `needs_invert` is set if they are still to be
inverted. -/
theorem canvasGetMask_bit {mask : QMask} {image : MaskImage} {inverted : Bool}
    (found : canvasGetMask mask = some (image, inverted)) (column row : Int) :
    mask.source.bit? column row = (image.bit? column row).map fun bit => bit ^^ mask.inverse ^^ inverted := by
  unfold canvasGetMask at found
  cases source : mask.source with
  | bitmap bitmap cacheMe =>
      rw [source] at found
      obtain ⟨image', made, same⟩ := Option.map_eq_some_iff.mp found
      cases same
      have shape := canvasGetBitmapMask_shape bitmap (mask.inverse && !cacheMe)
      rw [made] at shape
      obtain ⟨created, -⟩ := Option.filter_eq_some_iff.mp shape.symm
      obtain ⟨width, height, -⟩ := surfaceCreate_some created
      have same : image.Inside column row <-> (0 ≤ column ∧ column < bitmap.x) ∧ 0 ≤ row ∧ row < bitmap.y := by
        unfold Shape.Inside
        rw [width, height]
      rw [MaskSource.bit?, MaskImage.bit?]
      simp only [same]
      split
      · rename_i inside
        obtain ⟨⟨left, right⟩, top, bottom⟩ := inside
        have bits := canvasGetBitmapMask_bit made (show column.toNat < bitmap.x by omega)
          (show row.toNat < bitmap.y by omega)
        rw [Int.toNat_of_nonneg left, Int.toNat_of_nonneg top] at bits
        rw [Option.map_some, bits]
        cases mask.inverse <;> cases cacheMe <;> simp
      · rfl
  | fromCache kept =>
      rw [source] at found
      obtain ⟨image', made, same⟩ := Option.map_eq_some_iff.mp found
      cases same
      cases made
      unfold MaskSource.bit?
      cases mask.inverse <;> simp
  | surface kept =>
      rw [source] at found
      obtain ⟨image', made, same⟩ := Option.map_eq_some_iff.mp found
      cases same
      cases made
      unfold MaskSource.bit?
      cases mask.inverse <;> simp

theorem canvasGetMask_shape (mask : QMask) :
    (canvasGetMask mask).map (fun found => found.1.toShape) = mask.source.shape := by
  unfold canvasGetMask
  cases mask.source with
  | bitmap bitmap cacheMe =>
      rw [MaskSource.shape, ← canvasGetBitmapMask_shape bitmap (mask.inverse && !cacheMe)]
      exact Option.map_map _ _ _
  | fromCache kept => cases kept <;> rfl
  | surface kept => cases kept <;> rfl

/-! ## The part of the mask that is cut out -/

theorem clipRange_row {low high row : Int} {size : Nat} :
    ((clipRange low high size).1 ≤ row ∧ row < (clipRange low high size).2) <->
      (low ≤ row ∧ row < high) ∧ 0 ≤ row ∧ row < size := by
  unfold clipRange
  dsimp only
  split <;> split <;> split <;> omega

theorem clipRange_column {low high left column : Int} {size : Nat} (nonneg : 0 ≤ left)
    (before : left ≤ (clipRange low high size).1) (inRange : low ≤ column ∧ column < high) :
    (left ≤ column ∧ column < (clipRange low high size).2) <-> 0 ≤ column ∧ column < size := by
  unfold clipRange at *
  dsimp only at *
  split at before <;> split <;> split <;> omega

theorem clipRange_second (low high : Int) (size : Nat) : (clipRange low high size).2 = (clipRange low high size).1 ∨
      ((clipRange low high size).1 < (clipRange low high size).2 ∧ (clipRange low high size).2 ≤ size) := by
  unfold clipRange
  dsimp only
  split <;> split <;> split <;> omega

theorem clipRange_first (low high : Int) (size : Nat) : (clipRange low high size).1 = max 0 low := by
  unfold clipRange
  dsimp only
  split <;> omega

theorem Shape.insideWord_row {shape : Shape} {row byte : Int} (top : 0 ≤ row) (bottom : row < shape.height)
    (first : 0 ≤ byte) (last : byte + 4 ≤ shape.stride.natAbs) : shape.InsideWord (shape.stride * row + byte) := by
  have line : Exists fun line : Nat => line < shape.height ∧
      shape.start + shape.stride * row = (shape.stride.natAbs : Int) * line := by
    unfold Shape.start
    split
    · refine ⟨(shape.height - 1 - row).toNat, by omega, ?_⟩
      rw [Int.toNat_of_nonneg (by omega), show ((shape.stride.natAbs : Nat) : Int) = -shape.stride by omega]
      ring
    · refine ⟨row.toNat, by omega, ?_⟩
      rw [Int.toNat_of_nonneg top, Int.zero_add, show ((shape.stride.natAbs : Nat) : Int) = shape.stride by omega]
  obtain ⟨line, inside, place⟩ := line
  have below : (shape.stride.natAbs : Int) * (line + 1) ≤ shape.stride.natAbs * shape.height :=
    Int.mul_le_mul_of_nonneg_left (by omega) (by omega)
  have nonneg : 0 ≤ (shape.stride.natAbs : Int) * line := Int.mul_nonneg (by omega) (by omega)
  rw [Int.mul_add, Int.mul_one] at below
  unfold Shape.InsideWord
  omega

/-- The first column of the mask that the region may use. -/
def leftColumn (destRegion : Region) (mask : QMask) (x : Int) : Int :=
  max 0 (destRegion.extents.x1 - (x - mask.posX))

/-- The words of a row of the mask that are left of the region. -/
def skippedWords (destRegion : Region) (mask : QMask) (x : Int) : Int := leftColumn destRegion mask x / 32

/-- When the mask can be used.  The bits that are read for a region with words of the mask left of
it are those 24 columns to the left for each of these words, and a region that starts right of the
mask reads words that are not in its rows. -/
structure MaskFits (destRegion : Region) (mask : QMask) (x y : Int) (shape : Shape) : Prop where
  fitsInt : FitsInt shape mask x y destRegion.extents
  repeats : forall px py bit, destRegion.contains px py = true ->
    mask.source.bit? (px - x + mask.posX) (py - y + mask.posY) = some bit ->
      mask.source.bit? (px - x + mask.posX - 24 * skippedWords destRegion mask x) (py - y + mask.posY) = some bit
  inside : shape.width < leftColumn destRegion mask x -> leftColumn destRegion mask x % 32 ≠ 0 ->
    (shape.stride ≠ 0 ∨ skippedWords destRegion mask x ≠ 0) -> forall row : Int,
      (destRegion.extents.y1 - (y - mask.posY) ≤ row ∧ row < destRegion.extents.y2 - (y - mask.posY)) ->
        (0 ≤ row ∧ row < shape.height) ->
          shape.InsideWord (shape.stride * row + skippedWords destRegion mask x)

section CutOut

variable {destRegion : Region} {mask : QMask} {x y : Int} {shape : Shape}

theorem clipToMask_x1 (box : Box) : (clipToMask shape box).x1 = max 0 box.x1 :=
  clipRange_first box.x1 box.x2 shape.width

theorem clipToMask_left : (clipToMask shape (toMask destRegion.extents mask x y)).x1 = leftColumn destRegion mask x :=
  clipToMask_x1 _

theorem clear_iff : (cutOut shape (clipToMask shape (toMask destRegion.extents mask x y))).clear = false <->
    shape.stride ≠ 0 ∨ skippedWords destRegion mask x ≠ 0 := by
  have words : roundDown (leftColumn destRegion mask x) / 32 = skippedWords destRegion mask x := by
    unfold roundDown skippedWords
    omega
  unfold cutOut
  dsimp only
  rw [clipToMask_left, words, Bool.and_eq_false_iff, decide_eq_false_iff_not, decide_eq_false_iff_not]

/-- The words that are read are in the image, but for a region that starts right of the mask. -/
theorem reads_inside : (forall place,
    (cutOut shape (clipToMask shape (toMask destRegion.extents mask x y))).Reads place ->
      shape.InsideWord place) <-> (shape.width < leftColumn destRegion mask x ->
        leftColumn destRegion mask x % 32 ≠ 0 ->
      (shape.stride ≠ 0 ∨ skippedWords destRegion mask x ≠ 0) -> forall row : Int,
        (destRegion.extents.y1 - (y - mask.posY) ≤ row ∧ row < destRegion.extents.y2 - (y - mask.posY)) ->
          (0 ≤ row ∧ row < shape.height) ->
            shape.InsideWord (shape.stride * row + skippedWords destRegion mask x)) := by
  have left := @clipToMask_left destRegion mask x y shape
  have last : (clipToMask shape (toMask destRegion.extents mask x y)).x2 = leftColumn destRegion mask x ∨
      (leftColumn destRegion mask x < (clipToMask shape (toMask destRegion.extents mask x y)).x2 ∧
        (clipToMask shape (toMask destRegion.extents mask x y)).x2 ≤ shape.width) := by
    rw [← left]
    exact clipRange_second _ _ _
  have rows : forall row : Int, ((clipToMask shape (toMask destRegion.extents mask x y)).y1 ≤ row ∧
      row < (clipToMask shape (toMask destRegion.extents mask x y)).y2) <->
        (destRegion.extents.y1 - (y - mask.posY) ≤ row ∧ row < destRegion.extents.y2 - (y - mask.posY)) ∧
          0 ≤ row ∧ row < shape.height := fun row => clipRange_row
  have words : roundDown (leftColumn destRegion mask x) / 32 = skippedWords destRegion mask x := by
    unfold roundDown skippedWords
    omega
  have least : 0 ≤ leftColumn destRegion mask x := by
    unfold leftColumn
    omega
  have notClear := @clear_iff destRegion mask x y shape
  constructor
  · intro inside past partly hasData row inRows inHeight
    obtain ⟨top, bottom⟩ := (rows row).mpr ⟨inRows, inHeight⟩
    apply inside
    refine ⟨notClear.mpr hasData, row - (clipToMask shape (toMask destRegion.extents mask x y)).y1, 0, ?_⟩
    unfold cutOut
    dsimp only
    rw [left, words]
    refine ⟨by omega, ⟨by omega, ?_⟩, by ring⟩
    unfold roundDown
    omega
  · rintro inside place ⟨hasData, row, word, inRows, inColumns, rfl⟩
    unfold cutOut at inRows inColumns
    unfold cutOut
    dsimp only at inRows inColumns ⊢
    rw [left] at inColumns ⊢
    rw [words]
    obtain ⟨inRegion, inHeight⟩ := (rows ((clipToMask shape (toMask destRegion.extents mask x y)).y1 + row)).mp
      ⟨by omega, by omega⟩
    rw [show shape.stride * (clipToMask shape (toMask destRegion.extents mask x y)).y1 +
        skippedWords destRegion mask x + shape.stride * row + 4 * word =
      shape.stride * ((clipToMask shape (toMask destRegion.extents mask x y)).y1 + row) +
        (skippedWords destRegion mask x + 4 * word) by ring]
    have covers : 4 * ((shape.width + 31) / 32) ≤ shape.stride.natAbs :=
      shape.covers.resolve_left (by omega)
    unfold roundDown at inColumns
    unfold skippedWords at inside ⊢
    by_cases past : shape.width < leftColumn destRegion mask x
    · have only : word = 0 := by omega
      rw [only, Int.mul_zero, Int.add_zero]
      exact inside past (by omega) (notClear.mp hasData) _ inRegion inHeight
    · exact Shape.insideWord_row inHeight.1 inHeight.2 (by omega) (by omega)

/-- When the bit of a pixel is on the mask that was cut out. -/
theorem inside_iff {px py : Int} (inRegion : destRegion.contains px py = true) :
    ((0 ≤ px - x + mask.posX - roundDown (leftColumn destRegion mask x) ∧
        px - x + mask.posX - roundDown (leftColumn destRegion mask x) <
          (cutOut shape (clipToMask shape (toMask destRegion.extents mask x y))).width) ∧
      0 ≤ py - y + mask.posY - (clipToMask shape (toMask destRegion.extents mask x y)).y1 ∧
        py - y + mask.posY - (clipToMask shape (toMask destRegion.extents mask x y)).y1 <
          (cutOut shape (clipToMask shape (toMask destRegion.extents mask x y))).height) <->
      shape.Inside (px - x + mask.posX) (py - y + mask.posY) := by
  obtain ⟨⟨fromLeft, toRight⟩, fromTop, toBottom⟩ := destRegion.bounded px py inRegion
  have left := @clipToMask_left destRegion mask x y shape
  have least : 0 ≤ leftColumn destRegion mask x := by
    unfold leftColumn
    omega
  have columns := @clipRange_column (toMask destRegion.extents mask x y).x1 (toMask destRegion.extents mask x y).x2
    (roundDown (leftColumn destRegion mask x)) (px - x + mask.posX) shape.width
    (by unfold roundDown; omega)
    (by
      show _ ≤ (clipToMask shape (toMask destRegion.extents mask x y)).x1
      rw [left]
      unfold roundDown
      omega)
    (by unfold toMask; dsimp only; omega)
  have rows := @clipRange_row (toMask destRegion.extents mask x y).y1 (toMask destRegion.extents mask x y).y2
    (py - y + mask.posY) shape.height
  have inRows : (toMask destRegion.extents mask x y).y1 ≤ py - y + mask.posY ∧
      py - y + mask.posY < (toMask destRegion.extents mask x y).y2 := by
    unfold toMask
    dsimp only
    omega
  unfold cutOut
  dsimp only
  rw [left]
  unfold Shape.Inside
  rw [← columns]
  unfold clipToMask
  dsimp only
  omega

/-- The bits of the mask that was cut out. -/
theorem bit_cutOut (image : MaskImage) (column row : Int) :
    bitOf (image.data (image.stride * (clipToMask image.toShape (toMask destRegion.extents mask x y)).y1 +
        roundDown (leftColumn destRegion mask x) / 32 +
          image.stride * (row - (clipToMask image.toShape (toMask destRegion.extents mask x y)).y1) +
            (column - roundDown (leftColumn destRegion mask x)) / 8))
      ((column - roundDown (leftColumn destRegion mask x)) % 8).toNat =
    image.bit (column - 24 * skippedWords destRegion mask x) row := by
  have words : roundDown (leftColumn destRegion mask x) = 32 * skippedWords destRegion mask x := by
    unfold roundDown skippedWords
    omega
  have bytes : (column - 24 * skippedWords destRegion mask x) / 8 =
      skippedWords destRegion mask x + (column - 32 * skippedWords destRegion mask x) / 8 := by omega
  have index : (column - 24 * skippedWords destRegion mask x) % 8 =
      (column - 32 * skippedWords destRegion mask x) % 8 := by omega
  have count : 32 * skippedWords destRegion mask x / 32 = skippedWords destRegion mask x := by omega
  unfold MaskImage.bit
  rw [words, bytes, index, count]
  congr 2
  ring

end CutOut

/-- What the code does: a pixel of the region stays if the mask has the pixel and the bit that is
read for it is set, or clear for an inverse mask. -/
theorem canvasMaskPixman_run {destRegion : Region} {mask : QMask} {x y : Int} {image : MaskImage} {inverted : Bool}
    (found : canvasGetMask mask = some (image, inverted)) (fits : FitsInt image.toShape mask x y destRegion.extents) :
    Exists fun run => canvasMaskPixman destRegion mask x y = some run ∧ run.image = image ∧
      run.sub = cutOut image.toShape (clipToMask image.toShape (toMask destRegion.extents mask x y)) ∧
        forall px py, run.contains px py = true <-> destRegion.contains px py = true ∧
          image.Inside (px - x + mask.posX) (py - y + mask.posY) ∧
            image.bit (px - x + mask.posX - 24 * skippedWords destRegion mask x) (py - y + mask.posY) = !inverted := by
  unfold canvasMaskPixman
  rw [found, Option.bind_some]
  simp only [if_pos fits]
  refine ⟨_, rfl, rfl, rfl, fun px py => ?_⟩
  rw [Bool.and_eq_true]
  apply and_congr_right
  intro inRegion
  have inside := @inside_iff destRegion mask x y image.toShape px py inRegion
  rw [clipToMask_left]
  unfold translate
  rw [show px - (-(mask.posX - roundDown (leftColumn destRegion mask x)) + x) =
      px - x + mask.posX - roundDown (leftColumn destRegion mask x) by ring,
    show py - (-(mask.posY - (clipToMask image.toShape (toMask destRegion.extents mask x y)).y1) + y) =
      py - y + mask.posY - (clipToMask image.toShape (toMask destRegion.extents mask x y)).y1 by ring]
  have bits := @bit_cutOut destRegion mask x y image (px - x + mask.posX) (py - y + mask.posY)
  have region : image.Inside (px - x + mask.posX) (py - y + mask.posY) ->
      (cutOut image.toShape (clipToMask image.toShape (toMask destRegion.extents mask x y))).region image.data
        (px - x + mask.posX - roundDown (leftColumn destRegion mask x))
        (py - y + mask.posY - (clipToMask image.toShape (toMask destRegion.extents mask x y)).y1) =
          image.bit (px - x + mask.posX - 24 * skippedWords destRegion mask x) (py - y + mask.posY) := by
    intro isInside
    have inWidth := isInside.1
    have inHeight := isInside.2
    have covers := image.covers
    have hasData := (@clear_iff destRegion mask x y image.toShape).mpr (Or.inl (by omega))
    unfold SubImage.region
    rw [decide_eq_true (inside.mpr isInside), hasData, ← bits]
    unfold cutOut
    rw [clipToMask_left]
    rfl
  cases inverted with
  | false =>
      rw [if_neg (by decide)]
      constructor
      · intro isSet
        have isInside := inside.mp (of_decide_eq_true (Bool.and_eq_true_iff.mp (Bool.and_eq_true_iff.mp isSet).1).1)
        exact ⟨isInside, (region isInside).symm.trans isSet⟩
      · rintro ⟨isInside, isSet⟩
        exact (region isInside).trans isSet
  | true =>
      rw [if_pos rfl]
      unfold inverseIn
      rw [Bool.and_eq_true, decide_eq_true_iff, inside]
      apply and_congr_right
      intro isInside
      rw [region isInside, Bool.not_eq_true', Bool.not_true]

/-- When each pixel is masked by its own bit. -/
theorem repeats_iff {destRegion : Region} {mask : QMask} {x y : Int} {image : MaskImage} {inverted : Bool}
    (found : canvasGetMask mask = some (image, inverted)) {px py : Int} (inRegion : destRegion.contains px py = true) :
    (forall bit, mask.source.bit? (px - x + mask.posX) (py - y + mask.posY) = some bit ->
      mask.source.bit? (px - x + mask.posX - 24 * skippedWords destRegion mask x) (py - y + mask.posY) = some bit) <->
    (image.Inside (px - x + mask.posX) (py - y + mask.posY) ->
      image.bit (px - x + mask.posX - 24 * skippedWords destRegion mask x) (py - y + mask.posY) =
        image.bit (px - x + mask.posX) (py - y + mask.posY)) := by
  have source := canvasGetMask_bit found
  rw [source, source]
  unfold MaskImage.bit?
  by_cases isInside : image.Inside (px - x + mask.posX) (py - y + mask.posY)
  · have stays : image.Inside (px - x + mask.posX - 24 * skippedWords destRegion mask x) (py - y + mask.posY) := by
      obtain ⟨⟨fromLeft, inWidth⟩, inHeight⟩ := isInside
      have fromExtents := (destRegion.bounded px py inRegion).1.1
      refine ⟨⟨?_, ?_⟩, inHeight⟩
      · unfold skippedWords leftColumn
        omega
      · unfold skippedWords leftColumn
        omega
    rw [if_pos isInside, if_pos stays, Option.map_some, Option.map_some]
    constructor
    · intro repeats _
      have same := Option.some.inj (repeats _ rfl)
      rw [Bool.xor_left_inj, Bool.xor_left_inj] at same
      exact same
    · intro same bit isBit
      rw [same isInside]
      exact isBit
  · rw [if_neg isInside]
    constructor
    · intro _ inside
      exact absurd inside isInside
    · intro _ bit none
      cases none

/-- `canvas_mask_pixman` clips by exactly the mask, and reads only its words, when the mask can be
used. -/
theorem canvasMaskPixman_clips (destRegion : Region) (mask : QMask) (x y : Int) : ClipsExactly destRegion mask x y <->
      Exists fun shape => mask.source.shape = some shape ∧ MaskFits destRegion mask x y shape := by
  have shapes := canvasGetMask_shape mask
  cases found : canvasGetMask mask with
  | none =>
      rw [found] at shapes
      rw [← shapes]
      constructor
      · rintro ⟨run, done, -⟩
        unfold canvasMaskPixman at done
        rw [found] at done
        cases done
      · rintro ⟨shape, none, -⟩
        cases none
  | some pair =>
      obtain ⟨image, inverted⟩ := pair
      rw [found] at shapes
      rw [← shapes]
      have keeps : forall px py, mask.Keeps x y px py <->
          image.Inside (px - x + mask.posX) (py - y + mask.posY) ∧
            image.bit (px - x + mask.posX) (py - y + mask.posY) = !inverted := by
        intro px py
        unfold QMask.Keeps
        rw [canvasGetMask_bit found]
        unfold MaskImage.bit?
        by_cases isInside : image.Inside (px - x + mask.posX) (py - y + mask.posY)
        · rw [if_pos isInside]
          cases image.bit (px - x + mask.posX) (py - y + mask.posY) <;> cases mask.inverse <;> cases inverted <;>
            simp [isInside]
        · rw [if_neg isInside]
          simp [isInside]
      constructor
      · rintro ⟨run, done, clips, reads⟩
        have fits : FitsInt image.toShape mask x y destRegion.extents := by
          by_contra unfit
          unfold canvasMaskPixman at done
          rw [found, Option.bind_some] at done
          simp only [if_neg unfit] at done
          cases done
        obtain ⟨_, same, isImage, isSub, contains⟩ := canvasMaskPixman_run found fits
        cases done.symm.trans same
        rw [isImage, isSub] at reads
        refine ⟨image.toShape, rfl, fits, fun px py bit inRegion => ?_, reads_inside.mp reads⟩
        refine (repeats_iff found inRegion).mpr ?_ bit
        intro isInside
        have both := (contains px py).symm.trans (clips px py)
        rw [keeps] at both
        simp only [inRegion, isInside, true_and] at both
        revert both
        cases image.bit (px - x + mask.posX) (py - y + mask.posY) <;>
          cases image.bit (px - x + mask.posX - 24 * skippedWords destRegion mask x) (py - y + mask.posY) <;>
            cases inverted <;> simp
      · rintro ⟨shape, same, fits, repeats, inside⟩
        cases same
        obtain ⟨run, done, isImage, isSub, contains⟩ := canvasMaskPixman_run found fits
        refine ⟨run, done, fun px py => ?_, ?_⟩
        · rw [contains, keeps]
          apply and_congr_right
          intro inRegion
          apply and_congr_right
          intro isInside
          rw [(repeats_iff found inRegion).mp (fun bit => repeats px py bit inRegion) isInside]
        · rw [isImage, isSub]
          exact reads_inside.mpr inside

/-- A mask of two words with only the first bit of the second word set, from its second word on. -/
def secondWord : QMask where
  source :=
    .bitmap
      { x := 64
        y := 1
        stride := 8
        topDown := true
        bigEndian := false
        data := fun place => if place = 4 then 1 else 0
        covers := by decide
        sized := by decide }
      false
  inverse := false
  posX := 32
  posY := 0

def onePixel : Region where
  contains px py := px = 0 && py = 0
  extents := ⟨0, 0, 1, 1⟩
  bounded px py inside := by
    obtain ⟨column, row⟩ := Bool.and_eq_true_iff.mp inside
    rw [of_decide_eq_true column, of_decide_eq_true row]
    decide

theorem secondWord_clips_wrongly : ¬ ClipsExactly onePixel secondWord 0 0 := by
  rintro ⟨run, done, clips, -⟩
  have dropped : (canvasMaskPixman onePixel secondWord 0 0).map (fun run => run.contains 0 0) = some false := by
    decide +kernel
  rw [done] at dropped
  have kept := (clips 0 0).mpr ⟨rfl, by unfold QMask.Keeps; decide +kernel⟩
  rw [Option.map_some, kept] at dropped
  cases dropped

end Canvas
end Spice
