import Spice.Guest.Images
import Spice.Lib.Int32
import Mathlib.Tactic.Linarith
import Mathlib.Tactic.Ring

namespace Spice
namespace Canvas
namespace Palette

open Lib Guest

/-!
# Bitmaps with a palette

A bitmap with 1, 4 or 8 bits for each pixel is drawn into an image with 32 or 16 bits
through its palette.  For 4 and 8 bits a short palette is copied to a table that has
room for all indices first; what is behind the copy was never set.  The size of the
palette is the guest's, and no check relates it to the pixels.

What is read and written is kept as a list.  The destination starts at place 0.
-/

/-- An entry of the palette or of the local table, of which `filled` entries were set, a byte of the bitmap, or a
pixel that is written. -/
inductive Access
  | palette (index : Nat)
  | copied (filled index : Nat)
  | byte (place : Nat)
  | write (place : Int) (value : Nat)
deriving DecidableEq

/-- The bytes of a pixel of the destination, which has the format of the surface. -/
def pixelBytes (surfaceFormat : UInt32) : Option Nat :=
  if surfaceFormat = 96 ∨ surfaceFormat = 32 then some 4 else if surfaceFormat = 16 then some 2 else none

def TopDown (bitmap : SpiceBitmap) : Prop := bitmap.flags &&& 4 ≠ 0

instance (bitmap : SpiceBitmap) : Decidable (TopDown bitmap) := inferInstanceAs (Decidable (_ ≠ _))

section Convert

variable (bitmap : SpiceBitmap) (palette : SpicePalette) (bytes : Nat -> UInt8) (beyond : Nat -> UInt32)
variable (pixel : Nat) (stride : Int)

/-- The width as an `int`. -/
def width : Nat := (int32 bitmap.x.toNat).toNat

/-- The number of entries that are copied to the local table, if a palette is short. -/
def localEnts (size threshold : Nat) : Option Nat :=
  if min palette.ents.length size < threshold then some (min palette.ents.length size) else none

/-- `ents[index]`. -/
def lookup (table : Option Nat) (index : Nat) : Access :=
  match table with
  | some filled => .copied filled index
  | none => .palette index

/-- The colour at an index; what is not in the palette may be anything. -/
def colour (index : Nat) : Nat := ((palette.ents.getD index (beyond index)).toNat) % 256 ^ pixel

/-- One pixel of a line, whose index is in a byte. -/
def drawPixel (table : Option Nat) (dest : Int) (column place index : Nat) : List Access :=
  [.byte place, lookup table index, .write (dest + column * pixel) (colour palette beyond pixel index)]

/-- The line of `bitmap_8_32_to_32` and `bitmap_8_16_to_16_555`. -/
def line8 (src : Nat) (dest : Int) : List Access :=
  (List.range (width bitmap)).flatMap (fun column =>
    drawPixel palette beyond pixel (localEnts palette 256 255) dest column (src + column) (bytes (src + column)).toNat)

/-- The line of `bitmap_4be_32_to_32` and `bitmap_4be_16_to_16_555`: two pixels for each byte, and one more if the
width is odd. -/
def line4 (src : Nat) (dest : Int) : List Access :=
  let draw := drawPixel palette beyond pixel (localEnts palette 16 16) dest
  (List.range (width bitmap / 2)).flatMap (fun pair =>
      draw (2 * pair) (src + pair) ((bytes (src + pair)).toNat / 16) ++
      draw (2 * pair + 1) (src + pair) ((bytes (src + pair)).toNat % 16)) ++
    (if width bitmap % 2 = 1 then
      draw (width bitmap - 1) (src + width bitmap / 2) ((bytes (src + width bitmap / 2)).toNat / 16)
    else [])

def testBitBe (src bit : Nat) : Bool := (bytes (src + bit / 8)).toNat.testBit (7 - bit % 8)

/-- The line of `bitmap_1be_32_to_32` and `bitmap_1be_16_to_16_555`, which have both colours already. -/
def line1 (src : Nat) (dest : Int) : List Access :=
  (List.range (width bitmap)).flatMap (fun column =>
    [.byte (src + column / 8),
      .write (dest + column * pixel) (colour palette beyond pixel (if testBitBe bytes src column then 1 else 0))])

/-- The loop over the lines, of which so many are left. -/
def rows (line : Nat -> Int -> List Access) (srcStride : Nat) (destStride : Int) : Nat -> Nat -> Int -> List Access
  | 0, _, _ => []
  | left + 1, src, dest => line src dest ++ rows line srcStride destStride left (src + srcStride) (dest + destStride)

/-- What is read before the first line: the entries that are copied, or both colours. -/
def setUp : List Access :=
  if bitmap.format = 2 then [.palette 1, .palette 0]
  else
    (List.range ((localEnts palette (if bitmap.format = 4 then 16 else 256) (if bitmap.format = 4 then 16
      else 255)).getD 0)).map
      Access.palette

def lineOf : Nat -> Int -> List Access :=
  if bitmap.format = 2 then line1 bitmap palette bytes beyond pixel
  else if bitmap.format = 4 then line4 bitmap palette bytes beyond pixel
  else line8 bitmap palette bytes beyond pixel

/-- Where the first line goes. -/
def destStart : Int := if TopDown bitmap then 0 else int32 (stride * (int32 bitmap.y.toNat - 1))

/-- `spice_bitmap_to_pixman` for the formats 1BIT_BE, 4BIT_BE and 8BIT. -/
def spiceBitmapToPixman : List Access :=
  setUp bitmap palette ++ rows (lineOf bitmap palette bytes beyond pixel) bitmap.stride.toNat
    (if TopDown bitmap then stride else -stride) bitmap.y.toNat 0 (destStart bitmap stride)

end Convert

/-! ## What is asked for -/

/-- The bitmap of an image that `red_get_image` accepts. -/
def bitmapOf : ImageResult -> Option SpiceBitmap
  | .returned (some ⟨_, .bitmap bitmap⟩) _ => some bitmap
  | _ => none

/-- The checks of `red_get_image` on a bitmap. -/
structure Accepted (bitmap : SpiceBitmap) : Prop where
  x : 0 < bitmap.x.toNat
  y : 0 < bitmap.y.toNat
  consistent : bitmapConsistent bitmap.format bitmap.x bitmap.stride = true
  small : bitmap.y.toNat * bitmap.stride.toNat ≤ maxDataChunk

/-- A destination that exists: its lines have room for the pixels.  A surface that is not top-down has a negative
stride, which can be negated as an `int`. -/
structure Destination (bitmap : SpiceBitmap) (pixel : Nat) (stride : Int) : Prop where
  room : bitmap.x.toNat * pixel ≤ stride.natAbs
  small : stride.natAbs < 2 ^ 31

def indexAt (bitmap : SpiceBitmap) (bytes : Nat -> UInt8) (row column : Nat) : Nat :=
  let src := row * bitmap.stride.toNat
  if bitmap.format = 2 then if testBitBe bytes src column then 1 else 0
  else if bitmap.format = 4 then
    if column % 2 = 0 then (bytes (src + column / 2)).toNat / 16 else (bytes (src + column / 2)).toNat % 16
  else (bytes (src + column)).toNat

/-- Where a pixel is displayed. -/
def address (bitmap : SpiceBitmap) (pixel : Nat) (stride : Int) (row column : Nat) : Int :=
  (if TopDown bitmap then (row : Int) else (bitmap.y.toNat : Int) - 1 - row) * stride + column * pixel

/-- An access reads something that is there. -/
def Access.Inside (bitmap : SpiceBitmap) (palette : SpicePalette) : Access -> Prop
  | .palette index => index < palette.ents.length
  | .copied filled index => index < filled
  | .byte place => place < bitmap.y.toNat * bitmap.stride.toNat
  | .write _ _ => True

/-- The reads are inside, only the pixels are written, and those with an index in the palette have its colour. -/
structure Drawn (bitmap : SpiceBitmap) (palette : SpicePalette) (bytes : Nat -> UInt8) (beyond : Nat -> UInt32)
    (pixel : Nat) (stride : Int) (accesses : List Access) : Prop where
  reads : forall access, access ∈ accesses -> access.Inside bitmap palette
  places : forall (place : Int) value, .write place value ∈ accesses -> Exists fun row => Exists fun column =>
    row < bitmap.y.toNat ∧ column < bitmap.x.toNat ∧ place = address bitmap pixel stride row column
  drawn : forall row column, row < bitmap.y.toNat -> column < bitmap.x.toNat ->
    indexAt bitmap bytes row column < palette.ents.length -> forall value,
      (.write (address bitmap pixel stride row column) value ∈ accesses <->
        value = (palette.ents.getD (indexAt bitmap bytes row column) 0).toNat % 256 ^ pixel)

/-- The palette has both colours of a bitmap with 1 bit, and the indices of all pixels of the others; a bitmap
that is not top-down has its last line at an `int`. -/
def Covered (bitmap : SpiceBitmap) (palette : SpicePalette) (bytes : Nat -> UInt8) (stride : Int) : Prop :=
  (if bitmap.format = 2 then 2 ≤ palette.ents.length
    else forall row column, row < bitmap.y.toNat -> column < bitmap.x.toNat ->
      indexAt bitmap bytes row column < palette.ents.length) ∧
  (TopDown bitmap ∨ IsInt32 (stride * (bitmap.y.toNat - 1)))

/-! ## The loops -/

/-- The accesses of the rows are those of one of them. -/
theorem mem_rows {line : Nat -> Int -> List Access} {srcStride : Nat} {destStride : Int} {access : Access} :
    forall {left src : Nat} {dest : Int}, access ∈ rows line srcStride destStride left src dest <->
      Exists fun row => row < left ∧ access ∈ line (src + row * srcStride) (dest + row * destStride) := by
  intro left
  induction left with
  | zero =>
      intro src dest
      simp [rows]
  | succ left ih =>
      intro src dest
      have srcSame : forall row, src + (row + 1) * srcStride = src + srcStride + row * srcStride := by
        intro row
        rw [Nat.succ_mul]
        omega
      have destSame : forall row : Nat,
          dest + ((row + 1 : Nat) : Int) * destStride = dest + destStride + row * destStride := by
        intro row
        rw [Nat.cast_succ, add_mul, one_mul]
        omega
      rw [rows, List.mem_append, ih]
      constructor
      · rintro (first | ⟨row, less, member⟩)
        · exact ⟨0, Nat.succ_pos _, by simpa using first⟩
        · refine ⟨row + 1, Nat.succ_lt_succ less, ?_⟩
          rw [srcSame, destSame]
          exact member
      · rintro ⟨row, less, member⟩
        cases row with
        | zero => exact Or.inl (by simpa using member)
        | succ row =>
            rw [srcSame, destSame] at member
            exact Or.inr ⟨row, Nat.lt_of_succ_lt_succ less, member⟩

section Lines

variable {bitmap : SpiceBitmap} {palette : SpicePalette} {bytes : Nat -> UInt8} {beyond : Nat -> UInt32} {pixel : Nat}

/-- Both nibbles of a byte, whatever is done with them. -/
theorem mem_line4 {src : Nat} {dest : Int} {access : Access} :
    access ∈ line4 bitmap palette bytes beyond pixel src dest <->
      Exists fun column => column < width bitmap ∧
        access ∈ drawPixel palette beyond pixel (localEnts palette 16 16) dest column
        (src + column / 2)
        (if column % 2 = 0 then (bytes (src + column / 2)).toNat / 16 else (bytes (src + column / 2)).toNat % 16) := by
  unfold line4
  simp only [List.mem_append, List.mem_flatMap, List.mem_range]
  constructor
  · rintro (⟨pair, less, high | low⟩ | last)
    · refine ⟨2 * pair, by omega, ?_⟩
      rw [if_pos (by omega), show 2 * pair / 2 = pair by omega]
      exact high
    · refine ⟨2 * pair + 1, by omega, ?_⟩
      rw [if_neg (by omega), show (2 * pair + 1) / 2 = pair by omega]
      exact low
    · by_cases odd : width bitmap % 2 = 1
      · rw [if_pos odd] at last
        refine ⟨width bitmap - 1, by omega, ?_⟩
        rw [if_pos (by omega), show (width bitmap - 1) / 2 = width bitmap / 2 by omega]
        exact last
      · rw [if_neg odd] at last
        cases last
  · rintro ⟨column, less, member⟩
    by_cases even : column % 2 = 0
    · rw [if_pos even] at member
      by_cases isLast : column / 2 < width bitmap / 2
      · refine Or.inl ⟨column / 2, isLast, Or.inl ?_⟩
        rw [show 2 * (column / 2) = column by omega]
        exact member
      · refine Or.inr ?_
        rw [if_pos (by omega), show width bitmap - 1 = column by omega, show width bitmap / 2 = column / 2 by omega]
        exact member
    · rw [if_neg even] at member
      refine Or.inl ⟨column / 2, by omega, Or.inr ?_⟩
      rw [show 2 * (column / 2) + 1 = column by omega]
      exact member

/-- Where the index of a pixel is looked up, if it is. -/
def lookupAt (bitmap : SpiceBitmap) (palette : SpicePalette) (index : Nat) : List Access :=
  if bitmap.format = 2 then []
  else if bitmap.format = 4 then [lookup (localEnts palette 16 16) index]
  else [lookup (localEnts palette 256 255) index]

/-- The bytes of a line before the one with a pixel. -/
def byteAt (bitmap : SpiceBitmap) (column : Nat) : Nat :=
  if bitmap.format = 2 then column / 8 else if bitmap.format = 4 then column / 2 else column

/-- A line is its pixels: a byte, a lookup, and what is written. -/
theorem mem_lineOf {row : Nat} {dest : Int} {access : Access} :
    access ∈ lineOf bitmap palette bytes beyond pixel (row * bitmap.stride.toNat) dest <->
      Exists fun column => column < width bitmap ∧
        (access = .byte (row * bitmap.stride.toNat + byteAt bitmap column) ∨
          access ∈ lookupAt bitmap palette (indexAt bitmap bytes row column) ∨
          access = .write (dest + column * pixel) (colour palette beyond pixel (indexAt bitmap bytes row column))) := by
  unfold lineOf lookupAt byteAt indexAt
  by_cases isOne : bitmap.format = 2
  · simp only [if_pos isOne, line1, List.mem_flatMap, List.mem_range, List.mem_cons, List.not_mem_nil,
      or_false, false_or]
  · simp only [if_neg isOne]
    by_cases isFour : bitmap.format = 4
    · simp only [if_pos isFour, mem_line4, drawPixel, List.mem_cons, List.not_mem_nil, or_false]
    · simp only [if_neg isFour, line8, drawPixel, List.mem_flatMap, List.mem_range, List.mem_cons,
        List.not_mem_nil, or_false]

theorem lookup_inside {size threshold index : Nat} (less : index < size) :
    (lookup (localEnts palette size threshold) index).Inside bitmap palette <-> index < palette.ents.length := by
  unfold localEnts
  split
  · show index < min palette.ents.length size <-> _
    omega
  · exact Iff.rfl

theorem localEnts_le {size threshold : Nat} : (localEnts palette size threshold).getD 0 ≤ palette.ents.length := by
  unfold localEnts
  split
  · exact Nat.min_le_left _ _
  · exact Nat.zero_le _

theorem colour_of_lt {index : Nat} (known : index < palette.ents.length) :
    colour palette beyond pixel index = (palette.ents.getD index 0).toNat % 256 ^ pixel := by
  unfold colour
  rw [List.getD_eq_getElem?_getD, List.getD_eq_getElem?_getD, List.getElem?_eq_getElem known]
  rfl

/-! ## Where the pixels are -/

section Places

variable {stride : Int} (accepted : Accepted bitmap)
    (format : bitmap.format = 2 ∨ bitmap.format = 4 ∨ bitmap.format = 5)
variable (isPixel : 0 < pixel) (destination : Destination bitmap pixel stride)

include accepted format in
theorem byteAt_lt {column : Nat} (less : column < bitmap.x.toNat) : byteAt bitmap column < bitmap.stride.toNat := by
  rcases (bitmapConsistent_iff _ _ _).mp accepted.consistent with ⟨bpp, isBpp, fits⟩
  unfold byteAt
  rcases format with isFormat | isFormat | isFormat <;> rw [isFormat] at isBpp ⊢ <;> cases isBpp <;> simp <;> omega

include accepted format in
theorem y_lt : bitmap.y.toNat < 2 ^ 31 := by
  have wide := byteAt_lt accepted format accepted.x
  have small := accepted.small
  have most : bitmap.y.toNat * 1 ≤ bitmap.y.toNat * bitmap.stride.toNat := Nat.mul_le_mul_left _ (by omega)
  unfold maxDataChunk at small
  omega

include isPixel destination in
theorem width_eq : width bitmap = bitmap.x.toNat := by
  have most : bitmap.x.toNat * 1 ≤ bitmap.x.toNat * pixel := Nat.mul_le_mul_left _ isPixel
  have room := destination.room
  have small := destination.small
  unfold width
  rw [int32_of_lt (by omega), Int.toNat_natCast]

theorem mem_accesses (isWidth : width bitmap = bitmap.x.toNat) {access : Access} :
    access ∈ spiceBitmapToPixman bitmap palette bytes beyond pixel stride <-> access ∈ setUp bitmap palette ∨
      Exists fun row => Exists fun column => row < bitmap.y.toNat ∧ column < bitmap.x.toNat ∧
        (access = .byte (row * bitmap.stride.toNat + byteAt bitmap column) ∨
          access ∈ lookupAt bitmap palette (indexAt bitmap bytes row column) ∨
          access = .write (destStart bitmap stride + row * (if TopDown bitmap then stride else -stride) +
            column * pixel)
            (colour palette beyond pixel (indexAt bitmap bytes row column))) := by
  unfold spiceBitmapToPixman
  rw [List.mem_append, mem_rows]
  simp only [Nat.zero_add, mem_lineOf, isWidth]
  refine or_congr_right ⟨?_, ?_⟩
  · rintro ⟨row, lessRow, column, lessColumn, member⟩
    exact ⟨row, column, lessRow, lessColumn, member⟩
  · rintro ⟨row, column, lessRow, lessColumn, member⟩
    exact ⟨row, lessRow, column, lessColumn, member⟩

include accepted format in
/-- Unless the start is no `int`, the pixels are written where they are displayed. -/
theorem place_eq (isInt : TopDown bitmap ∨ IsInt32 (stride * (bitmap.y.toNat - 1))) (row column : Nat) :
    destStart bitmap stride + row * (if TopDown bitmap then stride else -stride) + column * pixel =
      address bitmap pixel stride row column := by
  unfold destStart address
  by_cases isTop : TopDown bitmap
  · simp only [if_pos isTop]
    omega
  · simp only [if_neg isTop]
    rw [int32_of_lt (y_lt accepted format), int32_of_isInt32 (isInt.resolve_left isTop)]
    ring

include isPixel destination in
/-- Two places in lines that do not overlap are the same only if line and column are. -/
theorem line_inj {first second : Int} {column place : Nat} (columnLess : column < bitmap.x.toNat)
    (placeLess : place < bitmap.x.toNat) (same : first * stride + column * pixel = second * stride + place * pixel) :
    first = second ∧ column = place := by
  have room := destination.room
  have apart : (first - second) * stride = ((place * pixel : Nat) : Int) - (column * pixel : Nat) := by
    push_cast
    linarith
  have columnIn : column * pixel < bitmap.x.toNat * pixel := Nat.mul_lt_mul_of_pos_right columnLess isPixel
  have placeIn : place * pixel < bitmap.x.toNat * pixel := Nat.mul_lt_mul_of_pos_right placeLess isPixel
  have noLine : ((place * pixel : Nat) : Int) - (column * pixel : Nat) = 0 :=
    Int.eq_zero_of_dvd_of_natAbs_lt_natAbs ⟨first - second, by rw [<- apart, mul_comm]⟩ (by omega)
  have isStride : stride ≠ 0 := by omega
  refine ⟨?_, Nat.eq_of_mul_eq_mul_right isPixel (by omega)⟩
  rw [noLine] at apart
  exact Int.sub_eq_zero.mp ((Int.mul_eq_zero.mp apart).resolve_right isStride)

include isPixel destination in
theorem address_inj {row other column place : Nat} (columnLess : column < bitmap.x.toNat)
    (placeLess : place < bitmap.x.toNat)
    (same : address bitmap pixel stride row column = address bitmap pixel stride other place) :
    row = other ∧ column = place := by
  rcases line_inj isPixel destination columnLess placeLess same with ⟨lines, columns⟩
  refine ⟨?_, columns⟩
  split at lines <;> omega

include accepted format isPixel destination in
/-- The first and the last line are both at lines of the image only if the start is an `int`. -/
theorem isInt32_of_places (notTop : ¬ TopDown bitmap) {row other column spot : Nat}
    (otherLess : other < bitmap.y.toNat) (columnLess : column < bitmap.x.toNat) (spotLess : spot < bitmap.x.toNat)
    (first : destStart bitmap stride + (0 : Nat) * (if TopDown bitmap then stride else -stride) + (0 : Nat) * pixel =
      address bitmap pixel stride row column)
    (last : destStart bitmap stride + (bitmap.y.toNat - 1 : Nat) * (if TopDown bitmap then stride else -stride) +
      (0 : Nat) * pixel =
      address bitmap pixel stride other spot) : IsInt32 (stride * (bitmap.y.toNat - 1)) := by
  have positive := accepted.y
  simp only [destStart, address, if_neg notTop, int32_of_lt (y_lt accepted format),
    Nat.cast_sub accepted.y] at first last
  have both : ((bitmap.y.toNat : Int) - 1 - row) * stride + column * pixel =
      ((bitmap.y.toNat : Int) - 1 - other + (bitmap.y.toNat - 1)) * stride + spot * pixel := by
    push_cast at first last
    linarith
  rcases line_inj isPixel destination columnLess spotLess both with ⟨lines, -⟩
  have isFirst : row = 0 := by omega
  rw [isFirst] at first
  have wraps : int32 (stride * (bitmap.y.toNat - 1)) - stride * (bitmap.y.toNat - 1) =
      ((column * pixel : Nat) : Int) := by
    push_cast at first ⊢
    linarith
  have inLine : column * pixel < bitmap.x.toNat * pixel := Nat.mul_lt_mul_of_pos_right columnLess isPixel
  have room := destination.room
  have small := destination.small
  have divides : ((2 ^ 32 : Nat) : Int) ∣ int32 (stride * (bitmap.y.toNat - 1)) - stride * (bitmap.y.toNat - 1) :=
    Int.dvd_bmod_sub_self
  rw [wraps] at divides
  have none : ((column * pixel : Nat) : Int) = 0 := Int.eq_zero_of_dvd_of_natAbs_lt_natAbs divides (by omega)
  have same : int32 (stride * (bitmap.y.toNat - 1)) = stride * (bitmap.y.toNat - 1) := by omega
  rw [<- same]
  exact isInt32_int32 _

theorem setUp_inside (covered : Covered bitmap palette bytes stride) {access : Access}
    (member : access ∈ setUp bitmap palette) :
    access.Inside bitmap palette := by
  unfold setUp at member
  by_cases isOne : bitmap.format = 2
  · have both := covered.1
    rw [if_pos isOne] at both member
    rcases List.mem_pair.mp member with rfl | rfl
    · exact both
    · exact Nat.lt_of_lt_of_le Nat.two_pos both
  · rw [if_neg isOne] at member
    rcases List.mem_map.mp member with ⟨index, less, rfl⟩
    exact Nat.lt_of_lt_of_le (List.mem_range.mp less) localEnts_le

theorem setUp_reads {place : Int} {value : Nat} : Access.write place value ∉ setUp bitmap palette := by
  unfold setUp
  split <;> simp

theorem indexAt_lt (notOne : bitmap.format ≠ 2) (row column : Nat) :
    indexAt bitmap bytes row column < if bitmap.format = 4 then 16 else 256 := by
  unfold indexAt
  dsimp only
  rw [if_neg notOne]
  have first := (bytes (row * bitmap.stride.toNat + column / 2)).toNat_lt
  have second := (bytes (row * bitmap.stride.toNat + column)).toNat_lt
  split
  · split <;> omega
  · omega

theorem lookupAt_inside (notOne : bitmap.format ≠ 2) (row column : Nat) :
    (forall access, access ∈ lookupAt bitmap palette (indexAt bitmap bytes row column) ->
      access.Inside bitmap palette) <->
      indexAt bitmap bytes row column < palette.ents.length := by
  have less := @indexAt_lt bitmap bytes notOne row column
  unfold lookupAt
  rw [if_neg notOne]
  by_cases isFour : bitmap.format = 4
  · rw [if_pos isFour] at less ⊢
    simp only [List.mem_singleton, forall_eq, lookup_inside less]
  · rw [if_neg isFour] at less ⊢
    simp only [List.mem_singleton, forall_eq, lookup_inside less]

theorem lookupAt_reads {place : Int} {value index : Nat} :
    Access.write place value ∉ lookupAt bitmap palette index := by
  unfold lookupAt lookup
  split
  · simp
  · split <;> split <;> simp

include accepted format isPixel destination in
/-- Drawing is contained and right exactly if the palette covers the bitmap. -/
theorem drawn_iff : Drawn bitmap palette bytes beyond pixel stride
    (spiceBitmapToPixman bitmap palette bytes beyond pixel stride) <->
    Covered bitmap palette bytes stride := by
  have isWidth := width_eq isPixel destination
  constructor
  · intro drawn
    refine ⟨?_, ?_⟩
    · by_cases isOne : bitmap.format = 2
      · rw [if_pos isOne]
        refine drawn.reads (.palette 1) ((mem_accesses isWidth).mpr (Or.inl ?_))
        rw [setUp, if_pos isOne]
        exact List.mem_cons_self
      · rw [if_neg isOne]
        intro row column lessRow lessColumn
        refine (lookupAt_inside isOne row column).mp (fun access member => drawn.reads access ?_)
        exact (mem_accesses isWidth).mpr (Or.inr ⟨row, column, lessRow, lessColumn, Or.inr (Or.inl member)⟩)
    · by_cases isTop : TopDown bitmap
      · exact Or.inl isTop
      · refine Or.inr ?_
        have last : bitmap.y.toNat - 1 < bitmap.y.toNat := Nat.sub_lt accepted.y Nat.one_pos
        rcases drawn.places _ _ ((mem_accesses isWidth).mpr
          (Or.inr ⟨0, 0, accepted.y, accepted.x, Or.inr (Or.inr rfl)⟩)) with ⟨row, column, _, lessColumn, first⟩
        rcases drawn.places _ _ ((mem_accesses isWidth).mpr
          (Or.inr ⟨bitmap.y.toNat - 1, 0, last, accepted.x, Or.inr (Or.inr rfl)⟩)) with
          ⟨other, spot, lessOther, lessSpot, behind⟩
        exact isInt32_of_places accepted format isPixel destination isTop lessOther lessColumn lessSpot first behind
  · intro covered
    have place := fun (row column : Nat) => @place_eq bitmap pixel stride accepted format covered.2 row column
    refine ⟨?_, ?_, ?_⟩
    · intro access member
      rcases (mem_accesses isWidth).mp member with setUp | ⟨row, column, lessRow, lessColumn, rfl | lookup | rfl⟩
      · exact setUp_inside covered setUp
      · have inLine := byteAt_lt accepted format lessColumn
        have inRow : row * bitmap.stride.toNat + bitmap.stride.toNat ≤ bitmap.y.toNat * bitmap.stride.toNat := by
          rw [<- Nat.succ_mul]
          exact Nat.mul_le_mul_right _ lessRow
        show _ < _
        omega
      · by_cases isOne : bitmap.format = 2
        · rw [lookupAt, if_pos isOne] at lookup
          cases lookup
        · have all := covered.1
          rw [if_neg isOne] at all
          exact (lookupAt_inside isOne row column).mpr (all row column lessRow lessColumn) access lookup
      · trivial
    · intro spot value member
      rcases (mem_accesses isWidth).mp member with setUp | ⟨row, column, lessRow, lessColumn, isByte | lookup | isWrite⟩
      · exact absurd setUp setUp_reads
      · cases isByte
      · exact absurd lookup lookupAt_reads
      · cases isWrite
        exact ⟨row, column, lessRow, lessColumn, place row column⟩
    · intro row column lessRow lessColumn known value
      rw [mem_accesses isWidth]
      constructor
      · rintro (setUp | ⟨other, spot, lessOther, lessSpot, isByte | lookup | isWrite⟩)
        · exact absurd setUp setUp_reads
        · cases isByte
        · exact absurd lookup lookupAt_reads
        · rw [place other spot] at isWrite
          rcases Access.write.inj isWrite with ⟨samePlace, sameValue⟩
          rcases address_inj isPixel destination lessColumn lessSpot samePlace with ⟨rfl, rfl⟩
          rw [sameValue, colour_of_lt known]
      · rintro rfl
        refine Or.inr ⟨row, column, lessRow, lessColumn, Or.inr (Or.inr ?_)⟩
        rw [place row column, colour_of_lt known]

end Places

end Lines

/-! ## What the parser accepts -/

section Accept

variable {info : RedMemSlotInfo} {groupId : Int32} {guest : GuestImage} {bitmap : SpiceBitmap}

theorem redGetBitmapData_bitmap {palette : Option SpicePalette} {size : Nat} {heap : Heap}
    (isBitmap : bitmapOf (redGetBitmapData info groupId guest palette size heap) = some bitmap) :
    bitmap.format = guest.format ∧ bitmap.x = guest.x ∧ bitmap.y = guest.y ∧ bitmap.stride = guest.stride := by
  unfold redGetBitmapData at isBitmap
  split at isBitmap
  · split at isBitmap
    · cases isBitmap
    · split at isBitmap
      · cases isBitmap
      · cases isBitmap
        exact ⟨rfl, rfl, rfl, rfl⟩
  · split at isBitmap
    · cases isBitmap
    · split at isBitmap <;> cases isBitmap
    · split at isBitmap
      · cases isBitmap
      · cases isBitmap
        exact ⟨rfl, rfl, rfl, rfl⟩

/-- A bitmap that is read has passed the checks of the parser. -/
theorem redGetBitmap_accepted {flags : UInt32} {isMask : Bool} {heap : Heap}
    (isBitmap : bitmapOf (redGetBitmap info groupId guest flags isMask heap) = some bitmap) : Accepted bitmap := by
  unfold redGetBitmap at isBitmap
  split at isBitmap
  · cases isBitmap
  · split at isBitmap
    · cases isBitmap
    · next area =>
      split at isBitmap
      · cases isBitmap
      · next consistent =>
        split at isBitmap
        · cases isBitmap
        · cases isBitmap
        · dsimp only at isBitmap
          split at isBitmap
          · cases isBitmap
          · next small =>
            rcases redGetBitmapData_bitmap isBitmap with ⟨format, x, y, stride⟩
            rw [not_or] at area
            refine ⟨?_, ?_, ?_, ?_⟩
            · rw [x]
              exact Nat.pos_of_ne_zero (fun isZero => area.1 (UInt32.toNat_inj.mp isZero))
            · rw [y]
              exact Nat.pos_of_ne_zero (fun isZero => area.2 (UInt32.toNat_inj.mp isZero))
            · rw [format, x, stride]
              exact eq_true_of_ne_false consistent
            · rw [y, stride]
              exact Nat.not_lt.mp small

/-- The bitmap of an image has passed the checks of the parser. -/
theorem redGetImage_accepted {addr : UInt64} {flags : UInt32} {isMask : Bool}
    (isBitmap : bitmapOf (redGetImage info groupId guest addr flags isMask) = some bitmap) : Accepted bitmap := by
  unfold redGetImage at isBitmap
  split at isBitmap
  · cases isBitmap
  · split at isBitmap
    · cases isBitmap
    · cases isBitmap
    · cases isBitmap
    · dsimp only at isBitmap
      split at isBitmap
      · exact redGetBitmap_accepted isBitmap
      · split at isBitmap
        · cases isBitmap
        · split at isBitmap
          · unfold redGetQuic at isBitmap
            split at isBitmap
            · cases isBitmap
            · split at isBitmap <;> cases isBitmap
          · cases isBitmap

end Accept

/-- A bitmap with a palette that the parser accepts is drawn with reads inside of the bitmap and the palette, and with
the colours of the palette where they are displayed, exactly if the palette covers it. -/
theorem palette_lookups_iff (info : RedMemSlotInfo) (groupId : Int32) (guest : GuestImage) (addr : UInt64)
    (flags : UInt32)
    (isMask : Bool) (bitmap : SpiceBitmap) (palette : SpicePalette)
    (accepted : bitmapOf (redGetImage info groupId guest addr flags isMask) = some bitmap)
    (_ : bitmap.palette = some palette) (format : bitmap.format = 2 ∨ bitmap.format = 4 ∨ bitmap.format = 5)
    (surfaceFormat : UInt32) (pixel : Nat) (stride : Int) (supported : pixelBytes surfaceFormat = some pixel)
    (destination : Destination bitmap pixel stride) (bytes : Nat -> UInt8) (beyond : Nat -> UInt32) :
    Drawn bitmap palette bytes beyond pixel stride (spiceBitmapToPixman bitmap palette bytes beyond pixel stride) <->
      Covered bitmap palette bytes stride := by
  refine drawn_iff (redGetImage_accepted accepted) format ?_ destination
  unfold pixelBytes at supported
  split at supported
  · cases supported
    decide
  · split at supported
    · cases supported
      decide
    · cases supported

/-- A top-down bitmap of one pixel with 8 bits, and a palette with one entry. -/
def onePixelPalette : GuestImage :=
  { onePixelImage 0x0103000000000100 with
    format := 5, bitmapFlags := 5, stride := 1, palette := 0x0103000000000200, paletteNumEnts := 1, paletteEnts :=
      fun _ => 7 }

theorem onePixelPalette_accepted : Exists fun info => Exists fun bitmap => Exists fun palette =>
    bitmapOf (redGetImage info 0 onePixelPalette 0x0103000000000010 0 false) = some bitmap ∧
      bitmap.palette = some palette ∧
      bitmap.format = 5 ∧ bitmap.flags = 4 ∧ bitmap.x = 1 ∧ bitmap.y = 1 ∧ bitmap.stride = 1 ∧ palette.ents = [7] := by
  have checked : (((redMemslotInfoInit true smallSetup).bind (fun start => run RedMemSlotInfo.step start smallOps)).bind
      (fun info => bitmapOf (redGetImage info 0 onePixelPalette 0x0103000000000010 0 false))).map
        (fun bitmap => (bitmap.palette.map SpicePalette.ents, bitmap.format, bitmap.flags, bitmap.x, bitmap.y,
          bitmap.stride)) =
          some (some [7], 5, 4, 1, 1, 1) := by
    decide +kernel
  rcases Option.map_eq_some_iff.mp checked with ⟨bitmap, isBitmap, values⟩
  rcases Option.bind_eq_some_iff.mp isBitmap with ⟨info, _, accepted⟩
  simp only [Prod.mk.injEq] at values
  rcases Option.map_eq_some_iff.mp values.1 with ⟨palette, isPalette, ents⟩
  exact ⟨info, bitmap, palette, accepted, isPalette, values.2.1, values.2.2.1, values.2.2.2.1, values.2.2.2.2.1,
    values.2.2.2.2.2, ents⟩

theorem palette_lookups_small : Exists fun bitmap => Exists fun palette =>
    Drawn bitmap palette (fun _ => 0) (fun _ => 0) 4 (-4)
      (spiceBitmapToPixman bitmap palette (fun _ => 0) (fun _ => 0) 4 (-4)) := by
  rcases onePixelPalette_accepted with ⟨info, bitmap, palette, accepted, isPalette, format, flags, x, y, stride, ents⟩
  refine ⟨bitmap, palette,
    (palette_lookups_iff info 0 onePixelPalette 0x0103000000000010 0 false bitmap palette accepted isPalette
    (Or.inr (Or.inr format)) 32 4 (-4) rfl ⟨by rw [x]; decide, by decide⟩ _ _).mpr ⟨?_, Or.inl ?_⟩⟩
  · rw [format, if_neg (by decide), ents]
    intro row column _ _
    unfold indexAt
    rw [format]
    exact Nat.one_pos
  · rw [TopDown, flags]
    decide

/-- The index of the pixel is behind the entries that were copied. -/
theorem short_palette_reads_unset : Exists fun info => Exists fun bitmap => Exists fun palette =>
    bitmapOf (redGetImage info 0 onePixelPalette 0x0103000000000010 0 false) = some bitmap ∧
      bitmap.palette = some palette ∧
      bitmap.format = 5 ∧ Destination bitmap 4 (-4) ∧
        ¬ Drawn bitmap palette (fun _ => 1) (fun _ => 0) 4 (-4)
          (spiceBitmapToPixman bitmap palette (fun _ => 1) (fun _ => 0) 4 (-4)) := by
  rcases onePixelPalette_accepted with ⟨info, bitmap, palette, accepted, isPalette, format, flags, x, y, stride, ents⟩
  have destination : Destination bitmap 4 (-4) := ⟨by rw [x]; decide, by decide⟩
  refine ⟨info, bitmap, palette, accepted, isPalette, format, destination, fun drawn => ?_⟩
  have covered := (drawn_iff (redGetImage_accepted accepted) (Or.inr (Or.inr format)) (by decide) destination).mp drawn
  have all := covered.1
  rw [format, if_neg (by decide), ents] at all
  have less := all 0 0 (by rw [y]; decide) (by rw [x]; decide)
  unfold indexAt at less
  rw [format] at less
  exact absurd less (Nat.lt_irrefl 1)

end Palette
end Canvas
end Spice
