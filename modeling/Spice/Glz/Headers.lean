import Spice.Glz.DecodeBounds
import Spice.Lz.Headers

namespace Spice
namespace Headers

open Lib
open Glz.Bounds (Variant Target)

/-!
# The headers of GLZ images

`decode_header` and `decode` of the client's `decode-glz.c`, and the surface that
`alloc_lz_image_surface` makes, for any bytes.  An entry after the end of a table is
`outside`, and so is arithmetic of `int` that overflows.

The decoder keeps the header of the image before if the magic or the version is not the
right one, and decodes with that; the first header is all zeros.
-/

/-- `struct glz_image_hdr`, with the type as it was read. -/
structure ImageHeader where
  id : Nat
  type : Nat
  width : UInt32
  height : UInt32
  grossPixels : UInt32
  topDown : Bool
  winHeadDist : UInt32
deriving DecidableEq

/-- What `glz_decoder_new` leaves in a decoder. -/
def ImageHeader.zero : ImageHeader where
  id := 0
  type := 0
  width := 0
  height := 0
  grossPixels := 0
  topDown := false
  winHeadDist := 0

/-- What follows the magic and the version. -/
structure GlzFields where
  tmp : UInt8
  width : UInt32
  height : UInt32
  stride : UInt32
  idHigh : UInt32
  idLow : UInt32
  winHeadDist : UInt32
deriving DecidableEq

namespace GlzFields

/-- `none` when the bytes end, and `some none` when the magic or the version is not the right one. -/
def read (bytes : List UInt8) : Option (Option GlzFields) := do
  let (magic, bytes) <- decode32 bytes
  if magic ≠ lzMagic then some none
  else
    let (version, bytes) <- decode32 bytes
    if version ≠ lzVersion then some none
    else
      let tmp <- bytes.head?
      let (width, bytes) <- decode32 bytes.tail
      let (height, bytes) <- decode32 bytes
      let (stride, bytes) <- decode32 bytes
      let (idHigh, bytes) <- decode32 bytes
      let (idLow, bytes) <- decode32 bytes
      let (winHeadDist, _) <- decode32 bytes
      some (some { tmp, width, height, stride, idHigh, idLow, winHeadDist })

/-- The low bits of `tmp`. -/
def type (fields : GlzFields) : Nat := fields.tmp.toNat % 16

def topDown (fields : GlzFields) : Bool := decide (fields.tmp.toNat / 16 ≠ 0)

def truePixels (fields : GlzFields) : Nat :=
  pixels fields.type fields.width.toNat fields.height.toNat fields.stride.toNat

/-- The pixels as `decode_header` counts them; `none` when the type is outside of a table. -/
def grossPixels (fields : GlzFields) : Option UInt32 :=
  match isImageTypePlt[fields.type]? with
  | none => none
  | some false => some (fields.width * fields.height)
  | some true =>
      pltPixelsPerByte[fields.type]?.map (fun perByte => fields.stride * UInt32.ofNat perByte * fields.height)

def header (fields : GlzFields) (grossPixels : UInt32) : ImageHeader where
  id := fields.idHigh.toNat * 2 ^ 32 + fields.idLow.toNat
  type := fields.type
  width := fields.width
  height := fields.height
  grossPixels := grossPixels
  topDown := fields.topDown
  winHeadDist := fields.winHeadDist

end GlzFields

/-- Why there is no surface: the process ends by an error or by the division by the height, or an `int` overflows. -/
inductive NoSurface
  | ended
  | outside
deriving DecidableEq

/-- The bytes of the block of a surface, and where in it `data` of the image is. -/
structure Surface where
  block : Nat
  base : Int
deriving DecidableEq

/-- `alloc_lz_image_surface` with `__surface_create_stride`: the bytes of the block, and the place of the first row.
The stride is a multiple of four as it is, and `spice_malloc_n` takes the height as a `size_t`. -/
def allocLzImageSurface (height grossPixels : Int) (topDown : Bool) : Except NoSurface (Nat × Int) :=
  if height = 0 then .error .ended
  else if ¬ (IsInt32 (grossPixels.tdiv height) ∧ IsInt32 (grossPixels.tdiv height * 4) ∧
      grossPixels.tdiv height * 4 ≠ -2 ^ 31) then .error .outside
  else
    let stride := if topDown then grossPixels.tdiv height * 4 else -(grossPixels.tdiv height * 4)
    let rows := (height % 2 ^ 64).toNat
    if (2 ^ 64 - 1) / rows < stride.natAbs then .error .ended
    else if stride < 0 then
      if IsInt32 (height - 1) ∧ IsInt32 (-stride * (height - 1)) then .ok (stride.natAbs * rows, -stride * (height - 1))
      else .error .outside
    else .ok (stride.natAbs * rows, 0)

/-- Where `data` of an image is, given the block of its surface and the place of the first row. -/
def Surface.ofBlock (topDown : Bool) (width height : UInt32) (allocated : Nat × Int) : Surface where
  block := allocated.1
  base := allocated.2 - (if topDown then 0 else width * (height - 1) * 4).toNat

def glzImageNew (image : ImageHeader) : Except NoSurface Surface :=
  (allocLzImageSurface (int32 image.height.toNat) (int32 image.grossPixels.toNat) image.topDown).map
    (Surface.ofBlock image.topDown image.width image.height)

def decodeToRgb32 : List (Option Variant) :=
  [none, some .plt1LEToRgb32, some .plt1BEToRgb32, some .plt4LEToRgb32, some .plt4BEToRgb32, some .plt8ToRgb32,
    some .rgb16ToRgb32, some .rgb32, some .rgb32, some .rgb32]

/-- What a call of `decode` comes to: the bytes end in the header, the process ends, something is outside, or the
decoders are called, with nothing to call for the first type. -/
inductive Called
  | cut
  | ended
  | outside
  | decoding (image : ImageHeader) (surface : Surface) (variant : Option Variant)
deriving DecidableEq

def decodeSurface (image : ImageHeader) : Except NoSurface Surface -> Called
  | .error .ended => .ended
  | .error .outside => .outside
  | .ok surface =>
      match decodeToRgb32[image.type]? with
      | none => .outside
      | some variant => .decoding image surface variant

/-- `decode` after the header. -/
def decodeImage (image : ImageHeader) : Called := decodeSurface image (glzImageNew image)

/-- `decode` of a decoder that was left with a header. -/
def glzDecode (image : ImageHeader) (bytes : List UInt8) : Called :=
  match GlzFields.read bytes with
  | none => .cut
  | some none => decodeImage image
  | some (some fields) =>
      match fields.grossPixels with
      | none => .outside
      | some grossPixels => decodeImage (fields.header grossPixels)

/-- The decoders of one image: of the type of the header, and of the alpha channel. -/
def passes (image : ImageHeader) (variant : Variant) : List Variant :=
  if image.type = 9 then [variant, .rgbAlpha] else [variant]

/-- The surface holds all pixels of the image from `data` on. -/
def Surface.Holds (surface : Surface) (count : Nat) : Prop :=
  count = 0 ∨ (0 ≤ surface.base ∧ surface.base + 4 * count ≤ surface.block)

/-- A call does not leave a table; if the decoders are called, the number of pixels is an `int`, the surface holds them,
and whatever bytes follow, no lookup in the palette divides by zero. -/
def Called.Contained (palette : Option Nat) : Called -> Prop
  | .cut => True
  | .ended => True
  | .outside => False
  | .decoding image surface variant =>
      int32 image.grossPixels.toNat = image.grossPixels.toNat ∧ surface.Holds image.grossPixels.toNat ∧
        forall type, variant = some type -> forall pass, pass ∈ passes image type -> forall window input,
          Lib.Contained (fun _ _ => palette ≠ some 0) (int32 image.grossPixels.toNat)
            (Glz.Bounds.decode pass ⟨int32 image.grossPixels.toNat, image.id, palette.isSome, window⟩ input).trace

/-- The pixels that `decode_header` counts are those of the header. -/
def Counted (bytes : List UInt8) : Prop :=
  forall fields grossPixels, GlzFields.read bytes = some (some fields) -> fields.grossPixels = some grossPixels ->
    grossPixels.toNat = fields.truePixels

/-- All calls of one decoder, each with its bytes and its palette, as long as the process goes on. -/
def CallsContained : ImageHeader -> List (List UInt8 × Option Nat) -> Prop
  | _, [] => True
  | image, (bytes, palette) :: rest =>
      Counted bytes ∧ (glzDecode image bytes).Contained palette ∧
        forall next surface variant, glzDecode image bytes = .decoding next surface (some variant) ->
          CallsContained next rest

/-! ## The headers it is made for -/

namespace GlzFields

/-- There is no surface: the height is zero, or it is negative as an `int` and the image has pixels. -/
def Ends (fields : GlzFields) : Prop :=
  fields.height.toNat = 0 ∨ (2 ^ 31 ≤ fields.height.toNat ∧ fields.truePixels ≠ 0)

def row (fields : GlzFields) : Nat := fields.truePixels / fields.height.toNat

/-- The pixels and the bytes of a row are `int`, and an image that is stored from the bottom up starts where its surface
does. -/
def SurfaceFits (fields : GlzFields) : Prop :=
  fields.truePixels < 2 ^ 31 ∧ 4 * fields.row < 2 ^ 31 ∧
    (fields.topDown = true ∨ fields.truePixels = 0 ∨
      (4 * fields.row * (fields.height.toNat - 1) < 2 ^ 31 ∧
        fields.width.toNat * (fields.height.toNat - 1) * 4 % 2 ^ 32 = 4 * fields.row * (fields.height.toNat - 1)))

/-- A header that the decoder can decode. -/
def Fits (fields : GlzFields) (palette : Option Nat) : Prop :=
  fields.type < 12 ∧ fields.truePixels < 2 ^ 32 ∧
    (¬ fields.Ends -> fields.type < 10 ∧ fields.SurfaceFits ∧ ¬ EmptyLookup fields.type palette fields.truePixels)

end GlzFields

/-- All calls have such a header, or one before them had it. -/
def CallsFit : Option GlzFields -> List (List UInt8 × Option Nat) -> Prop
  | _, [] => True
  | last, (bytes, palette) :: rest =>
      forall isRead fields, GlzFields.read bytes = some isRead -> isRead.or last = some fields ->
        fields.Fits palette ∧ (¬ fields.Ends -> fields.type ≠ 0 -> CallsFit (some fields) rest)

/-! ## The surface -/

section Surface

variable {fields : GlzFields} {gross : UInt32}

theorem GlzFields.truePixels_eq (fields : GlzFields) : fields.truePixels = fields.row * fields.height.toNat := by
  have multiple : fields.height.toNat ∣ fields.truePixels := by
    unfold GlzFields.truePixels pixels
    split
    · exact Nat.dvd_mul_left _ _
    · exact Nat.dvd_mul_left _ _
  exact (Nat.div_mul_cancel multiple).symm

theorem allocLzImageSurface_ends {height : Int} (negative : height < 0) (least : -2 ^ 31 ≤ height) (topDown : Bool) :
    allocLzImageSurface height height topDown = .error .ended := by
  have notZero : height ≠ 0 := by omega
  have few : (2 ^ 64 - 1) / (height % 2 ^ 64).toNat < 2 := by
    rw [Nat.div_lt_iff_lt_mul (by omega)]
    omega
  have four : (if topDown then (1 * 4 : Int) else -(1 * 4)).natAbs = 4 := by
    cases topDown <;> rfl
  unfold allocLzImageSurface
  rw [if_neg notZero, Int.tdiv_self notZero, if_neg (by decide)]
  dsimp only
  rw [four, if_pos (by omega)]

theorem allocLzImageSurface_zero {height : Int} (notZero : height ≠ 0) (topDown : Bool) :
    allocLzImageSurface height 0 topDown = .ok (0, 0) := by
  have none : (if topDown then (0 * 4 : Int) else -(0 * 4)) = 0 := by
    cases topDown <;> rfl
  unfold allocLzImageSurface
  rw [if_neg notZero, Int.zero_tdiv, if_neg (by decide)]
  dsimp only
  rw [none, Int.natAbs_zero, if_neg (Nat.not_lt_zero _), if_neg (Int.lt_irrefl 0), Nat.zero_mul]

/-- A surface of a size that fits is made. -/
theorem allocLzImageSurface_not_ended {height : Nat} (some_rows : height ≠ 0) (short : height < 2 ^ 31)
    (grossPixels : Int)
    (topDown : Bool) : allocLzImageSurface height grossPixels topDown ≠ .error .ended := by
  unfold allocLzImageSurface
  generalize grossPixels.tdiv height * 4 = stride
  rw [if_neg (by omega)]
  by_cases isInt : IsInt32 (grossPixels.tdiv height) ∧ IsInt32 stride ∧ stride ≠ -2 ^ 31
  · rw [if_neg (not_not.mpr isInt)]
    dsimp only
    have bound : (if topDown then stride else -stride).natAbs ≤ 2 ^ 31 := by
      unfold IsInt32 at isInt
      cases topDown
      · show (-stride).natAbs ≤ _
        omega
      · show stride.natAbs ≤ _
        omega
    have rows : ((height : Int) % 2 ^ 64).toNat = height := by omega
    have roomy : ¬ (2 ^ 64 - 1) / height < (if topDown then stride else -stride).natAbs := by
      rw [Nat.not_lt, Nat.le_div_iff_mul_le (by omega)]
      have product := Nat.mul_le_mul bound (Nat.le_of_lt short)
      omega
    rw [rows, if_neg roomy]
    generalize (if topDown then stride else -stride) = signed
    split
    · split
      · exact fun impossible => by cases impossible
      · exact fun impossible => by cases impossible
    · exact fun impossible => by cases impossible
  · rw [if_pos isInt]
    exact fun impossible => by cases impossible

/-- Its rows are where the decoder writes. -/
theorem allocLzImageSurface_rows {height row : Nat} (some_rows : height ≠ 0) (short : height < 2 ^ 31)
    (few : row * height < 2 ^ 31) (topDown : Bool) : allocLzImageSurface height ((row * height : Nat) : Int) topDown =
      if 4 * row < 2 ^ 31 then if topDown = true ∨ row = 0 then .ok (4 * row * height, 0)
        else if 4 * row * (height - 1) < 2 ^ 31 then .ok (4 * row * height, ((4 * row * (height - 1) : Nat) : Int))
        else .error .outside else .error .outside := by
  have quotient : ((row * height : Nat) : Int).tdiv height = row := by
    push_cast
    exact Int.mul_tdiv_cancel _ (by omega)
  have rows : ((height : Int) % 2 ^ 64).toNat = height := by omega
  have bytes : 4 * row * height = 4 * (row * height) := Nat.mul_assoc _ _ _
  unfold allocLzImageSurface
  rw [quotient, if_neg (by omega), rows]
  by_cases narrow : 4 * row < 2 ^ 31
  · have roomy : ¬ (2 ^ 64 - 1) / height < 4 * row := by
      rw [Nat.not_lt, Nat.le_div_iff_mul_le (by omega)]
      omega
    rw [if_pos narrow, if_neg (by unfold IsInt32; omega)]
    dsimp only
    cases topDown with
    | true =>
        have size : ((row : Int) * 4).natAbs = 4 * row := by omega
        rw [if_pos rfl, size, if_neg roomy, if_neg (by omega), if_pos (Or.inl rfl)]
    | false =>
        have size : (-((row : Int) * 4)).natAbs = 4 * row := by omega
        have place : - -((row : Int) * 4) * ((height : Int) - 1) = ((4 * row * (height - 1) : Nat) : Int) := by
          rw [Int.neg_neg, Int.mul_comm (row : Int)]
          push_cast [Nat.one_le_iff_ne_zero.mpr some_rows]
          rfl
        rw [if_neg Bool.false_ne_true, size, if_neg roomy, place]
        by_cases empty : row = 0
        · rw [if_neg (by omega), if_pos (Or.inr empty)]
        · have stored : ¬ (false = true ∨ row = 0) := fun either => either.elim Bool.false_ne_true empty
          rw [if_pos (by omega), if_neg stored]
          by_cases near : 4 * row * (height - 1) < 2 ^ 31
          · rw [if_pos near, if_pos ⟨by unfold IsInt32; omega, by unfold IsInt32; omega⟩]
          · rw [if_neg near, if_neg (fun both => near (by have bound := both.2.2; omega))]
  · rw [if_neg narrow, if_pos (by unfold IsInt32; omega)]

theorem glzImageNew_header (fields : GlzFields) (gross : UInt32) : glzImageNew (fields.header gross) =
    (allocLzImageSurface (int32 fields.height.toNat) (int32 gross.toNat) fields.topDown).map
      (Surface.ofBlock fields.topDown fields.width fields.height) := rfl

theorem glzImageNew_ends (counted : gross.toNat = fields.truePixels) (ends : fields.Ends) :
    glzImageNew (fields.header gross) = .error .ended := by
  have none : allocLzImageSurface (int32 fields.height.toNat) (int32 gross.toNat) fields.topDown = .error .ended := by
    rcases ends with zero | ⟨tall, some_pixels⟩
    · rw [zero]
      rfl
    · have heightBound := fields.height.toNat_lt
      have grossBound := gross.toNat_lt
      have isProduct := fields.truePixels_eq
      have one : fields.row = 1 := by
        have atLeast : fields.row ≠ 0 := fun zero => some_pixels (by rw [isProduct, zero, Nat.zero_mul])
        have atMost : fields.row < 2 := by
          by_contra large
          have more := Nat.mul_le_mul_right fields.height.toNat (Nat.le_of_not_lt large)
          omega
        omega
      rw [one, Nat.one_mul] at isProduct
      rw [counted, isProduct, int32_of_ge tall heightBound]
      exact allocLzImageSurface_ends (by omega) (by omega) fields.topDown
  rw [glzImageNew_header, none]
  rfl

theorem Surface.ofBlock_topDown (width height : UInt32) (allocated : Nat × Int) :
    Surface.ofBlock true width height allocated = ⟨allocated.1, allocated.2⟩ := by
  show Surface.mk allocated.1 (allocated.2 - 0) = _
  rw [Int.sub_zero]

theorem Surface.ofBlock_bottomUp {height : UInt32} (someRows : height.toNat ≠ 0) (width : UInt32)
    (allocated : Nat × Int) :
    Surface.ofBlock false width height allocated =
      ⟨allocated.1, allocated.2 - ((width.toNat * (height.toNat - 1) * 4 % 2 ^ 32 : Nat) : Int)⟩ := by
  have one : (1 : UInt32).toNat = 1 := rfl
  have four : (4 : UInt32).toNat = 4 := rfl
  have less : (height - 1).toNat = height.toNat - 1 := by
    rw [UInt32.toNat_sub_of_le _ _ (UInt32.le_iff_toNat_le.mpr (by omega)), one]
  have back : (width * (height - 1) * 4).toNat = width.toNat * (height.toNat - 1) * 4 % 2 ^ 32 := by
    rw [UInt32.toNat_mul, UInt32.toNat_mul, less, four, Nat.mod_mul_mod]
  rw [<- back]
  rfl

/-- What may come of allocating a surface, for numbers that fit or do not. -/
structure SurfaceSpec (count : Nat) (fits : Prop) (result : Except NoSurface Surface) : Prop where
  notEnded : result ≠ .error .ended
  outside : result = .error .outside -> ¬ fits
  held : forall surface, result = .ok surface -> ((int32 count = count ∧ surface.Holds count) <-> fits)

theorem SurfaceSpec.of_outside {count : Nat} {fits : Prop} (unfit : ¬ fits) :
    SurfaceSpec count fits (.error .outside) where
  notEnded := fun impossible => by cases impossible
  outside := fun _ => unfit
  held := fun surface impossible => by cases impossible

theorem SurfaceSpec.of_ok {count : Nat} {fits : Prop} {surface : Surface}
    (held : (int32 count = count ∧ surface.Holds count) <-> fits) : SurfaceSpec count fits (.ok surface) where
  notEnded := fun impossible => by cases impossible
  outside := fun impossible => by cases impossible
  held := fun other same => by
    cases same
    exact held

/-- The rows of an image that fits are inside of its surface. -/
theorem rows_fit (counted : gross.toNat = fields.truePixels) (someRows : fields.height.toNat ≠ 0)
    (few : gross.toNat < 2 ^ 31)
    (isProduct : gross.toNat = fields.row * fields.height.toNat) : SurfaceSpec gross.toNat fields.SurfaceFits
      (Except.map (Surface.ofBlock fields.topDown fields.width fields.height) (if 4 * fields.row < 2 ^ 31 then
          if fields.topDown = true ∨ fields.row = 0 then .ok (4 * fields.row * fields.height.toNat, 0)
          else if 4 * fields.row * (fields.height.toNat - 1) < 2 ^ 31 then
            .ok (4 * fields.row * fields.height.toNat, ((4 * fields.row * (fields.height.toNat - 1) : Nat) : Int))
          else .error .outside else .error .outside)) := by
  have isInt := int32_of_lt few
  have bytes : 4 * fields.row * fields.height.toNat = 4 * gross.toNat := by rw [isProduct, Nat.mul_assoc]
  by_cases narrow : 4 * fields.row < 2 ^ 31
  · rw [if_pos narrow]
    by_cases simple : fields.topDown = true ∨ fields.row = 0
    · rw [if_pos simple]
      have stored : fields.topDown = true ∨ gross.toNat = 0 := by
        refine simple.imp_right (fun noRow => ?_)
        rw [isProduct, noRow, Nat.zero_mul]
      have fits : fields.SurfaceFits := by
        unfold GlzFields.SurfaceFits
        rw [<- counted]
        exact ⟨few, narrow, stored.imp_right Or.inl⟩
      refine SurfaceSpec.of_ok ⟨fun _ => fits, fun _ => ⟨isInt, ?_⟩⟩
      rcases stored with topDown | empty
      · rw [topDown, Surface.ofBlock_topDown]
        refine Or.inr ⟨Int.le_refl 0, ?_⟩
        dsimp only
        omega
      · exact Or.inl empty
    · rw [if_neg simple]
      rw [not_or] at simple
      have somePixels : gross.toNat ≠ 0 := by
        rw [isProduct]
        exact Nat.mul_ne_zero simple.2 someRows
      by_cases near : 4 * fields.row * (fields.height.toNat - 1) < 2 ^ 31
      · rw [if_pos near]
        have bottomUp := Bool.eq_false_iff.mpr simple.1
        refine SurfaceSpec.of_ok ?_
        unfold GlzFields.SurfaceFits
        rw [<- counted, bottomUp, Surface.ofBlock_bottomUp someRows]
        unfold Surface.Holds
        dsimp only
        constructor
        · rintro ⟨_, empty | ⟨least, most⟩⟩
          · exact absurd empty somePixels
          · exact ⟨few, narrow, Or.inr (Or.inr ⟨near, by omega⟩)⟩
        · rintro ⟨_, _, impossible | empty | ⟨_, starts⟩⟩
          · cases impossible
          · exact absurd empty somePixels
          · rw [starts]
            exact ⟨isInt, Or.inr ⟨by omega, by omega⟩⟩
      · rw [if_neg near]
        refine SurfaceSpec.of_outside ?_
        unfold GlzFields.SurfaceFits
        rw [<- counted]
        rintro ⟨_, _, topDown | empty | fits⟩
        · exact simple.1 topDown
        · exact somePixels empty
        · exact near fits.1
  · rw [if_neg narrow]
    exact SurfaceSpec.of_outside (fun fits => narrow fits.2.1)

/-- Of an image that has a surface: the number of pixels is an `int` and the surface holds them exactly if the header
fits. -/
theorem glzImageNew_fits (counted : gross.toNat = fields.truePixels) (goesOn : ¬ fields.Ends) :
    SurfaceSpec gross.toNat fields.SurfaceFits (glzImageNew (fields.header gross)) := by
  have someRows : fields.height.toNat ≠ 0 := fun zero => goesOn (Or.inl zero)
  have isEmpty (tall : 2 ^ 31 ≤ fields.height.toNat) : fields.truePixels = 0 :=
    not_not.mp (fun some_pixels => goesOn (Or.inr ⟨tall, some_pixels⟩))
  have isProduct := fields.truePixels_eq
  have isRow : fields.row = fields.truePixels / fields.height.toNat := rfl
  rw [<- counted] at isProduct isEmpty isRow
  rw [glzImageNew_header]
  cases Nat.lt_or_ge fields.height.toNat (2 ^ 31) with
  | inr tall =>
      -- the image has no pixels, and the stride is zero
      have none := isEmpty tall
      rw [none, Nat.zero_div] at isRow
      have notZero : int32 fields.height.toNat ≠ 0 := by
        rw [int32_of_ge tall fields.height.toNat_lt]
        have bound := fields.height.toNat_lt
        omega
      have zero : int32 ((0 : Nat) : Int) = 0 := rfl
      have fits : fields.SurfaceFits := by
        unfold GlzFields.SurfaceFits
        rw [<- counted, none, isRow]
        exact ⟨by decide, by decide, Or.inr (Or.inl rfl)⟩
      rw [none, zero, allocLzImageSurface_zero notZero]
      exact SurfaceSpec.of_ok ⟨fun _ => fits, fun _ => ⟨rfl, Or.inl rfl⟩⟩
  | inl short =>
      rw [int32_of_lt short]
      cases Nat.lt_or_ge gross.toNat (2 ^ 31) with
      | inr many =>
          have notEnded := allocLzImageSurface_not_ended someRows short (int32 gross.toNat) fields.topDown
          have tooMany : int32 gross.toNat ≠ gross.toNat := fun same => Nat.not_lt_of_ge many (lt_of_int32 same)
          have tooLarge : ¬ fields.SurfaceFits := fun fits => Nat.not_lt_of_ge many (counted ▸ fits.1)
          cases allocated : allocLzImageSurface fields.height.toNat (int32 gross.toNat) fields.topDown with
          | error reason =>
              cases reason with
              | ended => exact absurd allocated notEnded
              | outside => exact SurfaceSpec.of_outside tooLarge
          | ok surface => exact SurfaceSpec.of_ok ⟨fun both => absurd both.1 tooMany, fun fits => absurd fits tooLarge⟩
      | inl few =>
          have fewRows := few
          rw [isProduct] at fewRows
          have allocated := allocLzImageSurface_rows someRows short fewRows fields.topDown
          rw [<- isProduct] at allocated
          rw [int32_of_lt few, allocated]
          exact rows_fit counted someRows few isProduct

end Surface

/-! ## One call -/

theorem GlzFields.grossPixels_outside {fields : GlzFields} (large : ¬ fields.type < 12) :
    fields.grossPixels = none := by
  unfold GlzFields.grossPixels
  rw [isImageTypePlt_getElem?, if_neg large]

theorem GlzFields.grossPixels_inside {fields : GlzFields} (small : fields.type < 12) :
    Exists fun gross : UInt32 => fields.grossPixels = some gross ∧ gross.toNat = fields.truePixels % 2 ^ 32 := by
  unfold GlzFields.grossPixels GlzFields.truePixels pixels
  rw [isImageTypePlt_getElem?, if_pos small]
  by_cases plt : 1 ≤ fields.type ∧ fields.type ≤ 5
  · rw [decide_eq_true plt, if_pos plt, pltPixelsPerByte_getElem? plt]
    refine ⟨_, rfl, ?_⟩
    have few : pltPixelsPerByte.getD fields.type 0 < 2 ^ 32 := by
      have all : forall entry : Fin 6, pltPixelsPerByte.getD entry.val 0 < 2 ^ 32 := by decide
      exact all ⟨fields.type, Nat.lt_succ_of_le plt.2⟩
    rw [UInt32.toNat_mul, UInt32.toNat_mul, UInt32.toNat_ofNat_of_lt' few, Nat.mod_mul_mod]
  · rw [decide_eq_false plt, if_neg plt]
    exact ⟨_, rfl, UInt32.toNat_mul _ _⟩

theorem decodeToRgb32_getElem? (type : Nat) :
    decodeToRgb32[type]? = if type < 10 then some (decodeToRgb32.getD type none) else none := by
  by_cases small : type < 10
  · rw [if_pos small]
    have all : forall entry : Fin 10, decodeToRgb32[entry.val]? = some (decodeToRgb32.getD entry.val none) := by decide
    exact all ⟨type, small⟩
  · rw [if_neg small]
    exact List.getElem?_eq_none (Nat.le_of_not_lt small)

theorem decodeToRgb32_divides {type : Nat} {variant : Variant}
    (isVariant : decodeToRgb32.getD type none = some variant) :
    variant.divides = true <-> type = 3 ∨ type = 4 := by
  have small : type < 10 := by
    by_contra large
    rw [List.getD_eq_getElem?_getD, decodeToRgb32_getElem?, if_neg large] at isVariant
    cases isVariant
  have all : forall entry : Fin 10, (decodeToRgb32.getD entry.val none).any Variant.divides =
      ((decodeToRgb32.getD entry.val none).isSome && decide (entry.val = 3 ∨ entry.val = 4)) := by decide
  have one := all ⟨type, small⟩
  dsimp only at one
  rw [isVariant, Option.any_some, Option.isSome_some, Bool.true_and] at one
  rw [one, decide_eq_true_iff]

/-- A decoder with a palette looks its bytes up. -/
theorem decode_looks_up {holds : Unit -> Nat -> Prop} {variant : Variant} (divides : variant.divides = true)
    {size : Int}
    (room : 2 ≤ size) {id : Nat} {window : Nat -> Glz.SpiceGlzDecoderWindow}
    (contained : Contained holds size (Glz.Bounds.decode variant ⟨size, id, true, window⟩ [0, 0]).trace) :
    holds () 0 := by
  have two := variant.pixels_of_divides divides
  have bytes : variant.bytes = 1 := by
    cases variant <;> first | rfl | cases divides
  have round : Glz.Bounds.decodeRound variant ⟨size, id, true, window⟩ 1 0 ⟨[0], 0, []⟩ =
      .ok ⟨[], 2, [.write 1, .write 0, .fetch () 0]⟩ := by
    have fits : ¬ ¬ ((0 : Nat) : Int) + (2 : Nat) * ((0 : UInt8).toNat + 1) ≤ size :=
      not_not_intro room
    unfold Glz.Bounds.decodeRound
    rw [if_neg (by decide), two, if_neg fits]
    unfold Glz.Bounds.copyCompPixels Glz.Bounds.copyCompPixel
    rw [divides, two, bytes, if_neg (by simp), if_neg (by decide), if_pos (by exact room)]
    rfl
  have ends : (Glz.Bounds.decode variant ⟨size, id, true, window⟩ [0, 0]).trace =
      [.write 1, .write 0, .fetch () 0] := by
    show (Glz.Bounds.decodeLoop variant ⟨size, id, true, window⟩ 2 0 ⟨[0], 0, []⟩).trace = _
    unfold Glz.Bounds.decodeLoop
    rw [round]
    dsimp only
    split
    · rfl
    · rfl
  rw [ends] at contained
  exact contained.2.2.1

section Call

variable {fields : GlzFields} {gross : UInt32} {palette : Option Nat}

/-- What the decoders look up, of an image of a type in the table. -/
theorem lookups_iff {image : ImageHeader} (few : fields.truePixels < 2 ^ 31)
    (counted : image.grossPixels.toNat = fields.truePixels) :
    (forall type, decodeToRgb32.getD fields.type none = some type -> forall pass, pass ∈ passes image type ->
      forall window input, Contained (fun _ _ => palette ≠ some 0) (int32 image.grossPixels.toNat)
        (Glz.Bounds.decode pass ⟨int32 image.grossPixels.toNat, image.id, palette.isSome, window⟩ input).trace) <->
      ¬ EmptyLookup fields.type palette fields.truePixels := by
  have isInt : int32 image.grossPixels.toNat = (fields.truePixels : Int) := by
    rw [counted]
    exact int32_of_lt few
  rw [isInt]
  constructor
  · rintro contained ⟨isZero, isPlt4, room⟩
    cases isVariant : decodeToRgb32.getD fields.type none with
    | none =>
        rcases isPlt4 with isPlt4 | isPlt4
        · rw [isPlt4] at isVariant
          cases isVariant
        · rw [isPlt4] at isVariant
          cases isVariant
    | some variant =>
        have divides := (decodeToRgb32_divides isVariant).mpr isPlt4
        have member : variant ∈ passes image variant := by
          unfold passes
          split
          · exact List.mem_cons_self
          · exact List.mem_singleton.mpr rfl
        have all := contained variant isVariant variant member (fun _ => Glz.Bounds.smallWindow) [0, 0]
        have given : palette.isSome = true := by
          rw [isZero]
          rfl
        rw [given] at all
        exact decode_looks_up divides (by exact_mod_cast room) all isZero
  · intro fits type isVariant pass member window input
    refine @Glz.Bounds.decode_trace_contained (fun _ _ => palette ≠ some 0) pass
      ⟨fields.truePixels, image.id, palette.isSome, window⟩ (fun divides room _ isZero => ?_) input
    have isPass : pass = type := by
      unfold passes at member
      split at member
      · rcases List.mem_cons.mp member with same | other
        · exact same
        · rw [List.mem_singleton.mp other] at divides
          cases divides
      · exact List.mem_singleton.mp member
    rw [isPass] at divides
    exact fits ⟨isZero, (decodeToRgb32_divides isVariant).mp divides, Int.ofNat_le.mp room⟩

/-- The decoder stays in a surface that has room for the pixels. -/
theorem decodeSurface_iff {image : ImageHeader} (isType : image.type = fields.type)
    (counted : image.grossPixels.toNat = fields.truePixels) {result : Except NoSurface Surface}
    (allocated : SurfaceSpec image.grossPixels.toNat fields.SurfaceFits result) :
    (decodeSurface image result).Contained palette <->
      fields.type < 10 ∧ fields.SurfaceFits ∧ ¬ EmptyLookup fields.type palette fields.truePixels := by
  cases result with
  | error reason =>
      cases reason with
      | ended => exact absurd rfl allocated.notEnded
      | outside => exact ⟨fun impossible => impossible.elim, fun fits => absurd fits.2.1 (allocated.outside rfl)⟩
  | ok surface =>
      have held := allocated.held surface rfl
      unfold decodeSurface
      dsimp only
      rw [isType, decodeToRgb32_getElem?]
      by_cases small : fields.type < 10
      · rw [if_pos small]
        constructor
        · rintro ⟨isInt, isHeld, contained⟩
          have fits := held.mp ⟨isInt, isHeld⟩
          exact ⟨small, fits, (lookups_iff fits.1 counted).mp contained⟩
        · rintro ⟨_, fits, lookup⟩
          have both := held.mpr fits
          exact ⟨both.1, both.2, (lookups_iff fits.1 counted).mpr lookup⟩
      · rw [if_neg small]
        exact ⟨fun impossible => impossible.elim, fun fits => absurd fits.1 small⟩

theorem decodeImage_iff (counted : gross.toNat = fields.truePixels) (goesOn : ¬ fields.Ends) :
    (decodeImage (fields.header gross)).Contained palette <->
      fields.type < 10 ∧ fields.SurfaceFits ∧ ¬ EmptyLookup fields.type palette fields.truePixels :=
  decodeSurface_iff rfl counted (glzImageNew_fits counted goesOn)

theorem decodeImage_ends (counted : gross.toNat = fields.truePixels) (ends : fields.Ends) :
    decodeImage (fields.header gross) = .ended := by
  unfold decodeImage
  rw [glzImageNew_ends counted ends]
  rfl

/-- An image that goes on gets its surface. -/
theorem decodeImage_decoding (counted : gross.toNat = fields.truePixels) (goesOn : ¬ fields.Ends)
    (small : fields.type < 10)
    (fits : fields.SurfaceFits) : Exists fun surface =>
      decodeImage (fields.header gross) =
        .decoding (fields.header gross) surface (decodeToRgb32.getD fields.type none) := by
  have allocated := glzImageNew_fits counted goesOn
  have isType : (fields.header gross).type = fields.type := rfl
  unfold decodeImage
  generalize glzImageNew (fields.header gross) = result at allocated ⊢
  cases result with
  | error reason =>
      cases reason with
      | ended => exact absurd rfl allocated.notEnded
      | outside => exact absurd fits (allocated.outside rfl)
  | ok surface =>
      refine ⟨surface, ?_⟩
      unfold decodeSurface
      dsimp only
      rw [isType, decodeToRgb32_getElem?, if_pos small]

end Call

/-! ## All calls of a decoder -/

/-- The header that a decoder is left with, by the last one that was accepted. -/
def imageOf : Option GlzFields -> ImageHeader
  | none => .zero
  | some fields => fields.header (fields.grossPixels.getD 0)

theorem decodeToRgb32_none {type : Nat} (small : type < 10) : decodeToRgb32.getD type none = none <-> type = 0 := by
  have all : forall entry : Fin 10, decodeToRgb32.getD entry.val none = none <-> entry.val = 0 := by decide
  exact all ⟨type, small⟩

section Calls

variable {fields : GlzFields} {palette : Option Nat} {rest : List (List UInt8 × Option Nat)}

theorem GlzFields.counted (small : fields.type < 12) (fits : fields.truePixels < 2 ^ 32) :
    Exists fun gross : UInt32 => fields.grossPixels = some gross ∧ gross.toNat = fields.truePixels ∧
      imageOf (some fields) = fields.header gross := by
  rcases GlzFields.grossPixels_inside small with ⟨gross, isGross, counted⟩
  rw [Nat.mod_eq_of_lt fits] at counted
  refine ⟨gross, isGross, counted, ?_⟩
  show fields.header (fields.grossPixels.getD 0) = _
  rw [isGross]
  rfl

/-- One call, and those after it. -/
theorem decodeImage_step (small : fields.type < 12) (fits : fields.truePixels < 2 ^ 32)
    (later : CallsContained (imageOf (some fields)) rest <-> CallsFit (some fields) rest) :
    ((decodeImage (imageOf (some fields))).Contained palette ∧ forall next surface variant,
        decodeImage (imageOf (some fields)) = .decoding next surface (some variant) -> CallsContained next rest) <->
      (fields.Fits palette ∧ (¬ fields.Ends -> fields.type ≠ 0 -> CallsFit (some fields) rest)) := by
  rcases GlzFields.counted small fits with ⟨gross, isGross, counted, isImage⟩
  rw [isImage] at later ⊢
  by_cases ends : fields.Ends
  · rw [decodeImage_ends counted ends]
    refine ⟨fun _ => ⟨⟨small, fits, fun goesOn => absurd ends goesOn⟩, fun goesOn => absurd ends goesOn⟩,
      fun _ => ⟨trivial, ?_⟩⟩
    intro next surface variant impossible
    cases impossible
  · rw [decodeImage_iff counted ends]
    constructor
    · rintro ⟨held, restContained⟩
      refine ⟨⟨small, fits, fun _ => held⟩, fun _ known => ?_⟩
      rcases decodeImage_decoding counted ends held.1 held.2.1 with ⟨surface, isDecoding⟩
      cases isVariant : decodeToRgb32.getD fields.type none with
      | none => exact absurd ((decodeToRgb32_none held.1).mp isVariant) known
      | some variant =>
          rw [isVariant] at isDecoding
          exact later.mp (restContained _ surface variant isDecoding)
    · rintro ⟨⟨_, _, held⟩, restFits⟩
      refine ⟨held ends, fun next surface variant isCall => ?_⟩
      rcases decodeImage_decoding counted ends (held ends).1 (held ends).2.1 with ⟨other, isDecoding⟩
      rw [isDecoding, Called.decoding.injEq] at isCall
      rcases isCall with ⟨isNext, _, isVariant⟩
      rw [<- isNext]
      refine later.mpr (restFits ends (fun isZero => ?_))
      rw [(decodeToRgb32_none (held ends).1).mpr isZero] at isVariant
      cases isVariant

theorem decodeImage_zero : decodeImage (imageOf none) = .ended := by decide +kernel

theorem counted_of_not_read {bytes : List UInt8} (notRead : forall fields, GlzFields.read bytes ≠ some (some fields)) :
    Counted bytes :=
  fun fields _ isRead => absurd isRead (notRead fields)

theorem counted_iff {bytes : List UInt8} (isRead : GlzFields.read bytes = some (some fields))
    (small : fields.type < 12) :
    Counted bytes <-> fields.truePixels < 2 ^ 32 := by
  rcases GlzFields.grossPixels_inside small with ⟨gross, isGross, modulo⟩
  constructor
  · intro counted
    rw [<- counted fields gross isRead isGross]
    exact gross.toNat_lt
  · intro fits other count isOther isCount
    rw [isRead, Option.some.injEq, Option.some.injEq] at isOther
    rw [<- isOther, isGross, Option.some.injEq] at isCount
    rw [<- isCount, <- isOther, modulo, Nat.mod_eq_of_lt fits]

theorem callsContained_cons (image : ImageHeader) (bytes : List UInt8) :
    CallsContained image ((bytes, palette) :: rest) <-> Counted bytes ∧ (glzDecode image bytes).Contained palette ∧
      forall next surface variant, glzDecode image bytes = .decoding next surface (some variant) ->
        CallsContained next rest :=
  Iff.rfl

theorem callsFit_cons {bytes : List UInt8} {last found : Option GlzFields} (isRead : GlzFields.read bytes = some found)
    (isCurrent : found.or last = some fields) : CallsFit last ((bytes, palette) :: rest) <->
      (fields.Fits palette ∧ (¬ fields.Ends -> fields.type ≠ 0 -> CallsFit (some fields) rest)) := by
  constructor
  · intro all
    exact all found fields isRead isCurrent
  · intro fits other current isOther isFields
    rw [isRead, Option.some.injEq] at isOther
    rw [<- isOther, isCurrent, Option.some.injEq] at isFields
    rw [<- isFields]
    exact fits

/-- The induction over the calls. -/
theorem callsContained_iff (calls : List (List UInt8 × Option Nat)) (last : Option GlzFields)
    (accepted : forall fields, last = some fields -> fields.type < 12 ∧ fields.truePixels < 2 ^ 32) :
    CallsContained (imageOf last) calls <-> CallsFit last calls := by
  induction calls generalizing last with
  | nil => exact ⟨fun _ => trivial, fun _ => trivial⟩
  | cons call rest ih =>
      rcases call with ⟨bytes, palette⟩
      have step (fields : GlzFields) (small : fields.type < 12) (fits : fields.truePixels < 2 ^ 32) :=
        @decodeImage_step fields palette rest small fits (ih (some fields) (fun other same => by
          cases same
          exact ⟨small, fits⟩))
      cases isRead : GlzFields.read bytes with
      | none =>
          have cut : glzDecode (imageOf last) bytes = .cut := by
            unfold glzDecode
            rw [isRead]
          rw [callsContained_cons, cut]
          refine ⟨fun _ found fields impossible => ?_, fun _ => ⟨?_, trivial, ?_⟩⟩
          · rw [isRead] at impossible
            cases impossible
          · exact counted_of_not_read (fun fields impossible => by rw [isRead] at impossible; cases impossible)
          · exact fun next surface variant impossible => by cases impossible
      | some found =>
          cases found with
          | none =>
              have stale : glzDecode (imageOf last) bytes = decodeImage (imageOf last) := by
                unfold glzDecode
                rw [isRead]
              have counted : Counted bytes :=
                counted_of_not_read (fun fields impossible => by rw [isRead] at impossible; cases impossible)
              cases last with
              | none =>
                  rw [callsContained_cons, stale, decodeImage_zero]
                  refine ⟨fun _ found fields isFound impossible => ?_, fun _ => ⟨counted, trivial, ?_⟩⟩
                  · rw [isRead, Option.some.injEq] at isFound
                    rw [<- isFound] at impossible
                    cases impossible
                  · exact fun next surface variant impossible => by cases impossible
              | some fields =>
                  rcases accepted fields rfl with ⟨small, fits⟩
                  rw [callsFit_cons isRead rfl, <- step fields small fits, callsContained_cons, stale]
                  exact ⟨fun all => all.2, fun both => ⟨counted, both⟩⟩
          | some fields =>
              rw [callsFit_cons isRead rfl, callsContained_cons]
              by_cases small : fields.type < 12
              · rw [counted_iff isRead small]
                by_cases fits : fields.truePixels < 2 ^ 32
                · rcases GlzFields.counted small fits with ⟨gross, isGross, _, isImage⟩
                  have decoded : glzDecode (imageOf last) bytes = decodeImage (imageOf (some fields)) := by
                    unfold glzDecode
                    rw [isRead, isImage]
                    dsimp only
                    rw [isGross]
                  rw [<- step fields small fits, decoded]
                  exact ⟨fun all => all.2, fun both => ⟨fits, both⟩⟩
                · exact ⟨fun all => absurd all.1 fits, fun both => absurd both.1.2.1 fits⟩
              · have outside : glzDecode (imageOf last) bytes = .outside := by
                  unfold glzDecode
                  rw [isRead]
                  dsimp only
                  rw [GlzFields.grossPixels_outside small]
                rw [outside]
                exact ⟨fun all => all.2.1.elim, fun both => absurd both.1.1 small⟩

end Calls

/-- Exactly when the headers of LZ images, and of all GLZ images that a decoder is given, are handled inside of their
tables and buffers. -/
theorem headers_contained (bytes : List UInt8) (toType : Nat) (palette : Option Nat)
    (calls : List (List UInt8 × Option Nat)) :
    (LzContained bytes toType palette <-> LzFits bytes toType palette) ∧
    (CallsContained .zero calls <-> CallsFit none calls) :=
  ⟨lzContained_iff bytes toType palette, callsContained_iff calls none (fun fields impossible => by cases impossible)⟩

/-- The bytes of an LZ header of a type and a size, with one word for all sides. -/
def lzHeaderBytes (type : UInt8) (side : List UInt8) : List UInt8 :=
  [0x20, 0x20, 0x5a, 0x4c, 0, 1, 0, 1, 0, 0, 0, type] ++ side ++ side ++ side ++ [0, 0, 0, 1]

/-- The bytes of a GLZ header of one pixel, stored from the top down. -/
def glzHeaderBytes (type : UInt8) : List UInt8 :=
  [0x20, 0x20, 0x5a, 0x4c, 0, 1, 0, 1, 16 + type, 0, 0, 0, 1, 0, 0, 0, 1, 0, 0, 0, 4, 0, 0, 0, 0, 0, 0, 0,
    0, 0, 0, 0, 0]

/-- An LZ type after the end of the tables, a number of pixels that wraps, a palette of four bits without entries, and a
GLZ type after the end of the decoders. -/
theorem headers_escape :
    ¬ LzContained (lzHeaderBytes 12 [0, 0, 0, 1]) 8 none ∧ ¬ LzContained (lzHeaderBytes 8 [0, 1, 0, 0]) 8 none ∧
    ¬ LzContained (lzHeaderBytes 3 [0, 0, 0, 1]) 8 (some 0) ∧ ¬ CallsContained .zero [(glzHeaderBytes 10, none)] := by
  have outside : lzDecodeBegin (lzHeaderBytes 12 [0, 0, 0, 1]) = .outside := by decide +kernel
  have wraps : lzDecodeBegin (lzHeaderBytes 8 [0, 1, 0, 0]) = .read ⟨8, 65536, 65536, 65536, 1⟩ false 0 :=
    by decide +kernel
  have isPlt4 : LzHeader.read (lzHeaderBytes 3 [0, 0, 0, 1]) = some ⟨3, 1, 1, 1, 1⟩ := by decide +kernel
  have last : glzDecode .zero (glzHeaderBytes 10) = .outside := by decide +kernel
  refine ⟨?_, ?_, ?_, ?_⟩
  · unfold LzContained
    rw [outside]
    exact fun impossible => impossible
  · unfold LzContained
    rw [wraps]
    exact fun both => absurd both.1 (by decide)
  · rw [lzContained_iff]
    exact fun fits => (fits _ isPlt4).2.2 ⟨rfl, rfl, Or.inl rfl, by decide⟩
  · rintro ⟨_, contained, _⟩
    rw [last] at contained
    exact contained

end Headers
end Spice
