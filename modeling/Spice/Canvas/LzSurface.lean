import Spice.Lz.Headers
import Mathlib.Tactic.Linarith
import Mathlib.Tactic.Ring

namespace Spice
namespace Canvas
namespace LzSurface

open Lib Headers
open Lz.Bounds (Decompressor decompress)

/-!
# The surface of an LZ image

`canvas_get_lz` gives the decoder a place in the memory of a new surface.  The decoder
writes one pixel after the other, without knowing of the surface's stride; where a line of
the surface starts follows from a stride that is computed on its own, and once more for
the place that the decoder gets.

Places are relative to the memory of the surface.  A product that is no `int` ends the
model, as does a height that is not positive: it is a divisor, and the number of lines to
allocate.
-/

structure Descriptor where
  plt : Bool
  width : UInt32
  height : UInt32

/-- `as_type`, and the bytes of a pixel of `pixman_format`. -/
def asType (wantOriginal canvas32 : Bool) (type : Nat) : Option (Nat × Nat) :=
  if type = 9 then some (9, 4)
  else if type = 8 ∨ type = 7 ∨ (1 ≤ type ∧ type ≤ 5) then some (8, 4)
  else if type = 11 then some (11, 1)
  else if type = 6 then if !wantOriginal && canvas32 then some (8, 4) else some (6, 2)
  else none

/-- What the decoding goes on with after the checks. -/
structure Checked where
  header : LzHeader
  plt : Bool
  nPixels : Int
  toType : Nat
  bytes : Nat
deriving DecidableEq

/-- `canvas_get_lz` up to its checks. -/
def check (input : List UInt8) (descriptor : Descriptor) (wantOriginal canvas32 : Bool) : Option Checked :=
  match lzDecodeBegin input with
  | .rejected => none
  | .outside => none
  | .read header plt nPixels =>
      (asType wantOriginal canvas32 header.type.toNat).bind fun (toType, bytes) =>
        if header.width = descriptor.width ∧ header.height = descriptor.height ∧
            (descriptor.plt = true ∨ nPixels = int32 (int32 header.width.toNat * int32 header.height.toNat)) then
          some ⟨header, plt, nPixels, toType, bytes⟩
        else none

structure Surface where
  start : Int
  stride : Int
  size : Int
deriving DecidableEq

/-- Arithmetic of `int`. -/
def exact32 (value : Int) : Option Int := if IsInt32 value then some value else none

def surfaceCreateStride (height stride : Int) : Option Surface :=
  if stride < 0 then do
    let pitch <- exact32 (-stride)
    let start <- exact32 (pitch * (height - 1))
    some ⟨start, stride, pitch * height⟩
  else some ⟨0, stride, stride * height⟩

def allocLzImageSurface (bytes : Nat) (height grossPixels : Int) (topDown : Bool) : Option Surface := do
  let row <- exact32 (grossPixels.tdiv height * bytes)
  let padded <- exact32 (row + 3)
  let aligned := padded / 4 * 4
  if topDown then surfaceCreateStride height aligned
  else do
    let stride <- exact32 (-aligned)
    surfaceCreateStride height stride

namespace Checked

variable (checked : Checked)

def height : Int := int32 checked.header.height.toNat

def topDown : Bool := checked.header.topDown ≠ 0

/-- The rest of `canvas_get_lz`: the surface, and the place of `decomp_buf`. -/
def canvasGetLz : Option (Surface × Int) :=
  if checked.height ≤ 0 then none
  else do
    let surface <- allocLzImageSurface checked.bytes checked.height checked.nPixels checked.topDown
    let stride <- exact32 (checked.nPixels.tdiv checked.height * 4)
    if checked.topDown then some (surface, surface.start)
    else do
      let back <- exact32 (-stride)
      let place <- exact32 (back * (checked.height - 1))
      some (surface, surface.start + place)

/-! ## What is asked for -/

def rowPixels : Nat :=
  if 1 ≤ checked.header.type.toNat ∧ checked.header.type.toNat ≤ 5 then
    checked.header.stride.toNat * pltPixelsPerByte.getD checked.header.type.toNat 0
  else checked.header.width.toNat

end Checked

def written : Lz.Bounds.Result -> List Nat
  | .aborted trace => writes trace
  | .returned _ _ trace => writes trace
  | .unfinished => []

/-- The memory is large enough, the stride is that of the stored lines, and every pixel is decoded to its place on the
surface, whose first line is the last one that is stored if the image stands upside down. -/
structure LandsRight (checked : Checked) (palette : Option Nat) (surface : Surface) (decompBuf : Int) : Prop where
  enough : forall passes, lzDecode checked.header checked.plt checked.toType palette = some passes ->
    forall pass, pass ∈ passes ->
    forall input place, place ∈ written (decompress pass.1 pass.2 input) ->
      0 ≤ decompBuf + place * checked.bytes ∧ decompBuf + place * checked.bytes + checked.bytes ≤ surface.size
  stride : surface.stride = if checked.topDown then (checked.rowPixels * checked.bytes : Int)
    else -(checked.rowPixels * checked.bytes)
  pixel : forall x y : Nat, x < checked.header.width.toNat -> y < checked.header.height.toNat ->
    x < checked.rowPixels ∧ (y * checked.rowPixels + x : Int) < checked.nPixels ∧
      decompBuf + (y * checked.rowPixels + x) * checked.bytes =
        surface.start + (if checked.topDown then (y : Int) else checked.header.height.toNat - 1 - y) * surface.stride +
          x * checked.bytes

/-- The numbers are of type `int`, the stored lines are long enough, and with less than four bytes for each pixel the
stored lines are aligned and the first one is stored first. -/
structure Fits (checked : Checked) : Prop where
  tall : 1 ≤ checked.header.height.toNat ∧ checked.header.height.toNat < 2 ^ 31
  small : checked.rowPixels * checked.header.height.toNat < 2 ^ 31
  row : checked.rowPixels * 4 < 2 ^ 31
  upwards : checked.topDown = false -> checked.rowPixels * 4 * (checked.header.height.toNat - 1) < 2 ^ 31
  wide : checked.header.width.toNat ≤ checked.rowPixels
  aligned : checked.bytes = 4 ∨
    (4 ∣ checked.rowPixels * checked.bytes ∧
      (checked.topDown = true ∨ checked.header.height.toNat = 1 ∨ checked.rowPixels = 0))

/-! ## The pixels that are decoded -/

theorem exists_int32 (value : Int) : Exists fun turns => int32 value = value + 2 ^ 32 * turns := by
  rcases @Int.dvd_bmod_sub_self value (2 ^ 32) with ⟨turns, same⟩
  refine ⟨turns, ?_⟩
  unfold int32
  omega

section Check

variable {input : List UInt8} {descriptor : Descriptor} {wantOriginal canvas32 : Bool} {checked : Checked}

/-- What the checks before the decompression have shown. -/
theorem check_spec (isChecked : check input descriptor wantOriginal canvas32 = some checked) :
    checked.plt = decide (1 ≤ checked.header.type.toNat ∧ checked.header.type.toNat ≤ 5) ∧
      checked.nPixels = int32 (checked.rowPixels * checked.header.height.toNat : Nat) ∧
      asType wantOriginal canvas32 checked.header.type.toNat = some (checked.toType, checked.bytes) := by
  unfold check at isChecked
  cases isHeader : LzHeader.read input with
  | none =>
      have rejected : lzDecodeBegin input = .rejected := by
        unfold lzDecodeBegin
        rw [isHeader]
      rw [rejected] at isChecked
      cases isChecked
  | some header =>
      rw [lzDecodeBegin_of_read isHeader] at isChecked
      split at isChecked
      · cases isChecked
      · cases isChecked
      · next isRead =>
        split at isRead
        · cases isRead
          rcases Option.bind_eq_some_iff.mp isChecked with ⟨⟨toType, bytes⟩, isType, passed⟩
          dsimp only at passed
          split at passed
          · cases passed
            refine ⟨rfl, ?_, isType⟩
            dsimp only
            congr 2
            unfold LzHeader.truePixels pixels Checked.rowPixels
            dsimp only
            split <;> rfl
          · cases passed
        · cases isRead

/-- The bytes of a pixel for the type the image is decoded to. -/
theorem bytes_of_asType {type toType bytes : Nat} (isType : asType wantOriginal canvas32 type = some (toType, bytes)) :
    (bytes = 4 ∧ (toType = 8 ∨ toType = 9)) ∨
      ((bytes = 1 ∨ bytes = 2) ∧ ¬ (1 ≤ type ∧ type ≤ 5)) := by
  unfold asType at isType
  split at isType
  · cases isType
    exact Or.inl ⟨rfl, Or.inr rfl⟩
  · split at isType
    · cases isType
      exact Or.inl ⟨rfl, Or.inl rfl⟩
    · next notLong =>
      split at isType
      · cases isType
        exact Or.inr ⟨Or.inl rfl, by omega⟩
      · split at isType
        · split at isType
          · cases isType
            exact Or.inl ⟨rfl, Or.inl rfl⟩
          · cases isType
            exact Or.inr ⟨Or.inr rfl, by omega⟩
        · cases isType

/-- `lz_decode` gives its decompressors the number of pixels that `lz_decode_begin` computed. -/
theorem pass_size (isChecked : check input descriptor wantOriginal canvas32 = some checked) {palette : Option Nat}
    {passes : List (Decompressor × Int)}
    (isPasses : lzDecode checked.header checked.plt checked.toType palette = some passes)
    {pass : Decompressor × Int} (member : pass ∈ passes) : pass.2 = checked.nPixels := by
  rcases check_spec isChecked with ⟨plt, nPixels, isType⟩
  have wide : 1 ≤ checked.header.type.toNat ∧ checked.header.type.toNat ≤ 5 -> checked.toType = 8 := by
    intro isPlt
    unfold asType at isType
    rw [if_neg (by omega), if_pos (by omega)] at isType
    exact (Prod.mk.inj (Option.some.inj isType)).1.symm
  rw [nPixels]
  unfold Checked.rowPixels
  unfold lzDecode at isPasses
  dsimp only at isPasses
  rw [plt] at isPasses
  by_cases isPlt : 1 ≤ checked.header.type.toNat ∧ checked.header.type.toNat ≤ 5
  · rw [if_pos (decide_eq_true isPlt), if_neg (by have := wide isPlt; omega), if_pos (wide isPlt)] at isPasses
    split at isPasses
    · cases isPasses
    · rcases Option.map_eq_some_iff.mp isPasses with ⟨decompressor, isDecompressor, same⟩
      rw [<- same, List.mem_singleton] at member
      rw [member, if_pos isPlt]
      generalize pltPixelsPerByte.getD checked.header.type.toNat 0 = perByte
      dsimp only
      rw [int32_int32_mul, Int.mul_right_comm, int32_mul_int32, Int.mul_assoc, int32_int32_mul, Nat.cast_mul,
        Nat.cast_mul]
      rw [Int.mul_comm, Int.mul_comm perByte]
  · rw [if_neg (by rw [decide_eq_false isPlt]; decide)] at isPasses
    have size : int32 (int32 checked.header.height.toNat * int32 checked.header.width.toNat) =
        int32 (checked.header.width.toNat * checked.header.height.toNat : Nat) := by
      rw [int32_int32_mul, int32_mul_int32, Nat.cast_mul, Int.mul_comm]
    rw [if_neg isPlt, <- size]
    split at isPasses
    all_goals try split at isPasses
    all_goals try split at isPasses
    all_goals cases isPasses
    all_goals simp only [List.mem_cons, List.not_mem_nil, or_false] at member
    all_goals rcases member with rfl | rfl
    all_goals dsimp only

end Check

/-- What is written are pixels below the size. -/
theorem written_lt {decompressor : Decompressor} {size : Int} {input : List UInt8} {place : Nat}
    (member : place ∈ written (decompress decompressor size input)) : (place : Int) < size := by
  have sound := @Lz.Bounds.decompress_sound (fun _ _ => True) decompressor size (fun _ _ _ => trivial) input
  cases result : decompress decompressor size input with
  | aborted trace =>
      rw [result] at member sound
      exact sound.lt_of_mem_writes member
  | returned outSize rest trace =>
      rw [result] at member sound
      exact sound.2.2.lt_of_mem_writes member
  | unfinished =>
      rw [result] at member
      cases member

/-! ## The layout -/

theorem exact32_eq_some {value result : Int} : exact32 value = some result <-> IsInt32 value ∧ result = value := by
  unfold exact32
  split
  · next isInt =>
    rw [Option.some.injEq]
    exact ⟨fun same => ⟨isInt, same.symm⟩, fun both => both.2.symm⟩
  · next none =>
    constructor
    · intro isSome
      cases isSome
    · exact fun both => absurd both.1 none

theorem exact32_of_isInt32 {value : Int} (isInt : IsInt32 value) : exact32 value = some value := if_pos isInt

theorem surfaceCreateStride_of_nonneg {height pitch : Int} (nonneg : 0 ≤ pitch) :
    surfaceCreateStride height pitch = some ⟨0, pitch, pitch * height⟩ := if_neg (not_lt.mpr nonneg)

theorem surfaceCreateStride_neg {height pitch : Int} (nonneg : 0 ≤ pitch) (isPitch : exact32 pitch = some pitch)
    (isStart : exact32 (pitch * (height - 1)) = some (pitch * (height - 1))) :
    surfaceCreateStride height (-pitch) = some ⟨pitch * (height - 1), -pitch, pitch * height⟩ := by
  unfold surfaceCreateStride
  split
  · rw [neg_neg, isPitch, Option.bind_eq_bind, Option.bind_some, isStart]
    rfl
  · next notNegative =>
    have none : pitch = 0 := by omega
    rw [none, neg_zero, zero_mul, zero_mul]

section Layout

variable {checked : Checked} {surface : Surface} {decompBuf : Int}

theorem surfaceCreateStride_spec {height stride : Int} (created : surfaceCreateStride height stride = some surface) :
    surface.stride = stride ∧ (stride < 0 -> IsInt32 (-stride * (height - 1))) := by
  unfold surfaceCreateStride at created
  split at created
  · rcases Option.bind_eq_some_iff.mp created with ⟨pitch, isPitch, created⟩
    rcases Option.bind_eq_some_iff.mp created with ⟨start, isStart, created⟩
    cases created
    rcases exact32_eq_some.mp isPitch with ⟨_, rfl⟩
    exact ⟨rfl, fun _ => (exact32_eq_some.mp isStart).1⟩
  · next notNegative =>
    cases created
    exact ⟨rfl, fun negative => absurd negative notNegative⟩

/-- What the stride and the place of the decoder are computed from. -/
theorem canvasGetLz_spec (isSome : checked.canvasGetLz = some (surface, decompBuf)) :
    0 < checked.height ∧ IsInt32 (checked.nPixels.tdiv checked.height * 4) ∧
      Exists fun aligned => aligned = (checked.nPixels.tdiv checked.height * checked.bytes + 3) / 4 * 4 ∧
        (checked.topDown = true -> surface.stride = aligned ∧ decompBuf = surface.start) ∧
        (checked.topDown = false -> surface.stride = -aligned ∧
          (0 < aligned -> IsInt32 (aligned * (checked.height - 1))) ∧
          decompBuf = surface.start + -(checked.nPixels.tdiv checked.height * 4) * (checked.height - 1)) := by
  unfold Checked.canvasGetLz at isSome
  split at isSome
  · cases isSome
  · next positive =>
    rcases Option.bind_eq_some_iff.mp isSome with ⟨other, allocated, isSome⟩
    rcases Option.bind_eq_some_iff.mp isSome with ⟨stride, isStride, isSome⟩
    rcases exact32_eq_some.mp isStride with ⟨isInt, rfl⟩
    unfold allocLzImageSurface at allocated
    rcases Option.bind_eq_some_iff.mp allocated with ⟨row, isRow, allocated⟩
    rcases Option.bind_eq_some_iff.mp allocated with ⟨padded, isPadded, allocated⟩
    rcases exact32_eq_some.mp isRow with ⟨_, rfl⟩
    rcases exact32_eq_some.mp isPadded with ⟨_, rfl⟩
    refine ⟨not_le.mp positive, isInt, _, rfl, ?_, ?_⟩
    · intro down
      rw [down, if_pos rfl] at allocated isSome
      cases isSome
      exact ⟨(surfaceCreateStride_spec allocated).1, rfl⟩
    · intro up
      rw [up, if_neg Bool.false_ne_true] at allocated isSome
      rcases Option.bind_eq_some_iff.mp allocated with ⟨stride, isNegated, allocated⟩
      rcases Option.bind_eq_some_iff.mp isSome with ⟨back, isBack, isSome⟩
      rcases Option.bind_eq_some_iff.mp isSome with ⟨place, isPlace, isSome⟩
      rcases exact32_eq_some.mp isNegated with ⟨_, rfl⟩
      rcases exact32_eq_some.mp isBack with ⟨_, rfl⟩
      rcases exact32_eq_some.mp isPlace with ⟨_, rfl⟩
      cases isSome
      rcases surfaceCreateStride_spec allocated with ⟨same, start⟩
      refine ⟨same, fun wide => ?_, rfl⟩
      have isStart := start (by omega)
      rw [neg_neg] at isStart
      exact isStart

end Layout

theorem height_eq {checked : Checked} (positive : 0 < checked.height) :
    checked.height = checked.header.height.toNat ∧ 1 ≤ checked.header.height.toNat ∧
      checked.header.height.toNat < 2 ^ 31 := by
  have bound := checked.header.height.toNat_lt
  unfold Checked.height at *
  by_cases small : checked.header.height.toNat < 2 ^ 31
  · have same := int32_of_lt small
    omega
  · have same := int32_of_ge (not_lt.mp small) bound
    omega

section Conditions

variable {input : List UInt8} {descriptor : Descriptor} {wantOriginal canvas32 : Bool} {checked : Checked}
    {palette : Option Nat}
variable {surface : Surface} {decompBuf : Int}

theorem rowPixels_of_short {checked : Checked}
    (notPlt : ¬ (1 ≤ checked.header.type.toNat ∧ checked.header.type.toNat ≤ 5)) :
    checked.rowPixels = checked.header.width.toNat := if_neg notPlt

theorem row_of_landsRight (isSome : checked.canvasGetLz = some (surface, decompBuf))
    (lands : LandsRight checked palette surface decompBuf) :
    (checked.nPixels.tdiv checked.height * checked.bytes + 3) / 4 * 4 = checked.rowPixels * checked.bytes := by
  rcases canvasGetLz_spec isSome with ⟨_, _, aligned, isAligned, down, up⟩
  have stride := lands.stride
  rw [<- isAligned]
  cases isDown : checked.topDown with
  | true =>
      rw [isDown, if_pos rfl, (down isDown).1] at stride
      exact stride
  | false =>
      rw [isDown, if_neg Bool.false_ne_true, (up isDown).1] at stride
      exact neg_injective stride

/-- If the image lands right, the decoder was given all pixels: no product wrapped around. -/
theorem nPixels_of_landsRight (isChecked : check input descriptor wantOriginal canvas32 = some checked)
    (isSome : checked.canvasGetLz = some (surface, decompBuf)) (lands : LandsRight checked palette surface decompBuf) :
    checked.nPixels = checked.rowPixels * checked.header.height.toNat ∧
      checked.nPixels.tdiv checked.height = checked.rowPixels := by
  rcases check_spec isChecked with ⟨_, nPixels, isType⟩
  rcases canvasGetLz_spec isSome with ⟨positive, _, aligned, isAligned, down, up⟩
  rcases height_eq positive with ⟨height, high, tall⟩
  rcases exists_int32 (checked.rowPixels * checked.header.height.toNat : Nat) with ⟨turns, wraps⟩
  have bound := isInt32_int32 (checked.rowPixels * checked.header.height.toNat : Nat)
  unfold IsInt32 at bound
  rw [<- nPixels] at wraps bound
  rw [Nat.cast_mul] at wraps
  have same : checked.nPixels = checked.rowPixels * checked.header.height.toNat := by
    rcases bytes_of_asType isType with ⟨long, _⟩ | ⟨short, notPlt⟩
    · have row := row_of_landsRight isSome lands
      have count : checked.nPixels.tdiv checked.height = checked.rowPixels := by
        rw [long] at row
        omega
      -- the remainder is too small for a whole turn
      have whole := Int.mul_tdiv_add_tmod checked.nPixels checked.height
      have least := Int.lt_tmod_of_pos checked.nPixels positive
      have most := Int.tmod_lt_of_pos checked.nPixels positive
      rw [count, Int.mul_comm, height] at whole
      rw [height] at least most
      generalize checked.nPixels.tmod checked.header.height.toNat = rest at whole least most
      omega
    · by_cases none : checked.rowPixels = 0
      · rw [none, Nat.cast_zero, zero_mul] at wraps ⊢
        omega
      · have isWidth := rowPixels_of_short notPlt
        rcases lands.pixel (checked.rowPixels - 1) (checked.header.height.toNat - 1) (by omega) (by omega)
          with ⟨_, last, _⟩
        have before : ((checked.header.height.toNat - 1 : Nat) : Int) * checked.rowPixels =
            checked.rowPixels * checked.header.height.toNat - checked.rowPixels := by
          rw [Nat.cast_sub high]
          ring
        have many : (0 : Int) ≤ checked.rowPixels * checked.header.height.toNat := by positivity
        omega
  refine ⟨same, ?_⟩
  rw [same, height]
  exact Int.mul_tdiv_cancel _ (by omega)

/-- An image that lands right was one of which the surface has the size. -/
theorem fits_of_landsRight (isChecked : check input descriptor wantOriginal canvas32 = some checked)
    (isSome : checked.canvasGetLz = some (surface, decompBuf)) (lands : LandsRight checked palette surface decompBuf) :
    Fits checked := by
  rcases check_spec isChecked with ⟨_, nPixels, isType⟩
  rcases canvasGetLz_spec isSome with ⟨positive, isInt, aligned, isAligned, down, up⟩
  rcases height_eq positive with ⟨height, high, tall⟩
  rcases nPixels_of_landsRight isChecked isSome lands with ⟨same, count⟩
  have bound := (isInt32_int32 (checked.rowPixels * checked.header.height.toNat : Nat)).2
  rw [<- nPixels, same] at bound
  rw [count] at isInt isAligned
  have row := row_of_landsRight isSome lands
  rw [count] at row
  rw [row] at isAligned
  have short : checked.bytes ≠ 4 -> checked.topDown = false -> checked.header.height.toNat = 1 ∨
      checked.rowPixels = 0 := by
    intro notLong isUp
    by_contra neither
    rw [not_or] at neither
    rcases bytes_of_asType isType with ⟨long, _⟩ | ⟨_, notPlt⟩
    · exact notLong long
    · have isWidth := rowPixels_of_short notPlt
      rcases lands.pixel 0 0 (by omega) (by omega) with ⟨_, _, place⟩
      rcases up isUp with ⟨stride, _, start⟩
      rw [isUp, if_neg Bool.false_ne_true, stride, start, isAligned, count, height] at place
      have equal : (checked.rowPixels : Int) * 4 * (checked.header.height.toNat - 1) =
          checked.rowPixels * checked.bytes * (checked.header.height.toNat - 1) := by linarith
      have factor := mul_right_cancel₀ (by omega) equal
      exact notLong (by exact_mod_cast (mul_left_cancel₀ (by omega) factor).symm)
  refine ⟨⟨high, tall⟩, ?_, ?_, ?_, ?_, ?_⟩
  · exact_mod_cast bound
  · exact_mod_cast isInt.2
  · intro isUp
    by_cases long : checked.bytes = 4
    · rcases up isUp with ⟨_, start, _⟩
      rw [isAligned, long, height] at start
      by_cases none : checked.rowPixels = 0
      · rw [none, Nat.zero_mul]
        exact Nat.two_pow_pos 31
      · have most := (start (by omega)).2
        rw [<- Nat.cast_one, <- Nat.cast_sub high] at most
        exact_mod_cast most
    · rcases short long isUp with one | none
      · rw [one, Nat.sub_self, Nat.mul_zero]
        exact Nat.two_pow_pos 31
      · rw [none, Nat.zero_mul]
        exact Nat.two_pow_pos 31
  · by_cases none : checked.header.width.toNat = 0
    · omega
    · have last := (lands.pixel (checked.header.width.toNat - 1) 0 (by omega) (by omega)).1
      omega
  · by_cases long : checked.bytes = 4
    · exact Or.inl long
    · refine Or.inr ⟨?_, ?_⟩
      · have divides : (4 : Int) ∣ checked.rowPixels * checked.bytes := Dvd.intro_left _ row
        exact_mod_cast divides
      · cases isDown : checked.topDown with
        | true => exact Or.inl rfl
        | false => exact Or.inr (short long isDown)

/-- The surface of an image that fits: the decoder starts at the start of its memory. -/
def fitted (checked : Checked) : Surface :=
  let pitch : Int := checked.rowPixels * checked.bytes
  let height : Int := checked.header.height.toNat
  if checked.topDown then ⟨0, pitch, pitch * height⟩ else ⟨pitch * (height - 1), -pitch, pitch * height⟩

theorem nPixels_of_fits (isChecked : check input descriptor wantOriginal canvas32 = some checked)
    (fits : Fits checked) :
    checked.nPixels = checked.rowPixels * checked.header.height.toNat := by
  rw [(check_spec isChecked).2.1, int32_of_lt fits.small, Nat.cast_mul]

theorem canvasGetLz_of_fits (isChecked : check input descriptor wantOriginal canvas32 = some checked)
    (fits : Fits checked) :
    checked.canvasGetLz = some (fitted checked, 0) := by
  rcases check_spec isChecked with ⟨_, _, isType⟩
  have few : checked.bytes ≤ 4 := by
    rcases bytes_of_asType isType with ⟨long, _⟩ | ⟨short, _⟩
    · omega
    · omega
  have height : checked.height = checked.header.height.toNat := int32_of_lt fits.tall.2
  have count : checked.nPixels.tdiv checked.header.height.toNat = checked.rowPixels := by
    rw [nPixels_of_fits isChecked fits]
    exact Int.mul_tdiv_cancel _ (by have := fits.tall; omega)
  have wide := fits.row
  have tall := fits.tall
  have pitchBound : checked.rowPixels * checked.bytes ≤ checked.rowPixels * 4 := Nat.mul_le_mul_left _ few
  have divides : 4 ∣ checked.rowPixels * checked.bytes := by
    rcases fits.aligned with long | ⟨aligned, _⟩
    · rw [long]
      exact Nat.dvd_mul_left 4 checked.rowPixels
    · exact aligned
  -- going up, either a pixel has four bytes or there is nothing to go up by
  have upwards : checked.topDown = false ->
      (checked.rowPixels : Int) * checked.bytes * (checked.header.height.toNat - 1) =
        checked.rowPixels * 4 * (checked.header.height.toNat - 1) ∧
      (0 : Int) ≤ checked.rowPixels * 4 * (checked.header.height.toNat - 1) ∧
      (checked.rowPixels * 4 * (checked.header.height.toNat - 1) : Int) < 2 ^ 31 := by
    intro isUp
    have most := fits.upwards isUp
    have same : ((checked.rowPixels * 4 * (checked.header.height.toNat - 1) : Nat) : Int) =
        checked.rowPixels * 4 * (checked.header.height.toNat - 1) := by
      rw [Nat.cast_mul, Nat.cast_sub tall.1, Nat.cast_mul, Nat.cast_one, Nat.cast_ofNat]
    refine ⟨?_, by rw [<- same]; omega, by rw [<- same]; omega⟩
    rcases fits.aligned with long | ⟨_, down | one | none⟩
    · rw [long, Nat.cast_ofNat]
    · rw [isUp] at down
      cases down
    · rw [one, Nat.cast_one, sub_self, mul_zero, mul_zero]
    · simp [none]
  generalize isPitch : checked.rowPixels * checked.bytes = pitch at pitchBound divides
  have pitchEq : (checked.rowPixels : Int) * checked.bytes = pitch := by rw [<- isPitch, Nat.cast_mul]
  have aligned : ((pitch : Int) + 3) / 4 * 4 = pitch := by omega
  have isPadded := @exact32_of_isInt32 (pitch + 3) ⟨by omega, by omega⟩
  have isPitch32 := @exact32_of_isInt32 pitch ⟨by omega, by omega⟩
  have isStride : exact32 (checked.nPixels.tdiv checked.height * 4) = some (checked.rowPixels * 4 : Int) := by
    rw [height, count]
    exact exact32_of_isInt32 ⟨by omega, by omega⟩
  have isRow : exact32 (checked.nPixels.tdiv checked.height * checked.bytes) = some (pitch : Int) := by
    rw [height, count, pitchEq]
    exact isPitch32
  have allocated : allocLzImageSurface checked.bytes checked.height checked.nPixels checked.topDown =
      some (fitted checked) := by
    refine Option.bind_eq_some_iff.mpr ⟨pitch, isRow, Option.bind_eq_some_iff.mpr ⟨pitch + 3, isPadded, ?_⟩⟩
    dsimp only
    rw [aligned, height]
    unfold fitted
    rw [pitchEq]
    cases isDown : checked.topDown with
    | true => exact surfaceCreateStride_of_nonneg (Int.natCast_nonneg pitch)
    | false =>
        rcases upwards isDown with ⟨same, least, most⟩
        rw [pitchEq] at same
        have start := @exact32_of_isInt32 (pitch * (checked.header.height.toNat - 1)) ⟨by omega, by omega⟩
        exact Option.bind_eq_some_iff.mpr ⟨-pitch, exact32_of_isInt32 ⟨by omega, by omega⟩,
          surfaceCreateStride_neg (Int.natCast_nonneg pitch) isPitch32 start⟩
  unfold Checked.canvasGetLz
  rw [if_neg (by omega)]
  refine Option.bind_eq_some_iff.mpr ⟨fitted checked, allocated, Option.bind_eq_some_iff.mpr ⟨_, isStride, ?_⟩⟩
  unfold fitted
  cases isDown : checked.topDown with
  | true => rfl
  | false =>
      rcases upwards isDown with ⟨same, least, most⟩
      have place : exact32 (-(checked.rowPixels * 4 : Int) * (checked.height - 1)) =
          some (-(checked.rowPixels * 4 * (checked.header.height.toNat - 1)) : Int) := by
        rw [height, Int.neg_mul]
        exact exact32_of_isInt32 ⟨by omega, by omega⟩
      refine Option.bind_eq_some_iff.mpr ⟨_, exact32_of_isInt32 ⟨by omega, by omega⟩,
        Option.bind_eq_some_iff.mpr ⟨_, place, ?_⟩⟩
      dsimp only
      rw [if_neg Bool.false_ne_true, <- same, Int.add_right_neg]

/-- An image of which the surface has the size lands right. -/
theorem landsRight_of_fits (isChecked : check input descriptor wantOriginal canvas32 = some checked)
    (fits : Fits checked) :
    LandsRight checked palette (fitted checked) 0 where
  enough passes isPasses pass member decoded place isWritten := by
    have size : (fitted checked).size = checked.rowPixels * checked.bytes * checked.header.height.toNat := by
      unfold fitted
      split <;> rfl
    have inside := written_lt isWritten
    rw [pass_size isChecked isPasses member, nPixels_of_fits isChecked fits] at inside
    have room := mul_le_mul_of_nonneg_right (Int.add_one_le_of_lt inside) (Int.natCast_nonneg checked.bytes)
    rw [size, zero_add]
    refine ⟨by positivity, ?_⟩
    linarith
  stride := by
    unfold fitted
    split <;> rfl
  pixel x y inRow inColumn := by
    have wide := fits.wide
    refine ⟨by omega, ?_, ?_⟩
    · have rows := Nat.mul_le_mul_right checked.rowPixels (Nat.succ_le_of_lt inColumn)
      rw [nPixels_of_fits isChecked fits]
      rw [Nat.succ_mul, Nat.mul_comm checked.header.height.toNat] at rows
      exact_mod_cast (show y * checked.rowPixels + x < checked.rowPixels * checked.header.height.toNat by omega)
    · unfold fitted
      split
      · dsimp only
        ring
      · dsimp only
        ring

/-- An image lands right on its surface if and only if it fits. -/
theorem lz_lands_iff (isChecked : check input descriptor wantOriginal canvas32 = some checked) (palette : Option Nat) :
    (Exists fun surface => Exists fun decompBuf => checked.canvasGetLz = some (surface, decompBuf) ∧
      LandsRight checked palette surface decompBuf) <-> Fits checked := by
  constructor
  · rintro ⟨surface, decompBuf, isSome, lands⟩
    exact fits_of_landsRight isChecked isSome lands
  · exact fun fits => ⟨fitted checked, 0, canvasGetLz_of_fits isChecked fits, landsRight_of_fits isChecked fits⟩

end Conditions

/-! ## Three columns of two pixels -/

/-- An image of a type, stored from its first line on. -/
def threeByTwo (type : UInt8) : List UInt8 :=
  [0x20, 0x20, 0x5a, 0x4c, 0, 1, 0, 1, 0, 0, 0, type, 0, 0, 0, 3, 0, 0, 0, 2, 0, 0, 0, 12, 0, 0, 0, 1]

theorem check_rgb32 : check (threeByTwo 8) ⟨false, 3, 2⟩ false true = some ⟨⟨8, 3, 2, 12, 1⟩, false, 6, 8, 4⟩ := by
  decide +kernel

theorem lz_lands_rgb32 : Exists fun surface => Exists fun decompBuf =>
    Checked.canvasGetLz ⟨⟨8, 3, 2, 12, 1⟩, false, 6, 8, 4⟩ = some (surface, decompBuf) ∧
      LandsRight ⟨⟨8, 3, 2, 12, 1⟩, false, 6, 8, 4⟩ none surface decompBuf :=
  (lz_lands_iff check_rgb32 none).mpr ⟨by decide, by decide, by decide, by decide, by decide, Or.inl rfl⟩

/-- The lines of three bytes are decoded one after the other, and those of the surface are four bytes apart. -/
theorem a8_does_not_land : check (threeByTwo 11) ⟨false, 3, 2⟩ false true = some ⟨⟨11, 3, 2, 12, 1⟩, false, 6, 11, 1⟩ ∧
      ¬ Exists fun surface => Exists fun decompBuf =>
        Checked.canvasGetLz ⟨⟨11, 3, 2, 12, 1⟩, false, 6, 11, 1⟩ = some (surface, decompBuf) ∧
          LandsRight ⟨⟨11, 3, 2, 12, 1⟩, false, 6, 11, 1⟩ none surface decompBuf := by
  refine ⟨by decide +kernel, ?_⟩
  rintro ⟨surface, decompBuf, isSome, lands⟩
  have fitted : Checked.canvasGetLz ⟨⟨11, 3, 2, 12, 1⟩, false, 6, 11, 1⟩ = some (⟨0, 4, 8⟩, 0) := by decide +kernel
  rw [fitted] at isSome
  cases isSome
  exact absurd lands.stride (by decide)

end LzSurface
end Canvas
end Spice
