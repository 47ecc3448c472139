import Spice.Lib.Int32
import Spice.Lz.Bounds

namespace Spice
namespace Headers

open Lib
open Lz.Bounds (Decompressor decompress)

/-!
# The headers of LZ images

`lz_decode_begin` and `lz_decode` of `lz.c` for any bytes: which tables the type of an image
indexes, the number of pixels, and the decompressors that are run for them.  An entry after
the end of a table is `outside`.  The numbers are kept as `int`, and products wrap.
-/

/-! ## The tables of `lz_common.h` -/

def isImageTypePlt : List Bool :=
  [false, true, true, true, true, true, false, false, false, false, false, false]

def pltPixelsPerByte : List Nat := [0, 8, 8, 2, 2, 1]

def lzMagic : UInt32 := 0x20205a4c

def lzVersion : UInt32 := 0x10001

/-- `decode_32`; `none` when the bytes end. -/
def decode32 : List UInt8 -> Option (UInt32 × List UInt8)
  | b3 :: b2 :: b1 :: b0 :: rest =>
      some (((b3.toUInt32 * 256 + b2.toUInt32) * 256 + b1.toUInt32) * 256 + b0.toUInt32, rest)
  | _ => none

/-- The pixels of an image, by the numbers in its header and without a bound. -/
def pixels (type width height stride : Nat) : Nat :=
  if 1 ≤ type ∧ type ≤ 5 then stride * pltPixelsPerByte.getD type 0 * height else width * height

/-! ## LZ -/

/-- The words of an LZ header after the magic and the version. -/
structure LzHeader where
  type : UInt32
  width : UInt32
  height : UInt32
  stride : UInt32
  topDown : UInt32
deriving DecidableEq

namespace LzHeader

def read (bytes : List UInt8) : Option LzHeader := do
  let (magic, bytes) <- decode32 bytes
  if magic ≠ lzMagic then none
  else
    let (version, bytes) <- decode32 bytes
    if version ≠ lzVersion then none
    else
      let (type, bytes) <- decode32 bytes
      let (width, bytes) <- decode32 bytes
      let (height, bytes) <- decode32 bytes
      let (stride, bytes) <- decode32 bytes
      let (topDown, _) <- decode32 bytes
      some { type, width, height, stride, topDown }

def truePixels (header : LzHeader) : Nat :=
  pixels header.type.toNat header.width.toNat header.height.toNat header.stride.toNat

end LzHeader

/-- What `lz_decode_begin` does. -/
inductive Begun
  | rejected
  | outside
  | read (header : LzHeader) (plt : Bool) (nPixels : Int)
deriving DecidableEq

/-- `lz_decode_begin`.  The words are kept as `int`. -/
def lzDecodeBegin (bytes : List UInt8) : Begun :=
  match LzHeader.read bytes with
  | none => .rejected
  | some header =>
      let width := int32 header.width.toNat
      let height := int32 header.height.toNat
      let stride := int32 header.stride.toNat
      match isImageTypePlt[header.type.toNat]? with
      | none => .outside
      | some false => .read header false (int32 (width * height))
      | some true =>
          match pltPixelsPerByte[header.type.toNat]? with
          | none => .outside
          | some perByte => .read header true (int32 (int32 (stride * perByte) * height))

/-- The decompressor of `lz_decode` from the type of a palette image to 32 bits. -/
def pltToRgb32 : Nat -> Option Decompressor
  | 1 => some .plt1LEToRgb32
  | 2 => some .plt1BEToRgb32
  | 3 => some .plt4LEToRgb32
  | 4 => some .plt4BEToRgb32
  | 5 => some .plt8ToRgb32
  | _ => none

/-- The decompressors that `lz_decode` runs, with the sizes it gives them; `none` when it reports an error.  The palette
is the number of its entries. -/
def lzDecode (header : LzHeader) (plt : Bool) (toType : Nat) (palette : Option Nat) :
    Option (List (Decompressor × Int)) :=
  let type := header.type.toNat
  let width := int32 header.width.toNat
  let height := int32 header.height.toNat
  let stride := int32 header.stride.toNat
  if plt then
    if toType = type then some [(.plt, int32 (height * stride))]
    else if toType = 8 then
      let size := int32 (int32 (height * stride) * pltPixelsPerByte.getD type 0)
      if palette = none then none else (pltToRgb32 type).map (fun decompressor => [(decompressor, size)])
    else none
  else
    let size := int32 (height * width)
    match type with
    | 6 => if toType = 6 then some [(.rgb16, size)] else if toType = 8 then some [(.rgb16ToRgb32, size)] else none
    | 7 => if toType = 7 then some [(.rgb24, size)] else if toType = 8 then some [(.rgb32, size)] else none
    | 8 => if toType = 8 then some [(.rgb32, size)] else none
    | 9 => if toType = 9 then some [(.rgb32, size), (.rgbAlpha, size)] else none
    | 10 => if toType = 10 then some [(.rgbAlpha, size)] else none
    | 11 => if toType = 11 then some [(.a8, size)] else if toType = 8 then some [(.a8ToRgb32, size)] else none
    | _ => none

/-- The header is refused, or no table is left, the pixels are those of the header, and whatever bytes follow, no lookup
in the palette divides by zero. -/
def LzContained (bytes : List UInt8) (toType : Nat) (palette : Option Nat) : Prop :=
  match lzDecodeBegin bytes with
  | .rejected => True
  | .outside => False
  | .read header plt nPixels =>
      nPixels = header.truePixels ∧
        forall passes, lzDecode header plt toType palette = some passes -> forall pass, pass ∈ passes -> forall input,
          (decompress pass.1 pass.2 input).Contained (fun _ _ => palette ≠ some 0) pass.2

/-- Whether a palette of no entries is looked up by a decoder to 32 bits. -/
def EmptyLookup (type : Nat) (palette : Option Nat) (count : Nat) : Prop :=
  palette = some 0 ∧ (type = 3 ∨ type = 4) ∧ 2 ≤ count

/-- The headers that `lz_decode_begin` and `lz_decode` are made for. -/
def LzFits (bytes : List UInt8) (toType : Nat) (palette : Option Nat) : Prop :=
  forall header, LzHeader.read bytes = some header ->
    header.type.toNat < 12 ∧ header.truePixels < 2 ^ 31 ∧
      ¬ (toType = 8 ∧ EmptyLookup header.type.toNat palette header.truePixels)

theorem isImageTypePlt_getElem? (type : Nat) :
    isImageTypePlt[type]? = if type < 12 then some (decide (1 ≤ type ∧ type ≤ 5)) else none := by
  by_cases small : type < 12
  · rw [if_pos small]
    have all : forall entry : Fin 12, isImageTypePlt[entry.val]? = some (decide (1 ≤ entry.val ∧ entry.val ≤ 5)) :=
      by decide
    exact all ⟨type, small⟩
  · rw [if_neg small]
    exact List.getElem?_eq_none (Nat.le_of_not_lt small)

theorem pltPixelsPerByte_getElem? {type : Nat} (plt : 1 ≤ type ∧ type ≤ 5) :
    pltPixelsPerByte[type]? = some (pltPixelsPerByte.getD type 0) := by
  have all : forall entry : Fin 6, pltPixelsPerByte[entry.val]? = some (pltPixelsPerByte.getD entry.val 0) := by decide
  exact all ⟨type, Nat.lt_succ_of_le plt.2⟩

/-- What is checked of a header that was read. -/
theorem lzDecodeBegin_of_read {bytes : List UInt8} {header : LzHeader} (isHeader : LzHeader.read bytes = some header) :
    lzDecodeBegin bytes =
      if header.type.toNat < 12 then
        .read header (decide (1 ≤ header.type.toNat ∧ header.type.toNat ≤ 5)) (int32 header.truePixels)
      else .outside := by
  unfold lzDecodeBegin
  rw [isHeader]
  dsimp only
  rw [isImageTypePlt_getElem?]
  by_cases small : header.type.toNat < 12
  · rw [if_pos small, if_pos small]
    unfold LzHeader.truePixels pixels
    by_cases plt : 1 ≤ header.type.toNat ∧ header.type.toNat ≤ 5
    · rw [if_pos plt, decide_eq_true plt, pltPixelsPerByte_getElem? plt]
      dsimp only
      rw [int32_int32_mul, int32_mul_int32, Int.mul_assoc, int32_int32_mul, <- Int.mul_assoc]
      rfl
    · rw [if_neg plt, decide_eq_false plt]
      dsimp only
      rw [int32_int32_mul, int32_mul_int32]
      rfl
  · rw [if_neg small, if_neg small]

theorem pltToRgb32_divides {type : Nat} {decompressor : Decompressor}
    (isDecompressor : pltToRgb32 type = some decompressor)
    (divides : decompressor.divides = true) : type = 3 ∨ type = 4 := by
  unfold pltToRgb32 at isDecompressor
  split at isDecompressor
  all_goals cases isDecompressor
  all_goals first | exact Or.inl rfl | exact Or.inr rfl | cases divides

/-- Only a decoder from four bits to 32 takes an index modulo the entries. -/
theorem lzDecode_divides {header : LzHeader} {plt : Bool} {toType : Nat} {palette : Option Nat}
    {passes : List (Decompressor × Int)} (isPasses : lzDecode header plt toType palette = some passes)
    {pass : Decompressor × Int} (member : pass ∈ passes) (divides : pass.1.divides = true) :
    plt = true ∧ toType = 8 ∧ (header.type.toNat = 3 ∨ header.type.toNat = 4) ∧ pass.2 = int32 header.truePixels := by
  have size (plt : 1 ≤ header.type.toNat ∧ header.type.toNat ≤ 5) :
      int32 (int32 (int32 header.height.toNat * int32 header.stride.toNat) * pltPixelsPerByte.getD
        header.type.toNat 0) =
        int32 header.truePixels := by
    generalize perByte : pltPixelsPerByte.getD header.type.toNat 0 = count
    have same : (header.height.toNat : Int) * count * header.stride.toNat = header.truePixels := by
      unfold LzHeader.truePixels pixels
      rw [if_pos plt, perByte, Int.mul_comm, <- Int.mul_assoc, Int.mul_right_comm]
      rfl
    rw [int32_int32_mul, Int.mul_right_comm, int32_mul_int32, Int.mul_assoc, int32_int32_mul, <- Int.mul_assoc, same]
  unfold lzDecode at isPasses
  dsimp only at isPasses
  cases plt with
  | false =>
      rw [if_neg Bool.false_ne_true] at isPasses
      split at isPasses
      all_goals try split at isPasses
      all_goals try split at isPasses
      all_goals cases isPasses
      all_goals simp only [List.mem_cons, List.not_mem_nil, or_false] at member
      all_goals rcases member with rfl | rfl
      all_goals cases divides
  | true =>
      rw [if_pos rfl] at isPasses
      split at isPasses
      · cases isPasses
        rw [List.mem_singleton] at member
        rw [member] at divides
        cases divides
      · split at isPasses
        · rename_i toRgb32
          split at isPasses
          · cases isPasses
          · rcases Option.map_eq_some_iff.mp isPasses with ⟨decompressor, isDecompressor, same⟩
            rw [<- same, List.mem_singleton] at member
            rw [member] at divides
            have isPlt4 := pltToRgb32_divides isDecompressor divides
            rw [member]
            refine ⟨rfl, toRgb32, isPlt4, ?_⟩
            dsimp only
            rw [size (by omega)]
        · cases isPasses

/-- A palette without entries divides by zero. -/
theorem lzDecode_plt4 {header : LzHeader} {toType : Nat} {palette : Option Nat} (toRgb32 : toType = 8)
    (isZero : palette = some 0) (isPlt4 : header.type.toNat = 3 ∨ header.type.toNat = 4) :
    Exists fun pass : Decompressor × Int =>
      lzDecode header (decide (1 ≤ header.type.toNat ∧ header.type.toNat ≤ 5)) toType palette = some [pass] ∧
        pass.1.divides = true := by
  unfold lzDecode
  dsimp only
  rw [decide_eq_true (by omega : 1 ≤ header.type.toNat ∧ header.type.toNat ≤ 5), if_pos rfl, if_neg (by omega),
    if_pos toRgb32,
    isZero, if_neg (by decide)]
  rcases isPlt4 with isType | isType
  · rw [isType]
    exact ⟨_, rfl, rfl⟩
  · rw [isType]
    exact ⟨_, rfl, rfl⟩

/-- When the decoder is contained, on all inputs. -/
theorem lzContained_iff (bytes : List UInt8) (toType : Nat) (palette : Option Nat) :
    LzContained bytes toType palette <-> LzFits bytes toType palette := by
  unfold LzContained LzFits
  cases isHeader : LzHeader.read bytes with
  | none =>
      have rejected : lzDecodeBegin bytes = .rejected := by
        unfold lzDecodeBegin
        rw [isHeader]
      rw [rejected]
      exact ⟨fun _ header impossible => (by cases impossible), fun _ => trivial⟩
  | some header =>
      rw [lzDecodeBegin_of_read isHeader]
      by_cases small : header.type.toNat < 12
      · rw [if_pos small]
        dsimp only
        constructor
        · rintro ⟨isPixels, contained⟩ same isSame
          cases isSame
          have count := lt_of_int32 isPixels
          refine ⟨small, count, ?_⟩
          rintro ⟨toRgb32, isZero, isPlt4, room⟩
          rcases lzDecode_plt4 toRgb32 isZero isPlt4 with ⟨pass, isPasses, divides⟩
          rcases lzDecode_divides isPasses (List.mem_singleton.mpr rfl) divides with ⟨_, _, _, isSize⟩
          rw [isPixels] at isSize
          have starts : Lz.Bounds.StartsLiteral pass.1 pass.2 [0, 0] := by
            refine ⟨0, 0, [], rfl, by decide, ?_⟩
            rw [pass.1.pixels_of_divides divides, isSize]
            exact_mod_cast room
          rcases Lz.Bounds.looks_up_of_startsLiteral divides starts
            (contained [pass] isPasses pass (List.mem_singleton.mpr rfl) [0, 0]) with ⟨_, some_⟩
          exact some_ isZero
        · intro fits
          rcases fits header rfl with ⟨_, count, lookup⟩
          refine ⟨int32_of_lt count, fun passes isPasses pass member input => ?_⟩
          refine Lz.Bounds.decompress_sound pass.1 (fun divides room _ => ?_) input
          rcases lzDecode_divides isPasses member divides with ⟨_, toRgb32, isPlt4, isSize⟩
          intro isZero
          rw [isSize, int32_of_lt count] at room
          exact lookup ⟨toRgb32, isZero, isPlt4, by exact_mod_cast room⟩
      · rw [if_neg small]
        exact ⟨fun impossible => impossible.elim, fun fits => small (fits header rfl).1⟩

end Headers
end Spice
