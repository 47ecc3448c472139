import Spice.Lib.Numbers
import Mathlib.Data.Nat.Notation

namespace Spice
namespace Lz

/-!
# Image types and pixels shared by the LZ and GLZ codecs

`lz_common.h` is included by both encoders and by both decoders.  It fixes the
numbering of the image types and three tables indexed by it.  The pixel
structs are declared again in `lz.c`, `glz_encoder.c` and `decode-glz.c` with
the same packed fields; one declaration serves all of them here.
-/

/-- `LzImageType`, without `LZ_IMAGE_TYPE_INVALID`. -/
inductive LzImageType
  | plt1LE
  | plt1BE
  | plt4LE
  | plt4BE
  | plt8
  | rgb16
  | rgb24
  | rgb32
  | rgba
  | xxxa
  | a8
  deriving DecidableEq, Repr

namespace LzImageType

/-- The value of the enumerator, as it is written into the stream. -/
def toNat : LzImageType -> Nat
  | plt1LE => 1
  | plt1BE => 2
  | plt4LE => 3
  | plt4BE => 4
  | plt8 => 5
  | rgb16 => 6
  | rgb24 => 7
  | rgb32 => 8
  | rgba => 9
  | xxxa => 10
  | a8 => 11

/-- The cast back from a decoded word.  Any other word is a bad image type. -/
def ofNat? : Nat -> Option LzImageType
  | 1 => some plt1LE
  | 2 => some plt1BE
  | 3 => some plt4LE
  | 4 => some plt4BE
  | 5 => some plt8
  | 6 => some rgb16
  | 7 => some rgb24
  | 8 => some rgb32
  | 9 => some rgba
  | 10 => some xxxa
  | 11 => some a8
  | _ => none

@[simp] theorem ofNat?_toNat (type : LzImageType) : ofNat? type.toNat = some type := by
  cases type <;> rfl

theorem toNat_lt (type : LzImageType) : type.toNat < 12 := by
  cases type <;> decide

def isPlt : LzImageType -> Bool
  | plt1LE | plt1BE | plt4LE | plt4BE | plt8 => true
  | _ => false

/-- `PLT_PIXELS_PER_BYTE`.  The source table ends at `PLT8` and is read only
for palette types; the other entries are never used. -/
def pltPixelsPerByte : LzImageType -> Nat
  | plt1LE | plt1BE => 8
  | plt4LE | plt4BE => 2
  | plt8 => 1
  | _ => 0

def rgbBytesPerPixel : LzImageType -> Nat
  | rgb16 => 2
  | rgb24 => 3
  | rgb32 | rgba | xxxa => 4
  | _ => 1

end LzImageType

structure OneBytePixel where
  a : UInt8
  deriving DecidableEq, Repr, Inhabited

structure Rgb32Pixel where
  b : UInt8
  g : UInt8
  r : UInt8
  pad : UInt8
  deriving DecidableEq, Repr, Inhabited

structure Rgb24Pixel where
  b : UInt8
  g : UInt8
  r : UInt8
  deriving DecidableEq, Repr, Inhabited

/-- `rgb16_pixel_t`: five bits for each component, the top bit unused. -/
abbrev Rgb16Pixel := UInt16

/-- `MAX_COPY`: a control byte below this value is a literal count. -/
def maxCopy : Nat := 32

/-- `LZ_MAGIC`, the ASCII text "LZ  ". -/
def lzMagic : Nat := 0x20205a4c

/-- `LZ_VERSION`, major and minor number one. -/
def lzVersion : Nat := 0x10001

end Lz
end Spice
