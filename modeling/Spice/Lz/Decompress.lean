import Spice.Lz.Compress

namespace Spice
namespace Lz

open Lib

/-!
# The LZ decompressor

`lz_decompress_tmpl.c`, for output pixels of the encoded type.  A failed
assertion and a read behind the end of the input have no result.
-/

/-- `COPY_COMP_PIXEL`, and what writing a pixel keeps of the old one:
`COPY_PIXEL` and `COPY_REF_PIXEL` of the alpha pass copy only the pad byte. -/
structure OutOps (Pixel : Type) where
  compPixel : StateT (Input UInt8) Option Pixel
  merge : Pixel -> Pixel -> Pixel

/-- `LZ_PLT` and `LZ_A8`. -/
def oneByteOut : OutOps OneBytePixel where
  compPixel := do
    let a <- Input.next
    pure ⟨a⟩
  merge _ p := p

/-- `LZ_RGB_ALPHA`. -/
def rgbAlphaOut : OutOps Rgb32Pixel where
  compPixel := do
    let pad <- Input.next
    pure ⟨0, 0, 0, pad⟩
  merge old p := { old with pad := p.pad }

/-- `LZ_RGB16`; the first byte is the high one. -/
def rgb16Out : OutOps Rgb16Pixel where
  compPixel := do
    let high <- Input.next
    let low <- Input.next
    pure (UInt16.ofNat (high.toNat * 256 + low.toNat))
  merge _ p := p

/-- `LZ_RGB24`. -/
def rgb24Out : OutOps Rgb24Pixel where
  compPixel := do
    let b <- Input.next
    let g <- Input.next
    let r <- Input.next
    pure ⟨b, g, r⟩
  merge _ p := p

/-- `LZ_RGB32`. -/
def rgb32Out : OutOps Rgb32Pixel where
  compPixel := do
    let b <- Input.next
    let g <- Input.next
    let r <- Input.next
    pure ⟨b, g, r, 0⟩
  merge _ p := p

/-- What is added to the length that was read. -/
def Template.lenFix : Template -> Nat
  | oneByte => 3
  | rgb16 => 2
  | rgb => 1

/-- The loop over the bytes of a long length, on 32 bits. -/
def readLenLoop : Nat -> Nat -> StateT (Input UInt8) Option Nat
  | 0, _ => failure
  | fuel + 1, len => do
      let code <- Input.next
      let len := (len + code.toNat) % 2 ^ 32
      if code = 255 then readLenLoop fuel len else pure len

/-- The same loop; every round reads a byte. -/
def readLen (len : Nat) : StateT (Input UInt8) Option Nat :=
  fun input => readLenLoop input.all.length len input

/-- The length of a match, without the bias. -/
def readLength (ctrl : UInt8) : StateT (Input UInt8) Option Nat :=
  let len := ctrl.toNat / 32 - 1
  if len = 7 - 1 then readLen len else pure len

/-- The distance of a match, without the bias. -/
def readDistance (ctrl : UInt8) : StateT (Input UInt8) Option Nat := do
  let code <- Input.next
  if code = 255 ∧ ctrl.toNat % 32 = 31 then
    let high <- Input.next
    let low <- Input.next
    pure (high.toNat * 256 + low.toNat + maxDistance)
  else pure (ctrl.toNat % 32 * 256 + code.toNat)

section Decompress

variable {Pixel : Type} (template : Template) (ops : OutOps Pixel)

def copyComp : Nat -> Fill Pixel -> StateT (Input UInt8) Option (Fill Pixel)
  | 0, fill => pure fill
  | count + 1, fill => do
      let pixel <- ops.compPixel
      let fill <- liftM (fill.put ops.merge pixel)
      copyComp count fill

def copyMatch (len ofs : Nat) (fill : Fill Pixel) : Option (Fill Pixel) :=
  if fill.done.length < ofs ∨ fill.left.length < len ∨ fill.left.length + ofs < len then none
  else if ofs = 1 then
    match fill.done[fill.done.length - 1]? with
    | none => none
    | some b => fill.putRun ops.merge len b
  else fill.copy ops.merge len (fill.done.length - ofs)

/-- One round of the loop of `decompress`, with the byte that controls it. -/
def decompressRound (fill : Fill Pixel) : StateT (Input UInt8) Option (Fill Pixel) := do
  let ctrl <- Input.next
  if maxCopy ≤ ctrl.toNat then
    let len <- readLength ctrl
    let ofs <- readDistance ctrl
    liftM (copyMatch ops (len + template.lenFix) (ofs + 1) fill)
  else if fill.left.length < ctrl.toNat + 1 then failure
  else copyComp ops (ctrl.toNat + 1) fill

/-- `decompress` into a buffer.  Every round writes at least one pixel; if there
is no pixel to write, the first assertion fails. -/
def decompress (buf : List Pixel) : StateT (Input UInt8) Option (List Pixel) := do
  let fill <- readRounds todo (decompressRound template ops) buf.length ⟨[], buf⟩
  pure fill.done

end Decompress

end Lz
end Spice
