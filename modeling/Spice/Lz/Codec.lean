import Spice.Lz.Decompress

namespace Spice
namespace Lz

open Lib

/-!
# Encoding and decoding an image

`lz_encode`, `lz_decode_begin` and `lz_decode` with `to_type` equal to the
encoded type.  Lines are given as pixels of the image type; a palette image
has one-byte pixels, `stride` to a line.  Width, height and stride are the
non-negative values of the `int` arguments.
-/

/-- `PIXEL` of the templates an image type is compressed with. -/
abbrev ImagePixel : LzImageType -> Type
  | .plt1LE | .plt1BE | .plt4LE | .plt4BE | .plt8 => OneBytePixel
  | .rgb16 => Rgb16Pixel
  | .rgb24 => Rgb24Pixel
  | .rgb32 | .rgba | .xxxa => Rgb32Pixel
  | .a8 => OneBytePixel

/-- The lines that `lz_encode` is given first, or that `more_lines` returns:
their number, and the pixels at `lines`. -/
structure LineChunk (Pixel : Type) where
  numLines : Nat
  pixels : List Pixel

section Segments

variable {Pixel : Type} (type : LzImageType) (stride height : Nat)

/-- The pixels of some lines, computed in `unsigned int`. -/
def segSize (numLines : Nat) : Nat := numLines * stride % 2 ^ 32 / type.rgbBytesPerPixel

/-- An image segment of the lines of a chunk. -/
def imageSeg (chunk : LineChunk Pixel) (sizeDelta : Nat) : LzImageSegment Pixel :=
  { lines := chunk.pixels.take (segSize type stride chunk.numLines), sizeDelta := sizeDelta }

/-- The loop of `lz_read_image_segments`. -/
def readMoreSegments : List (LineChunk Pixel) -> Nat -> Nat -> Option (List (LzImageSegment Pixel))
  | [], row, _ => if row < height then none else some []
  | chunk :: chunks, row, sizeDelta =>
      if row < height then
        if chunk.numLines = 0 then none
        else do
          let segs <- readMoreSegments chunks (row + chunk.numLines)
            ((sizeDelta + segSize type stride chunk.numLines) % 2 ^ 32)
          pure (imageSeg type stride chunk sizeDelta :: segs)
      else some []

def lzReadImageSegments (first : LineChunk Pixel) (chunks : List (LineChunk Pixel)) :
    Option (List (LzImageSegment Pixel)) := do
  let segs <- readMoreSegments type stride height chunks first.numLines (segSize type stride first.numLines)
  pure (imageSeg type stride first 0 :: segs)

end Segments

/-- The checks of `lz_encode` on the stride. -/
def strideAccepted (type : LzImageType) (width stride : Nat) : Bool :=
  if type.isPlt then
    !(decide (width / type.pltPixelsPerByte < stride) &&
      (decide (width % type.pltPixelsPerByte = 0) || decide (1 < stride - width / type.pltPixelsPerByte)))
  else stride == width * type.rgbBytesPerPixel

/-- The `switch` of `lz_encode`. -/
def compressImage : (type : LzImageType) -> List (LzImageSegment (ImagePixel type)) -> Output UInt8 ->
    Option (Output UInt8)
  | .plt1BE, segs, out => compress .oneByte oneByteOps segs out
  | .plt1LE, segs, out => compress .oneByte oneByteOps segs out
  | .plt4BE, segs, out => compress .oneByte oneByteOps segs out
  | .plt4LE, segs, out => compress .oneByte oneByteOps segs out
  | .plt8, segs, out => compress .oneByte oneByteOps segs out
  | .rgb16, segs, out => compress .rgb16 rgb16Ops segs out
  | .rgb24, segs, out => compress .rgb rgb24Ops segs out
  | .rgb32, segs, out => compress .rgb rgb32Ops segs out
  | .rgba, segs, out => do
      let out <- compress .rgb rgb32Ops segs out
      compress .oneByte rgbAlphaOps segs out
  | .xxxa, segs, out => compress .oneByte rgbAlphaOps segs out
  | .a8, segs, out => compress .oneByte oneByteOps segs out

/-- The words `lz_encode` writes before the image. -/
def encodeHeader (type : LzImageType) (width height stride topDown : Nat) (out : Output UInt8) :
    Option (Output UInt8) := do
  let out <- encode32 out lzMagic
  let out <- encode32 out lzVersion
  let out <- encode32 out type.toNat
  let out <- encode32 out width
  let out <- encode32 out height
  let out <- encode32 out stride
  encode32 out topDown

/-- The value of 32 bits as an `int`. -/
def toInt32 (word : Nat) : Int :=
  if word % 2 ^ 32 < 2 ^ 31 then (word % 2 ^ 32 : Nat) else (word % 2 ^ 32 : Nat) - 2 ^ 32

/-- `lz_encode`: the output, and the number of bytes, which is returned as an `int`. -/
def lzEncode (type : LzImageType) (width height topDown : Nat) (first : LineChunk (ImagePixel type))
    (chunks : List (LineChunk (ImagePixel type))) (stride : Nat) (numIoBytes : Nat) (moreSpace : Nat -> Nat) :
    Option (Output UInt8 × Int) :=
  if !strideAccepted type width stride then none
  else do
    let segs <- lzReadImageSegments type stride height first chunks
    let out <- encodeHeader type width height stride topDown (Output.begin numIoBytes moreSpace)
    let out <- compressImage type segs out
    pure (out, toInt32 (out.given - out.room))

/-- The product of two `int` values, on 32 bits. -/
def mulInt32 (a b : Int) : Int := toInt32 ((a * b) % 2 ^ 32).toNat

def decode32 : StateT (Input UInt8) Option Nat := do
  let a <- Input.next
  let b <- Input.next
  let c <- Input.next
  let d <- Input.next
  pure (a.toNat * 2 ^ 24 + b.toNat * 2 ^ 16 + c.toNat * 2 ^ 8 + d.toNat)

/-- The fields of the encoder that `lz_decode_begin` sets, and `*out_top_down`
and `*out_n_pixels`. -/
structure Header where
  type : LzImageType
  width : Int
  height : Int
  stride : Int
  topDown : Int
  nPixels : Int
  deriving DecidableEq

def lzDecodeBegin : StateT (Input UInt8) Option Header := do
  let magic <- decode32
  if magic ≠ lzMagic then failure
  else
    let version <- decode32
    if version ≠ lzVersion then failure
    else
      let word <- decode32
      let width <- decode32
      let height <- decode32
      let stride <- decode32
      let topDown <- decode32
      let type <- liftM (LzImageType.ofNat? word)
      pure
        { type := type
          width := toInt32 width
          height := toInt32 height
          stride := toInt32 stride
          topDown := toInt32 topDown
          nPixels :=
            if type.isPlt then mulInt32 (mulInt32 (toInt32 stride) type.pltPixelsPerByte) (toInt32 height)
            else mulInt32 (toInt32 width) (toInt32 height) }

/-- `size` of `lz_decode`. -/
def decodeSize (header : Header) : Int :=
  if header.type.isPlt then mulInt32 header.height header.stride else mulInt32 header.height header.width

/-- The `switch` of `lz_decode` for `to_type` equal to the encoded type. -/
def decompressImage : (type : LzImageType) -> List (ImagePixel type) ->
    StateT (Input UInt8) Option (List (ImagePixel type))
  | .plt1BE, buf => decompress .oneByte oneByteOut buf
  | .plt1LE, buf => decompress .oneByte oneByteOut buf
  | .plt4BE, buf => decompress .oneByte oneByteOut buf
  | .plt4LE, buf => decompress .oneByte oneByteOut buf
  | .plt8, buf => decompress .oneByte oneByteOut buf
  | .rgb16, buf => decompress .rgb16 rgb16Out buf
  | .rgb24, buf => decompress .rgb rgb24Out buf
  | .rgb32, buf => decompress .rgb rgb32Out buf
  | .rgba, buf => do
      let buf <- decompress .rgb rgb32Out buf
      decompress .oneByte rgbAlphaOut buf
  | .xxxa, buf => decompress .oneByte rgbAlphaOut buf
  | .a8, buf => decompress .oneByte oneByteOut buf

/-- `lz_decode` into a buffer that holds the image, with the assertions at its
end.  A size that is negative as an `int` leaves no room in the buffer. -/
def lzDecode (header : Header) (buf : List (ImagePixel header.type)) :
    StateT (Input UInt8) Option (List (ImagePixel header.type)) := do
  let size := (decodeSize header).toNat
  if buf.length < size then failure
  else
    let pixels <- decompressImage header.type (buf.take size)
    let input <- get
    if !input.atEnd then failure
    else if pixels.length ≠ size then failure
    else pure (pixels ++ buf.drop size)

end Lz
end Spice
