import Spice.Lz.LiteralRun

namespace Spice
namespace Lz

open Lib

/-!
# The LZ compressor

`lz_compress_tmpl.c` is compiled once for each kind of pixel.  A `Template`
says which of its three groups of preprocessor branches is taken, and
`PixelOps` holds the macros that look at a pixel.

A pointer into a segment is an offset.  Offsets that a comparison moves below
the segment or behind it are written with the constant on the other side.
-/

/-- Which `#if` branches of the template are compiled. -/
inductive Template
  -- `LZ_PLT`, `LZ_RGB_ALPHA`, `LZ_A8`
  | oneByte
  -- `LZ_RGB16`
  | rgb16
  -- `LZ_RGB24`, `LZ_RGB32`
  | rgb
  deriving DecidableEq, Repr

namespace Template

/-- The pixels compared before a match is considered. -/
def minMatch : Template -> Nat
  | oneByte => 3
  | rgb16 => 2
  | rgb => 1

/-- The pixels compared besides if the match is far away. -/
def farMatch : Template -> Nat
  | oneByte => 2
  | rgb16 => 1
  | rgb => 1

/-- What is added to the length before it is written. -/
def lenBias : Template -> Nat
  | oneByte => 0
  | rgb16 => 1
  | rgb => 2

/-- The far comparison would leave the segment of the reference. -/
def farBlocked (template : Template) (ref refLimit : Nat) : Bool :=
  match template with
  | oneByte => refLimit ≤ ref + 1
  | rgb16 => refLimit < ref + 1
  | rgb => refLimit < ref + 1

/-- The first and the second update of the hash table behind a match are made
only if they are behind its first pixel. -/
def guards : Template -> Bool × Bool
  | oneByte => (false, false)
  | rgb16 => (true, false)
  | rgb => (true, true)

end Template

/-- `DJB2_HASH`, on 32 bits. -/
def djb2Hash (hash c : Nat) : Nat := (hash * 33 % 2 ^ 32) ^^^ c

/-- `HASH_FUNC`: `DJB2_START`, the bytes one after another, `HASH_MASK`. -/
def hashBytes (bytes : List Nat) : Nat := bytes.foldl djb2Hash 5381 % 2 ^ 13

structure PixelOps (Pixel : Type) where
  encodePixel : Pixel -> List UInt8
  samePixel : Pixel -> Pixel -> Bool
  hashFunc : Pixel -> Pixel -> Pixel -> Nat

/-- `ENCODE_PIXEL`, `SAME_PIXEL` and `HASH_FUNC` of `LZ_PLT` and of `LZ_A8`. -/
def oneByteOps : PixelOps OneBytePixel where
  encodePixel p := [p.a]
  samePixel p q := p.a == q.a
  hashFunc p q r := hashBytes [p.a.toNat, q.a.toNat, r.a.toNat]

/-- The same of `LZ_RGB_ALPHA`. -/
def rgbAlphaOps : PixelOps Rgb32Pixel where
  encodePixel p := [p.pad]
  samePixel p q := p.pad == q.pad
  hashFunc p q r := hashBytes [p.pad.toNat, q.pad.toNat, r.pad.toNat]

def rgb16HashBytes (p : Rgb16Pixel) : List Nat := [p.toNat % 256, p.toNat / 256 % 128]

/-- The same of `LZ_RGB16`. -/
def rgb16Ops : PixelOps Rgb16Pixel where
  encodePixel p := [UInt8.ofNat (p.toNat / 256), UInt8.ofNat (p.toNat % 256)]
  samePixel p q := p.toNat / 1024 % 32 == q.toNat / 1024 % 32 && p.toNat / 32 % 32 == q.toNat / 32 % 32 &&
    p.toNat % 32 == q.toNat % 32
  hashFunc p q r := hashBytes (rgb16HashBytes p ++ rgb16HashBytes q ++ rgb16HashBytes r)

/-- The same of `LZ_RGB24`. -/
def rgb24Ops : PixelOps Rgb24Pixel where
  encodePixel p := [p.b, p.g, p.r]
  samePixel p q := p.r == q.r && p.g == q.g && p.b == q.b
  hashFunc p q r := hashBytes ([p, q, r].flatMap (fun pixel => [pixel.r.toNat, pixel.g.toNat, pixel.b.toNat]))

/-- The same of `LZ_RGB32`. -/
def rgb32Ops : PixelOps Rgb32Pixel where
  encodePixel p := [p.b, p.g, p.r]
  samePixel p q := p.r == q.r && p.g == q.g && p.b == q.b
  hashFunc p q r := hashBytes ([p, q, r].flatMap (fun pixel => [pixel.r.toNat, pixel.g.toNat, pixel.b.toNat]))

/-- `LzImageSegment`: the pixels from `lines` to `lines_end`, and `size_delta`. -/
structure LzImageSegment (Pixel : Type) where
  lines : List Pixel
  sizeDelta : Nat

structure HashEntry (Pixel : Type) where
  imageSeg : LzImageSegment Pixel
  ref : Nat

def maxDistance : Nat := 8191

/-- `MAX_FARDISTANCE`. -/
def maxFarDistance : Nat := 65535 + maxDistance - 1

def boundOffset : Nat := 2

def limitOffset : Nat := 6

section Compress

variable {Pixel : Type} [Inhabited Pixel] (template : Template) (ops : PixelOps Pixel)

namespace LzImageSegment

def pixel (seg : LzImageSegment Pixel) (offset : Nat) : Pixel := seg.lines.getD offset default

def pixelId (seg : LzImageSegment Pixel) (offset : Nat) : Nat := offset + seg.sizeDelta

/-- `HASH_FUNC` of the three pixels from an offset on. -/
def hash (seg : LzImageSegment Pixel) (offset : Nat) : Nat :=
  ops.hashFunc (seg.pixel offset) (seg.pixel (offset + 1)) (seg.pixel (offset + 2))

end LzImageSegment

/-- The state of `compress_seg`: the output, `htab`, `ip` and `copy`. -/
structure SegState (Pixel : Type) where
  out : Output UInt8
  htab : Nat -> HashEntry Pixel
  ip : Nat
  copy : Nat

/-- Put a reference into the hash table. -/
def setHash (htab : Nat -> HashEntry Pixel) (hval : Nat) (entry : HashEntry Pixel) : Nat -> HashEntry Pixel :=
  fun slot => if slot = hval then entry else htab slot

/-- A match before it is extended: `distance`, the segment of the reference,
`ref` and `ip`. -/
structure Match (Pixel : Type) where
  distance : Nat
  refSeg : LzImageSegment Pixel
  ref : Nat
  ip : Nat

/-- The pixel before and three pixels are the same. -/
def isRun (seg : LzImageSegment Pixel) (ip : Nat) : Bool :=
  0 < ip && ops.samePixel (seg.pixel (ip - 1)) (seg.pixel ip) && ops.samePixel (seg.pixel ip) (seg.pixel (ip + 1)) &&
    ops.samePixel (seg.pixel (ip + 1)) (seg.pixel (ip + 2))

/-- Some pixels at a reference are those at `ip`. -/
def samePixels (refSeg : LzImageSegment Pixel) (ref : Nat) (seg : LzImageSegment Pixel) (ip : Nat) : Nat -> Bool
  | 0 => true
  | count + 1 => ops.samePixel (refSeg.pixel ref) (seg.pixel ip) && samePixels refSeg (ref + 1) seg (ip + 1) count

/-- The checks of `compress_seg` on the entry of the hash table. -/
def findMatch (entry : HashEntry Pixel) (seg : LzImageSegment Pixel) (anchor : Nat) : Option (Match Pixel) :=
  let distance := seg.pixelId anchor - entry.imageSeg.pixelId entry.ref
  let ref := entry.ref + template.minMatch
  let ip := anchor + template.minMatch
  if distance = 0 ∨ maxFarDistance ≤ distance then none
  else if !samePixels ops entry.imageSeg entry.ref seg anchor template.minMatch then none
  else if distance < maxDistance then some ⟨distance, entry.imageSeg, ref, ip⟩
  else if template.farBlocked ref entry.imageSeg.lines.length then none
  else if !samePixels ops entry.imageSeg ref seg ip template.farMatch then none
  else some ⟨distance, entry.imageSeg, ref + template.farMatch, ip + template.farMatch⟩

/-- Extend a run: `ip` moves while the pixels behind it are the same. -/
def extendRun (refSeg : LzImageSegment Pixel) (x : Pixel) (ipBound : Nat) : Nat -> Nat -> Nat -> Nat
  | 0, _, ip => ip
  | fuel + 1, ref, ip =>
      if ip < ipBound ∧ ref < refSeg.lines.length then
        if ops.samePixel (refSeg.pixel ref) x then extendRun refSeg x ipBound fuel (ref + 1) (ip + 1) else ip
      else ip

/-- Extend another match; `ip` moves behind the first pixel that differs. -/
def extendMatch (refSeg seg : LzImageSegment Pixel) (ipBound : Nat) : Nat -> Nat -> Nat -> Nat
  | 0, _, ip => ip
  | fuel + 1, ref, ip =>
      if ip < ipBound ∧ ref < refSeg.lines.length then
        if ops.samePixel (refSeg.pixel ref) (seg.pixel ip) then
          extendMatch refSeg seg ipBound fuel (ref + 1) (ip + 1)
        else ip + 1
      else ip

/-- `ip` behind the loops that extend a match.  The number of rounds is at most
the number of pixels. -/
def matchEnd (seg : LzImageSegment Pixel) (m : Match Pixel) : Nat :=
  let ipBound := seg.lines.length - boundOffset
  if m.distance = 1 then extendRun ops m.refSeg (m.refSeg.pixel m.ref) ipBound seg.lines.length m.ref m.ip
  else extendMatch ops m.refSeg seg ipBound seg.lines.length m.ref m.ip

/-- The bytes of a length beyond seven: 255 as long as it does not fit. -/
def lenBytes : Nat -> Nat -> List UInt8
  | 0, len => [UInt8.ofNat len]
  | fuel + 1, len => if 255 ≤ len then 255 :: lenBytes fuel (len - 255) else [UInt8.ofNat len]

def matchBytes (distance len : Nat) : List UInt8 :=
  if distance < maxDistance then
    if len < 7 then [UInt8.ofNat (len * 32 + distance / 256), UInt8.ofNat (distance % 256)]
    else UInt8.ofNat (7 * 32 + distance / 256) :: lenBytes (len - 7) (len - 7) ++ [UInt8.ofNat (distance % 256)]
  else
    let distance := distance - maxDistance
    if len < 7 then
      [UInt8.ofNat (len * 32 + 31), 255, UInt8.ofNat (distance / 256), UInt8.ofNat (distance % 256)]
    else UInt8.ofNat (7 * 32 + 31) :: lenBytes (len - 7) (len - 7) ++
      [255, UInt8.ofNat (distance / 256), UInt8.ofNat (distance % 256)]

/-- The hash table behind a match that was extended up to `ip`: `ip -= 3`, and
two updates. -/
def hashBoundary (seg : LzImageSegment Pixel) (anchor ip : Nat) (htab : Nat -> HashEntry Pixel) :
    Nat -> HashEntry Pixel :=
  let htab :=
    if template.guards.1 && !(anchor + 3 < ip) then htab
    else setHash htab (seg.hash ops (ip - 3)) ⟨seg, ip - 3⟩
  if template.guards.2 && !(anchor + 2 < ip) then htab
  else setHash htab (seg.hash ops (ip - 2)) ⟨seg, ip - 2⟩

/-- The label `match` of `compress_seg`. -/
def compressMatch (seg : LzImageSegment Pixel) (m : Match Pixel) (state : SegState Pixel) :
    Option (SegState Pixel) := do
  let ip := matchEnd ops seg m
  let out <- closeRun state.out state.copy
  let out <- out.emitAll (matchBytes (m.distance - 1) (ip + template.lenBias - (state.ip + 3)))
  let out <- encodeCopyCount out (maxCopy - 1)
  pure { out := out, htab := hashBoundary template ops seg state.ip ip state.htab, ip := ip - 1, copy := 0 }

/-- The label `literal` of `compress_seg`, also the rounds of its last loop. -/
def compressLiteral (seg : LzImageSegment Pixel) (state : SegState Pixel) : Option (SegState Pixel) := do
  let (out, copy) <- copyPixel (ops.encodePixel (seg.pixel state.ip)) state.out state.copy
  pure { state with out := out, ip := state.ip + 1, copy := copy }

/-- One round of the main loop of `compress_seg`. -/
def compressRound (seg : LzImageSegment Pixel) (state : SegState Pixel) : Option (SegState Pixel) :=
  let anchor := state.ip
  if isRun ops seg anchor then compressMatch template ops seg ⟨1, seg, anchor + 2, anchor + 3⟩ state
  else
    let hval := seg.hash ops anchor
    let entry := state.htab hval
    let state := { state with htab := setHash state.htab hval ⟨seg, anchor⟩ }
    match findMatch template ops entry seg anchor with
    | some m => compressMatch template ops seg m state
    | none => compressLiteral ops seg state

/-- The main loop.  Every round moves `ip`. -/
def compressLoop (seg : LzImageSegment Pixel) : Nat -> SegState Pixel -> Option (SegState Pixel)
  | 0, state => some state
  | fuel + 1, state =>
      if state.ip + limitOffset < seg.lines.length then do
        let next <- compressRound template ops seg state
        compressLoop seg fuel next
      else some state

/-- The left-over as literal copy. -/
def compressRest (seg : LzImageSegment Pixel) : Nat -> SegState Pixel -> Option (SegState Pixel)
  | 0, state => some state
  | fuel + 1, state =>
      if state.ip < seg.lines.length then do
        let next <- compressLiteral ops seg state
        compressRest seg fuel next
      else some state

/-- The output and the hash table between two segments. -/
structure Encoder (Pixel : Type) where
  out : Output UInt8
  htab : Nat -> HashEntry Pixel

def compressSeg (seg : LzImageSegment Pixel) (start copied : Nat) (encoder : Encoder Pixel) :
    Option (Encoder Pixel) := do
  let out <- if copied = 0 then encodeCopyCount encoder.out (maxCopy - 1) else some encoder.out
  let state <- compressLoop template ops seg seg.lines.length
    { out := out, htab := encoder.htab, ip := start, copy := copied }
  let state <- compressRest ops seg seg.lines.length state
  let out <- closeRun state.out state.copy
  pure { out := out, htab := state.htab }

/-- The loop of `compress` over the leading segments of fewer than four pixels,
which are copied; the segments from the first greater one on are left. -/
def copySmall : List (LzImageSegment Pixel) -> Output UInt8 -> Option (Output UInt8 × List (LzImageSegment Pixel))
  | [], out => some (out, [])
  | seg :: segs, out =>
      if seg.lines.length < 4 then do
        let out <-
          if seg.lines = [] then some out
          else do
            let out <- encodeCopyCount out (seg.lines.length - 1)
            out.emitAll (seg.lines.flatMap ops.encodePixel)
        copySmall segs out
      else some (out, seg :: segs)

/-- The loop of `compress` over the further segments. -/
def compressSegs : List (LzImageSegment Pixel) -> Encoder Pixel -> Option (Encoder Pixel)
  | [], encoder => some encoder
  | seg :: segs, encoder => do
      let encoder <- compressSeg template ops seg 0 0 encoder
      compressSegs segs encoder

def compress (segs : List (LzImageSegment Pixel)) (out : Output UInt8) : Option (Output UInt8) := do
  let (out, segs) <- copySmall ops segs out
  match segs with
  | [] => some out
  | seg :: segs =>
      let htab := fun _ => ⟨seg, 0⟩
      let out <- encodeCopyCount out (maxCopy - 1)
      let out <- out.emitAll (ops.encodePixel (seg.pixel 0))
      let out <- out.emitAll (ops.encodePixel (seg.pixel 1))
      let encoder <- compressSeg template ops seg 2 2 ⟨out, htab⟩
      let encoder <- compressSegs template ops segs encoder
      some encoder.out

end Compress

end Lz
end Spice
