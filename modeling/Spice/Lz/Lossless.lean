import Spice.Lz.Codec
import Spice.Lz.Passes

namespace Spice
namespace Lz

open Lib

/-!
# LZ is lossless

For each kind of pixel the two templates agree, so that every pass is read
back.  With the header and the segments this gives back the image of every
type, up to what the format drops.
-/

/-! ## The kinds of pixels -/

theorem PixelOps.lawful_of_key {Pixel Key : Type} {ops : PixelOps Pixel} (key : Pixel -> Key)
    (same : forall p q, ops.samePixel p q = true <-> key p = key q) : ops.Lawful where
  refl p := (same p p).mpr rfl
  symm := by
    intro p q one
    exact (same q p).mpr ((same p q).mp one).symm
  trans := by
    intro p q r one two
    exact (same p r).mpr (((same p q).mp one).trans ((same q r).mp two))

theorem oneByteOps_same (p q : OneBytePixel) : oneByteOps.samePixel p q = true <-> p.a = q.a := beq_iff_eq

theorem rgbAlphaOps_same (p q : Rgb32Pixel) : rgbAlphaOps.samePixel p q = true <-> p.pad = q.pad := beq_iff_eq

theorem rgb16Ops_same (p q : Rgb16Pixel) : rgb16Ops.samePixel p q = true <-> p.toNat % 2 ^ 15 = q.toNat % 2 ^ 15 := by
  simp only [rgb16Ops, Bool.and_eq_true, beq_iff_eq]
  omega

theorem rgb24Ops_same (p q : Rgb24Pixel) : rgb24Ops.samePixel p q = true <-> (p.b, p.g, p.r) = (q.b, q.g, q.r) := by
  simp only [rgb24Ops, Bool.and_eq_true, beq_iff_eq, Prod.mk.injEq]
  tauto

theorem rgb32Ops_same (p q : Rgb32Pixel) : rgb32Ops.samePixel p q = true <-> (p.b, p.g, p.r) = (q.b, q.g, q.r) := by
  simp only [rgb32Ops, Bool.and_eq_true, beq_iff_eq, Prod.mk.injEq]
  tauto

theorem agree_oneByte : Agree oneByteOps oneByteOut (fun _ _ => True) where
  toLawful := PixelOps.lawful_of_key (fun p => p.a) oneByteOps_same
  reads p := ⟨p, (Reads.next p.a).bind (Reads.pure p), beq_self_eq_true p.a⟩
  merge _ same := same
  keeps _ _ := trivial

theorem agree_rgbAlpha : Agree rgbAlphaOps rgbAlphaOut (fun old p => p.b = old.b ∧ p.g = old.g ∧ p.r = old.r) where
  toLawful := PixelOps.lawful_of_key (fun p => p.pad) rgbAlphaOps_same
  reads p := ⟨⟨0, 0, 0, p.pad⟩, (Reads.next p.pad).bind (Reads.pure _), beq_self_eq_true p.pad⟩
  merge _ same := same
  keeps _ _ := ⟨rfl, rfl, rfl⟩

theorem agree_rgb16 : Agree rgb16Ops rgb16Out (fun _ _ => True) where
  toLawful := PixelOps.lawful_of_key (fun p => p.toNat % 2 ^ 15) rgb16Ops_same
  reads p := by
    have small := p.toNat_lt
    have high : (UInt8.ofNat (p.toNat / 256)).toNat = p.toNat / 256 := toNat_ofNat_of_lt (by omega)
    have low : (UInt8.ofNat (p.toNat % 256)).toNat = p.toNat % 256 := toNat_ofNat_of_lt (by omega)
    refine ⟨p, (Reads.next _).bind ((Reads.next _).bind ?_), (rgb16Ops_same p p).mpr rfl⟩
    rw [high, low, show p.toNat / 256 * 256 + p.toNat % 256 = p.toNat by omega, UInt16.ofNat_toNat]
    exact Reads.pure p
  merge _ same := same
  keeps _ _ := trivial

theorem agree_rgb24 : Agree rgb24Ops rgb24Out (fun _ _ => True) where
  toLawful := PixelOps.lawful_of_key (fun p => (p.b, p.g, p.r)) rgb24Ops_same
  reads p := ⟨p, (Reads.next p.b).bind ((Reads.next p.g).bind ((Reads.next p.r).bind (Reads.pure p))),
    (rgb24Ops_same p p).mpr rfl⟩
  merge _ same := same
  keeps _ _ := trivial

theorem agree_rgb32 : Agree rgb32Ops rgb32Out (fun _ _ => True) where
  toLawful := PixelOps.lawful_of_key (fun p => (p.b, p.g, p.r)) rgb32Ops_same
  reads p := ⟨⟨p.b, p.g, p.r, 0⟩,
    (Reads.next p.b).bind ((Reads.next p.g).bind ((Reads.next p.r).bind (Reads.pure _))), (rgb32Ops_same _ p).mpr rfl⟩
  merge _ same := same
  keeps _ _ := trivial

/-! ## The image -/

/-- What `lz_decode` leaves in the buffer for an image of each type. -/
def Restores : (type : LzImageType) -> (buf pixels image : List (ImagePixel type)) -> Prop
  | .plt1LE, _, pixels, image => pixels = image
  | .plt1BE, _, pixels, image => pixels = image
  | .plt4LE, _, pixels, image => pixels = image
  | .plt4BE, _, pixels, image => pixels = image
  | .plt8, _, pixels, image => pixels = image
  | .rgb16, _, pixels, image => pixels.map (fun p => p.toNat % 2 ^ 15) = image.map (fun p => p.toNat % 2 ^ 15)
  | .rgb24, _, pixels, image => pixels = image
  | .rgb32, _, pixels, image => pixels.map (fun p => (p.b, p.g, p.r)) = image.map (fun p => (p.b, p.g, p.r))
  | .rgba, _, pixels, image => pixels = image
  | .xxxa, buf, pixels, image => pixels = List.zipWith (fun old p => { old with pad := p.pad }) buf image
  | .a8, _, pixels, image => pixels = image

theorem Painted.keys {Pixel Key : Type} {ops : PixelOps Pixel} {keeps : Pixel -> Pixel -> Prop}
    {image buf pixels : List Pixel} (painted : Painted ops keeps image buf pixels) (key : Pixel -> Key)
    (same : forall p q, ops.samePixel p q = true <-> key p = key q) : pixels.map key = image.map key := by
  refine List.ext_getElem (by simp only [List.length_map, painted.size]) ?_
  intro place one two
  rw [List.length_map] at one two
  rw [List.getElem_map, List.getElem_map]
  exact (same _ _).mp (painted.same place _ _ (List.getElem?_eq_getElem one) (List.getElem?_eq_getElem two))

theorem Painted.eq {Pixel Key : Type} {ops : PixelOps Pixel} {keeps : Pixel -> Pixel -> Prop}
    {image buf pixels : List Pixel} (painted : Painted ops keeps image buf pixels) (key : Pixel -> Key)
    (same : forall p q, ops.samePixel p q = true <-> key p = key q) (inj : forall p q, key p = key q -> p = q) :
    pixels = image :=
  (List.map_inj_right inj).mp (painted.keys key same)

/-- The alpha of the picture is painted over the colours. -/
theorem Painted.alpha {image buf pixels : List Rgb32Pixel} (size : buf.length = image.length)
    (painted : Painted rgbAlphaOps (fun old p => p.b = old.b ∧ p.g = old.g ∧ p.r = old.r) image buf pixels) :
    pixels = List.zipWith (fun old p => { old with pad := p.pad }) buf image := by
  have sizes := painted.size
  refine List.ext_getElem (by simp only [List.length_zipWith]; omega) ?_
  intro place one two
  have inBuf : place < buf.length := by omega
  have inImage : place < image.length := by omega
  rw [List.getElem_zipWith]
  rcases painted.kept place _ _ (List.getElem?_eq_getElem one) (List.getElem?_eq_getElem inBuf) with ⟨b, g, r⟩
  have pad := (rgbAlphaOps_same _ _).mp
    (painted.same place _ _ (List.getElem?_eq_getElem one) (List.getElem?_eq_getElem inImage))
  generalize pixels[place] = pixel at b g r pad
  cases pixel
  simp only at b g r pad
  rw [b, g, r, pad]

theorem zipWith_alpha {image buf : List Rgb32Pixel}
    (colours : buf.map (fun p => (p.b, p.g, p.r)) = image.map (fun p => (p.b, p.g, p.r))) :
    List.zipWith (fun old p => ({ old with pad := p.pad } : Rgb32Pixel)) buf image = image := by
  induction image generalizing buf with
  | nil => rw [List.zipWith_nil_right]
  | cons p image ih =>
      cases buf with
      | nil => cases colours
      | cons old buf =>
          simp only [List.map_cons, List.cons.injEq, Prod.mk.injEq] at colours
          rcases colours with ⟨⟨b, g, r⟩, rest⟩
          rw [List.zipWith_cons_cons, ih rest, b, g, r]

/-- What the compressor of an image type writes is read back. -/
theorem compressImage_decompressImage (type : LzImageType) {image buf : List (ImagePixel type)}
    {segs : List (LzImageSegment (ImagePixel type))} {output : Output UInt8} (chain : Chain image 0 segs)
    (some : image ≠ []) (small : image.length < 2 ^ 32) (size : buf.length = image.length) (ample : output.Ample) :
    Exists fun next => Exists fun bytes => Exists fun pixels =>
      compressImage type segs output = Option.some next ∧ next.Ample ∧
      next.written = output.written ++ bytes ∧ Reads (decompressImage type buf) bytes pixels ∧
      pixels.length = image.length ∧ Restores type buf pixels image := by
  have oneByte : forall {image buf : List OneBytePixel} {segs : List (LzImageSegment OneBytePixel)},
      Chain image 0 segs -> image ≠ [] -> image.length < 2 ^ 32 -> buf.length = image.length ->
      Exists fun next => Exists fun bytes => Exists fun pixels =>
        compress .oneByte oneByteOps segs output = Option.some next ∧ next.Ample ∧
        next.written = output.written ++ bytes ∧ Reads (decompress .oneByte oneByteOut buf) bytes pixels ∧
        pixels.length = image.length ∧ pixels = image := by
    intro image buf segs chain some small size
    rcases compress_decompress agree_oneByte chain some small size ample with
      ⟨next, bytes, pixels, compressed, ampleNext, written, reads, painted⟩
    refine ⟨next, bytes, pixels, compressed, ampleNext, written, reads, painted.size,
      painted.eq (fun p => p.a) oneByteOps_same ?_⟩
    rintro ⟨a⟩ ⟨b⟩ same
    exact congrArg OneBytePixel.mk same
  cases type with
  | plt1LE => exact oneByte chain some small size
  | plt1BE => exact oneByte chain some small size
  | plt4LE => exact oneByte chain some small size
  | plt4BE => exact oneByte chain some small size
  | plt8 => exact oneByte chain some small size
  | a8 => exact oneByte chain some small size
  | rgb16 =>
      rcases compress_decompress agree_rgb16 chain some small size ample with
        ⟨next, bytes, pixels, compressed, ampleNext, written, reads, painted⟩
      exact ⟨next, bytes, pixels, compressed, ampleNext, written, reads, painted.size,
        painted.keys _ rgb16Ops_same⟩
  | rgb24 =>
      rcases compress_decompress agree_rgb24 chain some small size ample with
        ⟨next, bytes, pixels, compressed, ampleNext, written, reads, painted⟩
      refine ⟨next, bytes, pixels, compressed, ampleNext, written, reads, painted.size,
        painted.eq _ rgb24Ops_same ?_⟩
      rintro ⟨b, g, r⟩ ⟨b', g', r'⟩ same
      simp only [Prod.mk.injEq] at same
      rw [same.1, same.2.1, same.2.2]
  | rgb32 =>
      rcases compress_decompress agree_rgb32 chain some small size ample with
        ⟨next, bytes, pixels, compressed, ampleNext, written, reads, painted⟩
      exact ⟨next, bytes, pixels, compressed, ampleNext, written, reads, painted.size,
        painted.keys _ rgb32Ops_same⟩
  | xxxa =>
      rcases compress_decompress agree_rgbAlpha chain some small size ample with
        ⟨next, bytes, pixels, compressed, ampleNext, written, reads, painted⟩
      exact ⟨next, bytes, pixels, compressed, ampleNext, written, reads, painted.size, painted.alpha size⟩
  | rgba =>
      rcases compress_decompress agree_rgb32 chain some small size ample with
        ⟨middle, colourBytes, colours, compressed, ampleMiddle, written, reads, painted⟩
      rcases compress_decompress agree_rgbAlpha chain some small painted.size ampleMiddle with
        ⟨next, alphaBytes, pixels, compressedAlpha, ampleNext, writtenAlpha, readsAlpha, paintedAlpha⟩
      refine ⟨next, colourBytes ++ alphaBytes, pixels, ?_, ampleNext, ?_, reads.bind readsAlpha, paintedAlpha.size, ?_⟩
      · show (compress .rgb rgb32Ops segs output).bind (fun out => compress .oneByte rgbAlphaOps segs out) = _
        rw [compressed]
        exact compressedAlpha
      · rw [writtenAlpha, written, List.append_assoc]
      · have alpha := paintedAlpha.alpha painted.size
        rw [zipWith_alpha (painted.keys _ rgb32Ops_same)] at alpha
        exact alpha

/-! ## The segments and the header -/

/-- Chunks of lines that make up an image: the first may be empty, no other
one is. -/
structure Split {Pixel : Type} (type : LzImageType) (stride height : Nat) (first : LineChunk Pixel)
    (chunks : List (LineChunk Pixel)) : Prop where
  rows : first.numLines + (chunks.map (fun chunk => chunk.numLines)).sum = height
  some : forall chunk, chunk ∈ chunks -> chunk.numLines ≠ 0
  lines : forall chunk, chunk ∈ first :: chunks ->
    chunk.pixels.length = chunk.numLines * (stride / type.rgbBytesPerPixel)

def imageOf {Pixel : Type} (first : LineChunk Pixel) (chunks : List (LineChunk Pixel)) : List Pixel :=
  first.pixels ++ chunks.flatMap (fun chunk => chunk.pixels)

section Segments

variable {Pixel : Type} {type : LzImageType} {stride height : Nat}

theorem segSize_eq (whole : type.rgbBytesPerPixel ∣ stride) {numLines : Nat} (fits : numLines * stride < 2 ^ 32) :
    segSize type stride numLines = numLines * (stride / type.rgbBytesPerPixel) := by
  rw [segSize, Nat.mod_eq_of_lt fits, Nat.mul_div_assoc _ whole]

theorem imageSeg_isPart {chunk : LineChunk Pixel} (before after : List Pixel)
    (size : segSize type stride chunk.numLines = chunk.pixels.length) :
    (imageSeg type stride chunk before.length).lines = chunk.pixels ∧
      (imageSeg type stride chunk before.length).IsPart (before ++ chunk.pixels ++ after) := by
  have lines : (imageSeg type stride chunk before.length).lines = chunk.pixels := by
    rw [imageSeg, size, List.take_length]
  refine ⟨lines, after, ?_⟩
  rw [lines, List.append_assoc]
  exact List.drop_left

/-- The chunks become segments in a chain. -/
theorem readMoreSegments_chain (whole : type.rgbBytesPerPixel ∣ stride) (fits : height * stride < 2 ^ 32)
    (chunks : List (LineChunk Pixel)) (before : List Pixel) (row : Nat)
    (length : before.length = row * (stride / type.rgbBytesPerPixel))
    (rows : row + (chunks.map (fun chunk => chunk.numLines)).sum = height)
    (some : forall chunk, chunk ∈ chunks -> chunk.numLines ≠ 0) (lines : forall chunk, chunk ∈ chunks ->
      chunk.pixels.length = chunk.numLines * (stride / type.rgbBytesPerPixel)) :
    Exists fun segs => readMoreSegments type stride height chunks row before.length = Option.some segs ∧
      Chain (before ++ chunks.flatMap (fun chunk => chunk.pixels)) before.length segs := by
  induction chunks generalizing before row with
  | nil =>
      have done : row = height := by simpa using rows
      refine ⟨[], ?_, ?_⟩
      · rw [readMoreSegments, if_neg (by omega)]
      · show before.length = (before ++ []).length
        rw [List.append_nil]
  | cons chunk chunks ih =>
      rw [List.map_cons, List.sum_cons] at rows
      have positive := some chunk List.mem_cons_self
      have pixels := lines chunk List.mem_cons_self
      have bytes : (row + chunk.numLines) * stride ≤ height * stride := Nat.mul_le_mul_right _ (by omega)
      rw [Nat.add_mul] at bytes
      have size := segSize_eq whole (show chunk.numLines * stride < 2 ^ 32 by omega)
      have longer : (before ++ chunk.pixels).length = (row + chunk.numLines) * (stride / type.rgbBytesPerPixel) := by
        rw [List.length_append, length, pixels, Nat.add_mul]
      have below : (row + chunk.numLines) * (stride / type.rgbBytesPerPixel) ≤ (row + chunk.numLines) * stride :=
        Nat.mul_le_mul_left _ (Nat.div_le_self _ _)
      rw [Nat.add_mul _ _ stride] at below
      rcases ih (before ++ chunk.pixels) (row + chunk.numLines) longer (by omega)
        (fun other member => some other (List.mem_cons_of_mem _ member))
        (fun other member => lines other (List.mem_cons_of_mem _ member)) with ⟨segs, read, chain⟩
      have next : (before.length + segSize type stride chunk.numLines) % 2 ^ 32 = (before ++ chunk.pixels).length := by
        rw [size, ← pixels, ← List.length_append]
        exact Nat.mod_eq_of_lt (by omega)
      rcases imageSeg_isPart before (chunks.flatMap (fun chunk => chunk.pixels))
        (size.trans pixels.symm) with ⟨all, part⟩
      refine ⟨imageSeg type stride chunk before.length :: segs, ?_, rfl, ?_, ?_⟩
      · rw [readMoreSegments, if_pos (by omega), if_neg positive, next, read]
        rfl
      · rw [List.flatMap_cons, ← List.append_assoc]
        exact part
      · rw [all, List.flatMap_cons, ← List.append_assoc, ← List.length_append]
        exact chain

/-- The whole image becomes a chain of segments. -/
theorem lzReadImageSegments_chain (whole : type.rgbBytesPerPixel ∣ stride) (fits : height * stride < 2 ^ 32)
    {first : LineChunk Pixel} {chunks : List (LineChunk Pixel)} (split : Split type stride height first chunks) :
    Exists fun segs => lzReadImageSegments type stride height first chunks = Option.some segs ∧
      Chain (imageOf first chunks) 0 segs := by
  have pixels := split.lines first List.mem_cons_self
  have rows := split.rows
  have bytes : first.numLines * stride ≤ height * stride := Nat.mul_le_mul_right _ (by omega)
  have size := segSize_eq whole (show first.numLines * stride < 2 ^ 32 by omega)
  rcases readMoreSegments_chain whole fits chunks first.pixels first.numLines pixels rows split.some
    (fun chunk member => split.lines chunk (List.mem_cons_of_mem _ member)) with ⟨segs, read, chain⟩
  rcases imageSeg_isPart [] (chunks.flatMap (fun chunk => chunk.pixels))
    (size.trans pixels.symm) with ⟨all, part⟩
  refine ⟨imageSeg type stride first 0 :: segs, ?_, rfl, part, ?_⟩
  · rw [lzReadImageSegments, size, ← pixels, read]
    rfl
  · rw [List.length_nil] at all
    rw [all, Nat.zero_add]
    exact chain

/-- The image has as many pixels as its lines. -/
theorem imageOf_length {first : LineChunk Pixel} {chunks : List (LineChunk Pixel)}
    (split : Split type stride height first chunks) :
    (imageOf first chunks).length = height * (stride / type.rgbBytesPerPixel) := by
  have total : forall chunks : List (LineChunk Pixel),
      (forall chunk, chunk ∈ chunks -> chunk.pixels.length = chunk.numLines * (stride / type.rgbBytesPerPixel)) ->
      (chunks.flatMap (fun chunk => chunk.pixels)).length =
        (chunks.map (fun chunk => chunk.numLines)).sum * (stride / type.rgbBytesPerPixel) := by
    intro chunks lines
    induction chunks with
    | nil => simp
    | cons chunk chunks ih =>
        rw [List.flatMap_cons, List.length_append, lines chunk List.mem_cons_self,
          ih (fun other member => lines other (List.mem_cons_of_mem _ member)), List.map_cons, List.sum_cons,
          Nat.add_mul]
  rw [imageOf, List.length_append, split.lines first List.mem_cons_self,
    total chunks (fun chunk member => split.lines chunk (List.mem_cons_of_mem _ member)), ← Nat.add_mul, split.rows]

end Segments

theorem decode32_bytes32 {word : Nat} (small : word < 2 ^ 32) : Reads decode32 (bytes32 word) word := by
  have one : (UInt8.ofNat (word / 2 ^ 24)).toNat = word / 2 ^ 24 % 256 := UInt8.toNat_ofNat'
  have two : (UInt8.ofNat (word / 2 ^ 16)).toNat = word / 2 ^ 16 % 256 := UInt8.toNat_ofNat'
  have three : (UInt8.ofNat (word / 2 ^ 8)).toNat = word / 2 ^ 8 % 256 := UInt8.toNat_ofNat'
  have four : (UInt8.ofNat word).toNat = word % 256 := UInt8.toNat_ofNat'
  refine (Reads.next _).bind ((Reads.next _).bind ((Reads.next _).bind ((Reads.next _).bind ?_)))
  rw [one, two, three, four]
  refine Reads.congr (Reads.pure word) (congrArg pure ?_) rfl
  omega

theorem toInt32_of_lt {word : Nat} (small : word < 2 ^ 31) : toInt32 word = word := by
  rw [toInt32, Nat.mod_eq_of_lt (by omega), if_pos small]

theorem mulInt32_of_lt {a b : Nat} (small : a * b < 2 ^ 31) : mulInt32 a b = (a * b : Nat) := by
  have product : (((a : Int) * b) % 2 ^ 32).toNat = a * b := by
    rw [← Int.natCast_mul]
    omega
  rw [mulInt32, product, toInt32_of_lt small]

def headerBytes (type : LzImageType) (width height stride topDown : Nat) : List UInt8 :=
  bytes32 lzMagic ++ (bytes32 lzVersion ++ (bytes32 type.toNat ++ (bytes32 width ++ (bytes32 height ++
    (bytes32 stride ++ bytes32 topDown)))))

def headerOf (type : LzImageType) (width height stride topDown : Nat) : Header where
  type := type
  width := width
  height := height
  stride := stride
  topDown := topDown
  nPixels :=
    if type.isPlt then mulInt32 (mulInt32 stride type.pltPixelsPerByte) height else mulInt32 width height

/-- The header comes back. -/
theorem lzDecodeBegin_headerBytes (type : LzImageType) {width height stride topDown : Nat} (widthFits : width < 2 ^ 31)
    (heightFits : height < 2 ^ 31) (strideFits : stride < 2 ^ 31) (topDownFits : topDown < 2 ^ 31) :
    Reads lzDecodeBegin (headerBytes type width height stride topDown) (headerOf type width height stride topDown) := by
  have typeFits := type.toNat_lt
  refine (decode32_bytes32 (by decide)).bind ?_
  rw [if_neg (fun wrong => wrong rfl)]
  refine (decode32_bytes32 (by decide)).bind ?_
  rw [if_neg (fun wrong => wrong rfl)]
  refine (decode32_bytes32 (by omega)).bind ((decode32_bytes32 (by omega)).bind
    ((decode32_bytes32 (by omega)).bind ((decode32_bytes32 (by omega)).bind ?_)))
  rw [← List.append_nil (bytes32 topDown)]
  refine (decode32_bytes32 (by omega)).bind ?_
  rw [LzImageType.ofNat?_toNat, toInt32_of_lt widthFits, toInt32_of_lt heightFits, toInt32_of_lt strideFits,
    toInt32_of_lt topDownFits, ← List.append_nil []]
  exact (Reads.lift rfl).bind (Reads.pure _)

theorem dvd_of_strideAccepted {type : LzImageType} {width stride : Nat}
    (accepted : strideAccepted type width stride = true) :
    type.rgbBytesPerPixel ∣ stride ∧ (type.isPlt = false -> stride / type.rgbBytesPerPixel = width) := by
  unfold strideAccepted at accepted
  cases type <;> simp [LzImageType.isPlt, LzImageType.rgbBytesPerPixel] at accepted ⊢ <;> omega

/-- The decoder knows the size from the header. -/
theorem decodeSize_headerOf {type : LzImageType} {width height stride topDown : Nat}
    (accepted : strideAccepted type width stride = true) (fits : height * (stride / type.rgbBytesPerPixel) < 2 ^ 31) :
    (decodeSize (headerOf type width height stride topDown)).toNat = height * (stride / type.rgbBytesPerPixel) := by
  unfold decodeSize
  cases plt : type.isPlt with
  | true =>
      have byte : type.rgbBytesPerPixel = 1 := by cases type <;> first | rfl | cases plt
      rw [byte, Nat.div_one] at fits ⊢
      simp only [headerOf, plt, if_true]
      rw [mulInt32_of_lt fits]
      rfl
  | false =>
      rw [(dvd_of_strideAccepted accepted).2 plt] at fits ⊢
      simp only [headerOf, plt, Bool.false_eq_true, if_false]
      rw [mulInt32_of_lt fits]
      rfl

/-- The header is written. -/
theorem encodeHeader_emits {output : Output UInt8} (ample : output.Ample) (type : LzImageType)
    (width height stride topDown : Nat) :
    Exists fun next => encodeHeader type width height stride topDown output = some next ∧ next.Ample ∧
      next.written = output.written ++ headerBytes type width height stride topDown := by
  rcases ample.emitAll (bytes32 lzMagic) with ⟨one, first, emitsOne⟩
  rcases emitsOne.ample.emitAll (bytes32 lzVersion) with ⟨two, second, emitsTwo⟩
  rcases emitsTwo.ample.emitAll (bytes32 type.toNat) with ⟨three, third, emitsThree⟩
  rcases emitsThree.ample.emitAll (bytes32 width) with ⟨four, fourth, emitsFour⟩
  rcases emitsFour.ample.emitAll (bytes32 height) with ⟨five, fifth, emitsFive⟩
  rcases emitsFive.ample.emitAll (bytes32 stride) with ⟨six, sixth, emitsSix⟩
  rcases emitsSix.ample.emitAll (bytes32 topDown) with ⟨next, last, emits⟩
  refine ⟨next, ?_, emits.ample, ?_⟩
  · simp only [encodeHeader, encode32, first, second, third, fourth, fifth, sixth, last, Option.bind_eq_bind,
      Option.bind_some]
  · rw [emits.written, emitsSix.written, emitsFive.written, emitsFour.written, emitsThree.written, emitsTwo.written,
      emitsOne.written]
    simp only [headerBytes, List.append_assoc]

theorem lzDecode_eq_some {header : Header} {buf pixels : List (ImagePixel header.type)} {input rest : Input UInt8}
    (size : (decodeSize header).toNat = buf.length)
    (decoded : decompressImage header.type buf input = some (pixels, rest)) (count : pixels.length = buf.length)
    (ended : rest.atEnd = true) : lzDecode header buf input = some (pixels, rest) := by
  unfold lzDecode
  simp only [size, Nat.lt_irrefl, if_false, List.take_length, List.drop_length, List.append_nil]
  show (decompressImage header.type buf input).bind _ = _
  rw [decoded]
  simp only [Option.bind_some]
  show (if (!rest.atEnd) = true then failure else if pixels.length ≠ buf.length then failure else pure pixels :
    StateT (Input UInt8) Option (List (ImagePixel header.type))) rest = _
  rw [ended, if_neg (by decide), if_neg (fun differ => differ count)]
  rfl

/-- The image is encoded, and whatever is read of the bytes, its header and its
pixels are decoded, and nothing is left. -/
def LosslessAt (type : LzImageType) (width height stride topDown numIoBytes : Nat) (moreSpace : Nat -> Nat)
    (first : LineChunk (ImagePixel type)) (chunks : List (LineChunk (ImagePixel type)))
    (buf : List (ImagePixel type))
    (right : (buf pixels image : List (ImagePixel type)) -> Prop) : Prop :=
  Exists fun out => lzEncode type width height topDown first chunks stride numIoBytes moreSpace =
      some (out, toInt32 out.written.length) ∧
    forall input : Input UInt8, input.Full -> input.all = out.written ->
      Exists fun left => Exists fun pixels => Exists fun rest =>
        lzDecodeBegin input = some (headerOf type width height stride topDown, left) ∧
        lzDecode (headerOf type width height stride topDown) buf left = some (pixels, rest) ∧
        rest.all = [] ∧ right buf pixels (imageOf first chunks)

/-- Encoding an image and decoding the bytes gives back its header and its
pixels, however lines, output and input are cut, if the stride is positive and
the sizes fit the integers they are computed in. -/
theorem lzDecode_lzEncode (type : LzImageType) (width height stride topDown numIoBytes : Nat) (moreSpace : Nat -> Nat)
    (first : LineChunk (ImagePixel type)) (chunks : List (LineChunk (ImagePixel type)))
    (buf : List (ImagePixel type)) (widthFits : width < 2 ^ 31) (heightSome : 1 ≤ height) (heightFits : height < 2 ^ 31)
    (strideFits : stride < 2 ^ 31) (topDownFits : topDown < 2 ^ 31)
    (accepted : strideAccepted type width stride = true) (strideSome : 1 ≤ stride)
    (bytesFit : height * stride < 2 ^ 32) (pixelsFit : height * (stride / type.rgbBytesPerPixel) < 2 ^ 31)
    (split : Split type stride height first chunks) (space : forall call, moreSpace call ≠ 0)
    (bufSize : buf.length = height * (stride / type.rgbBytesPerPixel)) :
    LosslessAt type width height stride topDown numIoBytes moreSpace first chunks buf (Restores type) := by
  rcases dvd_of_strideAccepted accepted with ⟨whole, -⟩
  have length := imageOf_length split
  have size := bufSize.trans length.symm
  have perLine : 1 ≤ stride / type.rgbBytesPerPixel := by
    have positive : 0 < type.rgbBytesPerPixel := by cases type <;> decide
    exact (Nat.le_div_iff_mul_le positive).mpr (by rw [Nat.one_mul]; exact Nat.le_of_dvd strideSome whole)
  have image_ne : imageOf first chunks ≠ [] := by
    have positive : 1 * 1 ≤ height * (stride / type.rgbBytesPerPixel) := Nat.mul_le_mul heightSome perLine
    exact fun empty => by rw [empty, List.length_nil] at length; omega
  rcases lzReadImageSegments_chain whole bytesFit split with ⟨segs, read, chain⟩
  have ample : (Output.begin numIoBytes moreSpace : Output UInt8).Ample := Output.begin_ample numIoBytes space
  rcases encodeHeader_emits ample type width height stride topDown with ⟨headed, header, ampleHeaded, writtenHeader⟩
  rcases compressImage_decompressImage type chain image_ne (by omega) size ampleHeaded with
    ⟨out, bytes, pixels, compressed, ampleOut, written, reads, count, restores⟩
  have given := ampleOut.given
  refine ⟨out, ?_, ?_⟩
  · rw [lzEncode, accepted]
    simp only [Bool.not_true, Bool.false_eq_true, if_false, read, header, compressed, Option.bind_eq_bind,
      Option.bind_some, Option.pure_def, given, Nat.add_sub_cancel]
  · intro input full all
    rw [written, writtenHeader] at all
    rcases lzDecodeBegin_headerBytes type widthFits heightFits strideFits topDownFits input bytes full all with
      ⟨left, begun, fullLeft, allLeft⟩
    have decoded := reads left [] fullLeft (by rw [allLeft, List.append_nil])
    rcases decoded with ⟨rest, decompressed, fullRest, allRest⟩
    refine ⟨left, pixels, rest, begun, ?_, allRest, restores⟩
    exact lzDecode_eq_some ((decodeSize_headerOf accepted pixelsFit).trans bufSize.symm) decompressed
      (count.trans size.symm) (Input.atEnd_of_all allRest fullRest)

theorem lzDecode_of_size_zero (header : Header) (plt : header.type = .plt1LE ∨ header.type = .plt8)
    (size : (decodeSize header).toNat = 0) (buf : List (ImagePixel header.type)) (input : Input UInt8) :
    lzDecode header buf input = none := by
  rcases header with ⟨type, width, height, stride, topDown, nPixels⟩
  unfold lzDecode
  rcases plt with rfl | rfl
  · simp only [size, Nat.not_lt_zero, if_false, List.take_zero]
    rfl
  · simp only [size, Nat.not_lt_zero, if_false, List.take_zero]
    rfl

/-- A stride of zero is accepted and nothing but the header is written; the
alpha of an image is all that is kept of it in the alpha format; and a size of
2^31 is negative for the decoder. -/
theorem lz_loses_image :
    Not (LosslessAt .plt1LE 3 1 0 1 64 (fun _ => 64) ⟨1, []⟩ [] [] (fun _ pixels image => pixels = image)) ∧
    Not (LosslessAt .xxxa 1 1 4 1 64 (fun _ => 64) ⟨1, [⟨1, 2, 3, 4⟩]⟩ [] [⟨0, 0, 0, 0⟩]
      (fun _ pixels image => pixels = image)) ∧
    Not (LosslessAt .plt8 65536 32768 65536 1 64 (fun _ => 64) ⟨32768, List.replicate (2 ^ 31) ⟨0⟩⟩ []
      (List.replicate (2 ^ 31) ⟨0⟩) (fun _ pixels image => pixels = image)) := by
  refine ⟨?_, ?_, ?_⟩
  · rintro ⟨out, -, decodes⟩
    rcases decodes ⟨out.written, []⟩ (by intro chunk member; cases member) (List.append_nil _) with
      ⟨left, pixels, rest, -, decoded, -⟩
    have none := lzDecode_of_size_zero (headerOf .plt1LE 3 1 0 1) (Or.inl rfl) (by decide) [] left
    cases decoded.symm.trans none
  · rintro ⟨out, encoded, decodes⟩
    rcases decodes ⟨out.written, []⟩ (by intro chunk member; cases member) (List.append_nil _) with
      ⟨left, pixels, rest, begun, decoded, -, same⟩
    have bytes : (lzEncode .xxxa 1 1 1 ⟨1, [⟨1, 2, 3, 4⟩]⟩ [] 4 64 (fun _ => 64)).map (fun done => done.1.written) =
        some [32, 32, 90, 76, 0, 1, 0, 1, 0, 0, 0, 10, 0, 0, 0, 1, 0, 0, 0, 1, 0, 0, 0, 4, 0, 0, 0, 1, 0, 4] := by
      decide
    rw [encoded] at bytes
    have written := Option.some.inj bytes
    simp only at written
    let view : List (ImagePixel (headerOf .xxxa 1 1 4 1).type) × Input UInt8 -> List Rgb32Pixel := fun pair => pair.1
    have result : ((lzDecodeBegin ⟨out.written, []⟩).bind (fun pair =>
        lzDecode (headerOf .xxxa 1 1 4 1) [⟨0, 0, 0, 0⟩] pair.2)).map view = some [⟨0, 0, 0, 4⟩] := by
      rw [written]
      decide
    rw [begun] at result
    have kept : some pixels = some [⟨0, 0, 0, 4⟩] := (congrArg (Option.map view) decoded).symm.trans result
    cases (Option.some.inj kept).symm.trans same
  · rintro ⟨out, -, decodes⟩
    rcases decodes ⟨out.written, []⟩ (by intro chunk member; cases member) (List.append_nil _) with
      ⟨left, pixels, rest, -, decoded, -⟩
    have none := lzDecode_of_size_zero (headerOf .plt8 65536 32768 65536 1) (Or.inr rfl) (by decide)
      (List.replicate (2 ^ 31) ⟨0⟩) left
    cases decoded.symm.trans none

/-- A run, a match and single pixels, in two segments. -/
theorem lzDecode_lzEncode_rgb16 : LosslessAt .rgb16 9 2 18 1 3 (fun call => call % 2 + 1)
      ⟨1, [1, 2, 3, 1, 2, 3, 4, 5, 6]⟩ [⟨1, [7, 7, 7, 7, 7, 7, 7, 7, 8]⟩] (List.replicate 18 0) (Restores .rgb16) :=
  lzDecode_lzEncode .rgb16 9 2 18 1 3 (fun call => call % 2 + 1)
    ⟨1, [1, 2, 3, 1, 2, 3, 4, 5, 6]⟩ [⟨1, [7, 7, 7, 7, 7, 7, 7, 7, 8]⟩] (List.replicate 18 0) (by decide) (by decide)
    (by decide) (by decide) (by decide) (by decide) (by decide) (by decide) (by decide)
    ⟨by decide, by decide, by decide⟩ (fun call => Nat.succ_ne_zero _) (by decide)

end Lz
end Spice
