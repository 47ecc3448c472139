import Spice.Lib.Int32
import Spice.Worker.Tree

namespace Spice
namespace StreamFrame

open Lib
open Spice.Tree (Rect)

/-!
# Frames of a MJPEG stream

`red_get_image` and `red_get_copy_ptr` of `red_parse_qxl.c` with what they check of a
bitmap, how a drawable becomes a frame of a stream, and `encode_frame` of `red_worker.c`,
which hands the lines of the source area to the encoder.  Rectangles come from the guest.
Of the data only the sizes of the chunks matter, and which of their bytes are read.
-/

/-! ## Bitmaps -/

def maxDataChunk : Nat := 0x7fffffff

def maxChunks : Nat := maxDataChunk / 1024

/-- `QXLImage` with a bitmap.  The chunks are the sizes along the guest's list, and the flags say whether the memory of
the palette, and of the data, is in a slot. -/
structure QxlBitmap where
  format : UInt8
  x : UInt32
  y : UInt32
  stride : UInt32
  topDown : Bool
  direct : Bool
  palette : Bool
  paletteInSlot : Bool
  dataInSlot : Bool
  firstChunk : UInt32
  moreChunks : List UInt32

/-- `SpiceBitmap`, with the sizes of its chunks; `none` is `NULL`. -/
structure SpiceBitmap where
  format : Nat
  x : Nat
  y : Nat
  stride : Nat
  topDown : Bool
  chunks : Option (List Nat)
deriving DecidableEq

def bitmapFmtIsRgb (format : Nat) : Bool :=
  [false, false, false, false, false, false, true, true, true, true, true].getD format false

def mapBitmapFmtToBitsPerPixel : List Nat := [0, 1, 1, 4, 4, 8, 16, 24, 32, 32, 8]

def bitmapConsistent (format x stride : Nat) : Bool :=
  match mapBitmapFmtToBitsPerPixel[format]? with
  | none => false
  | some bpp => decide (¬ stride < (x * bpp + 7) / 8)

/-- The loop of `red_get_data_chunks_ptr` over the chunks after the first one: their number, and the size so far.  Empty
chunks are left out. -/
def redGetMoreChunks : List UInt32 -> Nat -> Nat -> Option (List Nat)
  | [], _, _ => some []
  | size :: rest, numChunks, dataSize =>
      if maxChunks ≤ numChunks + 1 then none
      else if size = 0 then redGetMoreChunks rest (numChunks + 1) dataSize
      else if maxDataChunk < dataSize + size.toNat then none
      else (redGetMoreChunks rest (numChunks + 1) (dataSize + size.toNat)).map (fun sizes => size.toNat :: sizes)

/-- `red_get_data_chunks`; `none` stands for a size of zero. -/
def redGetDataChunks (qxl : QxlBitmap) : Option (List Nat) :=
  if qxl.dataInSlot then
    (redGetMoreChunks qxl.moreChunks 0 qxl.firstChunk.toNat).map (fun sizes => qxl.firstChunk.toNat :: sizes)
  else none

/-- The data of a bitmap of a size: a flat block, which may be `NULL`, or chunks of exactly that size. -/
def redGetBitmapData (qxl : QxlBitmap) (bitmapSize : Nat) : Option (Option (List Nat)) :=
  if qxl.direct then some (if qxl.dataInSlot then some [bitmapSize] else none)
  else
    match redGetDataChunks qxl with
    | none => none
    | some sizes => if sizes.sum = bitmapSize then some (some sizes) else none

/-- `red_get_image` of a bitmap that is no mask. -/
def redGetImage (qxl : QxlBitmap) : Option SpiceBitmap :=
  if bitmapFmtIsRgb qxl.format.toNat = false ∧ qxl.palette = false then none
  else if qxl.x = 0 ∨ qxl.y = 0 then none
  else if bitmapConsistent qxl.format.toNat qxl.x.toNat qxl.stride.toNat = false then none
  else if qxl.palette = true ∧ qxl.paletteInSlot = false then none
  else if maxDataChunk < qxl.y.toNat * qxl.stride.toNat then none
  else
    (redGetBitmapData qxl (qxl.y.toNat * qxl.stride.toNat)).map (fun chunks => {
      format := qxl.format.toNat
      x := qxl.x.toNat
      y := qxl.y.toNat
      stride := qxl.stride.toNat
      topDown := qxl.topDown
      chunks := chunks })

/-! ## Drawables and streams -/

/-- `worker->streaming_video`. -/
inductive StreamVideo
  | off
  | all
  | filter
deriving DecidableEq

/-- What is read of a drawable that copies a bitmap: `src_area` and `bbox` are the guest's. -/
structure Drawable where
  srcArea : Rect
  bbox : Rect
  creationTime : Int
  onPrimary : Bool
  isOpaque : Bool
  ropPut : Bool
deriving DecidableEq

namespace Drawable

/-- `right - left` of the source area, as the `unsigned int` it is kept in. -/
def srcWidth (drawable : Drawable) : Nat := ((drawable.srcArea.right - drawable.srcArea.left) % 2 ^ 32).toNat

/-- `bottom - top` of the source area, as the `unsigned int` it is kept in. -/
def srcHeight (drawable : Drawable) : Nat := ((drawable.srcArea.bottom - drawable.srcArea.top) % 2 ^ 32).toNat

def redStreamMinSize : Int := 96 * 96

/-- `red_update_streamable`, of a drawable that copies a bitmap. -/
def redUpdateStreamable (video : StreamVideo) (drawable : Drawable) : Bool :=
  let rect := drawable.srcArea
  if video = .off then false
  else if drawable.onPrimary = false then false
  else if drawable.isOpaque = false ∨ drawable.ropPut = false then false
  else if video = .filter ∧ int32 (int32 (rect.right - rect.left) * int32 (rect.bottom - rect.top)) <
    redStreamMinSize then false
  else true

end Drawable

structure Stream where
  width : Int
  height : Int
  destArea : Rect
  lastTime : Int
  topDown : Bool
deriving DecidableEq

/-- What `red_create_stream` makes of a drawable. -/
def redCreateStream (drawable : Drawable) (bitmap : SpiceBitmap) : Stream where
  width := int32 (drawable.srcArea.right - drawable.srcArea.left)
  height := int32 (drawable.srcArea.bottom - drawable.srcArea.top)
  destArea := drawable.bbox
  lastTime := drawable.creationTime
  topDown := bitmap.topDown

def rectContains (big small : Rect) : Bool :=
  decide (big.left ≤ small.left ∧ small.right ≤ big.right ∧ big.top ≤ small.top ∧ small.bottom ≤ big.bottom)

def rectGetArea (rect : Rect) : Int := int32 (int32 (rect.right - rect.left) * int32 (rect.bottom - rect.top))

def redStreamContinusMaxDelta : Int := 1000 * 1000 * 1000

/-- The kinds of a frame; a container is larger than the stream. -/
inductive FrameKind
  | none
  | native
  | container
deriving DecidableEq

/-- `__red_is_next_stream_frame` for a stream, where a container is allowed. -/
def redIsNextStreamFrame (streamable : Bool) (drawable : Drawable) (bitmap : SpiceBitmap) (stream : Stream) :
    FrameKind :=
  let candidateArea := rectGetArea drawable.bbox
  let otherArea := rectGetArea stream.destArea
  if streamable = false then .none
  else if redStreamContinusMaxDelta < drawable.creationTime - stream.lastTime then .none
  else if rectContains drawable.bbox stream.destArea = false then .none
  else if int32 (2 * otherArea) < candidateArea then .none
  else if stream.topDown ≠ bitmap.topDown then .none
  else if otherArea < candidateArea then .container
  else .native

/-- The drawable is a frame of the stream: it started the stream or it was found to be the next frame.  A sized frame is
one that is larger than the stream. -/
def IsFrame (video : StreamVideo) (drawable : Drawable) (bitmap : SpiceBitmap) (stream : Stream)
    (sized : Bool) : Prop :=
  drawable.redUpdateStreamable video = true ∧
    ((stream = redCreateStream drawable bitmap ∧ sized = false) ∨
      (redIsNextStreamFrame true drawable bitmap stream = .native ∧ sized = false) ∨
      (redIsNextStreamFrame true drawable bitmap stream = .container ∧ sized = true))

/-! ## Encoding a frame -/

/-- What `mjpeg_encoder_start_frame` sets for a format: the bytes of a pixel, and whether there is a pixel converter.
With `JCS_EXTENSIONS` libjpeg reads pixels of 24 and 32 bits by itself. -/
def startFormat (jcsExtensions : Bool) : Nat -> Option (Nat × Bool)
  | 6 => some (2, true)
  | 7 => some (3, !jcsExtensions)
  | 8 | 9 => some (4, !jcsExtensions)
  | _ => none

/-- `mjpeg_encoder_start_frame` with the width of the frame: the bytes of a pixel, and how many pixels of a line of
`srcWidth` are read.  The converter reads as many as it is told, and libjpeg the width of the frame. -/
def mjpegEncoderStartFrame (jcsExtensions : Bool) (format : Nat) (width : Int) (srcWidth : Nat) : Option (Nat × Nat) :=
  match startFormat jcsExtensions format with
  | none => none
  | some (bytes, true) =>
      if (width * 3 % 2 ^ 32).toNat < (width % 2 ^ 32).toNat then none else some (bytes, srcWidth)
  | some (bytes, false) => some (bytes, (width % 2 ^ 32).toNat)

/-- `offset` and `chunk_nr`. -/
structure Cursor where
  offset : Nat
  chunkNr : Nat
deriving DecidableEq

structure Line where
  chunkNr : Nat
  offset : Nat
deriving DecidableEq

def redGetImageLine (chunks : List Nat) (stride : Nat) (cursor : Cursor) : Option Line × Cursor :=
  if cursor.offset = chunks.getD cursor.chunkNr 0 then
    if cursor.chunkNr = chunks.length - 1 then (none, cursor)
    else if chunks.getD (cursor.chunkNr + 1) 0 < stride then (none, ⟨0, cursor.chunkNr + 1⟩)
    else (some ⟨cursor.chunkNr + 1, 0⟩, ⟨stride, cursor.chunkNr + 1⟩)
  else if chunks.getD cursor.chunkNr 0 - cursor.offset < stride then (none, cursor)
  else (some ⟨cursor.chunkNr, cursor.offset⟩, ⟨cursor.offset + stride, cursor.chunkNr⟩)

/-- The loop that skips lines; it does not look at what it is given. -/
def skipImageLines (chunks : List Nat) (stride : Nat) : Nat -> Cursor -> Cursor
  | 0, cursor => cursor
  | count + 1, cursor => skipImageLines chunks stride count (redGetImageLine chunks stride cursor).2

/-- The loop that encodes lines: those that were handed to the encoder, which may refuse one.  A line that is missing
ends it. -/
def encodeLines (chunks : List Nat) (stride : Nat) (accepts : Nat -> Bool) : Nat -> Cursor -> List Line
  | 0, _ => []
  | count + 1, cursor =>
      match redGetImageLine chunks stride cursor with
      | (none, _) => []
      | (some line, next) => if accepts count then line :: encodeLines chunks stride accepts count next else [line]

def skipLines (drawable : Drawable) (bitmap : SpiceBitmap) (stream : Stream) : Int :=
  if stream.topDown then drawable.srcArea.top else int32 (bitmap.y - drawable.srcArea.bottom)

/-- `encode_frame`: the lines that were handed to the encoder; `none` when `NULL` is taken for the chunks. -/
def encodeFrame (drawable : Drawable) (bitmap : SpiceBitmap) (stream : Stream) (accepts : Nat -> Bool) :
    Option (List Line) :=
  let skip := (skipLines drawable bitmap stream).toNat
  match bitmap.chunks with
  | none => if skip = 0 ∧ drawable.srcHeight = 0 then some [] else none
  | some chunks =>
      some (encodeLines chunks bitmap.stride accepts drawable.srcHeight
        (skipImageLines chunks bitmap.stride skip ⟨0, 0⟩))

/-- The width that `red_marshall_stream_data` starts a frame with. -/
def frameWidth (drawable : Drawable) (stream : Stream) (sized : Bool) : Int :=
  if sized then int32 (drawable.srcArea.right - drawable.srcArea.left) else stream.width

/-! ## What a frame may read -/

/-- Where a line is in the data of the bitmap. -/
def Line.place (chunks : List Nat) (line : Line) : Nat := (chunks.take line.chunkNr).sum + line.offset

def displayRow (bitmap : SpiceBitmap) (row : Nat) : Int := if bitmap.topDown then row else (bitmap.y : Int) - 1 - row

/-- The row of the display that is the line of a frame: the client shows a stream that is not top-down from its last
line on. -/
def wantedRow (drawable : Drawable) (stream : Stream) (index : Nat) : Int :=
  if stream.topDown then drawable.srcArea.top + index else drawable.srcArea.bottom - 1 - index

/-- A line that was handed to the encoder is a line of its chunk, the pixels of the source area and those that are read
are in it, and it is the row of the source area that is due. -/
structure LineContained (drawable : Drawable) (bitmap : SpiceBitmap) (stream : Stream) (bytes read index : Nat)
    (line : Line) :
    Prop where
  inChunk : line.offset + bitmap.stride ≤ (bitmap.chunks.getD []).getD line.chunkNr 0
  starts : 0 ≤ drawable.srcArea.left * bytes
  ends : (drawable.srcArea.left + drawable.srcWidth) * bytes ≤ bitmap.stride
  reads : (drawable.srcArea.left + read) * bytes ≤ bitmap.stride
  isRow : Exists fun row : Nat => line.place (bitmap.chunks.getD []) = row * bitmap.stride ∧ row < bitmap.y ∧
    displayRow bitmap row = wantedRow drawable stream index ∧
    drawable.srcArea.top ≤ displayRow bitmap row ∧ displayRow bitmap row < drawable.srcArea.bottom

def FrameContained (jcsExtensions : Bool) (drawable : Drawable) (bitmap : SpiceBitmap) (stream : Stream) (sized : Bool)
    (accepts : Nat -> Bool) : Prop :=
  forall bytes read,
    mjpegEncoderStartFrame jcsExtensions bitmap.format (frameWidth drawable stream sized) drawable.srcWidth =
      some (bytes, read) ->
    Exists fun lines => encodeFrame drawable bitmap stream accepts = some lines ∧
      forall (index : Nat) line, lines[index]? = some line -> LineContained drawable bitmap stream bytes read index line

/-- The lines before the first chunk that does not end with a line. -/
def alignedLines (stride : Nat) : List Nat -> Nat
  | [] => 0
  | len :: rest => len / stride + if len % stride = 0 then alignedLines stride rest else 0

/-- The source area is inside of the bitmap, and so are the pixels that are read of a line. -/
structure AreaFits (drawable : Drawable) (bitmap : SpiceBitmap) (bytes read : Nat) : Prop where
  left : 0 ≤ drawable.srcArea.left
  right : (drawable.srcArea.left + drawable.srcWidth) * bytes ≤ bitmap.stride
  reads : (drawable.srcArea.left + read) * bytes ≤ bitmap.stride
  height : drawable.srcArea.top < drawable.srcArea.bottom
  rows : if bitmap.topDown then 0 ≤ drawable.srcArea.top
    else 0 ≤ (bitmap.y : Int) - drawable.srcArea.bottom ∧ (bitmap.y : Int) - drawable.srcArea.bottom < 2 ^ 31

/-- No line is asked for, or none is there, or the source area is inside of the bitmap. -/
def FrameFits (jcsExtensions : Bool) (drawable : Drawable) (bitmap : SpiceBitmap) (stream : Stream)
    (sized : Bool) : Prop :=
  forall bytes read,
    mjpegEncoderStartFrame jcsExtensions bitmap.format (frameWidth drawable stream sized) drawable.srcWidth =
      some (bytes, read) ->
    match bitmap.chunks with
    | none => (skipLines drawable bitmap stream).toNat = 0 ∧ drawable.srcHeight = 0
    | some chunks => drawable.srcHeight = 0 ∨
        alignedLines bitmap.stride chunks ≤ (skipLines drawable bitmap stream).toNat ∨
          AreaFits drawable bitmap bytes read

/-! ## The lines of the chunks -/

/-- The cursor is before a row of the data, in a chunk that starts with one. -/
structure At (chunks : List Nat) (stride : Nat) (cursor : Cursor) (row : Nat) (before : List Nat) (len : Nat)
    (after : List Nat)
    (start inner : Nat) : Prop where
  isChunks : chunks = before ++ len :: after
  isChunk : cursor.chunkNr = before.length
  isOffset : cursor.offset = inner * stride
  inside : inner * stride ≤ len
  isStart : before.sum = start * stride
  isRow : row = start + inner
  isAligned : alignedLines stride chunks = start + alignedLines stride (len :: after)

def AtRow (chunks : List Nat) (stride : Nat) (cursor : Cursor) (row : Nat) : Prop :=
  Exists fun before => Exists fun len => Exists fun after => Exists fun start => Exists fun inner =>
    At chunks stride cursor row before len after start inner

section Lines

variable {chunks : List Nat} {stride : Nat} {cursor : Cursor} {row : Nat}

theorem At.len_eq {before after : List Nat} {len start inner : Nat}
    (at_row : At chunks stride cursor row before len after start inner) :
    chunks.getD cursor.chunkNr 0 = len := by
  rw [at_row.isChunks, at_row.isChunk]
  simp

theorem AtRow.start (len : Nat) (after : List Nat) : AtRow (len :: after) stride ⟨0, 0⟩ 0 :=
  ⟨[], len, after, 0, 0, rfl, rfl, (Nat.zero_mul _).symm, by simp, by simp, rfl, (Nat.zero_add _).symm⟩

/-- What is asked of a call of `red_get_image_line` before a row. -/
structure Gets (chunks : List Nat) (stride row : Nat) (got : Option Line × Cursor) : Prop where
  line : row < alignedLines stride chunks -> Exists fun line => got.1 = some line ∧ line.place chunks = row * stride ∧
    line.offset + stride ≤ chunks.getD line.chunkNr 0 ∧ AtRow chunks stride got.2 (row + 1)
  missing : ¬ row < alignedLines stride chunks -> got.1 = none ∧ AtRow chunks stride got.2 row

/-- A line inside of its chunk. -/
theorem At.gets_inside {before after : List Nat} {len start inner : Nat} (positive : 0 < stride)
    (at_row : At chunks stride cursor row before len after start inner) (notEnd : inner * stride ≠ len) :
    Gets chunks stride row (redGetImageLine chunks stride cursor) := by
  have isLen := at_row.len_eq
  have isOffset := at_row.isOffset
  have aligned : alignedLines stride chunks =
      start + (len / stride + if len % stride = 0 then alignedLines stride after else 0) := at_row.isAligned
  have more : (inner + 1) * stride = inner * stride + stride := Nat.succ_mul _ _
  have inside := at_row.inside
  unfold redGetImageLine
  rw [isLen, isOffset, if_neg notEnd]
  by_cases short : len - inner * stride < stride
  · rw [if_pos short]
    have quotient : len / stride = inner := by
      have least := (Nat.le_div_iff_mul_le positive).mpr inside
      have most : len / stride < inner + 1 := (Nat.div_lt_iff_lt_mul positive).mpr (by omega)
      omega
    have remainder : len % stride ≠ 0 := by
      intro exactly
      have whole := Nat.div_add_mod len stride
      rw [quotient, exactly, Nat.add_zero, Nat.mul_comm] at whole
      exact notEnd whole
    rw [quotient, if_neg remainder, Nat.add_zero, <- at_row.isRow] at aligned
    refine ⟨fun less => absurd less (by omega), fun _ => ⟨rfl, ?_⟩⟩
    exact ⟨before, len, after, start, inner, at_row⟩
  · rw [if_neg short]
    have enough : (inner + 1) * stride ≤ len := by omega
    have least := (Nat.le_div_iff_mul_le positive).mpr enough
    have isRow := at_row.isRow
    refine ⟨fun _ => ⟨_, rfl, ?_, ?_, ?_⟩, fun past => absurd past (by omega)⟩
    · show (chunks.take cursor.chunkNr).sum + inner * stride = row * stride
      have front : chunks.take cursor.chunkNr = before := by
        rw [at_row.isChunks, at_row.isChunk, List.take_left']
        rfl
      rw [front, at_row.isStart, isRow, Nat.add_mul]
    · show inner * stride + stride ≤ chunks.getD cursor.chunkNr 0
      rw [isLen]
      omega
    · exact ⟨before, len, after, start, inner + 1, at_row.isChunks, at_row.isChunk, more.symm, enough, at_row.isStart,
        by omega, at_row.isAligned⟩

/-- A line at the beginning of the next chunk. -/
theorem At.gets_next {before after : List Nat} {len start inner : Nat} (positive : 0 < stride)
    (filled : forall size, size ∈ chunks.tail -> size ≠ 0)
    (at_row : At chunks stride cursor row before len after start inner)
    (isEnd : inner * stride = len) : Gets chunks stride row (redGetImageLine chunks stride cursor) := by
  have isLen := at_row.len_eq
  have isOffset := at_row.isOffset
  have quotient : len / stride = inner := by
    rw [<- isEnd]
    exact Nat.mul_div_cancel _ positive
  have remainder : len % stride = 0 := by
    rw [<- isEnd]
    exact Nat.mul_mod_left _ _
  have aligned : alignedLines stride chunks = row + alignedLines stride after := by
    rw [at_row.isAligned, at_row.isRow]
    show start + (len / stride + if len % stride = 0 then alignedLines stride after else 0) = _
    rw [quotient, if_pos remainder, Nat.add_assoc]
  unfold redGetImageLine
  rw [isLen, isOffset, if_pos isEnd]
  cases after with
  | nil =>
      have last : cursor.chunkNr = chunks.length - 1 := by
        rw [at_row.isChunk, at_row.isChunks, List.length_append]
        rfl
      rw [if_pos last]
      have none : alignedLines stride chunks = row := aligned
      refine ⟨fun less => absurd less (by omega), fun _ => ⟨rfl, ?_⟩⟩
      exact ⟨before, len, [], start, inner, at_row⟩
  | cons next later =>
      have notLast : cursor.chunkNr ≠ chunks.length - 1 := by
        rw [at_row.isChunk, at_row.isChunks, List.length_append, List.length_cons, List.length_cons]
        omega
      have split : chunks = (before ++ [len]) ++ next :: later := by
        rw [at_row.isChunks, List.append_assoc]
        rfl
      have isNr : cursor.chunkNr + 1 = (before ++ [len]).length := by
        rw [at_row.isChunk, List.length_append]
        rfl
      have isNext : chunks.getD (cursor.chunkNr + 1) 0 = next := by
        rw [isNr, split]
        simp
      have sum : (before ++ [len]).sum = row * stride := by
        rw [List.sum_append, at_row.isStart, List.sum_singleton, <- isEnd, at_row.isRow, Nat.add_mul]
      have member : next ∈ chunks.tail := by
        rw [at_row.isChunks]
        cases before with
        | nil => exact List.mem_cons_self
        | cons _ _ => exact List.mem_append_right _ (List.mem_cons_of_mem _ List.mem_cons_self)
      have someBytes := filled next member
      have nextAligned : alignedLines stride (next :: later) =
          next / stride + if next % stride = 0 then alignedLines stride later else 0 := rfl
      rw [if_neg notLast, isNext]
      by_cases short : next < stride
      · rw [if_pos short]
        rw [Nat.div_eq_of_lt short, Nat.mod_eq_of_lt short, if_neg someBytes] at nextAligned
        refine ⟨fun less => absurd less (by omega), fun _ => ⟨rfl, ?_⟩⟩
        exact ⟨before ++ [len], next, later, row, 0, split, isNr, (Nat.zero_mul _).symm, by simp, sum, rfl, aligned⟩
      · rw [if_neg short]
        have least := Nat.div_pos (Nat.le_of_not_lt short) positive
        refine ⟨fun _ => ⟨_, rfl, ?_, ?_, ?_⟩, fun past => absurd past (by omega)⟩
        · show (chunks.take (cursor.chunkNr + 1)).sum + 0 = row * stride
          have front : chunks.take (cursor.chunkNr + 1) = before ++ [len] := by
            rw [split, isNr, List.take_left']
            rfl
          rw [front, sum, Nat.add_zero]
        · show 0 + stride ≤ chunks.getD (cursor.chunkNr + 1) 0
          rw [isNext]
          omega
        · exact ⟨before ++ [len], next, later, row, 1, split, isNr, (Nat.one_mul _).symm, by omega, sum, rfl, aligned⟩

theorem AtRow.gets (positive : 0 < stride) (filled : forall size, size ∈ chunks.tail -> size ≠ 0)
    (at_row : AtRow chunks stride cursor row) : Gets chunks stride row (redGetImageLine chunks stride cursor) := by
  rcases at_row with ⟨before, len, after, start, inner, at_row⟩
  by_cases isEnd : inner * stride = len
  · exact at_row.gets_next positive filled isEnd
  · exact at_row.gets_inside positive isEnd

theorem AtRow.le_aligned (positive : 0 < stride) (at_row : AtRow chunks stride cursor row) :
    row ≤ alignedLines stride chunks := by
  rcases at_row with ⟨before, len, after, start, inner, at_row⟩
  have least := (Nat.le_div_iff_mul_le positive).mpr at_row.inside
  have aligned : alignedLines stride chunks =
      start + (len / stride + if len % stride = 0 then alignedLines stride after else 0) := at_row.isAligned
  have isRow := at_row.isRow
  omega

/-- Lines are skipped. -/
theorem AtRow.skip (positive : 0 < stride) (filled : forall size, size ∈ chunks.tail -> size ≠ 0) (count : Nat)
    (at_row : AtRow chunks stride cursor row) :
    AtRow chunks stride (skipImageLines chunks stride count cursor)
      (min (row + count) (alignedLines stride chunks)) := by
  induction count generalizing cursor row with
  | zero =>
      rw [Nat.add_zero, Nat.min_eq_left (at_row.le_aligned positive)]
      exact at_row
  | succ count ih =>
      have gets := at_row.gets positive filled
      show AtRow chunks stride (skipImageLines chunks stride count (redGetImageLine chunks stride cursor).2) _
      by_cases less : row < alignedLines stride chunks
      · rcases gets.line less with ⟨_, _, _, _, next⟩
        have rest := ih next
        rw [Nat.add_right_comm, Nat.add_assoc] at rest
        exact rest
      · have rest := ih (gets.missing less).2
        have same : min (row + count) (alignedLines stride chunks) =
            min (row + (count + 1)) (alignedLines stride chunks) := by
          omega
        rw [same] at rest
        exact rest

/-- Lines are encoded. -/
theorem AtRow.encodes (positive : 0 < stride) (filled : forall size, size ∈ chunks.tail -> size ≠ 0)
    (accepts : Nat -> Bool) (count : Nat) (at_row : AtRow chunks stride cursor row) (index : Nat) (line : Line)
    (isLine : (encodeLines chunks stride accepts count cursor)[index]? = some line) :
    index < count ∧ row + index < alignedLines stride chunks ∧ line.place chunks = (row + index) * stride ∧
      line.offset + stride ≤ chunks.getD line.chunkNr 0 := by
  induction count generalizing cursor row index with
  | zero => cases isLine
  | succ count ih =>
      have gets := at_row.gets positive filled
      unfold encodeLines at isLine
      by_cases less : row < alignedLines stride chunks
      · rcases gets.line less with ⟨first, isFirst, place, inChunk, next⟩
        generalize redGetImageLine chunks stride cursor = got at isFirst next isLine
        rcases got with ⟨found, after⟩
        cases isFirst
        dsimp only at isLine next
        cases index with
        | zero =>
            have same : first = line := by
              split at isLine
              · exact Option.some.inj isLine
              · exact Option.some.inj isLine
            rw [<- same]
            exact ⟨Nat.succ_pos _, less, place, inChunk⟩
        | succ index =>
            split at isLine
            · rcases ih next index isLine with ⟨inCount, inAligned, isPlace, isIn⟩
              rw [Nat.add_right_comm, Nat.add_assoc] at inAligned isPlace
              exact ⟨Nat.succ_lt_succ inCount, inAligned, isPlace, isIn⟩
            · cases isLine
      · have missing := (gets.missing less).1
        generalize redGetImageLine chunks stride cursor = got at missing isLine
        rcases got with ⟨found, after⟩
        cases missing
        cases isLine

/-- Lines are encoded from the first one on. -/
theorem AtRow.encodes_first (positive : 0 < stride) (filled : forall size, size ∈ chunks.tail -> size ≠ 0)
    (accepts : Nat -> Bool) {count : Nat} (some_lines : count ≠ 0) (at_row : AtRow chunks stride cursor row)
    (less : row < alignedLines stride chunks) :
    Exists fun line => (encodeLines chunks stride accepts count cursor)[0]? = some line := by
  cases count with
  | zero => cases some_lines rfl
  | succ count =>
      rcases (at_row.gets positive filled).line less with ⟨first, isFirst, _⟩
      unfold encodeLines
      generalize redGetImageLine chunks stride cursor = got at isFirst
      rcases got with ⟨found, after⟩
      cases isFirst
      dsimp only
      split
      · exact ⟨first, rfl⟩
      · exact ⟨first, rfl⟩

end Lines

/-! ## Bitmaps that are accepted -/

/-- What is known of a bitmap that was accepted. -/
structure Accepted (bitmap : SpiceBitmap) : Prop where
  small : bitmap.y * bitmap.stride ≤ maxDataChunk
  wide : forall jcsExtensions setting, startFormat jcsExtensions bitmap.format = some setting -> 0 < bitmap.stride
  chunks : forall chunks, bitmap.chunks = some chunks -> chunks.sum = bitmap.y * bitmap.stride ∧
    Exists fun first => Exists fun rest => chunks = first :: rest ∧ forall size, size ∈ rest -> size ≠ 0

/-- Only the first chunk may be empty. -/
theorem redGetMoreChunks_filled {guest : List UInt32} {numChunks dataSize : Nat} {sizes : List Nat}
    (got : redGetMoreChunks guest numChunks dataSize = some sizes) : forall size, size ∈ sizes -> size ≠ 0 := by
  induction guest generalizing numChunks dataSize sizes with
  | nil =>
      cases got
      intro size member
      cases member
  | cons first rest ih =>
      unfold redGetMoreChunks at got
      split at got
      · cases got
      · split at got
        · exact ih got
        · rename_i someBytes
          split at got
          · cases got
          · rcases Option.map_eq_some_iff.mp got with ⟨more, isMore, same⟩
            rw [<- same]
            intro size member
            rcases List.mem_cons.mp member with isFirst | inMore
            · rw [isFirst]
              exact fun zero => someBytes (UInt32.toNat_inj.mp zero)
            · exact ih isMore size inMore

/-- The chunks of a bitmap that was read. -/
theorem redGetBitmapData_chunks {qxl : QxlBitmap} {bitmapSize : Nat} {chunks : List Nat}
    (got : redGetBitmapData qxl bitmapSize = some (some chunks)) : chunks.sum = bitmapSize ∧
      Exists fun first => Exists fun rest => chunks = first :: rest ∧ forall size, size ∈ rest -> size ≠ 0 := by
  unfold redGetBitmapData at got
  split at got
  · split at got
    · cases got
      exact ⟨List.sum_singleton, bitmapSize, [], rfl, fun size member => by cases member⟩
    · cases got
  · split at got
    · cases got
    · rename_i sizes isSizes
      split at got
      · rename_i isSum
        cases got
        refine ⟨isSum, ?_⟩
        unfold redGetDataChunks at isSizes
        split at isSizes
        · rcases Option.map_eq_some_iff.mp isSizes with ⟨more, isMore, same⟩
          exact ⟨_, more, same.symm, redGetMoreChunks_filled isMore⟩
        · cases isSizes
      · cases got

theorem bitmapConsistent_wide {format x stride : Nat} (consistent : bitmapConsistent format x stride = true)
    (some_width : x ≠ 0)
    {jcsExtensions : Bool} {setting : Nat × Bool} (supported : startFormat jcsExtensions format = some setting) :
    0 < stride := by
  unfold startFormat at supported
  unfold bitmapConsistent at consistent
  split at supported
  all_goals cases supported
  all_goals
    have bound := of_decide_eq_true consistent
    omega

/-- What the parser has checked of a bitmap. -/
theorem redGetImage_accepted {qxl : QxlBitmap} {bitmap : SpiceBitmap} (got : redGetImage qxl = some bitmap) :
    Accepted bitmap := by
  unfold redGetImage at got
  split at got
  · cases got
  · split at got
    · cases got
    · rename_i someArea
      split at got
      · cases got
      · rename_i consistent
        split at got
        · cases got
        · split at got
          · cases got
          · rename_i small
            rcases Option.map_eq_some_iff.mp got with ⟨chunks, isChunks, same⟩
            rw [<- same]
            have someWidth : qxl.x.toNat ≠ 0 := fun zero => someArea (Or.inl (UInt32.toNat_inj.mp zero))
            refine ⟨Nat.le_of_not_lt small, fun jcs setting supported => ?_, fun sizes isSizes => ?_⟩
            · exact bitmapConsistent_wide (Bool.not_eq_false _ |>.mp consistent) someWidth supported
            · have isSome : chunks = some sizes := isSizes
              rw [isSome] at isChunks
              exact redGetBitmapData_chunks isChunks

/-- A frame of a stream has its orientation. -/
theorem IsFrame.topDown {video : StreamVideo} {drawable : Drawable} {bitmap : SpiceBitmap} {stream : Stream}
    {sized : Bool}
    (isFrame : IsFrame video drawable bitmap stream sized) : stream.topDown = bitmap.topDown := by
  have next (kind : FrameKind) (isKind : redIsNextStreamFrame true drawable bitmap stream = kind)
      (isNext : kind ≠ .none) :
      stream.topDown = bitmap.topDown := by
    by_contra different
    unfold redIsNextStreamFrame at isKind
    dsimp only at isKind
    rw [if_pos different] at isKind
    repeat' split at isKind
    all_goals exact isNext isKind.symm
  rcases isFrame.2 with ⟨created, _⟩ | ⟨native, _⟩ | ⟨container, _⟩
  · rw [created]
    rfl
  · exact next _ native (by decide)
  · exact next _ container (by decide)

/-! ## Frames that stay inside -/

theorem alignedLines_mul_le (stride : Nat) (chunks : List Nat) : alignedLines stride chunks * stride ≤ chunks.sum := by
  induction chunks with
  | nil => exact Nat.le_of_eq (Nat.zero_mul _)
  | cons len rest ih =>
      have whole := Nat.div_mul_le_self len stride
      unfold alignedLines
      rw [Nat.add_mul, List.sum_cons]
      split
      · exact Nat.add_le_add whole ih
      · rw [Nat.zero_mul]
        omega

/-- A frame that is started has a format with whole bytes. -/
theorem mjpegEncoderStartFrame_supported {jcsExtensions : Bool} {format : Nat} {width : Int} {srcWidth bytes read : Nat}
    (starts : mjpegEncoderStartFrame jcsExtensions format width srcWidth = some (bytes, read)) :
    0 < bytes ∧ Exists fun setting => startFormat jcsExtensions format = some setting := by
  have positive (setting : Nat × Bool) (isSetting : startFormat jcsExtensions format = some setting) :
      0 < setting.1 := by
    unfold startFormat at isSetting
    split at isSetting
    all_goals cases isSetting
    all_goals exact Nat.succ_pos _
  unfold mjpegEncoderStartFrame at starts
  split at starts
  · cases starts
  · rename_i isSetting
    split at starts
    · cases starts
    · cases starts
      exact ⟨positive _ isSetting, _, isSetting⟩
  · rename_i isSetting
    cases starts
    exact ⟨positive _ isSetting, _, isSetting⟩

section Frame

variable {drawable : Drawable} {bitmap : SpiceBitmap} {stream : Stream} {bytes read : Nat}

theorem Drawable.srcHeight_le (upright : drawable.srcArea.top < drawable.srcArea.bottom) :
    (drawable.srcHeight : Int) ≤ drawable.srcArea.bottom - drawable.srcArea.top := by
  unfold Drawable.srcHeight
  omega

/-- A line of the area is a row of the display. -/
theorem AreaFits.isRow (fits : AreaFits drawable bitmap bytes read) (same : stream.topDown = bitmap.topDown)
    {index : Nat}
    (due : index < drawable.srcHeight) :
    displayRow bitmap ((skipLines drawable bitmap stream).toNat + index) = wantedRow drawable stream index ∧
      drawable.srcArea.top ≤ wantedRow drawable stream index ∧
        wantedRow drawable stream index < drawable.srcArea.bottom := by
  have height := Drawable.srcHeight_le fits.height
  have rows := fits.rows
  unfold displayRow wantedRow skipLines
  rw [same]
  cases topDown : bitmap.topDown with
  | true =>
      rw [topDown, if_pos rfl] at rows
      rw [if_pos rfl, if_pos rfl, if_pos rfl]
      omega
  | false =>
      rw [topDown, if_neg Bool.false_ne_true] at rows
      rw [if_neg Bool.false_ne_true, if_neg Bool.false_ne_true, if_neg Bool.false_ne_true,
        int32_of_isInt32 ⟨by omega, rows.2⟩]
      omega

/-- Lines that are contained lie in the bitmap. -/
theorem LineContained.areaFits (positive : 0 < bytes) (wide : 0 < bitmap.stride)
    (same : stream.topDown = bitmap.topDown)
    {line : Line} (contained : LineContained drawable bitmap stream bytes read 0 line)
    (place : line.place (bitmap.chunks.getD []) = (skipLines drawable bitmap stream).toNat * bitmap.stride) :
    AreaFits drawable bitmap bytes read := by
  rcases contained.isRow with ⟨row, isPlace, _, isWanted, least, most⟩
  have isRow : row = (skipLines drawable bitmap stream).toNat :=
    Nat.eq_of_mul_eq_mul_right wide (isPlace.symm.trans place)
  refine ⟨?_, contained.ends, contained.reads, by omega, ?_⟩
  · by_contra negative
    have product := Int.mul_neg_of_neg_of_pos (Int.not_le.mp negative) (Int.natCast_pos.mpr positive)
    exact Int.not_le.mpr product contained.starts
  · unfold displayRow wantedRow at isWanted
    rw [isRow] at isWanted
    unfold skipLines at isWanted
    rw [same] at isWanted
    cases topDown : bitmap.topDown with
    | true =>
        rw [topDown, if_pos rfl, if_pos rfl, if_pos rfl] at isWanted
        rw [if_pos rfl]
        omega
    | false =>
        rw [topDown, if_neg Bool.false_ne_true, if_neg Bool.false_ne_true, if_neg Bool.false_ne_true] at isWanted
        rw [if_neg Bool.false_ne_true]
        have bound := (isInt32_int32 ((bitmap.y : Int) - drawable.srcArea.bottom)).2
        omega

/-- When the lines of a frame are contained. -/
theorem encodeFrame_iff (accepted : Accepted bitmap) (same : stream.topDown = bitmap.topDown) (positive : 0 < bytes)
    (wide : 0 < bitmap.stride) (accepts : Nat -> Bool) {chunks : List Nat} (isChunks : bitmap.chunks = some chunks) :
    (Exists fun lines => encodeFrame drawable bitmap stream accepts = some lines ∧
      forall (index : Nat) line, lines[index]? = some line ->
        LineContained drawable bitmap stream bytes read index line) <->
    (drawable.srcHeight = 0 ∨ alignedLines bitmap.stride chunks ≤ (skipLines drawable bitmap stream).toNat ∨
      AreaFits drawable bitmap bytes read) := by
  rcases accepted.chunks chunks isChunks with ⟨sum, first, rest, isCons, filled⟩
  have filledTail : forall size, size ∈ chunks.tail -> size ≠ 0 := by
    rw [isCons]
    exact filled
  have start : AtRow chunks bitmap.stride ⟨0, 0⟩ 0 := by
    rw [isCons]
    exact AtRow.start first rest
  have skipped := start.skip wide filledTail (skipLines drawable bitmap stream).toNat
  rw [Nat.zero_add] at skipped
  have isFrame : encodeFrame drawable bitmap stream accepts =
      some (encodeLines chunks bitmap.stride accepts drawable.srcHeight
      (skipImageLines chunks bitmap.stride (skipLines drawable bitmap stream).toNat ⟨0, 0⟩)) := by
    unfold encodeFrame
    rw [isChunks]
  have isData : bitmap.chunks.getD [] = chunks := by
    rw [isChunks]
    rfl
  have rows : alignedLines bitmap.stride chunks ≤ bitmap.y := by
    have bound := alignedLines_mul_le bitmap.stride chunks
    rw [sum] at bound
    exact Nat.le_of_mul_le_mul_right bound wide
  constructor
  · rintro ⟨lines, isLines, contained⟩
    rw [isFrame, Option.some.injEq] at isLines
    by_cases empty : drawable.srcHeight = 0
    · exact Or.inl empty
    · by_cases past : alignedLines bitmap.stride chunks ≤ (skipLines drawable bitmap stream).toNat
      · exact Or.inr (Or.inl past)
      · refine Or.inr (Or.inr ?_)
        rw [Nat.min_eq_left (by omega)] at skipped
        rcases skipped.encodes_first wide filledTail accepts empty (by omega) with ⟨line, isLine⟩
        rcases skipped.encodes wide filledTail accepts _ 0 line isLine with ⟨_, _, place, _⟩
        rw [isLines] at isLine
        refine (contained 0 line isLine).areaFits positive wide same ?_
        rw [isData, place, Nat.add_zero]
  · intro fits
    refine ⟨_, isFrame, fun index line isLine => ?_⟩
    rcases skipped.encodes wide filledTail accepts _ index line isLine with ⟨due, inside, place, inChunk⟩
    rcases fits with empty | past | fits
    · omega
    · omega
    · rw [Nat.min_eq_left (by omega)] at inside place
      rcases fits.isRow same due with ⟨isWanted, least, most⟩
      refine ⟨?_, Int.mul_nonneg fits.left (Int.natCast_nonneg _), fits.right, fits.reads, ?_⟩
      · rw [isData]
        exact inChunk
      · rw [isData]
        refine ⟨_, place, by omega, isWanted, ?_, ?_⟩
        · rw [isWanted]
          exact least
        · rw [isWanted]
          exact most

end Frame

/-- Exactly when the frame of a drawable that was accepted, in a stream that it belongs to, is read inside of the lines
of its bitmap and shows its source area. -/
theorem encode_frame_contained {qxl : QxlBitmap} {bitmap : SpiceBitmap} (accepted : redGetImage qxl = some bitmap)
    {video : StreamVideo} {drawable : Drawable} {stream : Stream} {sized : Bool}
    (isFrame : IsFrame video drawable bitmap stream sized) (jcsExtensions : Bool) (accepts : Nat -> Bool) :
    FrameContained jcsExtensions drawable bitmap stream sized accepts <->
      FrameFits jcsExtensions drawable bitmap stream sized := by
  have known := redGetImage_accepted accepted
  refine forall_congr' (fun bytes => forall_congr' (fun read => imp_congr_right (fun starts => ?_)))
  rcases mjpegEncoderStartFrame_supported starts with ⟨positive, setting, supported⟩
  have wide := known.wide jcsExtensions setting supported
  cases isChunks : bitmap.chunks with
  | some chunks => exact encodeFrame_iff known isFrame.topDown positive wide accepts isChunks
  | none =>
      have encoded : encodeFrame drawable bitmap stream accepts =
          if (skipLines drawable bitmap stream).toNat = 0 ∧ drawable.srcHeight = 0 then some [] else none := by
        unfold encodeFrame
        rw [isChunks]
      rw [encoded]
      by_cases nothing : (skipLines drawable bitmap stream).toNat = 0 ∧ drawable.srcHeight = 0
      · rw [if_pos nothing]
        exact ⟨fun _ => nothing, fun _ => ⟨[], rfl, fun index line impossible => by cases impossible⟩⟩
      · rw [if_neg nothing]
        exact ⟨fun ⟨lines, impossible, _⟩ => (by cases impossible), fun asked => absurd asked nothing⟩

/-- A bitmap of two rows of two pixels, in one block. -/
def smallQxl : QxlBitmap where
  format := 8
  x := 2
  y := 2
  stride := 8
  topDown := true
  direct := true
  palette := false
  paletteInSlot := false
  dataInSlot := true
  firstChunk := 0
  moreChunks := []

def smallBitmap : SpiceBitmap where
  format := 8
  x := 2
  y := 2
  stride := 8
  topDown := true
  chunks := some [16]

/-- A drawable that copies two rows of two pixels from a column on. -/
def smallDrawable (left : Int) : Drawable where
  srcArea := { left := left, top := 0, right := left + 2, bottom := 2 }
  bbox := { left := 0, top := 0, right := 2, bottom := 2 }
  creationTime := 0
  onPrimary := true
  isOpaque := true
  ropPut := true

theorem encode_frame_contained_small :
    FrameContained true (smallDrawable 0) smallBitmap (redCreateStream (smallDrawable 0) smallBitmap) false
      (fun _ => true) := by
  have isFrame : IsFrame .all (smallDrawable 0) smallBitmap (redCreateStream (smallDrawable 0) smallBitmap) false :=
    ⟨by decide, Or.inl ⟨rfl, rfl⟩⟩
  have accepted : redGetImage smallQxl = some smallBitmap := by decide
  refine (encode_frame_contained accepted isFrame true (fun _ => true)).mpr (fun bytes read starts => ?_)
  have given : mjpegEncoderStartFrame true smallBitmap.format
      (frameWidth (smallDrawable 0) (redCreateStream (smallDrawable 0) smallBitmap) false) (smallDrawable 0).srcWidth =
        some (4, 2) := by decide
  rw [given, Option.some.injEq, Prod.mk.injEq] at starts
  rw [<- starts.1, <- starts.2]
  exact Or.inr (Or.inr ⟨by decide, by decide, by decide, by decide, by decide⟩)

/-- A source area that starts with the second pixel ends after the line. -/
theorem encode_frame_escapes : redGetImage smallQxl = some smallBitmap ∧
    IsFrame .all (smallDrawable 1) smallBitmap (redCreateStream (smallDrawable 1) smallBitmap) false ∧
    ¬ FrameContained true (smallDrawable 1) smallBitmap (redCreateStream (smallDrawable 1) smallBitmap) false
      (fun _ => true) := by
  refine ⟨by decide, ⟨by decide, Or.inl ⟨rfl, rfl⟩⟩, fun contained => ?_⟩
  rcases contained 4 2 (by decide) with ⟨lines, isLines, all⟩
  have given : encodeFrame (smallDrawable 1) smallBitmap (redCreateStream (smallDrawable 1) smallBitmap)
      (fun _ => true) =
      some [⟨0, 0⟩, ⟨0, 8⟩] := by decide
  rw [given, Option.some.injEq] at isLines
  rw [<- isLines] at all
  have past := (all 0 ⟨0, 0⟩ rfl).ends
  exact absurd past (by decide)

end StreamFrame
end Spice
