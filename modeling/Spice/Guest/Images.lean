import Mathlib.Data.List.Nodup
import Mathlib.Data.List.Range
import Spice.Guest.DataChunks

namespace Spice
namespace Guest

open Lib

/-!
# Images and surfaces of the guest

`red_get_image` and `red_get_surface_cmd` of `red_parse_qxl.c`.  What the server allocates for
an image, and what it frees again, is written down: the image, its palette, the chunks of its
data, and the nodes of the list that `red_get_data_chunks_ptr` makes.  An assertion of the
server that fails ends it.

The guest may change its memory at any time, so a field that is read twice is two values.
-/

/-! ## What is allocated -/

inductive HeapObject
  | image
  | palette
  | chunks
  | node (index : Nat)
deriving DecidableEq

/-- What was allocated, and what was freed. -/
structure Heap where
  allocated : List HeapObject
  freed : List HeapObject

namespace Heap

def empty : Heap := ⟨[], []⟩

def alloc (heap : Heap) (objects : List HeapObject) : Heap := { heap with allocated := heap.allocated ++ objects }

def free (heap : Heap) (objects : List HeapObject) : Heap := { heap with freed := heap.freed ++ objects }

/-- Everything was allocated once, and is either freed once or has an owner. -/
def Balanced (heap : Heap) (owned : List HeapObject) : Prop :=
  heap.allocated.Nodup ∧ heap.allocated.Perm (heap.freed ++ owned)

end Heap

/-! ## The nodes of a list of chunks -/

/-- A run of `red_get_data_chunks_ptr`, with how many nodes were made and which were freed. -/
structure NodeRun where
  gathered : Gathered
  made : Nat
  freed : List Nat

/-- What stands after `error:`, which goes back along the nodes. -/
def NodeRun.error (head : RedDataChunk) (links made : Nat) : NodeRun where
  gathered := .error head links
  made := made
  freed := (List.range made).reverse

section Nodes

variable (info : RedMemSlotInfo) (groupId : Int32) (memory : GuestMemory)

/-- The loop of `red_get_data_chunks_ptr`, with its nodes. -/
def followNodes (head : RedDataChunk) : Nat -> Nat -> UInt64 -> Nat -> List RedDataChunk -> Option NodeRun
  | left, links, qxl, total, recorded =>
      if memory.nextChunk links qxl = 0 then
        some
          { gathered := { failed := false, size := total, head := head, next := recorded, links := links }
            made := recorded.length
            freed := [] }
      else
        match left with
        | 0 => some (.error head links recorded.length)
        | left + 1 =>
            match info.getMemslotId (memory.nextChunk links qxl),
              info.getVirt (memory.nextChunk links qxl) qxlDataChunkSize groupId with
            | _, .error => some (.error head (links + 1) recorded.length)
            | some slotId, .virt chunk =>
                if memory.dataSize (links + 1) chunk = 0 then followNodes head left (links + 1) chunk total recorded
                -- the node is made before its data is looked at
                else if maxDataChunk < total + (memory.dataSize (links + 1) chunk).toNat then
                  some (.error head (links + 1) (recorded.length + 1))
                else
                  match validateChunk info groupId (chunk + qxlDataChunkSize.toUInt64) slotId
                    (memory.dataSize (links + 1) chunk) with
                  | none | some .aborted => none
                  | some .refused => some (.error head (links + 1) (recorded.length + 1))
                  | some .valid =>
                      followNodes head left (links + 1) chunk (total + (memory.dataSize (links + 1) chunk).toNat)
                        (recorded ++ [⟨memory.dataSize (links + 1) chunk,
                          some (chunk + qxlDataChunkSize.toUInt64), slotId⟩])
            | _, _ => none

/-- `red_get_data_chunks_ptr`, with its nodes. -/
def redGetDataChunksPtrNodes (memslotId : Int32) (qxl : UInt64) : Option NodeRun :=
  let head : RedDataChunk := ⟨memory.dataSize 0 qxl, some (qxl + qxlDataChunkSize.toUInt64), memslotId⟩
  match validateChunk info groupId (qxl + qxlDataChunkSize.toUInt64) memslotId (memory.dataSize 0 qxl) with
  | none | some .aborted => none
  | some .refused =>
      some
        { gathered := { failed := true, size := 0, head := { head with data := none }, next := [], links := 0 }
          made := 0
          freed := [] }
  | some .valid => followNodes info groupId memory head (maxChunks - 1) 0 qxl (memory.dataSize 0 qxl).toNat []

end Nodes

def Heap.gather (heap : Heap) (nodes : NodeRun) : Heap :=
  (heap.alloc ((List.range nodes.made).map .node)).free (nodes.freed.map .node)

def redPutDataChunks (heap : Heap) (gathered : Gathered) : Heap :=
  heap.free ((List.range gathered.next.length).map .node)

/-! ## Images -/

/-- A `SpiceChunk`. -/
structure SpiceChunk where
  data : Option UInt64
  len : UInt32

/-- A `SpiceChunks`. -/
structure SpiceChunks where
  dataSize : UInt32
  flags : UInt32
  chunk : List SpiceChunk

/-- A `SpicePalette`. -/
structure SpicePalette where
  unique : UInt64
  ents : List UInt32

/-- A `SpiceImageDescriptor`. -/
structure SpiceImageDescriptor where
  id : UInt64
  type : UInt8
  flags : UInt8
  width : UInt32
  height : UInt32

/-- A `SpiceBitmap`. -/
structure SpiceBitmap where
  format : UInt8
  flags : UInt8
  x : UInt32
  y : UInt32
  stride : UInt32
  palette : Option SpicePalette
  paletteId : UInt64
  data : Option SpiceChunks

/-- The part of a `SpiceImage` that depends on its type. -/
inductive ImageContent
  | bitmap (bitmap : SpiceBitmap)
  | surface (surfaceId : UInt32)
  | quic (dataSize : UInt32) (data : SpiceChunks)

/-- A `SpiceImage`. -/
structure SpiceImage where
  descriptor : SpiceImageDescriptor
  content : ImageContent

/-- What is read of the memory of the guest for an image.  The flags of the descriptor are read
twice. -/
structure GuestImage where
  id : UInt64
  type : UInt8
  flags : UInt8
  flagsAgain : UInt8
  width : UInt32
  height : UInt32
  format : UInt8
  bitmapFlags : UInt8
  x : UInt32
  y : UInt32
  stride : UInt32
  palette : UInt64
  data : UInt64
  paletteUnique : UInt64
  paletteNumEnts : UInt16
  paletteEnts : Nat -> UInt32
  surfaceId : UInt32
  quicDataSize : UInt32
  chunks : GuestMemory

/-- How `red_get_image` ends: with an image or `NULL`, with a failed assertion, or stopped, by `spice_critical`
or by something that is not defined. -/
inductive ImageResult
  | returned (red : Option SpiceImage) (heap : Heap)
  | aborted
  | stopped

/-- `sizeof(QXLImage)`. -/
def qxlImageSize : UInt32 := 48

/-- Where the chunk of a QUIC image is. -/
def qxlQuicOffset : UInt64 := 22

/-- `sizeof(QXLPalette)`, which is where its entries start. -/
def qxlPaletteSize : UInt32 := 10

def bitmapFmtIsRgb (format : UInt8) : Bool := 6 ≤ format && format < 11

def mapBitmapFmtToBitsPerPixel : List Nat := [0, 1, 1, 4, 4, 8, 16, 24, 32, 32, 8]

def bitmapConsistent (format : UInt8) (x stride : UInt32) : Bool :=
  match mapBitmapFmtToBitsPerPixel[format.toNat]? with
  | none => false
  | some bpp => (x.toNat * bpp + 7) / 8 ≤ stride.toNat

def color16To32 (color : UInt32) : UInt32 :=
  (((color &&& 0x001f) <<< 3) ||| ((color &&& 0x001c) >>> 2)) |||
    (((color &&& 0x03e0) <<< 6) ||| ((color &&& 0x0380) <<< 1)) |||
      (((color &&& 0x7c00) <<< 9) ||| ((color &&& 0x7000) <<< 4))

def GuestImage.descriptor (guest : GuestImage) : SpiceImageDescriptor where
  id := guest.id
  type := guest.type
  flags :=
    (if guest.flags &&& 2 ≠ 0 then 2 else 0) ||| (if guest.flagsAgain &&& 1 ≠ 0 then 1 else 0)
  width := guest.width
  height := guest.height

/-- What stands after `error:`. -/
def errorExit (heap : Heap) (palette : Option SpicePalette) : ImageResult :=
  .returned none ((heap.free [.image]).free (if palette.isSome then [.palette] else []))

inductive PaletteResult
  | found (palette : Option SpicePalette)
  | refused
  | stopped

/-- `red_get_image_data_flat`, with `get_virt` done.  When the address is refused the chunks are
not freed. -/
def redGetImageDataFlat (translation : Translation) (size : Nat) (heap : Heap) : Option (Option SpiceChunks × Heap) :=
  match translation with
  | .undefined | .aborted => none
  | .error => some (none, heap.alloc [.chunks])
  | .virt address =>
      some
        (some { dataSize := .ofNat size, flags := 0, chunk := [⟨some address, .ofNat size⟩] }, heap.alloc [.chunks])

def redGetImageDataChunked (gathered : Gathered) : SpiceChunks where
  dataSize := (gathered.head :: gathered.next).foldl (fun size chunk => size + chunk.dataSize) 0
  flags := 0
  chunk := (gathered.head :: gathered.next).map fun chunk => ⟨chunk.data, chunk.dataSize⟩

section GetImage

variable (info : RedMemSlotInfo) (groupId : Int32) (guest : GuestImage)

def redGetPalette (flags : UInt32) : PaletteResult :=
  if guest.palette = 0 then .found none
  else
    match info.getMemslotId guest.palette, info.getVirt guest.palette qxlPaletteSize groupId with
    | _, .error => .refused
    | some slotId, .virt qp =>
        match validateChunk info groupId (qp + qxlPaletteSize.toUInt64) slotId
          (.ofNat (guest.paletteNumEnts.toNat * 4)) with
        | none | some .aborted => .stopped
        | some .refused => .refused
        | some .valid =>
            .found
              (some
                { unique := guest.paletteUnique
                  ents :=
                    (List.range guest.paletteNumEnts.toNat).map fun index =>
                      -- `QXL_COMMAND_FLAG_COMPAT_16BPP`
                      if flags &&& 2 ≠ 0 then color16To32 (guest.paletteEnts index) else guest.paletteEnts index })
    | _, _ => .stopped

/-- The nodes of the chunks at an address: `red_get_data_chunks`, where `none` stands for an
address that is refused. -/
def redGetDataChunksNodes (addr : UInt64) : Option (Option NodeRun) :=
  match info.getMemslotId addr, info.getVirt addr qxlDataChunkSize groupId with
  | _, .error => some none
  | some slotId, .virt qxl => (redGetDataChunksPtrNodes info groupId guest.chunks slotId qxl).map some
  | _, _ => none

/-- A bitmap with its data, and the flag for data that may change. -/
def bitmapImage (palette : Option SpicePalette) (data : Option SpiceChunks) : SpiceImage where
  descriptor := guest.descriptor
  content :=
    .bitmap
      { format := guest.format
        flags := if guest.bitmapFlags &&& 4 ≠ 0 then 4 else 0
        x := guest.x
        y := guest.y
        stride := guest.stride
        palette := palette
        paletteId := (palette.map SpicePalette.unique).getD 0
        data :=
          if guest.bitmapFlags &&& 2 ≠ 0 then data.map fun chunks => { chunks with flags := chunks.flags ||| 1 }
          else data }

def redGetBitmapData (palette : Option SpicePalette) (size : Nat) (heap : Heap) : ImageResult :=
  if guest.bitmapFlags &&& 1 ≠ 0 then
    match redGetImageDataFlat (info.getVirt guest.data (.ofNat size) groupId) size heap with
    | none => .stopped
    | some (data, heap) =>
        -- the flags of the data are changed through its pointer
        if guest.bitmapFlags &&& 2 ≠ 0 ∧ data.isNone then .stopped
        else .returned (some (bitmapImage guest palette data)) heap
  else
    match redGetDataChunksNodes info groupId guest guest.data with
    | none => .stopped
    | some none =>
        -- `spice_assert(size == bitmap_size)`, and then the chunks were never set
        if size ≠ 0 then .aborted else .stopped
    | some (some nodes) =>
        if nodes.gathered.size ≠ size then .aborted
        else
          .returned (some (bitmapImage guest palette (some (redGetImageDataChunked nodes.gathered))))
            (redPutDataChunks ((heap.gather nodes).alloc [.chunks]) nodes.gathered)

def redGetBitmap (flags : UInt32) (isMask : Bool) (heap : Heap) : ImageResult :=
  if bitmapFmtIsRgb guest.format = false ∧ guest.palette = 0 ∧ isMask = false then errorExit heap none
  else if guest.x = 0 ∨ guest.y = 0 then errorExit heap none
  else if bitmapConsistent guest.format guest.x guest.stride = false then errorExit heap none
  else
    match redGetPalette info groupId guest flags with
    | .stopped => .stopped
    | .refused => errorExit heap none
    | .found palette =>
        let heap := heap.alloc (if palette.isSome then [.palette] else [])
        let size := guest.y.toNat * guest.stride.toNat
        if maxDataChunk < size then errorExit heap palette else redGetBitmapData info groupId guest palette size heap

def redGetQuic (addr qxl : UInt64) (heap : Heap) : ImageResult :=
  match (info.getMemslotId addr).bind fun slotId =>
    redGetDataChunksPtrNodes info groupId guest.chunks slotId (qxl + qxlQuicOffset) with
  | none => .stopped
  | some nodes =>
      -- `spice_assert(size == red->u.quic.data_size)`
      if nodes.gathered.size ≠ guest.quicDataSize.toNat then .aborted
      else
        .returned (some ⟨guest.descriptor, .quic guest.quicDataSize (redGetImageDataChunked nodes.gathered)⟩)
          (redPutDataChunks ((heap.gather nodes).alloc [.chunks]) nodes.gathered)

def redGetImage (addr : UInt64) (flags : UInt32) (isMask : Bool) : ImageResult :=
  if addr = 0 then .returned none .empty
  else
    match info.getVirt addr qxlImageSize groupId with
    | .undefined | .aborted => .stopped
    | .error => .returned none .empty
    | .virt qxl =>
        let heap := Heap.empty.alloc [.image]
        if guest.type = 0 then redGetBitmap info groupId guest flags isMask heap
        else if guest.type = 104 then .returned (some ⟨guest.descriptor, .surface guest.surfaceId⟩) heap
        else if guest.type = 1 then redGetQuic info groupId guest addr qxl heap
        else errorExit heap none

end GetImage

/-! ## Surfaces -/

/-- What is read of the memory of the guest for a surface command. -/
structure GuestSurfaceCmd where
  surfaceId : UInt32
  type : UInt8
  flags : UInt32
  format : UInt32
  width : UInt32
  height : UInt32
  stride : Int32
  data : UInt64

/-- `sizeof(QXLSurfaceCmd)`. -/
def qxlSurfaceCmdSize : UInt32 := 49

def surfaceFormatToBpp (format : UInt32) : Nat :=
  if format = 1 then 1
  else if format = 8 then 8
  else if format = 16 ∨ format = 80 then 16
  else if format = 32 ∨ format = 96 then 32
  else 0

def InsideSlot (info : RedMemSlotInfo) (groupId : Int32) (address : UInt64) (size : Nat) : Prop :=
  Exists fun slotId => Exists fun slot => info.slotAt groupId slotId = some slot ∧
    slot.virtStartAddr.toNat ≤ address.toNat ∧ address.toNat + size ≤ slot.virtEndAddr.toNat

/-- The chunks hold that many bytes, each in the memory of the guest. -/
structure SpiceChunks.Holds (info : RedMemSlotInfo) (groupId : Int32) (chunks : SpiceChunks) (size : Nat) : Prop where
  total : chunks.dataSize.toNat = size
  sum : (chunks.chunk.map fun chunk => chunk.len.toNat).sum = size
  inside : forall chunk, chunk ∈ chunks.chunk -> chunk.len ≠ 0 ->
    Exists fun address => chunk.data = some address ∧ InsideSlot info groupId address chunk.len.toNat

structure SpiceBitmap.Consistent (info : RedMemSlotInfo) (groupId : Int32) (isMask : Bool)
    (bitmap : SpiceBitmap) : Prop where
  data : Exists fun chunks => bitmap.data = some chunks ∧
    chunks.Holds info groupId (bitmap.y.toNat * bitmap.stride.toNat)
  stride : Exists fun bpp => mapBitmapFmtToBitsPerPixel[bitmap.format.toNat]? = some bpp ∧
    bitmap.x.toNat * bpp ≤ 8 * bitmap.stride.toNat
  palette : bitmapFmtIsRgb bitmap.format = true ∨ isMask = true ∨ bitmap.palette.isSome = true

def SpiceImage.Consistent (info : RedMemSlotInfo) (groupId : Int32) (isMask : Bool) (image : SpiceImage) : Prop :=
  match image.content with
  | .bitmap bitmap => bitmap.Consistent info groupId isMask
  | .surface _ => True
  | .quic dataSize data => data.Holds info groupId dataSize.toNat

/-- What `red_put_image` frees. -/
def SpiceImage.owned (image : SpiceImage) : List HeapObject :=
  match image.content with
  | .bitmap bitmap =>
      [.image] ++ (if bitmap.palette.isSome then [.palette] else []) ++ (if bitmap.data.isSome then [.chunks] else [])
  | .surface _ => [.image]
  | .quic _ _ => [.image, .chunks]

/-- An image that is returned is consistent, nothing else but `NULL` is returned, and what was
allocated belongs to the image or is freed. -/
def ImageResult.Contained (info : RedMemSlotInfo) (groupId : Int32) (isMask : Bool) : ImageResult -> Prop
  | .returned none heap => heap.Balanced []
  | .returned (some image) heap => image.Consistent info groupId isMask ∧ heap.Balanced image.owned
  | .aborted => False
  | .stopped => False

/-- The list of the guest ends, and has so many bytes; if that is none, it may also be refused where `spice_critical`
does not abort, unless its first chunk says that it has some. -/
def ListGives (info : RedMemSlotInfo) (groupId : Int32) (memory : GuestMemory) (slotId : Int32) (qxl : UInt64)
    (size : Nat) : Prop :=
  Exists fun slot => info.slotAt groupId slotId = some slot ∧
    if slot.covers (qxl + qxlDataChunkSize.toUInt64) (memory.dataSize 0 qxl) = true then
      (forall place, Relation.ReflTransGen (Link info groupId memory) ⟨0, qxl, (memory.dataSize 0 qxl).toNat⟩ place ->
        place.LookedUp info groupId memory ∧ (memory.nextChunk place.links place.qxl = 0 -> place.total = size)) ∧
      (size ≠ 0 -> Exists fun place =>
        Relation.ReflTransGen (Link info groupId memory) ⟨0, qxl, (memory.dataSize 0 qxl).toNat⟩ place ∧
          memory.nextChunk place.links place.qxl = 0)
    else info.aborts = false ∧ size = 0 ∧ memory.dataSize 0 qxl = 0

section Fits

variable (info : RedMemSlotInfo) (groupId : Int32) (guest : GuestImage)

/-- The data of a bitmap has its size: direct data is in its slot, and a list gives so many bytes. -/
def DataFits : Prop :=
  if guest.bitmapFlags &&& 1 ≠ 0 then
    Exists fun address =>
      info.getVirt guest.data (.ofNat (guest.y.toNat * guest.stride.toNat)) groupId = .virt address
  else
    Exists fun slotId => Exists fun qxl => info.getMemslotId guest.data = some slotId ∧
      info.getVirt guest.data qxlDataChunkSize groupId = .virt qxl ∧
        ListGives info groupId guest.chunks slotId qxl (guest.y.toNat * guest.stride.toNat)

/-- When a surface is contained: every lookup is answered. -/
def SurfaceFits (guest : GuestSurfaceCmd) (addr : UInt64) : Prop :=
  Answered info addr qxlSurfaceCmdSize groupId ∧ forall qxl, info.getVirt addr qxlSurfaceCmdSize groupId = .virt qxl ->
    guest.type = 0 ->
    surfaceFormatToBpp guest.format ≠ 0 -> guest.stride ≠ Int32.minValue ->
      (guest.width.toNat * surfaceFormatToBpp guest.format + 7) / 8 ≤ guest.stride.toInt.natAbs ->
        guest.height.toNat * guest.stride.toInt.natAbs ≤ maxDataChunk ->
          Answered info guest.data (.ofNat (guest.height.toNat * guest.stride.toInt.natAbs)) groupId

end Fits

/-! ## Following the links -/

section Follow

variable {info : RedMemSlotInfo} {groupId : Int32} {memory : GuestMemory}

/-- With its nodes the list is followed as without them. -/
theorem followNodes_gathered (head : RedDataChunk) (left links : Nat) (qxl : UInt64) (total : Nat)
    (recorded : List RedDataChunk) :
    (followNodes info groupId memory head left links qxl total recorded).map NodeRun.gathered =
      followChunks info groupId memory head left links qxl total recorded := by
  induction left generalizing links qxl total recorded with
  | zero =>
      unfold followNodes followChunks
      split <;> rfl
  | succ left ih =>
      unfold followNodes followChunks
      by_cases ended : memory.nextChunk links qxl = 0
      · rw [if_pos ended, if_pos ended]
        rfl
      · rw [if_neg ended, if_neg ended]
        dsimp only
        cases info.getVirt (memory.nextChunk links qxl) qxlDataChunkSize groupId with
        | undefined => cases info.getMemslotId (memory.nextChunk links qxl) <;> rfl
        | aborted => cases info.getMemslotId (memory.nextChunk links qxl) <;> rfl
        | error => cases info.getMemslotId (memory.nextChunk links qxl) <;> rfl
        | virt chunk =>
            cases info.getMemslotId (memory.nextChunk links qxl) with
            | none => rfl
            | some slotId =>
                dsimp only
                by_cases isEmpty : memory.dataSize (links + 1) chunk = 0
                · rw [if_pos isEmpty, if_pos isEmpty]
                  exact ih _ _ _ _
                · rw [if_neg isEmpty, if_neg isEmpty]
                  by_cases large : maxDataChunk < total + (memory.dataSize (links + 1) chunk).toNat
                  · rw [if_pos large, if_pos large]
                    rfl
                  · rw [if_neg large, if_neg large]
                    cases validateChunk info groupId (chunk + qxlDataChunkSize.toUInt64) slotId
                        (memory.dataSize (links + 1) chunk) with
                    | none => rfl
                    | some validity =>
                        cases validity with
                        | valid => exact ih _ _ _ _
                        | refused => rfl
                        | aborted => rfl

theorem redGetDataChunksPtrNodes_gathered (memslotId : Int32) (qxl : UInt64) :
    (redGetDataChunksPtrNodes info groupId memory memslotId qxl).map NodeRun.gathered =
      redGetDataChunksPtr info groupId memory memslotId qxl := by
  unfold redGetDataChunksPtrNodes redGetDataChunksPtr
  dsimp only
  cases validateChunk info groupId (qxl + qxlDataChunkSize.toUInt64) memslotId (memory.dataSize 0 qxl) with
  | none => rfl
  | some validity =>
      cases validity with
      | valid => exact followNodes_gathered _ _ _ _ _ _
      | refused => rfl
      | aborted => rfl

/-- The list ended: all nodes are linked, and their data is in its slots. -/
structure NodeRun.Complete (info : RedMemSlotInfo) (groupId : Int32) (memory : GuestMemory) (place : Place)
    (nodes : NodeRun) : Prop where
  made : nodes.made = nodes.gathered.next.length
  freed : nodes.freed = []
  inside : forall chunk, chunk ∈ nodes.gathered.head :: nodes.gathered.next -> chunk.Inside info groupId
  size : nodes.gathered.size = sizesOf (nodes.gathered.head :: nodes.gathered.next)
  lookedUp : forall reached, Relation.ReflTransGen (Link info groupId memory) place reached ->
    reached.LookedUp info groupId memory
  ends : Exists fun reached => Relation.ReflTransGen (Link info groupId memory) place reached ∧
    memory.nextChunk reached.links reached.qxl = 0
  total : forall reached, Relation.ReflTransGen (Link info groupId memory) place reached ->
    memory.nextChunk reached.links reached.qxl = 0 -> reached.total = nodes.gathered.size

/-- The list was refused: all nodes are freed, and nothing is left of it. -/
structure NodeRun.Refused (info : RedMemSlotInfo) (groupId : Int32) (memory : GuestMemory) (place : Place)
    (nodes : NodeRun) : Prop where
  freed : nodes.freed = (List.range nodes.made).reverse
  size : nodes.gathered.size = 0
  head : nodes.gathered.head.dataSize = 0
  next : nodes.gathered.next = []
  lookedUp : forall reached, Relation.ReflTransGen (Link info groupId memory) place reached ->
    reached.LookedUp info groupId memory
  endless : forall reached, Relation.ReflTransGen (Link info groupId memory) place reached ->
    memory.nextChunk reached.links reached.qxl ≠ 0

/-- How a run from a place on ends. -/
def Followed (info : RedMemSlotInfo) (groupId : Int32) (memory : GuestMemory) (place : Place) : Option NodeRun -> Prop
  | none => Exists fun reached => Relation.ReflTransGen (Link info groupId memory) place reached ∧
      ¬ reached.LookedUp info groupId memory
  | some nodes => nodes.Complete info groupId memory place ∨ nodes.Refused info groupId memory place

theorem reached_of_stuck {place reached : Place} (stuck : forall next, ¬ Link info groupId memory place next)
    (path : Relation.ReflTransGen (Link info groupId memory) place reached) : reached = place := by
  rcases Relation.ReflTransGen.cases_head path with same | ⟨next, link, _⟩
  · exact same.symm
  · exact absurd link (stuck next)

theorem reached_of_link {place next reached : Place}
    (only : forall other, Link info groupId memory place other -> other = next)
    (path : Relation.ReflTransGen (Link info groupId memory) place reached) :
    reached = place ∨ Relation.ReflTransGen (Link info groupId memory) next reached := by
  rcases Relation.ReflTransGen.cases_head path with same | ⟨other, link, rest⟩
  · exact Or.inl same.symm
  · rw [only other link] at rest
    exact Or.inr rest

variable {place : Place}

theorem Followed.refused (head : RedDataChunk) (links made : Nat)
    (stuck : forall next, ¬ Link info groupId memory place next) (lookedUp : place.LookedUp info groupId memory)
    (more : memory.nextChunk place.links place.qxl ≠ 0) :
    Followed info groupId memory place (some (.error head links made)) := by
  refine Or.inr ⟨rfl, rfl, rfl, rfl, fun reached path => ?_, fun reached path => ?_⟩
  · rw [reached_of_stuck stuck path]
    exact lookedUp
  · rw [reached_of_stuck stuck path]
    exact more

/-- A chunk more is followed. -/
theorem Followed.link {place next : Place} {result : Option NodeRun} (link : Link info groupId memory place next)
    (only : forall other, Link info groupId memory place other -> other = next)
    (lookedUp : place.LookedUp info groupId memory) (followed : Followed info groupId memory next result) :
    Followed info groupId memory place result := by
  have more := link.more.1
  cases result with
  | none =>
      obtain ⟨reached, path, notLookedUp⟩ := followed
      exact ⟨reached, Relation.ReflTransGen.head link path, notLookedUp⟩
  | some nodes =>
      have lookedUps : (forall reached, Relation.ReflTransGen (Link info groupId memory) next reached ->
          reached.LookedUp info groupId memory) -> forall reached,
            Relation.ReflTransGen (Link info groupId memory) place reached -> reached.LookedUp info groupId memory := by
        intro later reached path
        rcases reached_of_link only path with rfl | rest
        · exact lookedUp
        · exact later reached rest
      rcases followed with complete | refused
      · obtain ⟨reached, path, ended⟩ := complete.ends
        refine Or.inl ⟨complete.made, complete.freed, complete.inside, complete.size, lookedUps complete.lookedUp,
          ⟨reached, Relation.ReflTransGen.head link path, ended⟩, fun other otherPath isEnd => ?_⟩
        rcases reached_of_link only otherPath with rfl | rest
        · exact absurd isEnd more
        · exact complete.total other rest isEnd
      · refine Or.inr ⟨refused.freed, refused.size, refused.head, refused.next, lookedUps refused.lookedUp,
          fun reached path => ?_⟩
        rcases reached_of_link only path with rfl | rest
        · exact more
        · exact refused.endless reached rest

/-- The list ends where no chunk follows. -/
theorem followNodes_ended {head : RedDataChunk} {next : List RedDataChunk} (left : Nat)
    (recorded : Recorded info groupId place head next) (ended : memory.nextChunk place.links place.qxl = 0) :
    Followed info groupId memory place
      (followNodes info groupId memory head left place.links place.qxl place.total next) := by
  have stuck : forall other, ¬ Link info groupId memory place other := fun other link => link.more.1 ended
  have isDone : followNodes info groupId memory head left place.links place.qxl place.total next =
      some
        { gathered := { failed := false, size := place.total, head := head, next := next, links := place.links }
          made := next.length
          freed := [] } := by
    cases left with
    | zero =>
        unfold followNodes
        rw [if_pos ended]
    | succ left =>
        unfold followNodes
        rw [if_pos ended]
  rw [isDone]
  refine Or.inl ⟨rfl, rfl, recorded.inside, recorded.size, fun reached path => ?_,
    ⟨place, Relation.ReflTransGen.refl, ended⟩, fun reached path _ => ?_⟩
  · rw [reached_of_stuck stuck path]
    exact fun more => absurd ended more
  · rw [reached_of_stuck stuck path]

/-- How the loop ends from any place that it reaches. -/
theorem followNodes_spec (built : Built info) {head : RedDataChunk} {next : List RedDataChunk} {left : Nat}
    (recorded : Recorded info groupId place head next) (budget : left + place.links + 1 = maxChunks) :
    Followed info groupId memory place
      (followNodes info groupId memory head left place.links place.qxl place.total next) := by
  induction left generalizing place next with
  | zero =>
      by_cases ended : memory.nextChunk place.links place.qxl = 0
      · exact followNodes_ended 0 recorded ended
      · unfold followNodes
        rw [if_neg ended]
        apply Followed.refused
        · intro other link
          have few := link.more.2
          omega
        · intro _ few
          omega
        · exact ended
  | succ left ih =>
      by_cases ended : memory.nextChunk place.links place.qxl = 0
      · exact followNodes_ended (left + 1) recorded ended
      · have few : place.links + 1 < maxChunks := by omega
        unfold followNodes
        rw [if_neg ended]
        dsimp only
        cases found : info.getVirt (memory.nextChunk place.links place.qxl) qxlDataChunkSize groupId with
        | undefined =>
            have outside : Followed info groupId memory place none :=
              ⟨place, Relation.ReflTransGen.refl,
                fun lookedUp => built.not_answered (.inl found) (lookedUp ended few).1⟩
            cases info.getMemslotId (memory.nextChunk place.links place.qxl) <;> exact outside
        | aborted =>
            have stopped : Followed info groupId memory place none :=
              ⟨place, Relation.ReflTransGen.refl,
                fun lookedUp => built.not_answered (.inr found) (lookedUp ended few).1⟩
            cases info.getMemslotId (memory.nextChunk place.links place.qxl) <;> exact stopped
        | error =>
            have refused : Followed info groupId memory place (some (.error head (place.links + 1) next.length)) := by
              apply Followed.refused
              · intro other link
                obtain ⟨chunk, isChunk⟩ := link.found
                cases isChunk.symm.trans found
              · exact fun _ _ => ⟨built.answered_of_error found,
                  fun _ chunk _ _ isChunk => (by cases isChunk.symm.trans found)⟩
              · exact ended
            cases info.getMemslotId (memory.nextChunk place.links place.qxl) <;> exact refused
        | virt chunk =>
            obtain ⟨slotId, slot, isId, isSlot⟩ := info.slot_of_getVirt found
            have lookedUp := built.lookedUp_of_virt found isId isSlot
            rw [isId]
            dsimp only
            by_cases isEmpty : memory.dataSize (place.links + 1) chunk = 0
            · rw [if_pos isEmpty]
              have link := Link.empty ended few found isEmpty
              have only (other : Place) (otherLink : Link info groupId memory place other) :
                  other = ⟨place.links + 1, chunk, place.total⟩ := by
                rw [otherLink.next_eq found, isEmpty]
                rfl
              exact Followed.link link only (lookedUp fun _ some_ => absurd isEmpty some_)
                (ih (recorded.empty few chunk) (by dsimp only; omega))
            · rw [if_neg isEmpty]
              have passed (other : Place) (link : Link info groupId memory place other) :=
                link.passed found isEmpty isId isSlot
              by_cases large : maxDataChunk < place.total + (memory.dataSize (place.links + 1) chunk).toNat
              · rw [if_pos large]
                exact Followed.refused head _ _ (fun other link => Nat.not_lt.mpr (passed other link).1 large)
                  (lookedUp fun _ _ small => absurd large (Nat.not_lt.mpr small)) ended
              · rw [if_neg large]
                unfold validateChunk
                rw [isSlot, Option.map_some]
                cases covers : slot.covers (chunk + qxlDataChunkSize.toUInt64)
                  (memory.dataSize (place.links + 1) chunk) with
                | true =>
                    have link := Link.data ended few found isEmpty (Nat.not_lt.mp large) isId isSlot covers
                    rw [validateVirt_of_covers _ covers]
                    exact Followed.link link (fun other otherLink => otherLink.next_eq found)
                      (lookedUp fun _ _ _ => covers)
                      (ih (recorded.data few isSlot covers) (by dsimp only; omega))
                | false =>
                    rw [validateVirt_of_not_covers _ covers]
                    cases aborts : info.aborts with
                    | true =>
                        refine ⟨place, Relation.ReflTransGen.refl, fun looked => ?_⟩
                        have known := (looked ended few).2 aborts chunk slotId slot found isId isSlot isEmpty
                            (Nat.not_lt.mp large)
                        cases covers.symm.trans known
                    | false =>
                        refine Followed.refused head _ _ (fun other link => ?_)
                          (lookedUp fun impossible => (by cases aborts.symm.trans impossible)) ended
                        cases (passed other link).2.symm.trans covers

/-- What the nodes of a run leave: they are all linked, or all freed. -/
def NodeRun.Kept (nodes : NodeRun) : Prop :=
  (nodes.freed = [] ∧ nodes.made = nodes.gathered.next.length) ∨
    (nodes.freed = (List.range nodes.made).reverse ∧ nodes.gathered.next = [])

/-- The chunks of a run have so many bytes, in the memory of the guest. -/
structure NodeRun.Gives (info : RedMemSlotInfo) (groupId : Int32) (nodes : NodeRun) (size : Nat) : Prop where
  gathers : nodes.gathered.size = size
  sum : sizesOf (nodes.gathered.head :: nodes.gathered.next) = size
  inside : forall chunk, chunk ∈ nodes.gathered.head :: nodes.gathered.next -> chunk.dataSize ≠ 0 ->
    Exists fun address => chunk.data = some address ∧ InsideSlot info groupId address chunk.dataSize.toNat

theorem RedDataChunk.Inside.insideSlot {chunk : RedDataChunk} (inside : chunk.Inside info groupId) :
    Exists fun address => chunk.data = some address ∧ InsideSlot info groupId address chunk.dataSize.toNat := by
  obtain ⟨address, slot, isData, isSlot, bounds⟩ := inside
  exact ⟨address, isData, chunk.slotId, slot, isSlot, bounds⟩

theorem NodeRun.Complete.kept {nodes : NodeRun} (complete : nodes.Complete info groupId memory place) :
    nodes.Kept := Or.inl ⟨complete.freed, complete.made⟩

theorem NodeRun.Refused.kept {nodes : NodeRun} (refused : nodes.Refused info groupId memory place) :
    nodes.Kept := Or.inr ⟨refused.freed, refused.next⟩

theorem NodeRun.Refused.gives {nodes : NodeRun} (refused : nodes.Refused info groupId memory place) :
    nodes.Gives info groupId 0 := by
  refine ⟨refused.size, ?_, fun chunk member some => ?_⟩
  · rw [refused.next]
    unfold sizesOf
    rw [List.map_cons, List.map_nil, List.sum_cons, refused.head]
    rfl
  · rw [refused.next] at member
    rw [List.mem_singleton.mp member, refused.head] at some
    exact absurd rfl some

/-- A chunk in its slot is followed. -/
theorem followed_of_valid (built : Built info) {slotId : Int32} {qxl : UInt64} {slot : MemSlot}
    (isSlot : info.slotAt groupId slotId = some slot)
    (covers : slot.covers (qxl + qxlDataChunkSize.toUInt64) (memory.dataSize 0 qxl) = true) :
    Followed info groupId memory ⟨0, qxl, (memory.dataSize 0 qxl).toNat⟩
      (redGetDataChunksPtrNodes info groupId memory slotId qxl) := by
  have positive : 0 < maxChunks := by decide
  have budget : maxChunks - 1 + 0 + 1 = maxChunks := by decide
  have recorded : Recorded info groupId ⟨0, qxl, (memory.dataSize 0 qxl).toNat⟩
      ⟨memory.dataSize 0 qxl, some (qxl + qxlDataChunkSize.toUInt64), slotId⟩ [] := by
    refine ⟨positive, fun chunk member => ?_, (Nat.add_zero _).symm⟩
    rw [List.mem_singleton.mp member]
    exact ⟨_, slot, rfl, isSlot, (slot.covers_iff _ _).mp covers⟩
  unfold redGetDataChunksPtrNodes validateChunk
  rw [isSlot, Option.map_some, validateVirt_of_covers _ covers]
  exact followNodes_spec built recorded budget

/-- A run gives a number of bytes exactly if the list of the guest does, and it keeps its nodes. -/
theorem gives_iff (built : Built info) (slotId : Int32) (qxl : UInt64) (size : Nat) :
    (Exists fun nodes => redGetDataChunksPtrNodes info groupId memory slotId qxl = some nodes ∧
      nodes.Gives info groupId size ∧ nodes.Kept) <-> ListGives info groupId memory slotId qxl size := by
  unfold ListGives
  cases isSlot : info.slotAt groupId slotId with
  | none =>
      constructor
      · rintro ⟨nodes, isNodes, _⟩
        unfold redGetDataChunksPtrNodes validateChunk at isNodes
        rw [isSlot] at isNodes
        cases isNodes
      · rintro ⟨slot, isNone, _⟩
        cases isNone
  | some slot =>
      cases covers : slot.covers (qxl + qxlDataChunkSize.toUInt64) (memory.dataSize 0 qxl) with
      | false =>
          have unfolded : redGetDataChunksPtrNodes info groupId memory slotId qxl =
              if info.aborts then none
              else
                some
                  { gathered :=
                      { failed := true, size := 0, head := ⟨memory.dataSize 0 qxl, none,
                        slotId⟩, next := [], links := 0 }
                    made := 0
                    freed := [] } := by
            unfold redGetDataChunksPtrNodes validateChunk
            rw [isSlot, Option.map_some, validateVirt_of_not_covers _ covers]
            cases info.aborts <;> rfl
          rw [unfolded]
          constructor
          · rintro ⟨nodes, isNodes, gives, _⟩
            split_ifs at isNodes with aborts
            cases isNodes
            have noSize : 0 = size := gives.gathers
            refine ⟨slot, rfl, ?_⟩
            rw [covers, if_neg (by decide)]
            refine ⟨eq_false_of_ne_true aborts, noSize.symm, ?_⟩
            have sum : (memory.dataSize 0 qxl).toNat + 0 = size := gives.sum
            exact UInt32.toNat_inj.mp (show (memory.dataSize 0 qxl).toNat = (0 : UInt32).toNat by
              rw [UInt32.toNat_zero]
              omega)
          · rintro ⟨other, same, gives⟩
            cases same
            rw [covers, if_neg (by decide)] at gives
            obtain ⟨goesOn, noSize, noData⟩ := gives
            rw [goesOn]
            refine ⟨_, rfl, ⟨noSize.symm, ?_, fun chunk member some => ?_⟩, Or.inl ⟨rfl, rfl⟩⟩
            · rw [noSize]
              show (memory.dataSize 0 qxl).toNat + 0 = 0
              rw [noData]
              rfl
            · rw [List.mem_singleton.mp member] at some
              exact absurd noData some
      | true =>
          have followed := followed_of_valid built isSlot covers
          constructor
          · rintro ⟨nodes, isNodes, gives, _⟩
            rw [isNodes] at followed
            refine ⟨slot, rfl, ?_⟩
            rw [covers, if_pos rfl]
            rcases followed with complete | refused
            · refine ⟨fun place path => ⟨complete.lookedUp place path, fun ended => ?_⟩, fun _ => complete.ends⟩
              rw [complete.total place path ended]
              exact gives.gathers
            · refine ⟨fun place path => ⟨refused.lookedUp place path,
                fun ended => absurd ended (refused.endless place path)⟩,
                fun some => ?_⟩
              exact absurd (gives.gathers.symm.trans refused.size) some
          · rintro ⟨other, same, gives⟩
            cases same
            rw [covers, if_pos rfl] at gives
            obtain ⟨all, ends⟩ := gives
            cases isNodes : redGetDataChunksPtrNodes info groupId memory slotId qxl with
            | none =>
                rw [isNodes] at followed
                obtain ⟨reached, path, notLookedUp⟩ := followed
                exact absurd (all reached path).1 notLookedUp
            | some nodes =>
                rw [isNodes] at followed
                refine ⟨nodes, rfl, ?_⟩
                rcases followed with complete | refused
                · obtain ⟨reached, path, ended⟩ := complete.ends
                  have isSize : nodes.gathered.size = size :=
                    (complete.total reached path ended).symm.trans ((all reached path).2 ended)
                  exact ⟨⟨isSize, complete.size.symm.trans isSize,
                    fun chunk member _ => (complete.inside chunk member).insideSlot⟩,
                    complete.kept⟩
                · have noSize : size = 0 := by
                    by_contra some
                    obtain ⟨reached, path, ended⟩ := ends some
                    exact refused.endless reached path ended
                  rw [noSize]
                  exact ⟨refused.gives, refused.kept⟩

/-- The chunks hold as many bytes as they say. -/
theorem holds_iff {nodes : NodeRun} {size : Nat} (gathers : nodes.gathered.size = size) (small : size < 2 ^ 32) :
    (redGetImageDataChunked nodes.gathered).Holds info groupId size <-> nodes.Gives info groupId size := by
  have total : forall (chunks : List RedDataChunk) (start : UInt32),
      (chunks.foldl (fun size chunk => size + chunk.dataSize) start).toNat =
        (start.toNat + sizesOf chunks) % 2 ^ 32 := by
    intro chunks
    induction chunks with
    | nil =>
        intro start
        exact (Nat.mod_eq_of_lt start.toNat_lt).symm
    | cons chunk rest ih =>
        intro start
        have sum : sizesOf (chunk :: rest) = chunk.dataSize.toNat + sizesOf rest := List.sum_cons
        rw [List.foldl_cons, ih, UInt32.toNat_add, sum, Nat.mod_add_mod, Nat.add_assoc]
  have lens : ((redGetImageDataChunked nodes.gathered).chunk.map fun chunk => chunk.len.toNat).sum =
      sizesOf (nodes.gathered.head :: nodes.gathered.next) := by
    unfold redGetImageDataChunked sizesOf
    rw [List.map_map]
    rfl
  constructor
  · intro holds
    refine ⟨gathers, lens.symm.trans holds.sum, fun chunk member some => ?_⟩
    exact holds.inside ⟨chunk.data, chunk.dataSize⟩ (List.mem_map_of_mem member) some
  · intro gives
    refine ⟨?_, lens.trans gives.sum, fun chunk member some => ?_⟩
    · unfold redGetImageDataChunked
      rw [total, gives.sum, UInt32.toNat_zero, Nat.zero_add]
      exact Nat.mod_eq_of_lt small
    · obtain ⟨gathered, isMember, rfl⟩ := List.mem_map.mp member
      exact gives.inside gathered isMember some

/-- The nodes that were made are in the list or were freed. -/
theorem nodes_kept (built : Built info) {slotId : Int32} {qxl : UInt64} {nodes : NodeRun}
    (isNodes : redGetDataChunksPtrNodes info groupId memory slotId qxl = some nodes) : nodes.Kept := by
  cases isSlot : info.slotAt groupId slotId with
  | none =>
      unfold redGetDataChunksPtrNodes validateChunk at isNodes
      rw [isSlot] at isNodes
      cases isNodes
  | some slot =>
      cases covers : slot.covers (qxl + qxlDataChunkSize.toUInt64) (memory.dataSize 0 qxl) with
      | false =>
          unfold redGetDataChunksPtrNodes validateChunk at isNodes
          rw [isSlot, Option.map_some, validateVirt_of_not_covers _ covers] at isNodes
          cases aborts : info.aborts with
          | true =>
              rw [aborts] at isNodes
              cases isNodes
          | false =>
              rw [aborts] at isNodes
              cases isNodes
              exact Or.inl ⟨rfl, rfl⟩
      | true =>
          have followed := followed_of_valid built isSlot covers
          rw [isNodes] at followed
          rcases followed with complete | refused
          · exact complete.kept
          · exact refused.kept

end Follow

/-! ## What is allocated is freed or owned -/

/-- No object is allocated twice. -/
theorem nodup_objects {base : List HeapObject} (nodup : base.Nodup)
    (apart : forall object, object ∈ base -> object = .image ∨ object = .palette) (made : Nat) :
    (base ++ (List.range made).map HeapObject.node ++ [HeapObject.chunks]).Nodup := by
  rw [List.nodup_append, List.nodup_append]
  refine ⟨⟨nodup, ?_, fun object inBase other inNodes => ?_⟩, List.nodup_singleton _,
    fun object inFirst other inLast => ?_⟩
  · refine List.Nodup.map (fun first second same => ?_) List.nodup_range
    cases same
    rfl
  · obtain ⟨index, _, rfl⟩ := List.mem_map.mp inNodes
    rcases apart object inBase with rfl | rfl <;> exact fun same => by cases same
  · rw [List.mem_singleton.mp inLast]
    rcases List.mem_append.mp inFirst with inBase | inNodes
    · rcases apart object inBase with rfl | rfl <;> exact fun same => by cases same
    · obtain ⟨index, _, rfl⟩ := List.mem_map.mp inNodes
      exact fun same => by cases same

/-- What was allocated for the chunks is freed with them. -/
theorem balanced_gathered {base : List HeapObject} (nodup : base.Nodup)
    (apart : forall object, object ∈ base -> object = .image ∨ object = .palette) {nodes : NodeRun}
    (kept : nodes.Kept) :
    (redPutDataChunks (((⟨base, []⟩ : Heap).gather nodes).alloc [.chunks]) nodes.gathered).Balanced
      (base ++ [.chunks]) := by
  refine ⟨nodup_objects nodup apart nodes.made, ?_⟩
  show (base ++ (List.range nodes.made).map HeapObject.node ++ [HeapObject.chunks]).Perm
    ([] ++ nodes.freed.map HeapObject.node ++ (List.range nodes.gathered.next.length).map HeapObject.node ++
      (base ++ [HeapObject.chunks]))
  have freed : (nodes.freed.map HeapObject.node ++ (List.range nodes.gathered.next.length).map HeapObject.node).Perm
      ((List.range nodes.made).map HeapObject.node) := by
    rcases kept with ⟨none, all⟩ | ⟨all, none⟩
    · rw [none, all]
      exact List.Perm.refl _
    · rw [none, all, List.map_reverse, List.length_nil, List.range_zero, List.map_nil, List.append_nil]
      exact List.reverse_perm _
  rw [List.nil_append, ← List.append_assoc]
  exact (List.perm_append_comm.trans (freed.symm.append_right base)).append_right _

theorem balanced_flat {base : List HeapObject} (nodup : base.Nodup)
    (apart : forall object, object ∈ base -> object = .image ∨ object = .palette) :
    ((⟨base, []⟩ : Heap).alloc [.chunks]).Balanced (base ++ [.chunks]) := by
  have all := nodup_objects nodup apart 0
  rw [List.range_zero, List.map_nil, List.append_nil] at all
  exact ⟨all, List.Perm.refl _⟩

def imageObjects (palette : Option SpicePalette) : List HeapObject :=
  [.image] ++ (if palette.isSome then [.palette] else [])

theorem imageObjects_nodup (palette : Option SpicePalette) : (imageObjects palette).Nodup := by
  unfold imageObjects
  split <;> decide

theorem imageObjects_apart (palette : Option SpicePalette) :
    forall object, object ∈ imageObjects palette -> object = .image ∨ object = .palette := by
  unfold imageObjects
  intro object member
  split at member
  · simp only [List.mem_append, List.mem_singleton] at member
    exact member
  · simp only [List.append_nil, List.mem_singleton] at member
    exact Or.inl member

section Contained

variable {info : RedMemSlotInfo} {groupId : Int32}

theorem insideSlot_of_getVirt {addr address : UInt64} {size : UInt32}
    (found : info.getVirt addr size groupId = .virt address) : InsideSlot info groupId address size.toNat := by
  obtain ⟨slotId, slot, by_, same⟩ := acceptedBy_of_virt found
  exact ⟨slotId, slot, by_.isSlot, same ▸ ⟨by_.start, by_.ends⟩⟩

theorem nodes_some_iff (guest : GuestImage) (addr : UInt64) (nodes : NodeRun) :
    redGetDataChunksNodes info groupId guest addr = some (some nodes) <->
      Exists fun slotId => Exists fun qxl => info.getMemslotId addr = some slotId ∧
        info.getVirt addr qxlDataChunkSize groupId = .virt qxl ∧
          redGetDataChunksPtrNodes info groupId guest.chunks slotId qxl = some nodes := by
  unfold redGetDataChunksNodes
  cases info.getVirt addr qxlDataChunkSize groupId with
  | undefined => cases info.getMemslotId addr <;> simp
  | aborted => cases info.getMemslotId addr <;> simp
  | error => cases info.getMemslotId addr <;> simp
  | virt qxl => cases info.getMemslotId addr <;> simp

/-- What the checks before the data say of a bitmap. -/
structure Checked (guest : GuestImage) (isMask : Bool) (palette : Option SpicePalette) : Prop where
  stride : Exists fun bpp => mapBitmapFmtToBitsPerPixel[guest.format.toNat]? = some bpp ∧
    guest.x.toNat * bpp ≤ 8 * guest.stride.toNat
  palette : bitmapFmtIsRgb guest.format = true ∨ isMask = true ∨ palette.isSome = true
  small : guest.y.toNat * guest.stride.toNat ≤ maxDataChunk

variable {guest : GuestImage} {isMask : Bool} {palette : Option SpicePalette}

theorem Checked.below (checked : Checked guest isMask palette) : guest.y.toNat * guest.stride.toNat < 2 ^ 32 :=
  Nat.lt_of_le_of_lt checked.small (by decide)

/-- The chunks of a bitmap, with the flag for data that may change. -/
def flagged (guest : GuestImage) (chunks : SpiceChunks) : SpiceChunks :=
  if guest.bitmapFlags &&& 2 ≠ 0 then { chunks with flags := chunks.flags ||| 1 } else chunks

theorem flagged_holds (chunks : SpiceChunks) (size : Nat) :
    (flagged guest chunks).Holds info groupId size <-> chunks.Holds info groupId size := by
  unfold flagged
  split
  · exact ⟨fun holds => ⟨holds.total, holds.sum, holds.inside⟩, fun holds => ⟨holds.total, holds.sum, holds.inside⟩⟩
  · exact Iff.rfl

/-- The image that is made of the chunks. -/
theorem bitmapImage_some (palette : Option SpicePalette) (chunks : SpiceChunks) :
    bitmapImage guest palette (some chunks) =
      { descriptor := guest.descriptor
        content :=
          .bitmap
            { format := guest.format
              flags := if guest.bitmapFlags &&& 4 ≠ 0 then 4 else 0
              x := guest.x
              y := guest.y
              stride := guest.stride
              palette := palette
              paletteId := (palette.map SpicePalette.unique).getD 0
              data := some (flagged guest chunks) } } := by
  unfold bitmapImage flagged
  by_cases unstable : guest.bitmapFlags &&& 2 ≠ 0
  · rw [if_pos unstable, if_pos unstable]
    rfl
  · rw [if_neg unstable, if_neg unstable]

theorem Checked.contained_iff (checked : Checked guest isMask palette) {chunks : SpiceChunks} {heap : Heap}
    (balanced : heap.Balanced (imageObjects palette ++ [.chunks])) :
    (ImageResult.returned (some (bitmapImage guest palette (some chunks))) heap).Contained info groupId isMask <->
      chunks.Holds info groupId (guest.y.toNat * guest.stride.toNat) := by
  rw [bitmapImage_some]
  constructor
  · rintro ⟨consistent, _⟩
    obtain ⟨held, isHeld, holds⟩ := SpiceBitmap.Consistent.data consistent
    cases isHeld
    exact (flagged_holds chunks _).mp holds
  · intro holds
    exact ⟨⟨⟨_, rfl, (flagged_holds chunks _).mpr holds⟩, checked.stride, checked.palette⟩, balanced⟩

/-- The data of a bitmap that passed the checks. -/
theorem Checked.data_iff (built : Built info) (checked : Checked guest isMask palette) :
    (redGetBitmapData info groupId guest palette (guest.y.toNat * guest.stride.toNat)
      ⟨imageObjects palette, []⟩).Contained info groupId isMask <-> DataFits info groupId guest := by
  have isSize : (UInt32.ofNat (guest.y.toNat * guest.stride.toNat)).toNat = guest.y.toNat * guest.stride.toNat :=
    UInt32.toNat_ofNat_of_lt' checked.below
  unfold redGetBitmapData DataFits
  by_cases direct : guest.bitmapFlags &&& 1 ≠ 0
  · rw [if_pos direct, if_pos direct]
    cases found : info.getVirt guest.data (.ofNat (guest.y.toNat * guest.stride.toNat)) groupId with
    | undefined =>
        apply iff_of_false (fun contained => contained)
        rintro ⟨address, isAddress⟩
        cases isAddress
    | aborted =>
        apply iff_of_false (fun contained => contained)
        rintro ⟨address, isAddress⟩
        cases isAddress
    | error =>
        apply iff_of_false
        · unfold redGetImageDataFlat
          dsimp only
          split
          · exact fun contained => contained
          · rintro ⟨consistent, _⟩
            obtain ⟨held, isHeld, _⟩ := SpiceBitmap.Consistent.data consistent
            revert isHeld
            dsimp only
            split <;> exact fun isHeld => by cases isHeld
        · rintro ⟨address, isAddress⟩
          cases isAddress
    | virt address =>
        apply iff_of_true _ ⟨address, rfl⟩
        unfold redGetImageDataFlat
        dsimp only
        rw [if_neg (fun both => by cases both.2)]
        refine (checked.contained_iff (balanced_flat (imageObjects_nodup palette) (imageObjects_apart palette))).mpr ?_
        refine ⟨isSize, ?_, fun chunk member _ => ?_⟩
        · exact (Nat.add_zero _).trans isSize
        · rw [List.mem_singleton.mp member]
          exact ⟨address, rfl, insideSlot_of_getVirt found⟩
  · rw [if_neg direct, if_neg direct]
    have lists : (Exists fun slotId => Exists fun qxl => info.getMemslotId guest.data = some slotId ∧
        info.getVirt guest.data qxlDataChunkSize groupId = .virt qxl ∧
          ListGives info groupId guest.chunks slotId qxl (guest.y.toNat * guest.stride.toNat)) <->
        Exists fun nodes => redGetDataChunksNodes info groupId guest guest.data = some (some nodes) ∧
          nodes.Gives info groupId (guest.y.toNat * guest.stride.toNat) := by
      constructor
      · rintro ⟨slotId, qxl, isId, found, gives⟩
        obtain ⟨nodes, isNodes, gives, _⟩ := (gives_iff built slotId qxl _).mpr gives
        exact ⟨nodes, (nodes_some_iff guest guest.data nodes).mpr ⟨slotId, qxl, isId, found, isNodes⟩, gives⟩
      · rintro ⟨nodes, isSome, gives⟩
        obtain ⟨slotId, qxl, isId, found, isNodes⟩ := (nodes_some_iff guest guest.data nodes).mp isSome
        exact ⟨slotId, qxl, isId, found,
          (gives_iff built slotId qxl _).mp ⟨nodes, isNodes, gives, nodes_kept built isNodes⟩⟩
    rw [lists]
    cases isSome : redGetDataChunksNodes info groupId guest guest.data with
    | none =>
        apply iff_of_false (fun contained => contained)
        rintro ⟨nodes, impossible, _⟩
        cases impossible
    | some gathered =>
        cases gathered with
        | none =>
            apply iff_of_false
            · dsimp only
              split <;> exact fun contained => contained
            · rintro ⟨nodes, impossible, _⟩
              cases impossible
        | some nodes =>
            dsimp only
            by_cases gathers : nodes.gathered.size = guest.y.toNat * guest.stride.toNat
            · obtain ⟨slotId, qxl, _, _, isNodes⟩ := (nodes_some_iff guest guest.data nodes).mp isSome
              rw [if_neg (not_not.mpr gathers), checked.contained_iff (balanced_gathered (imageObjects_nodup palette)
                (imageObjects_apart palette) (nodes_kept built isNodes)), holds_iff gathers checked.below]
              constructor
              · exact fun gives => ⟨nodes, rfl, gives⟩
              · rintro ⟨other, same, gives⟩
                cases same
                exact gives
            · rw [if_pos gathers]
              apply iff_of_false (fun contained => contained)
              rintro ⟨other, same, gives⟩
              cases same
              exact gathers gives.gathers

theorem bitmapConsistent_iff (format : UInt8) (x stride : UInt32) : bitmapConsistent format x stride = true <->
    Exists fun bpp => mapBitmapFmtToBitsPerPixel[format.toNat]? = some bpp ∧ x.toNat * bpp ≤ 8 * stride.toNat := by
  unfold bitmapConsistent
  cases mapBitmapFmtToBitsPerPixel[format.toNat]? with
  | none => simp
  | some bpp =>
      dsimp only
      rw [decide_eq_true_iff]
      constructor
      · exact fun fits => ⟨bpp, rfl, by omega⟩
      · rintro ⟨other, same, fits⟩
        cases same
        omega

end Contained

/-- A bitmap of one pixel with 32 bits, with direct data at an address. -/
def onePixelImage (data : UInt64) : GuestImage where
  id := 0
  type := 0
  flags := 0
  flagsAgain := 0
  width := 1
  height := 1
  format := 8
  bitmapFlags := 1
  x := 1
  y := 1
  stride := 4
  palette := 0
  data := data
  paletteUnique := 0
  paletteNumEnts := 0
  paletteEnts := fun _ => 0
  surfaceId := 0
  quicDataSize := 0
  chunks := oneChunk 0

end Guest
end Spice
