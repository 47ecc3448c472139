import Mathlib.Logic.Function.Basic
import Spice.Lib.Run

namespace Spice
namespace Marshaller

/-!
# The marshaller

`marshaller.c` collects a message as a chain of marshallers, each a list of
items that point into shared buffers, into blocks of their own or into memory
of the caller.  A marshaller is named here by its place in the chain, so the
root is 0, and a pointer that is not in the chain makes a call fail.

Memory is a function from addresses to bytes.  `malloc n` is the address of
the `n`-th allocated block; nothing is assumed about it, so a block may come
back at an address that was in use before.  Lengths are sizes of blocks in
memory and do not wrap.  The two totals add up lengths of blocks that may be
the same, and are `size_t` values modulo 2^64.
-/

/-- `MARSHALLER_BUFFER_SIZE`, with pointers of 8 bytes. -/
def marshallerBufferSize : Nat := 4096 - 8 * 2

def nStaticItems : Nat := 4

/-- `sizeof(MarshallerItem)`. -/
def itemBytes : Nat := 32

/-- A `spice_marshaller_item_free_func`. -/
inductive FreeFunc
  | free
  | user (address : Nat)
  deriving DecidableEq, Repr

/-- `MarshallerItem`.  `freeData` holds the callback and its argument. -/
structure MarshallerItem where
  data : Nat
  len : Nat
  freeData : Option (FreeFunc × Nat)
  deriving DecidableEq, Repr

structure MarshallerRef where
  marshaller : Nat
  itemNr : Nat
  is64bit : Bool
  offset : Nat
  deriving DecidableEq, Repr

/-- `struct SpiceMarshaller`.  `itemsAddr` is where the items array lies. -/
structure SpiceMarshaller where
  totalSize : Nat
  pointerRef : Option MarshallerRef
  itemsSize : Nat
  itemsAddr : Nat
  items : List MarshallerItem
  deriving DecidableEq, Repr

/-- `SpiceMarshallerData`.  The chain and the buffers are lists in link order;
`mem`, `allocated` and `freed` are the memory, the number of allocations so
far and the free callbacks made so far. -/
structure SpiceMarshallerData where
  totalSize : Nat
  base : Nat
  marshallers : List SpiceMarshaller
  currentBufferPosition : Nat
  currentBuffer : Nat
  currentBufferItem : Option Nat
  buffers : List Nat
  mem : Nat -> UInt8
  allocated : Nat
  freed : List (FreeFunc × Nat × Nat)

/-- Addition of `size_t` values. -/
def sizeAdd (a b : Nat) : Nat := (a + b) % 2 ^ 64

/-- `spice_marshaller_init`, for a marshaller whose inline array is at the given address. -/
def spiceMarshallerInit (staticItems : Nat) : SpiceMarshaller where
  totalSize := 0
  pointerRef := none
  itemsSize := nStaticItems
  itemsAddr := staticItems
  items := []

def writeBytes (mem : Nat -> UInt8) : Nat -> List UInt8 -> Nat -> UInt8
  | _, [] => mem
  | addr, byte :: rest => Function.update (writeBytes mem (addr + 1) rest) addr byte

/-- The `n` bytes of a value, lowest first. -/
def littleEndian : Nat -> Nat -> List UInt8
  | 0, _ => []
  | n + 1, value => UInt8.ofNat (value % 256) :: littleEndian n (value / 256)

section Operations

variable (malloc : Nat -> Nat)

/-- `spice_marshaller_new`.  The root and the first buffer lie inside the
allocated data. -/
def spiceMarshallerNew (mem : Nat -> UInt8) : SpiceMarshallerData where
  totalSize := 0
  base := 0
  marshallers := [spiceMarshallerInit (malloc 0 + 128)]
  currentBufferPosition := 0
  currentBuffer := 0
  currentBufferItem := none
  buffers := [malloc 0 + 264]
  mem := mem
  allocated := 1
  freed := []

/-- `free_item_data`: the callbacks of all items. -/
def freeItemData (m : SpiceMarshaller) : List (FreeFunc × Nat × Nat) :=
  m.items.filterMap (fun item => item.freeData.map (fun call => (call.1, item.data, call.2)))

/-- `spice_marshaller_reset` on the root.  The root keeps its items array. -/
def spiceMarshallerReset (d : SpiceMarshallerData) : Option SpiceMarshallerData := do
  let m <- d.marshallers.head?
  some { d with
    totalSize := 0
    base := 0
    marshallers := [{ m with items := [], totalSize := 0 }]
    currentBufferItem := none
    currentBuffer := 0
    currentBufferPosition := 0
    freed := d.freed ++ d.marshallers.flatMap freeItemData }

/-- `spice_marshaller_add_item`: make room for one more item, which the caller
then fills in.  A count beyond `int` makes the allocation abort. -/
def spiceMarshallerAddItem (d : SpiceMarshallerData) (m : SpiceMarshaller) :
    Option (SpiceMarshallerData × SpiceMarshaller) :=
  if m.items.length = m.itemsSize then
    if m.itemsSize * 2 < 2 ^ 31 then
      some ({ d with allocated := d.allocated + 1 },
        { m with itemsSize := m.itemsSize * 2, itemsAddr := malloc d.allocated })
    else none
  else some (d, m)

def remainingBufferSize (d : SpiceMarshallerData) : Nat :=
  marshallerBufferSize - d.currentBufferPosition

/-- Store the marshaller back, with `size` bytes more in both totals. -/
def grown (d : SpiceMarshallerData) (k : Nat) (m : SpiceMarshaller) (items : List MarshallerItem)
    (size : Nat) : SpiceMarshallerData :=
  { d with
    totalSize := sizeAdd d.totalSize size
    marshallers := d.marshallers.set k
      { m with items := items, totalSize := sizeAdd m.totalSize size } }

/-- `spice_marshaller_reserve_space`; the second component is the pointer it
returns, `none` for `NULL`. -/
def spiceMarshallerReserveSpace (d : SpiceMarshallerData) (k size : Nat) :
    Option (SpiceMarshallerData × Option Nat) :=
  if size = 0 then some (d, none)
  else do
    let m <- d.marshallers[k]?
    if d.currentBufferItem.map (fun item => item + itemBytes) =
        some (m.itemsAddr + itemBytes * m.items.length) ∧ size ≤ remainingBufferSize d then
      -- the last item is the current one; without any item the assertion fails
      let item <- m.items.getLast?
      let d := { d with currentBufferPosition := d.currentBufferPosition + size }
      some (grown d k m (m.items.dropLast ++ [{ item with len := item.len + size }]) size,
        some (item.data + item.len))
    else
      let (d, m) <- spiceMarshallerAddItem malloc d m
      let itemAddr := m.itemsAddr + itemBytes * m.items.length
      if size ≤ remainingBufferSize d then
        let buffer <- d.buffers[d.currentBuffer]?
        let data := buffer + d.currentBufferPosition
        let d := { d with
          currentBufferPosition := d.currentBufferPosition + size
          currentBufferItem := some itemAddr }
        some (grown d k m (m.items ++ [⟨data, size, none⟩]) size, some data)
      else if marshallerBufferSize / 2 < size then
        let data := malloc d.allocated
        let d := { d with allocated := d.allocated + 1 }
        some (grown d k m (m.items ++ [⟨data, size, some (.free, 0)⟩]) size, some data)
      else
        let d := match d.buffers[d.currentBuffer + 1]? with
          | some _ => d
          | none => { d with
              buffers := d.buffers ++ [malloc d.allocated + 8]
              allocated := d.allocated + 1 }
        let data <- d.buffers[d.currentBuffer + 1]?
        let d := { d with
          currentBuffer := d.currentBuffer + 1
          currentBufferPosition := size
          currentBufferItem := some itemAddr }
        some (grown d k m (m.items ++ [⟨data, size, none⟩]) size, some data)

/-- `spice_marshaller_unreserve_space`.  Neither total is touched. -/
def spiceMarshallerUnreserveSpace (d : SpiceMarshallerData) (k size : Nat) :
    Option SpiceMarshallerData :=
  if size = 0 then some d
  else do
    let m <- d.marshallers[k]?
    let item <- m.items.getLast?
    if size ≤ item.len then
      some { d with
        marshallers := d.marshallers.set k
          { m with items := m.items.dropLast ++ [{ item with len := item.len - size }] } }
    else none

/-- `spice_marshaller_add_ref_full`; address 0 is `NULL`. -/
def spiceMarshallerAddRefFull (d : SpiceMarshallerData) (k data size : Nat)
    (freeData : Option (FreeFunc × Nat)) : Option SpiceMarshallerData :=
  if data = 0 ∨ size = 0 then some d
  else do
    let m <- d.marshallers[k]?
    let (d, m) <- spiceMarshallerAddItem malloc d m
    some (grown d k m (m.items ++ [⟨data, size, freeData⟩]) size)

/-- Store bytes behind a pointer returned by `spice_marshaller_reserve_space`. -/
def stored (d : SpiceMarshallerData) (ptr : Option Nat) (bytes : List UInt8) : SpiceMarshallerData :=
  match ptr with
  | none => d
  | some addr => { d with mem := writeBytes d.mem addr bytes }

def spiceMarshallerAdd (d : SpiceMarshallerData) (k : Nat) (data : List UInt8) :
    Option SpiceMarshallerData := do
  let (d, ptr) <- spiceMarshallerReserveSpace malloc d k data.length
  some (stored d ptr data)

def spiceMarshallerAddRef (d : SpiceMarshallerData) (k data size : Nat) : Option SpiceMarshallerData :=
  spiceMarshallerAddRefFull malloc d k data size none

/-- `spice_marshaller_add_ref_chunks`, over the addresses and lengths of the chunks. -/
def spiceMarshallerAddRefChunks (d : SpiceMarshallerData) (k : Nat) :
    List (Nat × Nat) -> Option SpiceMarshallerData
  | [] => some d
  | chunk :: rest => do
      let d <- spiceMarshallerAddRef malloc d k chunk.1 chunk.2
      spiceMarshallerAddRefChunks d k rest

/-- `spice_marshaller_get_submarshaller`: the new marshaller is the last of
the chain, whichever marshaller it was asked from. -/
def spiceMarshallerGetSubmarshaller (d : SpiceMarshallerData) (pointerRef : Option MarshallerRef) :
    SpiceMarshallerData :=
  { d with
    marshallers := d.marshallers ++
      [{ spiceMarshallerInit (malloc d.allocated + 64) with pointerRef := pointerRef }]
    allocated := d.allocated + 1 }

def spiceMarshallerGetPtrSubmarshaller (d : SpiceMarshallerData) (k : Nat) (is64bit : Bool) :
    Option SpiceMarshallerData := do
  let size := if is64bit then 8 else 4
  let (d, ptr) <- spiceMarshallerReserveSpace malloc d k size
  let d := stored d ptr (List.replicate size 0)
  let m <- d.marshallers[k]?
  let item <- m.items.getLast?
  some (spiceMarshallerGetSubmarshaller malloc d
    (some ⟨k, m.items.length - 1, is64bit, item.len - size⟩))

/-- A typed addition of `n` bytes. -/
def addInt (n : Nat) (d : SpiceMarshallerData) (k value : Nat) : Option SpiceMarshallerData :=
  spiceMarshallerAdd malloc d k (littleEndian n value)

/-- A signed value as the unsigned one with the same bytes. -/
def unsigned (n : Nat) (value : Int) : Nat := (value % 2 ^ (8 * n)).toNat

def spiceMarshallerAddUint64 (d : SpiceMarshallerData) (k value : Nat) := addInt malloc 8 d k value

def spiceMarshallerAddInt64 (d : SpiceMarshallerData) (k : Nat) (value : Int) :=
  addInt malloc 8 d k (unsigned 8 value)

def spiceMarshallerAddUint32 (d : SpiceMarshallerData) (k value : Nat) := addInt malloc 4 d k value

def spiceMarshallerAddInt32 (d : SpiceMarshallerData) (k : Nat) (value : Int) :=
  addInt malloc 4 d k (unsigned 4 value)

def spiceMarshallerAddUint16 (d : SpiceMarshallerData) (k value : Nat) := addInt malloc 2 d k value

def spiceMarshallerAddInt16 (d : SpiceMarshallerData) (k : Nat) (value : Int) :=
  addInt malloc 2 d k (unsigned 2 value)

def spiceMarshallerAddUint8 (d : SpiceMarshallerData) (k value : Nat) := addInt malloc 1 d k value

def spiceMarshallerAddInt8 (d : SpiceMarshallerData) (k : Nat) (value : Int) :=
  addInt malloc 1 d k (unsigned 1 value)

end Operations

def spiceMarshallerGetOffset (d : SpiceMarshallerData) (k : Nat) : Nat :=
  let offset := (d.marshallers.take k).foldl (fun offset m => sizeAdd offset m.totalSize) 0
  (offset + 2 ^ 64 - d.base) % 2 ^ 64

def lookupRef (d : SpiceMarshallerData) (ref : MarshallerRef) : Option Nat := do
  let m <- d.marshallers[ref.marshaller]?
  let item <- m.items[ref.itemNr]?
  some (item.data + ref.offset)

/-- The loop of `spice_marshaller_flush` over the marshallers from the `k`-th on. -/
def flushFrom (d : SpiceMarshallerData) : Nat -> List SpiceMarshaller -> Option SpiceMarshallerData
  | _, [] => some d
  | k, m :: rest =>
      match m.pointerRef with
      | none => flushFrom d (k + 1) rest
      | some ref =>
          if 0 < m.totalSize then do
            let ptrPos <- lookupRef d ref
            let width := if ref.is64bit then 8 else 4
            let bytes := littleEndian width (spiceMarshallerGetOffset d k)
            flushFrom { d with mem := writeBytes d.mem ptrPos bytes } (k + 1) rest
          else flushFrom d (k + 1) rest

/-- `spice_marshaller_flush` on the root. -/
def spiceMarshallerFlush (d : SpiceMarshallerData) : Option SpiceMarshallerData :=
  flushFrom d 0 d.marshallers

/-- `spice_marshaller_set_base` on the root. -/
def spiceMarshallerSetBase (d : SpiceMarshallerData) (base : Nat) : SpiceMarshallerData :=
  { d with base := base }

/-- `struct iovec`. -/
structure Iovec where
  iovBase : Nat
  iovLen : Nat
  deriving DecidableEq, Repr

/-- The inner loop of `spice_marshaller_fill_iovec`.  An error is the return
in the middle, with the entries filled in so far. -/
def fillItems (nVec : Nat) :
    List MarshallerItem -> Nat -> List Iovec -> Except (List Iovec) (Nat × List Iovec)
  | [], skip, vec => .ok (skip, vec)
  | item :: rest, skip, vec =>
      if item.len ≤ skip then fillItems nVec rest (skip - item.len) vec
      else if vec.length = nVec then .error vec
      else fillItems nVec rest 0 (vec ++ [⟨item.data + skip, item.len - skip⟩])

/-- The outer loop of `spice_marshaller_fill_iovec`. -/
def fillMarshallers (nVec : Nat) : List SpiceMarshaller -> Nat -> List Iovec -> List Iovec
  | [], _, vec => vec
  | m :: rest, skip, vec =>
      match fillItems nVec m.items skip vec with
      | .error full => full
      | .ok (skip, vec) => fillMarshallers nVec rest skip vec

/-- `spice_marshaller_fill_iovec` on the root. -/
def spiceMarshallerFillIovec (d : SpiceMarshallerData) (nVec skip : Nat) : List Iovec :=
  fillMarshallers nVec d.marshallers skip []

/-- A call on the chain.  `write` is the caller storing bytes behind a pointer
it holds, as `spice_marshaller_set_uint32` does. -/
inductive MarshallerOp
  | reserveSpace (k size : Nat)
  | unreserveSpace (k size : Nat)
  | add (k : Nat) (data : List UInt8)
  | addRef (k data size : Nat)
  | addRefFull (k data size : Nat) (freeData : Option (FreeFunc × Nat))
  | addRefChunks (k : Nat) (chunks : List (Nat × Nat))
  | addUint64 (k value : Nat)
  | addInt64 (k : Nat) (value : Int)
  | addUint32 (k value : Nat)
  | addInt32 (k : Nat) (value : Int)
  | addUint16 (k value : Nat)
  | addInt16 (k : Nat) (value : Int)
  | addUint8 (k value : Nat)
  | addInt8 (k : Nat) (value : Int)
  | getSubmarshaller (k : Nat)
  | getPtrSubmarshaller (k : Nat) (is64bit : Bool)
  | write (addr : Nat) (bytes : List UInt8)
  | setBase (base : Nat)
  | flush
  | reset
  deriving DecidableEq, Repr

/-- One call; `none` when an assertion fails or a pointer is not valid. -/
def marshallerStep (malloc : Nat -> Nat) (d : SpiceMarshallerData) :
    MarshallerOp -> Option SpiceMarshallerData
  | .reserveSpace k size => (spiceMarshallerReserveSpace malloc d k size).map Prod.fst
  | .unreserveSpace k size => spiceMarshallerUnreserveSpace d k size
  | .add k data => spiceMarshallerAdd malloc d k data
  | .addRef k data size => spiceMarshallerAddRef malloc d k data size
  | .addRefFull k data size freeData => spiceMarshallerAddRefFull malloc d k data size freeData
  | .addRefChunks k chunks => spiceMarshallerAddRefChunks malloc d k chunks
  | .addUint64 k value => spiceMarshallerAddUint64 malloc d k value
  | .addInt64 k value => spiceMarshallerAddInt64 malloc d k value
  | .addUint32 k value => spiceMarshallerAddUint32 malloc d k value
  | .addInt32 k value => spiceMarshallerAddInt32 malloc d k value
  | .addUint16 k value => spiceMarshallerAddUint16 malloc d k value
  | .addInt16 k value => spiceMarshallerAddInt16 malloc d k value
  | .addUint8 k value => spiceMarshallerAddUint8 malloc d k value
  | .addInt8 k value => spiceMarshallerAddInt8 malloc d k value
  | .getSubmarshaller k =>
      if k < d.marshallers.length then some (spiceMarshallerGetSubmarshaller malloc d none) else none
  | .getPtrSubmarshaller k is64bit => spiceMarshallerGetPtrSubmarshaller malloc d k is64bit
  | .write addr bytes => some { d with mem := writeBytes d.mem addr bytes }
  | .setBase base => some (spiceMarshallerSetBase d base)
  | .flush => spiceMarshallerFlush d
  | .reset => spiceMarshallerReset d

end Marshaller
end Spice
