import Mathlib.Logic.Relation
import Spice.Guest.MemSlots

namespace Spice
namespace Guest

open Lib

/-!
# Chunks of guest data

`red_get_data_chunks_ptr` and `red_linearize_chunk` of `red_parse_qxl.c`.  The guest puts
data into a list of chunks in its own memory.  The server follows the links and records
where the data of every chunk is that is not empty, and may later copy the data into one
block.

The guest may change a chunk at any time.  A field is read once after each link, so the
memory is a function of the number of links that were followed.
-/

def maxDataChunk : Nat := 0x7fffffff

def maxChunks : Nat := maxDataChunk / 1024

/-- `sizeof(QXLDataChunk)`, which is where its data starts. -/
def qxlDataChunkSize : UInt32 := 20

/-- The fields of the chunks, by the number of links before and the address. -/
structure GuestMemory where
  dataSize : Nat -> UInt64 -> UInt32
  nextChunk : Nat -> UInt64 -> UInt64

/-- `RedDataChunk` without its links.  `slotId` is the slot of the address that led to it. -/
structure RedDataChunk where
  dataSize : UInt32
  data : Option UInt64
  slotId : Int32
deriving DecidableEq, Repr

/-- What is returned: the size, the chunk of the caller with those linked to it, and how many links were followed. -/
structure Gathered where
  failed : Bool
  size : Nat
  head : RedDataChunk
  next : List RedDataChunk
  links : Nat
deriving DecidableEq, Repr

/-- What stands after `error:`. -/
def Gathered.error (head : RedDataChunk) (links : Nat) : Gathered where
  failed := true
  size := 0
  head := { head with dataSize := 0, data := none }
  next := []
  links := links

section Gather

variable (info : RedMemSlotInfo) (groupId : Int32) (memory : GuestMemory)

/-- `validate_virt` with the slot in the table. -/
def validateChunk (data : UInt64) (slotId : Int32) (size : UInt32) : Option Validity :=
  (info.slotAt groupId slotId).map (fun slot => validateVirt info.aborts slot data size)

/-- The loop of `red_get_data_chunks_ptr`.  Up to `left` more links may be followed, so `num_chunks` is
`MAX_CHUNKS - 1 - left`; `none` stands for a run that does not return, because of an abort or of a slot that is read
outside of the table. -/
def followChunks (head : RedDataChunk) : Nat -> Nat -> UInt64 -> Nat -> List RedDataChunk -> Option Gathered
  | left, links, qxl, total, recorded =>
      if memory.nextChunk links qxl = 0 then
        some { failed := false, size := total, head := head, next := recorded, links := links }
      else
        match left with
        | 0 => some (.error head links)
        | left + 1 =>
            match info.getMemslotId (memory.nextChunk links qxl),
              info.getVirt (memory.nextChunk links qxl) qxlDataChunkSize groupId with
            | _, .error => some (.error head (links + 1))
            | some slotId, .virt chunk =>
                if memory.dataSize (links + 1) chunk = 0 then followChunks head left (links + 1) chunk total recorded
                else if maxDataChunk < total + (memory.dataSize (links + 1) chunk).toNat then
                  some (.error head (links + 1))
                else
                  match validateChunk info groupId (chunk + qxlDataChunkSize.toUInt64) slotId
                    (memory.dataSize (links + 1) chunk) with
                  | none | some .aborted => none
                  | some .refused => some (.error head (links + 1))
                  | some .valid =>
                      followChunks head left (links + 1) chunk (total + (memory.dataSize (links + 1) chunk).toNat)
                        (recorded ++ [⟨memory.dataSize (links + 1) chunk,
                          some (chunk + qxlDataChunkSize.toUInt64), slotId⟩])
            | _, _ => none

/-- `red_get_data_chunks_ptr`.  When the first chunk is refused only its data pointer is cleared. -/
def redGetDataChunksPtr (memslotId : Int32) (qxl : UInt64) : Option Gathered :=
  let head : RedDataChunk := ⟨memory.dataSize 0 qxl, some (qxl + qxlDataChunkSize.toUInt64), memslotId⟩
  match validateChunk info groupId (qxl + qxlDataChunkSize.toUInt64) memslotId (memory.dataSize 0 qxl) with
  | none | some .aborted => none
  | some .refused => some { failed := true, size := 0, head := { head with data := none }, next := [], links := 0 }
  | some .valid => followChunks info groupId memory head (maxChunks - 1) 0 qxl (memory.dataSize 0 qxl).toNat []

end Gather

section Linearize

variable (byteAt : UInt64 -> UInt8)

/-- The bytes behind a data pointer; there are none behind a null pointer. -/
def chunkBytes (data : Option UInt64) (count : Nat) : Option (List UInt8) :=
  match data with
  | none => if count = 0 then some [] else none
  | some data => some ((List.range count).map (fun index => byteAt (data + UInt64.ofNat index)))

/-- The loop of `red_linearize_chunk`, with the assertion after it. -/
def copyChunks : List RedDataChunk -> Nat -> Option (List UInt8)
  | [], size => if size = 0 then some [] else none
  | chunk :: rest, size =>
      if size = 0 then some []
      else
        match chunkBytes byteAt chunk.data (min chunk.dataSize.toNat size),
          copyChunks rest (size - min chunk.dataSize.toNat size) with
        | some bytes, some others => some (bytes ++ others)
        | _, _ => none

/-- `red_linearize_chunk`: the bytes, and whether the block is to be freed. -/
def redLinearizeChunk (head : RedDataChunk) (next : List RedDataChunk) (size : Nat) : Option (List UInt8 × Bool) :=
  if next = [] then
    if size ≤ head.dataSize.toNat then (chunkBytes byteAt head.data size).map (fun bytes => (bytes, false)) else none
  else (copyChunks byteAt (head :: next) size).map (fun bytes => (bytes, true))

end Linearize

/-! ## What the list has to be -/

def RedDataChunk.Inside (info : RedMemSlotInfo) (groupId : Int32) (chunk : RedDataChunk) : Prop :=
  Exists fun data => Exists fun slot => chunk.data = some data ∧ info.slotAt groupId chunk.slotId = some slot ∧
    slot.virtStartAddr.toNat ≤ data.toNat ∧ data.toNat + chunk.dataSize.toNat ≤ slot.virtEndAddr.toNat

/-- The sum of the sizes of some chunks. -/
def sizesOf (chunks : List RedDataChunk) : Nat := (chunks.map (fun chunk => chunk.dataSize.toNat)).sum

/-- The list agrees with the size that is returned, in success and in failure, and can be made one block. -/
structure Gathered.Bounded (info : RedMemSlotInfo) (groupId : Int32) (gathered : Gathered) : Prop where
  links : gathered.links ≤ maxChunks
  inside : gathered.failed = false -> forall chunk, chunk ∈ gathered.head :: gathered.next -> chunk.Inside info groupId
  size : gathered.failed = false -> gathered.size = sizesOf (gathered.head :: gathered.next)
  bounded : gathered.failed = false -> gathered.size ≤ maxDataChunk
  cleared : gathered.failed = true -> gathered.size = 0 ∧ gathered.head.dataSize = 0 ∧ gathered.head.data = none ∧
    gathered.next = []
  linear : forall byteAt, Exists fun bytes => Exists fun free =>
    redLinearizeChunk byteAt gathered.head gathered.next gathered.size = some (bytes, free) ∧
      bytes.length = gathered.size

def ChunksBounded (info : RedMemSlotInfo) (groupId : Int32) (memory : GuestMemory) (memslotId : Int32)
    (qxl : UInt64) : Prop :=
  Exists fun gathered => redGetDataChunksPtr info groupId memory memslotId qxl = some gathered ∧
    gathered.Bounded info groupId

/-- A place in the list of the guest: the links before it, the chunk, and the sizes so far. -/
structure Place where
  links : Nat
  qxl : UInt64
  total : Nat

/-- A link that can be followed: to a chunk without data, or to one whose data is in its slot and not too much. -/
inductive Link (info : RedMemSlotInfo) (groupId : Int32) (memory : GuestMemory) : Place -> Place -> Prop
  | empty {place : Place} {chunk : UInt64} (more : memory.nextChunk place.links place.qxl ≠ 0)
      (few : place.links + 1 < maxChunks)
      (found : info.getVirt (memory.nextChunk place.links place.qxl) qxlDataChunkSize groupId = .virt chunk)
      (isEmpty : memory.dataSize (place.links + 1) chunk = 0) :
      Link info groupId memory place ⟨place.links + 1, chunk, place.total⟩
  | data {place : Place} {chunk : UInt64} {slotId : Int32} {slot : MemSlot}
      (more : memory.nextChunk place.links place.qxl ≠ 0) (few : place.links + 1 < maxChunks)
      (found : info.getVirt (memory.nextChunk place.links place.qxl) qxlDataChunkSize groupId = .virt chunk)
      (isData : memory.dataSize (place.links + 1) chunk ≠ 0)
      (fits : place.total + (memory.dataSize (place.links + 1) chunk).toNat ≤ maxDataChunk)
      (isId : info.getMemslotId (memory.nextChunk place.links place.qxl) = some slotId)
      (isSlot : info.slotAt groupId slotId = some slot)
      (valid : slot.covers (chunk + qxlDataChunkSize.toUInt64) (memory.dataSize (place.links + 1) chunk) = true) :
      Link info groupId memory place
        ⟨place.links + 1, chunk, place.total + (memory.dataSize (place.links + 1) chunk).toNat⟩

/-- Where the list goes on, the address is one that can be looked up, and where `spice_critical` aborts, the data that
it leads to is in its slot, unless it is too much. -/
def Place.LookedUp (info : RedMemSlotInfo) (groupId : Int32) (memory : GuestMemory) (place : Place) : Prop :=
  memory.nextChunk place.links place.qxl ≠ 0 -> place.links + 1 < maxChunks ->
    Answered info (memory.nextChunk place.links place.qxl) qxlDataChunkSize groupId ∧
      (info.aborts = true -> forall chunk slotId slot,
        info.getVirt (memory.nextChunk place.links place.qxl) qxlDataChunkSize groupId = .virt chunk ->
        info.getMemslotId (memory.nextChunk place.links place.qxl) = some slotId ->
          info.slotAt groupId slotId = some slot ->
        memory.dataSize (place.links + 1) chunk ≠ 0 ->
        place.total + (memory.dataSize (place.links + 1) chunk).toNat ≤ maxDataChunk ->
          slot.covers (chunk + qxlDataChunkSize.toUInt64) (memory.dataSize (place.links + 1) chunk) = true)

/-- A place is looked up, and where the list ends there is not too much data. -/
def Place.Fits (info : RedMemSlotInfo) (groupId : Int32) (memory : GuestMemory) (place : Place) : Prop :=
  place.LookedUp info groupId memory ∧ (memory.nextChunk place.links place.qxl = 0 -> place.total ≤ maxDataChunk)

/-- The slot of the first chunk is in the table, its data is in that slot, unless there is none and `spice_critical`
does not abort, and all places that are reached from it fit. -/
def ChunksFit (info : RedMemSlotInfo) (groupId : Int32) (memory : GuestMemory) (memslotId : Int32)
    (qxl : UInt64) : Prop :=
  Exists fun slot => info.slotAt groupId memslotId = some slot ∧
    (slot.covers (qxl + qxlDataChunkSize.toUInt64) (memory.dataSize 0 qxl) = false ->
      info.aborts = false ∧ memory.dataSize 0 qxl = 0) ∧
    (slot.covers (qxl + qxlDataChunkSize.toUInt64) (memory.dataSize 0 qxl) = true ->
      forall place, Relation.ReflTransGen (Link info groupId memory) ⟨0, qxl, (memory.dataSize 0 qxl).toNat⟩ place ->
        place.Fits info groupId memory)


/-! ## Looking up a chunk -/

variable {info : RedMemSlotInfo}

section Lookup

variable {addr : UInt64} {addSize : UInt32} {groupId : Int32}

theorem RedMemSlotInfo.slot_of_getVirt {address : UInt64} (found : info.getVirt addr addSize groupId = .virt address) :
    Exists fun slotId => Exists fun slot => info.getMemslotId addr = some slotId ∧
      info.slotAt groupId slotId = some slot := by
  rcases acceptedBy_of_virt found with ⟨slotId, slot, by_, -⟩
  exact ⟨slotId, slot, by_.isId, by_.isSlot⟩

theorem Built.answered_of_virt (built : Built info) {address : UInt64}
    (found : info.getVirt addr addSize groupId = .virt address) : Answered info addr addSize groupId := by
  rw [built.answered_iff, found]
  exact ⟨Translation.noConfusion, Translation.noConfusion⟩

theorem Built.answered_of_error (built : Built info) (refused : info.getVirt addr addSize groupId = .error) :
    Answered info addr addSize groupId := by
  rw [built.answered_iff, refused]
  exact ⟨Translation.noConfusion, Translation.noConfusion⟩

theorem Built.not_answered (built : Built info)
    (ended : info.getVirt addr addSize groupId = .undefined ∨ info.getVirt addr addSize groupId = .aborted) :
    ¬ Answered info addr addSize groupId := by
  rw [built.answered_iff]
  exact fun both => ended.elim both.1 both.2

end Lookup

theorem validateVirt_of_covers (aborts : Bool) {slot : MemSlot} {virt : UInt64} {addSize : UInt32}
    (covers : slot.covers virt addSize = true) : validateVirt aborts slot virt addSize = .valid := if_pos covers

theorem validateVirt_of_not_covers (aborts : Bool) {slot : MemSlot} {virt : UInt64} {addSize : UInt32}
    (covers : slot.covers virt addSize = false) :
    validateVirt aborts slot virt addSize = if aborts then .aborted else .refused :=
  if_neg (Bool.eq_false_iff.mp covers)

/-! ## Making one block -/

theorem chunkBytes_of_some (byteAt : UInt64 -> UInt8) {data : Option UInt64} {address : UInt64}
    (isData : data = some address)
    (count : Nat) : Exists fun bytes => chunkBytes byteAt data count = some bytes ∧ bytes.length = count := by
  refine ⟨(List.range count).map (fun index => byteAt (address + UInt64.ofNat index)), ?_, ?_⟩
  · rw [isData]
    rfl
  · rw [List.length_map, List.length_range]

/-- All bytes of chunks that are present are copied. -/
theorem copyChunks_all (byteAt : UInt64 -> UInt8) {chunks : List RedDataChunk}
    (present : forall chunk, chunk ∈ chunks -> Exists fun address => chunk.data = some address) :
    Exists fun bytes => copyChunks byteAt chunks (sizesOf chunks) = some bytes ∧ bytes.length = sizesOf chunks := by
  induction chunks with
  | nil => exact ⟨[], rfl, rfl⟩
  | cons chunk rest ih =>
      have sum : sizesOf (chunk :: rest) = chunk.dataSize.toNat + sizesOf rest := List.sum_cons
      rw [sum]
      unfold copyChunks
      by_cases isZero : chunk.dataSize.toNat + sizesOf rest = 0
      · rw [if_pos isZero, isZero]
        exact ⟨[], rfl, rfl⟩
      · have all : min chunk.dataSize.toNat (chunk.dataSize.toNat + sizesOf rest) = chunk.dataSize.toNat :=
          Nat.min_eq_left (Nat.le_add_right _ _)
        rcases present chunk List.mem_cons_self with ⟨address, isData⟩
        rcases chunkBytes_of_some byteAt isData chunk.dataSize.toNat with ⟨bytes, isBytes, length⟩
        rcases ih (fun other member => present other (List.mem_cons_of_mem _ member))
          with ⟨others, isOthers, otherLength⟩
        refine ⟨bytes ++ others, ?_, ?_⟩
        · rw [if_neg isZero, all, Nat.add_sub_cancel_left, isBytes, isOthers]
        · rw [List.length_append, length, otherLength]

/-- Chunks that are present give linear data. -/
theorem linear_of_present (byteAt : UInt64 -> UInt8) {head : RedDataChunk} {next : List RedDataChunk}
    (present : forall chunk, chunk ∈ head :: next -> Exists fun address => chunk.data = some address) :
    Exists fun bytes => Exists fun free => redLinearizeChunk byteAt head next (sizesOf (head :: next)) =
      some (bytes, free) ∧
      bytes.length = sizesOf (head :: next) := by
  unfold redLinearizeChunk
  cases next with
  | nil =>
      have one : sizesOf [head] = head.dataSize.toNat := Nat.add_zero _
      rcases present head List.mem_cons_self with ⟨address, isData⟩
      rcases chunkBytes_of_some byteAt isData head.dataSize.toNat with ⟨bytes, isBytes, length⟩
      refine ⟨bytes, false, ?_, length.trans one.symm⟩
      rw [if_pos rfl, one, if_pos (Nat.le_refl _), isBytes]
      rfl
  | cons chunk rest =>
      rcases copyChunks_all byteAt present with ⟨bytes, isBytes, length⟩
      refine ⟨bytes, true, ?_, length⟩
      rw [if_neg (List.cons_ne_nil _ _), isBytes]
      rfl

theorem linear_of_failed (byteAt : UInt64 -> UInt8) {head : RedDataChunk} (noData : head.data = none) :
    redLinearizeChunk byteAt head [] 0 = some ([], false) := by
  unfold redLinearizeChunk chunkBytes
  rw [noData, if_pos rfl, if_pos (Nat.zero_le _)]
  rfl

/-! ## Following the links -/

section Follow

variable {info : RedMemSlotInfo} {groupId : Int32} {memory : GuestMemory}

theorem Gathered.error_bounded (head : RedDataChunk) {links : Nat} (few : links ≤ maxChunks) :
    (Gathered.error head links).Bounded info groupId where
  links := few
  inside := fun impossible => (by cases impossible)
  size := fun impossible => (by cases impossible)
  bounded := fun impossible => (by cases impossible)
  cleared := fun _ => ⟨rfl, rfl, rfl, rfl⟩
  linear := fun byteAt => ⟨[], false, linear_of_failed byteAt rfl, rfl⟩

/-- What holds of the chunks that were recorded on the way to a place. -/
structure Recorded (info : RedMemSlotInfo) (groupId : Int32) (place : Place) (head : RedDataChunk)
    (next : List RedDataChunk) :
    Prop where
  few : place.links < maxChunks
  inside : forall chunk, chunk ∈ head :: next -> chunk.Inside info groupId
  size : place.total = sizesOf (head :: next)

theorem Recorded.present {place : Place} {head : RedDataChunk} {next : List RedDataChunk}
    (recorded : Recorded info groupId place head next) :
    forall chunk, chunk ∈ head :: next -> Exists fun address => chunk.data = some address := by
  intro chunk member
  rcases recorded.inside chunk member with ⟨data, slot, isData, _⟩
  exact ⟨data, isData⟩

theorem Recorded.done_bounded {place : Place} {head : RedDataChunk} {next : List RedDataChunk}
    (recorded : Recorded info groupId place head next) :
    (Gathered.mk false place.total head next place.links).Bounded info groupId <-> place.total ≤ maxDataChunk := by
  constructor
  · intro bounded
    exact bounded.bounded rfl
  · intro small
    refine ⟨Nat.le_of_lt recorded.few, fun _ => recorded.inside, fun _ => recorded.size, fun _ => small,
      fun impossible => (by cases impossible), fun byteAt => ?_⟩
    dsimp only
    rw [recorded.size]
    exact linear_of_present byteAt recorded.present

theorem Recorded.empty {place : Place} {head : RedDataChunk} {next : List RedDataChunk}
    (recorded : Recorded info groupId place head next) (few : place.links + 1 < maxChunks) (chunk : UInt64) :
    Recorded info groupId ⟨place.links + 1, chunk, place.total⟩ head next :=
  ⟨few, recorded.inside, recorded.size⟩

theorem Recorded.data {place : Place} {head : RedDataChunk} {next : List RedDataChunk}
    (recorded : Recorded info groupId place head next) (few : place.links + 1 < maxChunks) {chunk data : UInt64}
    {slotId : Int32}
    {slot : MemSlot} {size : UInt32} (isSlot : info.slotAt groupId slotId = some slot)
    (valid : slot.covers data size = true) :
    Recorded info groupId ⟨place.links + 1, chunk, place.total + size.toNat⟩ head
      (next ++ [⟨size, some data, slotId⟩]) := by
  refine ⟨few, fun other member => ?_, ?_⟩
  · rcases List.mem_append.mp (List.cons_append .. ▸ member) with isOld | isNew
    · exact recorded.inside other isOld
    · rw [List.mem_singleton.mp isNew]
      exact ⟨data, slot, rfl, isSlot, (slot.covers_iff _ _).mp valid⟩
  · have sum : sizesOf (head :: (next ++ [⟨size, some data, slotId⟩])) = sizesOf (head :: next) + size.toNat := by
      unfold sizesOf
      rw [<- List.cons_append, List.map_append, List.sum_append]
      rfl
    rw [sum, <- recorded.size]

theorem forall_reached_of_none {place : Place} (stuck : forall next, ¬ Link info groupId memory place next) :
    (forall reached, Relation.ReflTransGen (Link info groupId memory) place reached ->
      reached.Fits info groupId memory) <->
      place.Fits info groupId memory := by
  constructor
  · intro all
    exact all place Relation.ReflTransGen.refl
  · intro fits reached path
    rcases Relation.ReflTransGen.cases_head path with same | ⟨next, link, _⟩
    · exact same ▸ fits
    · exact absurd link (stuck next)

variable {place next : Place}

/-- What holds of all places behind one holds from the next on. -/
theorem forall_reached_of_link (link : Link info groupId memory place next)
    (only : forall other, Link info groupId memory place other -> other = next) :
    (forall reached, Relation.ReflTransGen (Link info groupId memory) place reached ->
      reached.Fits info groupId memory) <->
      place.Fits info groupId memory ∧
        forall reached, Relation.ReflTransGen (Link info groupId memory) next reached ->
          reached.Fits info groupId memory := by
  constructor
  · intro all
    exact ⟨all place Relation.ReflTransGen.refl, fun reached path => all reached (Relation.ReflTransGen.head link path)⟩
  · rintro ⟨fits, all⟩ reached path
    rcases Relation.ReflTransGen.cases_head path with same | ⟨other, otherLink, rest⟩
    · exact same ▸ fits
    · rw [only other otherLink] at rest
      exact all reached rest

theorem Link.next_eq {chunk : UInt64} (link : Link info groupId memory place next)
    (found : info.getVirt (memory.nextChunk place.links place.qxl) qxlDataChunkSize groupId = .virt chunk) :
    next = ⟨place.links + 1, chunk, place.total + (memory.dataSize (place.links + 1) chunk).toNat⟩ := by
  cases link with
  | empty _ _ other isEmpty =>
      cases other.symm.trans found
      rw [isEmpty]
      rfl
  | data _ _ other =>
      cases other.symm.trans found
      rfl

/-- The checks that a link to a chunk with data has passed. -/
theorem Link.passed {chunk : UInt64} {slotId : Int32} {slot : MemSlot} (link : Link info groupId memory place next)
    (found : info.getVirt (memory.nextChunk place.links place.qxl) qxlDataChunkSize groupId = .virt chunk)
    (isData : memory.dataSize (place.links + 1) chunk ≠ 0)
    (isId : info.getMemslotId (memory.nextChunk place.links place.qxl) = some slotId)
    (isSlot : info.slotAt groupId slotId = some slot) :
    place.total + (memory.dataSize (place.links + 1) chunk).toNat ≤ maxDataChunk ∧
      slot.covers (chunk + qxlDataChunkSize.toUInt64) (memory.dataSize (place.links + 1) chunk) = true := by
  cases link with
  | empty _ _ isChunk isZero =>
      cases isChunk.symm.trans found
      exact absurd isZero isData
  | data _ _ isChunk _ small otherId otherSlot valid =>
      cases isChunk.symm.trans found
      cases otherId.symm.trans isId
      cases otherSlot.symm.trans isSlot
      exact ⟨small, valid⟩

theorem Link.more (link : Link info groupId memory place next) :
    memory.nextChunk place.links place.qxl ≠ 0 ∧ place.links + 1 < maxChunks := by
  cases link with
  | empty more few => exact ⟨more, few⟩
  | data more few => exact ⟨more, few⟩

theorem Link.found (link : Link info groupId memory place next) : Exists fun chunk =>
    info.getVirt (memory.nextChunk place.links place.qxl) qxlDataChunkSize groupId = .virt chunk := by
  cases link with
  | empty _ _ found => exact ⟨_, found⟩
  | data _ _ found => exact ⟨_, found⟩

/-- The list ends where no chunk follows. -/
theorem followChunks_ended {place : Place} {head : RedDataChunk} {next : List RedDataChunk} (left : Nat)
    (recorded : Recorded info groupId place head next) (ended : memory.nextChunk place.links place.qxl = 0) :
    (Exists fun gathered => followChunks info groupId memory head left place.links place.qxl place.total next =
      some gathered ∧
      gathered.Bounded info groupId) <->
      forall reached, Relation.ReflTransGen (Link info groupId memory) place reached ->
        reached.Fits info groupId memory := by
  unfold followChunks
  rw [if_pos ended, forall_reached_of_none (fun other link => link.more.1 ended)]
  constructor
  · rintro ⟨gathered, isGathered, bounded⟩
    cases isGathered
    exact ⟨fun more => absurd ended more, fun _ => recorded.done_bounded.mp bounded⟩
  · intro fits
    exact ⟨_, rfl, recorded.done_bounded.mpr (fits.2 ended)⟩

theorem failed_iff {place : Place} (head : RedDataChunk) (links : Nat) {result : Option Gathered}
    (isError : result = some (.error head links)) (few : links ≤ maxChunks) (fits : place.Fits info groupId memory)
    (stuck : forall next, ¬ Link info groupId memory place next) :
    (Exists fun gathered => result = some gathered ∧ gathered.Bounded info groupId) <->
      forall reached, Relation.ReflTransGen (Link info groupId memory) place reached ->
        reached.Fits info groupId memory := by
  rw [forall_reached_of_none stuck]
  exact ⟨fun _ => fits, fun _ => ⟨_, isError, Gathered.error_bounded head few⟩⟩

/-- A link to a chunk in its slot is looked up, if the chunk is one that does not make `spice_critical` abort. -/
theorem Built.lookedUp_of_virt (built : Built info) {place : Place} {chunk : UInt64} {slotId : Int32} {slot : MemSlot}
    (found : info.getVirt (memory.nextChunk place.links place.qxl) qxlDataChunkSize groupId = .virt chunk)
    (isId : info.getMemslotId (memory.nextChunk place.links place.qxl) = some slotId)
    (isSlot : info.slotAt groupId slotId = some slot)
    (covers : info.aborts = true -> memory.dataSize (place.links + 1) chunk ≠ 0 ->
      place.total + (memory.dataSize (place.links + 1) chunk).toNat ≤ maxDataChunk ->
        slot.covers (chunk + qxlDataChunkSize.toUInt64) (memory.dataSize (place.links + 1) chunk) = true) :
    place.LookedUp info groupId memory := by
  refine fun _ _ => ⟨built.answered_of_virt found, fun aborts other otherId otherSlot isOther sameId sameSlot => ?_⟩
  cases isOther.symm.trans found
  cases sameId.symm.trans isId
  cases sameSlot.symm.trans isSlot
  exact covers aborts

/-- What is gathered from a place on is bounded exactly if all places that are reached fit. -/
theorem followChunks_iff (built : Built info) {place : Place} {head : RedDataChunk} {next : List RedDataChunk}
    {left : Nat}
    (recorded : Recorded info groupId place head next) (budget : left + place.links + 1 = maxChunks) :
    (Exists fun gathered => followChunks info groupId memory head left place.links place.qxl place.total next =
      some gathered ∧
      gathered.Bounded info groupId) <->
      forall reached, Relation.ReflTransGen (Link info groupId memory) place reached ->
        reached.Fits info groupId memory := by
  induction left generalizing place next with
  | zero =>
      by_cases ended : memory.nextChunk place.links place.qxl = 0
      · exact followChunks_ended 0 recorded ended
      · unfold followChunks
        rw [if_neg ended]
        refine failed_iff head place.links rfl (by omega) ⟨fun _ few => absurd few (by omega),
          fun isEnd => absurd isEnd ended⟩ ?_
        intro other link
        have few := link.more.2
        omega
  | succ left ih =>
      by_cases ended : memory.nextChunk place.links place.qxl = 0
      · exact followChunks_ended (left + 1) recorded ended
      · have few : place.links + 1 < maxChunks := by omega
        unfold followChunks
        rw [if_neg ended]
        have ends (ended' : info.getVirt (memory.nextChunk place.links place.qxl) qxlDataChunkSize groupId =
            .undefined ∨
            info.getVirt (memory.nextChunk place.links place.qxl) qxlDataChunkSize groupId = .aborted) :
            ¬ forall reached, Relation.ReflTransGen (Link info groupId memory) place reached ->
              reached.Fits info groupId memory := by
          intro all
          exact built.not_answered ended' ((all place .refl).1 ended few).1
        cases found : info.getVirt (memory.nextChunk place.links place.qxl) qxlDataChunkSize groupId with
        | undefined =>
            refine iff_of_false ?_ (ends (.inl found))
            rintro ⟨gathered, isGathered, _⟩
            cases info.getMemslotId (memory.nextChunk place.links place.qxl) <;> cases isGathered
        | aborted =>
            refine iff_of_false ?_ (ends (.inr found))
            rintro ⟨gathered, isGathered, _⟩
            cases info.getMemslotId (memory.nextChunk place.links place.qxl) <;> cases isGathered
        | error =>
            refine failed_iff head (place.links + 1) ?_ (Nat.le_of_lt few)
              ⟨fun _ _ => ⟨built.answered_of_error found,
                fun _ chunk _ _ isChunk => (by cases isChunk.symm.trans found)⟩,
                fun isEnd => absurd isEnd ended⟩ ?_
            · cases info.getMemslotId (memory.nextChunk place.links place.qxl) with
              | none => rfl
              | some slotId => rfl
            · intro other link
              rcases link.found with ⟨chunk, isChunk⟩
              cases isChunk.symm.trans found
        | virt chunk =>
            rcases info.slot_of_getVirt found with ⟨slotId, slot, isId, isSlot⟩
            have lookedUp := built.lookedUp_of_virt found isId isSlot
            have fits (covers : info.aborts = true -> memory.dataSize (place.links + 1) chunk ≠ 0 ->
                place.total + (memory.dataSize (place.links + 1) chunk).toNat ≤ maxDataChunk ->
                slot.covers (chunk + qxlDataChunkSize.toUInt64) (memory.dataSize (place.links + 1) chunk) = true) :
                place.Fits info groupId memory := ⟨lookedUp covers, fun isEnd => absurd isEnd ended⟩
            rw [isId]
            dsimp only
            by_cases isEmpty : memory.dataSize (place.links + 1) chunk = 0
            · rw [if_pos isEmpty]
              have link := Link.empty ended few found isEmpty
              have only (other : Place) (otherLink : Link info groupId memory place other) :
                  other = ⟨place.links + 1, chunk, place.total⟩ := by
                rw [otherLink.next_eq found, isEmpty]
                rfl
              rw [forall_reached_of_link link only, and_iff_right (fits fun _ some_ => absurd isEmpty some_)]
              exact ih (recorded.empty few chunk) (by dsimp only; omega)
            · rw [if_neg isEmpty]
              have passed (other : Place) (link : Link info groupId memory place other) :=
                link.passed found isEmpty isId isSlot
              by_cases large : maxDataChunk < place.total + (memory.dataSize (place.links + 1) chunk).toNat
              · rw [if_pos large]
                exact failed_iff head (place.links + 1) rfl (Nat.le_of_lt few)
                  (fits fun _ _ small => absurd large (Nat.not_lt.mpr small))
                  (fun other link => Nat.not_lt.mpr (passed other link).1 large)
              · rw [if_neg large]
                unfold validateChunk
                rw [isSlot, Option.map_some]
                cases covers : slot.covers (chunk + qxlDataChunkSize.toUInt64)
                  (memory.dataSize (place.links + 1) chunk) with
                | true =>
                    have link := Link.data ended few found isEmpty (Nat.not_lt.mp large) isId isSlot covers
                    rw [validateVirt_of_covers _ covers, forall_reached_of_link link
                      (fun other otherLink => otherLink.next_eq found), and_iff_right (fits fun _ _ _ => covers)]
                    exact ih (recorded.data few isSlot covers) (by dsimp only; omega)
                | false =>
                    rw [validateVirt_of_not_covers _ covers]
                    cases aborts : info.aborts with
                    | true =>
                        refine iff_of_false ?_ (fun all => ?_)
                        · rintro ⟨gathered, impossible, _⟩
                          cases impossible
                        · have known :=
                            ((all place .refl).1 ended few).2 aborts chunk slotId slot found isId isSlot isEmpty
                            (Nat.not_lt.mp large)
                          cases covers.symm.trans known
                    | false =>
                        refine failed_iff head (place.links + 1) rfl (Nat.le_of_lt few)
                          (fits fun impossible => (by cases aborts.symm.trans impossible)) (fun other link => ?_)
                        cases (passed other link).2.symm.trans covers

end Follow

/-- What is gathered is bounded exactly if the first chunk and the places that are reached from it fit. -/
theorem Built.chunksBounded_iff (built : Built info) (groupId : Int32) (memory : GuestMemory) (memslotId : Int32)
    (qxl : UInt64) :
    ChunksBounded info groupId memory memslotId qxl <-> ChunksFit info groupId memory memslotId qxl := by
  unfold ChunksBounded ChunksFit redGetDataChunksPtr validateChunk
  cases isSlot : info.slotAt groupId memslotId with
  | none =>
      constructor
      · rintro ⟨gathered, impossible, _⟩
        cases impossible
      · rintro ⟨slot, impossible, _⟩
        cases impossible
  | some slot =>
      rw [Option.map_some]
      cases covers : slot.covers (qxl + qxlDataChunkSize.toUInt64) (memory.dataSize 0 qxl) with
      | false =>
          rw [validateVirt_of_not_covers _ covers]
          cases aborts : info.aborts with
          | true =>
              refine iff_of_false ?_ ?_
              · rintro ⟨gathered, impossible, _⟩
                cases impossible
              · rintro ⟨other, same, refused, _⟩
                cases same
                cases (refused covers).1
          | false =>
              constructor
              · rintro ⟨gathered, isGathered, bounded⟩
                cases isGathered
                exact ⟨slot, rfl, fun _ => ⟨rfl, (bounded.cleared rfl).2.1⟩,
                  fun impossible => (by cases covers.symm.trans impossible)⟩
              · rintro ⟨other, same, refused, _⟩
                cases same
                refine ⟨_, rfl, Nat.zero_le _, fun impossible => (by cases impossible),
                  fun impossible => (by cases impossible),
                  fun impossible => (by cases impossible), fun _ => ⟨rfl, (refused covers).2, rfl, rfl⟩,
                  fun byteAt => ⟨[], false, linear_of_failed byteAt rfl, rfl⟩⟩
      | true =>
          have positive : 0 < maxChunks := by decide
          have budget : maxChunks - 1 + 0 + 1 = maxChunks := by decide
          have recorded : Recorded info groupId ⟨0, qxl, (memory.dataSize 0 qxl).toNat⟩
              ⟨memory.dataSize 0 qxl, some (qxl + qxlDataChunkSize.toUInt64), memslotId⟩ [] := by
            refine ⟨positive, fun chunk member => ?_, (Nat.add_zero _).symm⟩
            rw [List.mem_singleton.mp member]
            exact ⟨_, slot, rfl, isSlot, (slot.covers_iff _ _).mp covers⟩
          have follow := @followChunks_iff info groupId memory built _ _ _ (maxChunks - 1) recorded budget
          rw [validateVirt_of_covers _ covers]
          dsimp only at follow ⊢
          rw [follow]
          constructor
          · intro all
            exact ⟨slot, rfl, fun impossible => (by cases covers.symm.trans impossible), fun _ => all⟩
          · rintro ⟨other, same, _, all⟩
            cases same
            exact all covers

/-- Whatever was done with the slots and whatever the guest shows, the list that is gathered is bounded exactly if it
fits. -/
theorem data_chunks_bounded {aborts : Bool} {setup : Setup} {start info : RedMemSlotInfo} {ops : List SlotOp}
    (made : redMemslotInfoInit aborts setup = some start) (ran : run RedMemSlotInfo.step start ops = some info)
    (groupId : Int32) (memory : GuestMemory) (memslotId : Int32) (qxl : UInt64) :
    ChunksBounded info groupId memory memslotId qxl <-> ChunksFit info groupId memory memslotId qxl :=
  (Built.of_run made ran).chunksBounded_iff groupId memory memslotId qxl

/-- One chunk without a next one, of a size that the guest does not change. -/
def oneChunk (size : UInt32) : GuestMemory where
  dataSize := fun _ _ => size
  nextChunk := fun _ _ => 0

/-- Sixteen bytes in the slot. -/
theorem data_chunks_bounded_small : Exists fun (start : RedMemSlotInfo) => Exists fun (info : RedMemSlotInfo) =>
    redMemslotInfoInit true smallSetup = some start ∧ run RedMemSlotInfo.step start smallOps = some info ∧
      ChunksBounded info 0 (oneChunk 16) 1 0x7f0000000010 := by
  have checked : ((redMemslotInfoInit true smallSetup).bind (fun start => run RedMemSlotInfo.step start smallOps)).map
      (fun info => info.slotAt 0 1) = some (some ⟨3, 0x7f0000000000, 0x7f0000001000, 0x7f0000000000⟩) := by
    decide +kernel
  rcases Option.map_eq_some_iff.mp checked with ⟨info, found, isSlot⟩
  rcases Option.bind_eq_some_iff.mp found with ⟨start, made, ran⟩
  refine ⟨start, info, made, ran, (data_chunks_bounded made ran 0 (oneChunk 16) 1 0x7f0000000010).mpr ?_⟩
  refine ⟨_, isSlot, fun impossible => absurd impossible (by decide), fun _ => ?_⟩
  refine (forall_reached_of_none (fun next link => link.more.1 rfl)).mpr ⟨fun more => absurd rfl more, fun _ => ?_⟩
  show (16 : UInt32).toNat ≤ maxDataChunk
  decide

/-- A slot of 4 GiB. -/
def largeOps : List SlotOp := [.addSlot 0 1 0x7f0000000000 0x7f0000000000 0x7f0100000000 3]

/-- A first chunk that is not in its slot ends the process, or keeps its size where `spice_critical` does not abort; and
a first chunk may have more than `MAX_DATA_CHUNK` bytes. -/
theorem first_chunk_unbounded : Exists fun (start : Bool -> RedMemSlotInfo) => Exists fun
    (info : Bool -> RedMemSlotInfo) =>
    Exists fun (large : RedMemSlotInfo) => (forall aborts, redMemslotInfoInit aborts smallSetup = some (start aborts) ∧
      run RedMemSlotInfo.step (start aborts) smallOps = some (info aborts) ∧
      ¬ ChunksBounded (info aborts) 0 (oneChunk 5000) 1 0x7f0000000010) ∧
      run RedMemSlotInfo.step (start true) largeOps = some large ∧
      ¬ ChunksBounded large 0 (oneChunk 0x80000000) 1 0x7f0000000010 := by
  have checked (aborts : Bool) : ((redMemslotInfoInit aborts smallSetup).bind (fun start =>
      run RedMemSlotInfo.step start smallOps)).map
        (fun info => redGetDataChunksPtr info 0 (oneChunk 5000) 1 0x7f0000000010) =
        some (if aborts then none else some ⟨true, 0, ⟨5000, none, 1⟩, [], 0⟩) := by
    cases aborts <;> decide +kernel
  have checkedLarge :
      ((redMemslotInfoInit true smallSetup).bind (fun start => run RedMemSlotInfo.step start largeOps)).map
      (fun info => redGetDataChunksPtr info 0 (oneChunk 0x80000000) 1 0x7f0000000010) =
        some (some ⟨false, 0x80000000, ⟨0x80000000, some 0x7f0000000024, 1⟩, [], 0⟩) := by
    decide +kernel
  have each (aborts : Bool) : Exists fun start => Exists fun info => redMemslotInfoInit aborts smallSetup = some start ∧
      run RedMemSlotInfo.step start smallOps = some info ∧ ¬ ChunksBounded info 0 (oneChunk 5000) 1 0x7f0000000010 := by
    rcases Option.map_eq_some_iff.mp (checked aborts) with ⟨info, found, isGathered⟩
    rcases Option.bind_eq_some_iff.mp found with ⟨start, made, ran⟩
    refine ⟨start, info, made, ran, ?_⟩
    rintro ⟨gathered, same, bounded⟩
    cases aborts with
    | true => cases isGathered.symm.trans same
    | false =>
        cases isGathered.symm.trans same
        exact absurd (bounded.cleared rfl).2.1 (by decide)
  choose start info each using each
  rcases Option.map_eq_some_iff.mp checkedLarge with ⟨large, foundLarge, isLarge⟩
  rcases Option.bind_eq_some_iff.mp foundLarge with ⟨other, otherMade, ranLarge⟩
  cases (each true).1.symm.trans otherMade
  refine ⟨start, info, large, each, ranLarge, ?_⟩
  rintro ⟨gathered, same, bounded⟩
  cases isLarge.symm.trans same
  exact absurd (bounded.bounded rfl) (by decide)

end Guest
end Spice
