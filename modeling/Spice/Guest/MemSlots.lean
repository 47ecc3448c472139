import Spice.Lib.Run

namespace Spice
namespace Guest

open Lib

/-!
# Addresses of the guest

An address of the guest has a slot id in its upper bits, a generation below them, and an
offset.  The slots are in a table of groups, and a slot says where its memory is and how
the offset becomes an address of the host.  A shift by the width of a word or more is
undefined, and so is reading a slot outside of the table.

An address that is refused is reported with `spice_critical`, which ends the process unless
the abort level is set below it.  The level at which an assertion does not end the process
either is left out.
-/

structure MemSlot where
  generation : Int32
  virtStartAddr : UInt64
  virtEndAddr : UInt64
  addressDelta : UInt64
deriving DecidableEq, Repr

/-- A slot that was never added, or was reset. -/
def MemSlot.zero : MemSlot := { generation := 0, virtStartAddr := 0, virtEndAddr := 0, addressDelta := 0 }

/-- `RedMemSlotInfo`, and whether `spice_critical` aborts in this process. -/
structure RedMemSlotInfo where
  aborts : Bool
  memSlots : List (List MemSlot)
  numMemslotsGroups : UInt32
  numMemslots : UInt32
  memslotIdShift : UInt8
  memslotGenShift : UInt8
  memslotGenMask : UInt64
  memslotCleanVirtMask : UInt64
deriving DecidableEq, Repr

/-- The arguments of `red_memslot_info_init`. -/
structure Setup where
  numGroups : UInt32
  numSlots : UInt32
  generationBits : UInt8
  idBits : UInt8
deriving DecidableEq, Repr

/-- `red_memslot_info_init`, with its assertions; a mask that needs a shift by 64 or more is undefined. -/
def redMemslotInfoInit (aborts : Bool) (setup : Setup) : Option RedMemSlotInfo :=
  if setup.numSlots = 0 ∨ setup.numGroups = 0 then none
  else if 64 ≤ setup.generationBits.toNat ∨ 64 ≤ setup.idBits.toNat + setup.generationBits.toNat then none
  else some {
    aborts := aborts
    memSlots := List.replicate setup.numGroups.toNat (List.replicate setup.numSlots.toNat .zero)
    numMemslotsGroups := setup.numGroups
    numMemslots := setup.numSlots
    memslotIdShift := 64 - setup.idBits
    memslotGenShift := 64 - (setup.idBits + setup.generationBits)
    memslotGenMask := ~~~ ((-1 : UInt64) <<< UInt64.ofNat setup.generationBits.toNat)
    memslotCleanVirtMask := (-1 : UInt64) >>> UInt64.ofNat (setup.idBits.toNat + setup.generationBits.toNat) }

namespace RedMemSlotInfo

variable (info : RedMemSlotInfo)

def modifySlot (groupId slotId : UInt32) (change : MemSlot -> MemSlot) : Option RedMemSlotInfo :=
  if groupId < info.numMemslotsGroups ∧ slotId < info.numMemslots then
    some { info with memSlots := info.memSlots.modify groupId.toNat (fun group => group.modify slotId.toNat change) }
  else none

def addSlot (groupId slotId : UInt32) (addrDelta virtStart virtEnd : UInt64) (generation : UInt32) :
    Option RedMemSlotInfo :=
  info.modifySlot groupId slotId (fun _ =>
    { generation := generation.toInt32, virtStartAddr := virtStart, virtEndAddr := virtEnd, addressDelta := addrDelta })

def delSlot (groupId slotId : UInt32) : Option RedMemSlotInfo :=
  info.modifySlot groupId slotId (fun slot => { slot with virtStartAddr := 0, virtEndAddr := 0 })

def reset : RedMemSlotInfo := { info with memSlots := info.memSlots.map (fun group => group.map (fun _ => .zero)) }

/-- `get_memslot_id`, as an `int`. -/
def getMemslotId (addr : UInt64) : Option Int32 :=
  if 64 ≤ info.memslotIdShift.toNat then none
  else some (addr >>> UInt64.ofNat info.memslotIdShift.toNat).toUInt32.toInt32

def getGeneration (addr : UInt64) : Option Int32 :=
  if 64 ≤ info.memslotGenShift.toNat then none
  else some ((addr >>> UInt64.ofNat info.memslotGenShift.toNat) &&& info.memslotGenMask).toUInt32.toInt32

/-- `__get_clean_virt`, and the address of the host. -/
def hostVirt (slot : MemSlot) (addr : UInt64) : UInt64 := (addr &&& info.memslotCleanVirtMask) + slot.addressDelta

/-- `mem_slots[group_id][slot_id]`. -/
def slotAt (groupId slotId : Int32) : Option MemSlot :=
  if 0 ≤ groupId.toInt ∧ 0 ≤ slotId.toInt then
    (info.memSlots[groupId.toInt.toNat]?).bind (fun group => group[slotId.toInt.toNat]?)
  else none

end RedMemSlotInfo

/-- The comparisons of `validate_virt`. -/
def MemSlot.covers (slot : MemSlot) (virt : UInt64) (addSize : UInt32) : Bool :=
  if virt + addSize.toUInt64 < virt then false
  else if virt < slot.virtStartAddr ∨ slot.virtEndAddr < virt + addSize.toUInt64 then false
  else true

/-- How `validate_virt` ends: before it returns 0, `spice_critical` may abort. -/
inductive Validity
  | valid
  | refused
  | aborted
deriving DecidableEq, Repr

/-- `validate_virt`, for the slot. -/
def validateVirt (aborts : Bool) (slot : MemSlot) (virt : UInt64) (addSize : UInt32) : Validity :=
  if slot.covers virt addSize then .valid else if aborts then .aborted else .refused

/-- How `get_virt` ends: with an address of the host, with an error, with an abort, or with nothing that is defined. -/
inductive Translation
  | virt (address : UInt64)
  | error
  | aborted
  | undefined
deriving DecidableEq, Repr

namespace RedMemSlotInfo

variable (info : RedMemSlotInfo)

/-- `spice_critical`, and the error if it does not abort. -/
def refuse : Translation := if info.aborts then .aborted else .error

/-- `get_virt`.  Both comparisons are unsigned. -/
def getVirt (addr : UInt64) (addSize : UInt32) (groupId : Int32) : Translation :=
  if info.numMemslotsGroups < groupId.toUInt32 then info.refuse
  else
    match info.getMemslotId addr with
    | none => .undefined
    | some slotId =>
        if info.numMemslots < slotId.toUInt32 then info.refuse
        else
          match info.slotAt groupId slotId, info.getGeneration addr with
          | some slot, some generation =>
              if generation ≠ slot.generation then info.refuse
              else
                match validateVirt info.aborts slot (info.hostVirt slot addr) addSize with
                | .valid => .virt (info.hostVirt slot addr)
                | .refused => .error
                | .aborted => .aborted
          | _, _ => .undefined

end RedMemSlotInfo

/-- Slots are added, deleted or reset. -/
inductive SlotOp
  | addSlot (groupId slotId : UInt32) (addrDelta virtStart virtEnd : UInt64) (generation : UInt32)
  | delSlot (groupId slotId : UInt32)
  | reset

def RedMemSlotInfo.step (info : RedMemSlotInfo) : SlotOp -> Option RedMemSlotInfo
  | .addSlot groupId slotId addrDelta virtStart virtEnd generation =>
      info.addSlot groupId slotId addrDelta virtStart virtEnd generation
  | .delSlot groupId slotId => info.delSlot groupId slotId
  | .reset => some info.reset

/-! ## What a translation has to be -/

/-- An address that is given is one of a slot in the table, of the same generation, and the memory from it on is inside
of the slot; nothing else but an error is given. -/
def Contained (info : RedMemSlotInfo) (addr : UInt64) (addSize : UInt32) (groupId : Int32) : Prop :=
  match info.getVirt addr addSize groupId with
  | .virt address => Exists fun slotId => Exists fun slot =>
      groupId.toInt < info.numMemslotsGroups.toNat ∧ info.getMemslotId addr = some slotId ∧
      slotId.toInt < info.numMemslots.toNat ∧ info.slotAt groupId slotId = some slot ∧
      info.getGeneration addr = some slot.generation ∧ slot.virtStartAddr.toNat ≤ address.toNat ∧
      address.toNat + addSize.toNat ≤ slot.virtEndAddr.toNat
  | .error => True
  | .aborted => False
  | .undefined => False

/-- The group and the slot id that pass the checks are in the table. -/
def InTable (info : RedMemSlotInfo) (addr : UInt64) (groupId : Int32) : Prop :=
  info.numMemslotsGroups < groupId.toUInt32 ∨ Exists fun slotId => info.getMemslotId addr = some slotId ∧
    (info.numMemslots < slotId.toUInt32 ∨
      (0 ≤ groupId.toInt ∧ groupId.toInt < info.numMemslotsGroups.toNat ∧
        0 ≤ slotId.toInt ∧ slotId.toInt < info.numMemslots.toNat))

/-- The address is one of this slot of the table, of the same generation, and the memory from it on is inside of the
slot. -/
structure AcceptedBy (info : RedMemSlotInfo) (addr : UInt64) (addSize : UInt32) (groupId slotId : Int32)
    (slot : MemSlot) :
    Prop where
  isId : info.getMemslotId addr = some slotId
  isSlot : info.slotAt groupId slotId = some slot
  generation : info.getGeneration addr = some slot.generation
  start : slot.virtStartAddr.toNat ≤ (info.hostVirt slot addr).toNat
  ends : (info.hostVirt slot addr).toNat + addSize.toNat ≤ slot.virtEndAddr.toNat

def Accepted (info : RedMemSlotInfo) (addr : UInt64) (addSize : UInt32) (groupId : Int32) : Prop :=
  Exists fun slotId => Exists fun slot => AcceptedBy info addr addSize groupId slotId slot

/-- Nothing outside of the table is read, and where `spice_critical` aborts, it is not called. -/
def Answered (info : RedMemSlotInfo) (addr : UInt64) (addSize : UInt32) (groupId : Int32) : Prop :=
  if info.aborts then Accepted info addr addSize groupId else InTable info addr groupId

/-! ## The table -/

/-- The table has its size, and a generation can be read whenever a slot id can. -/
structure Built (info : RedMemSlotInfo) : Prop where
  groups : info.memSlots.length = info.numMemslotsGroups.toNat
  slots : forall group, group ∈ info.memSlots -> group.length = info.numMemslots.toNat
  shifts : info.memslotIdShift.toNat < 64 -> info.memslotGenShift.toNat < 64

/-- The slots are built when they are made. -/
theorem Built.init {aborts : Bool} {setup : Setup} {info : RedMemSlotInfo}
    (made : redMemslotInfoInit aborts setup = some info) : Built info := by
  unfold redMemslotInfoInit at made
  split at made
  · cases made
  · split at made
    · cases made
    · rename_i _ narrow
      cases made
      refine ⟨List.length_replicate, fun group member => ?_, fun someBits => ?_⟩
      · rw [List.eq_of_mem_replicate member, List.length_replicate]
      · have idBits : (64 - setup.idBits).toNat < 64 := someBits
        show (64 - (setup.idBits + setup.generationBits)).toNat < 64
        simp only [UInt8.toNat_sub, UInt8.toNat_add, UInt8.reduceToNat] at idBits ⊢
        omega

/-- A slot is changed in its place. -/
theorem Built.modifySlot {info next : RedMemSlotInfo} {groupId slotId : UInt32} {change : MemSlot -> MemSlot}
    (built : Built info) (changed : info.modifySlot groupId slotId change = some next) : Built next := by
  unfold RedMemSlotInfo.modifySlot at changed
  split at changed
  · cases changed
    refine ⟨by rw [List.length_modify, built.groups], fun group member => ?_, built.shifts⟩
    rcases List.mem_iff_getElem.mp member with ⟨index, inside, isGroup⟩
    rw [List.length_modify] at inside
    have old := built.slots _ (List.getElem_mem inside)
    rw [List.getElem_modify] at isGroup
    split at isGroup
    · rw [<- isGroup, List.length_modify]
      exact old
    · rw [<- isGroup]
      exact old
  · cases changed

theorem Built.step {info next : RedMemSlotInfo} {op : SlotOp} (built : Built info)
    (stepped : info.step op = some next) :
    Built next := by
  cases op with
  | addSlot groupId slotId addrDelta virtStart virtEnd generation => exact built.modifySlot stepped
  | delSlot groupId slotId => exact built.modifySlot stepped
  | reset =>
      cases stepped
      refine ⟨(List.length_map _).trans built.groups, fun group member => ?_, built.shifts⟩
      rcases List.mem_map.mp member with ⟨old, isOld, same⟩
      rw [<- same, List.length_map]
      exact built.slots old isOld

theorem Built.slotAt_iff {info : RedMemSlotInfo} (built : Built info) (groupId slotId : Int32) :
    (Exists fun slot => info.slotAt groupId slotId = some slot) <->
      (0 ≤ groupId.toInt ∧ groupId.toInt < info.numMemslotsGroups.toNat ∧
        0 ≤ slotId.toInt ∧ slotId.toInt < info.numMemslots.toNat) := by
  have groups := built.groups
  unfold RedMemSlotInfo.slotAt
  constructor
  · rintro ⟨slot, found⟩
    split at found
    · rename_i positive
      rcases Option.bind_eq_some_iff.mp found with ⟨group, isGroup, isSlot⟩
      have inGroups := (List.getElem?_eq_some_iff.mp isGroup).1
      have inSlots := (List.getElem?_eq_some_iff.mp isSlot).1
      rw [built.slots group (List.mem_of_getElem? isGroup)] at inSlots
      omega
    · cases found
  · intro inside
    rw [if_pos ⟨inside.1, inside.2.2.1⟩]
    have inGroups : groupId.toInt.toNat < info.memSlots.length := by omega
    rw [List.getElem?_eq_getElem inGroups, Option.bind_some]
    have slots := built.slots _ (List.getElem_mem inGroups)
    have inSlots : slotId.toInt.toNat < (info.memSlots[groupId.toInt.toNat]).length := by omega
    exact ⟨_, List.getElem?_eq_getElem inSlots⟩

/-! ## Translations -/

theorem MemSlot.covers_iff (slot : MemSlot) (virt : UInt64) (addSize : UInt32) : slot.covers virt addSize = true <->
    slot.virtStartAddr.toNat ≤ virt.toNat ∧ virt.toNat + addSize.toNat ≤ slot.virtEndAddr.toNat := by
  have bound := virt.toNat_lt
  have size := addSize.toNat_lt
  have ends := slot.virtEndAddr.toNat_lt
  unfold MemSlot.covers
  simp only [UInt64.lt_iff_toNat_lt, UInt64.toNat_add, UInt32.toNat_toUInt64]
  split_ifs with wraps outside
  · exact iff_of_false id (by omega)
  · exact iff_of_false id (by omega)
  · exact iff_of_true rfl (by omega)

/-- An index that is not negative is the same number for an unsigned comparison. -/
theorem toNat_toUInt32 {index : Int32} (positive : 0 ≤ index.toInt) : index.toUInt32.toNat = index.toInt.toNat := by
  have value : index.toInt = index.toUInt32.toBitVec.toInt := rfl
  rw [value, BitVec.toInt_eq_toNat_cond] at positive ⊢
  have same : index.toUInt32.toNat = index.toUInt32.toBitVec.toNat := rfl
  have bound := index.toUInt32.toBitVec.isLt
  rw [same]
  split at positive <;> split <;> omega

theorem Built.getGeneration {info : RedMemSlotInfo} (built : Built info) {addr : UInt64} {slotId : Int32}
    (isId : info.getMemslotId addr = some slotId) :
    Exists fun generation => info.getGeneration addr = some generation := by
  unfold RedMemSlotInfo.getMemslotId at isId
  split at isId
  · cases isId
  · rename_i narrow
    have shift := built.shifts (Nat.lt_of_not_le narrow)
    unfold RedMemSlotInfo.getGeneration
    rw [if_neg (Nat.not_le_of_lt shift)]
    exact ⟨_, rfl⟩

section Translations

variable {info : RedMemSlotInfo} {addr : UInt64} {addSize : UInt32} {groupId : Int32}

theorem Accepted.inTable (built : Built info) (accepted : Accepted info addr addSize groupId) :
    InTable info addr groupId := by
  rcases accepted with ⟨slotId, slot, by_⟩
  exact .inr ⟨slotId, by_.isId, .inr ((built.slotAt_iff groupId slotId).mp ⟨slot, by_.isSlot⟩)⟩

theorem Answered.inTable (built : Built info) (answered : Answered info addr addSize groupId) :
    InTable info addr groupId := by
  unfold Answered at answered
  split at answered
  · exact answered.inTable built
  · exact answered

/-- An accepted address is translated. -/
theorem AcceptedBy.getVirt {slotId : Int32} {slot : MemSlot} (built : Built info)
    (by_ : AcceptedBy info addr addSize groupId slotId slot) :
    info.getVirt addr addSize groupId = .virt (info.hostVirt slot addr) := by
  rcases (built.slotAt_iff groupId slotId).mp ⟨slot, by_.isSlot⟩ with ⟨groupSome, groupIn, idSome, idIn⟩
  have group : ¬ info.numMemslotsGroups < groupId.toUInt32 := by
    rw [UInt32.lt_iff_toNat_lt, toNat_toUInt32 groupSome]
    omega
  have id : ¬ info.numMemslots < slotId.toUInt32 := by
    rw [UInt32.lt_iff_toNat_lt, toNat_toUInt32 idSome]
    omega
  unfold RedMemSlotInfo.getVirt
  rw [if_neg group, by_.isId]
  dsimp only
  rw [if_neg id, by_.isSlot, by_.generation]
  dsimp only
  rw [if_neg (fun differs => differs rfl), validateVirt, if_pos ((slot.covers_iff _ _).mpr ⟨by_.start, by_.ends⟩)]

theorem refuse_ne_virt {address : UInt64} : info.refuse ≠ .virt address := by
  unfold RedMemSlotInfo.refuse
  split <;> exact Translation.noConfusion

theorem refuse_ne_undefined : info.refuse ≠ .undefined := by
  unfold RedMemSlotInfo.refuse
  split <;> exact Translation.noConfusion

/-- A translated address was accepted. -/
theorem acceptedBy_of_virt {address : UInt64} (found : info.getVirt addr addSize groupId = .virt address) :
    Exists fun slotId => Exists fun slot => AcceptedBy info addr addSize groupId slotId slot ∧
      info.hostVirt slot addr = address := by
  unfold RedMemSlotInfo.getVirt at found
  split at found
  · exact absurd found refuse_ne_virt
  split at found
  · cases found
  rename_i slotId isId
  split at found
  · exact absurd found refuse_ne_virt
  split at found
  · rename_i slot generation isSlot isGeneration
    split at found
    · exact absurd found refuse_ne_virt
    rename_i same
    unfold validateVirt at found
    by_cases covers : slot.covers (info.hostVirt slot addr) addSize = true
    · rw [if_pos covers] at found
      have bounds := (slot.covers_iff _ _).mp covers
      exact ⟨slotId, slot, ⟨isId, isSlot, by rw [isGeneration, not_not.mp same], bounds.1, bounds.2⟩,
        Translation.virt.inj found⟩
    · rw [if_neg covers] at found
      split_ifs at found
  · cases found

/-- Nothing is undefined exactly when the slot that is read is in the table. -/
theorem Built.defined_iff (built : Built info) : info.getVirt addr addSize groupId ≠ .undefined <->
    InTable info addr groupId := by
  unfold InTable RedMemSlotInfo.getVirt
  by_cases bigGroup : info.numMemslotsGroups < groupId.toUInt32
  · rw [if_pos bigGroup]
    exact iff_of_true refuse_ne_undefined (.inl bigGroup)
  rw [if_neg bigGroup]
  cases isId : info.getMemslotId addr with
  | none =>
      refine iff_of_false (fun defined => defined rfl) (fun found => ?_)
      rcases found with big | ⟨slotId, impossible, _⟩
      · exact bigGroup big
      · cases impossible
  | some slotId =>
      dsimp only
      by_cases bigSlot : info.numMemslots < slotId.toUInt32
      · rw [if_pos bigSlot]
        exact iff_of_true refuse_ne_undefined (.inr ⟨slotId, rfl, .inl bigSlot⟩)
      rw [if_neg bigSlot]
      rcases built.getGeneration isId with ⟨generation, isGeneration⟩
      have slots := built.slotAt_iff groupId slotId
      cases isSlot : info.slotAt groupId slotId with
      | none =>
          rw [isSlot] at slots
          refine iff_of_false (fun defined => defined rfl) (fun found => ?_)
          rcases found with big | ⟨other, same, big | inside⟩
          · exact bigGroup big
          · cases same
            exact bigSlot big
          · cases same
            rcases slots.mpr inside with ⟨_, impossible⟩
            cases impossible
      | some slot =>
          refine iff_of_true ?_ (.inr ⟨slotId, rfl, .inr (slots.mp ⟨slot, isSlot⟩)⟩)
          rw [isGeneration]
          dsimp only
          split
          · exact refuse_ne_undefined
          · unfold validateVirt
            split_ifs <;> exact Translation.noConfusion

/-- An error is returned only where `spice_critical` does not abort, and an abort comes only from it. -/
theorem aborts_of_getVirt : (info.getVirt addr addSize groupId = .error -> info.aborts = false) ∧
    (info.getVirt addr addSize groupId = .aborted -> info.aborts = true) := by
  have refused : (info.refuse = .error -> info.aborts = false) ∧ (info.refuse = .aborted -> info.aborts = true) := by
    unfold RedMemSlotInfo.refuse
    cases info.aborts <;> decide
  unfold RedMemSlotInfo.getVirt
  split
  · exact refused
  split
  · exact ⟨Translation.noConfusion, Translation.noConfusion⟩
  split
  · exact refused
  split
  · split
    · exact refused
    · unfold validateVirt
      split_ifs with covers aborts
      · exact ⟨fun impossible => (by cases impossible), fun impossible => (by cases impossible)⟩
      · exact ⟨fun impossible => (by cases impossible), fun _ => aborts⟩
      · exact ⟨fun _ => Bool.not_eq_true _ ▸ aborts, fun impossible => (by cases impossible)⟩
  · exact ⟨Translation.noConfusion, Translation.noConfusion⟩

/-- What `get_virt` ends with: an address that was accepted, an error where none of them aborts, or neither. -/
theorem Built.answered_iff (built : Built info) : Answered info addr addSize groupId <->
    info.getVirt addr addSize groupId ≠ .undefined ∧ info.getVirt addr addSize groupId ≠ .aborted := by
  rw [built.defined_iff]
  constructor
  · intro answered
    refine ⟨answered.inTable built, fun aborted => ?_⟩
    unfold Answered at answered
    rw [if_pos (aborts_of_getVirt.2 aborted)] at answered
    rcases answered with ⟨slotId, slot, by_⟩
    cases (by_.getVirt built).symm.trans aborted
  · rintro ⟨inTable, goesOn⟩
    unfold Answered
    split
    · rename_i aborts
      cases found : info.getVirt addr addSize groupId with
      | virt address =>
          rcases acceptedBy_of_virt found with ⟨slotId, slot, by_, -⟩
          exact ⟨slotId, slot, by_⟩
      | error => cases (aborts_of_getVirt.1 found).symm.trans aborts
      | aborted => exact absurd found goesOn
      | undefined => exact absurd found (built.defined_iff.mpr inTable)
    · exact inTable

theorem Built.contained_iff (built : Built info) :
    Contained info addr addSize groupId <-> Answered info addr addSize groupId := by
  rw [built.answered_iff]
  unfold Contained
  cases found : info.getVirt addr addSize groupId with
  | virt address =>
      refine iff_of_true ?_ ⟨Translation.noConfusion, Translation.noConfusion⟩
      rcases acceptedBy_of_virt found with ⟨slotId, slot, by_, same⟩
      have inside := (built.slotAt_iff groupId slotId).mp ⟨slot, by_.isSlot⟩
      rw [<- same]
      exact ⟨slotId, slot, inside.2.1, by_.isId, inside.2.2.2, by_.isSlot, by_.generation, by_.start, by_.ends⟩
  | error => exact iff_of_true trivial ⟨Translation.noConfusion, Translation.noConfusion⟩
  | aborted => exact iff_of_false (fun contained => contained) (fun both => both.2 rfl)
  | undefined => exact iff_of_false (fun contained => contained) (fun both => both.1 rfl)

end Translations

theorem Built.of_run {aborts : Bool} {setup : Setup} {start info : RedMemSlotInfo} {ops : List SlotOp}
    (made : redMemslotInfoInit aborts setup = some start) (ran : run RedMemSlotInfo.step start ops = some info) :
    Built info := by
  have keep : forall (_ : List SlotOp) (state : RedMemSlotInfo) (op : SlotOp) (next : RedMemSlotInfo), Built state ->
      RedMemSlotInfo.step state op = some next -> Built next := fun _ _ _ _ built stepped => built.step stepped
  exact run_invariant keep ops [] start info (Built.init made) ran

/-- Whatever was done with the slots, a translation is contained exactly when the group and the slot id that pass the
checks are in the table and, where `spice_critical` aborts, the address is accepted. -/
theorem get_virt_contained {aborts : Bool} {setup : Setup} {start info : RedMemSlotInfo} {ops : List SlotOp}
    (made : redMemslotInfoInit aborts setup = some start) (ran : run RedMemSlotInfo.step start ops = some info)
    (addr : UInt64) (addSize : UInt32) (groupId : Int32) :
    Contained info addr addSize groupId <-> Answered info addr addSize groupId :=
  (Built.of_run made ran).contained_iff

/-- Two groups of two slots, with eight bits for the slot id and eight for the generation. -/
def smallSetup : Setup := { numGroups := 2, numSlots := 2, generationBits := 8, idBits := 8 }

/-- One slot, for 4096 bytes. -/
def smallOps : List SlotOp := [.addSlot 0 1 0x7f0000000000 0x7f0000000000 0x7f0000001000 3]

theorem get_virt_contained_small : Exists fun (start : RedMemSlotInfo) => Exists fun (info : RedMemSlotInfo) =>
    redMemslotInfoInit true smallSetup = some start ∧ run RedMemSlotInfo.step start smallOps = some info ∧
      info.getVirt 0x0103000000000010 16 0 = .virt 0x7f0000000010 ∧ Contained info 0x0103000000000010 16 0 := by
  have checked : ((redMemslotInfoInit true smallSetup).bind (fun start => run RedMemSlotInfo.step start smallOps)).map
      (fun info =>
      (info.getVirt 0x0103000000000010 16 0, info.aborts)) = some (.virt 0x7f0000000010, true) := by
    decide +kernel
  rcases Option.map_eq_some_iff.mp checked with ⟨info, found, values⟩
  rcases Option.bind_eq_some_iff.mp found with ⟨start, made, ran⟩
  rcases Prod.mk.inj values with ⟨translated, aborts⟩
  refine ⟨start, info, made, ran, translated, (get_virt_contained made ran 0x0103000000000010 16 0).mpr ?_⟩
  rcases acceptedBy_of_virt translated with ⟨slotId, slot, by_, -⟩
  rw [Answered, if_pos aborts]
  exact ⟨slotId, slot, by_⟩

/-- The group just past the last one, and the slot id just past the last one, pass the checks; and where
`spice_critical` aborts, there is no error for an address of another generation. -/
theorem slot_past_the_table : Exists fun (start : RedMemSlotInfo) => Exists fun (info : RedMemSlotInfo) =>
    redMemslotInfoInit true smallSetup = some start ∧ run RedMemSlotInfo.step start smallOps = some info ∧
      info.numMemslotsGroups = 2 ∧ ¬ Contained info 0x0103000000000010 16 2 ∧
      info.numMemslots = 2 ∧ info.getMemslotId 0x0203000000000010 = some 2 ∧ ¬ Contained info 0x0203000000000010 16 0 ∧
      ¬ Contained info 0x0104000000000010 16 0 := by
  have checked : ((redMemslotInfoInit true smallSetup).bind (fun start => run RedMemSlotInfo.step start smallOps)).map
      (fun info =>
      (info.numMemslotsGroups, info.getVirt 0x0103000000000010 16 2, info.numMemslots,
        info.getMemslotId 0x0203000000000010,
        info.getVirt 0x0203000000000010 16 0, info.getVirt 0x0104000000000010 16 0)) =
      some (2, .undefined, 2, some 2, .undefined, .aborted) := by
    decide +kernel
  rcases Option.map_eq_some_iff.mp checked with ⟨info, found, values⟩
  rcases Option.bind_eq_some_iff.mp found with ⟨start, made, ran⟩
  simp only [Prod.mk.injEq] at values
  rcases values with ⟨groups, groupPast, slots, isId, slotPast, aborted⟩
  refine ⟨start, info, made, ran, groups, fun contained => ?_, slots, isId, fun contained => ?_, fun contained => ?_⟩
  · rw [Contained, groupPast] at contained
    exact contained
  · rw [Contained, slotPast] at contained
    exact contained
  · rw [Contained, aborted] at contained
    exact contained

end Guest
end Spice
