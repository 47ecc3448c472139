import Spice.Lib.Run
import Mathlib.Data.List.Perm.Basic
import Mathlib.Data.List.Nodup

namespace Spice
namespace Worker
namespace ReplayIds

open Lib

/-!
# Surface ids of a replay

A recording names surfaces by the ids they had when it was made.  The replay gives each surface an
id of its own, below `nsurfaces`, and takes it back when the worker releases the command that
destroys it, which can be long after the next surface of the same recorded id was created.  The
reading thread and the worker take the mutex for each change, so a run is a list of them.
-/

/-! ## The arrays -/

/-- `-1` as a `uint32_t`. -/
def noId : UInt32 := 0xffffffff

/-- `g_array_set_size`; elements that are added hold what the memory held. -/
def setSize (array : List UInt32) (size : Nat) (memory : Nat -> UInt32) : List UInt32 :=
  array.take size ++ (List.range (size - array.length)).map fun index => memory (array.length + index)

/-- `g_array_remove_index_fast` at the first element: the last one takes its place. -/
def removeFirstFast : List UInt32 -> List UInt32
  | [] => []
  | _ :: rest => rest.getLast?.toList ++ rest.dropLast

/-- A surface that was created: its recorded id and the one it has in the replay. -/
structure Surface where
  recorded : UInt32
  replayId : UInt32
deriving DecidableEq, Repr

def reserved : Surface := ⟨0, 0⟩

/-- A command that destroys a surface, with the id that was read for it, until the worker releases it. -/
structure Destroy where
  replayId : UInt32
  surface : Option Surface
deriving DecidableEq, Repr

/-- A reader that waits in `replay_id_new`, and whether it was signalled. -/
structure Waiting where
  id : UInt32
  memory : Nat -> UInt32
  signalled : Bool

/-- `SpiceReplay`, the reader that waits, and a history: the surfaces that were created, the last one first, those whose
destroy command was not released, and the destroy commands with the worker. -/
structure SpiceReplay where
  idMap : List UInt32
  idMapInv : List UInt32
  idFree : List UInt32
  nsurfaces : Nat
  waiting : Option Waiting
  created : List Surface
  inUse : List Surface
  destroys : List Destroy

namespace SpiceReplay

variable (replay : SpiceReplay)

def replayIdGet (id : UInt32) : UInt32 :=
  if id = noId then id else if replay.idMap.length ≤ id.toNat then 0 else replay.idMap.getD id.toNat 0

/-- The id that `replay_id_new` tries. -/
def takeId : UInt32 × SpiceReplay :=
  match replay.idFree with
  | [] => (UInt32.ofNat replay.idMapInv.length, replay)
  | first :: rest => (first, { replay with idFree := removeFirstFast (first :: rest) })

/-- The maps of `replay_id_new` are updated; `none` when an array is accessed outside its length. -/
def assign (id newId : UInt32) (memory : Nat -> UInt32) : Option SpiceReplay :=
  let map := if replay.idMap.length ≤ id.toNat then setSize replay.idMap (id + 1).toNat memory else replay.idMap
  let inv := if replay.idMapInv.length ≤ newId.toNat then setSize replay.idMapInv (newId + 1).toNat memory
    else replay.idMapInv
  if id.toNat < map.length ∧ newId.toNat < inv.length then
    some { replay with
      idMap := map.set id.toNat newId
      idMapInv := inv.set newId.toNat id
      waiting := none
      created := ⟨id, newId⟩ :: replay.created
      inUse := ⟨id, newId⟩ :: replay.inUse }
  else none

/-- `replay_id_new` until it returns or waits. -/
def replayIdNew (id : UInt32) (memory : Nat -> UInt32) : Option SpiceReplay :=
  let taken := replay.takeId
  if taken.1.toNat < replay.nsurfaces then taken.2.assign id taken.1 memory
  else some { taken.2 with waiting := some ⟨id, memory, false⟩ }

def signal : SpiceReplay := { replay with
    waiting := replay.waiting.map fun waiting => { waiting with signalled := true } }

/-- `replay_id_free`; `none` when an array is accessed outside its length. -/
def replayIdFree (id : UInt32) : Option SpiceReplay :=
  match replay.idMapInv[id.toNat]? with
  | none => none
  | some oldId =>
      let removed := { replay with idMapInv := replay.idMapInv.set id.toNat noId }
      if oldId = noId then some removed.signal
      else
        match replay.idMap[oldId.toNat]? with
        | none => none
        | some newest =>
            some { removed with
              idMap := if newest = id then replay.idMap.set oldId.toNat noId else replay.idMap
              idFree := replay.idFree ++ [id] }.signal

/-- The latest surface that was created with the recorded id. -/
def latest (id : UInt32) : Option Surface := replay.created.find? fun surface => surface.recorded = id

end SpiceReplay

/-- A surface command is read or an id in another command; the worker releases a destroy command, the first or any
other; the reader runs again, signalled or not. -/
inductive Op
  | create (id : UInt32) (memory : Nat -> UInt32)
  | get (id : UInt32)
  | destroy (id : UInt32)
  | release (index : Nat)
  | wake

namespace SpiceReplay

variable (replay : SpiceReplay)

/-- `red_replay_surface_cmd_free` of one of the destroy commands. -/
def release (index : Nat) : Option SpiceReplay :=
  match replay.destroys[index]? with
  | none => some replay
  | some command =>
      replayIdFree
        { replay with
          destroys := replay.destroys.eraseIdx index
          inUse := replay.inUse.filter fun surface => some surface ≠ command.surface }
        command.replayId

/-- A step.  Nothing is read while the reader waits. -/
def step : Op -> Option SpiceReplay
  | .create id memory => if replay.waiting.isSome then some replay else replay.replayIdNew id memory
  | .get _ => some replay
  | .destroy id =>
      if replay.waiting.isSome then some replay
      else some { replay with destroys := replay.destroys ++ [⟨replay.replayIdGet id, replay.latest id⟩] }
  | .release index => replay.release index
  | .wake =>
      match replay.waiting with
      | none => some replay
      | some waiting => replay.replayIdNew waiting.id waiting.memory

def new (nsurfaces : Nat) : SpiceReplay := ⟨[0], [0], [], nsurfaces, none, [reserved], [reserved], []⟩

end SpiceReplay

/-! ## What holds of the ids -/

/-- The ids in use are distinct, below `nsurfaces` and 0 is one of them, an id is read as that of the latest surface,
and a reader that waits while an id is free was signalled and goes on. -/
structure Bijection (past : List Op) (replay : SpiceReplay) : Prop where
  distinct : (replay.inUse.map Surface.replayId).Nodup
  below : forall surface, surface ∈ replay.inUse -> surface.replayId.toNat < replay.nsurfaces
  zero : reserved ∈ replay.inUse
  answers : forall id surface, past.getLast? = some (.get id) -> replay.latest id = some surface ->
    replay.replayIdGet id = surface.replayId
  proceeds : forall waiting, replay.waiting = some waiting -> replay.idFree ≠ [] ->
    waiting.signalled = true ∧ Exists fun next => replay.step .wake = some next ∧ next.waiting = none

/-- No surface is created with the id `-1`, and an id is only read of a surface that was created and not released; it is
destroyed once and is not surface 0. -/
def WellFormed (replay : SpiceReplay) : Op -> Prop
  | .create id _ => id ≠ noId
  | .get id => forall surface, replay.latest id = some surface -> surface ∈ replay.inUse
  | .destroy id => Exists fun surface => replay.latest id = some surface ∧ surface ∈ replay.inUse ∧
      surface ≠ reserved ∧ surface ∉ replay.destroys.filterMap Destroy.surface
  | _ => True

instance (replay : SpiceReplay) (op : Op) : Decidable (WellFormed replay op) :=
  match op with
  | .create id _ => inferInstanceAs (Decidable (id ≠ noId))
  | .get id => inferInstanceAs (Decidable (forall surface, surface ∈ replay.latest id -> surface ∈ replay.inUse))
  | .destroy id =>
      inferInstanceAs (Decidable (Exists fun surface => surface ∈ replay.latest id ∧ surface ∈ replay.inUse ∧
      surface ≠ reserved ∧ surface ∉ replay.destroys.filterMap Destroy.surface))
  | .release _ => isTrue trivial
  | .wake => isTrue trivial

/-! ## Arrays that grow -/

section Arrays

variable {array : List UInt32} {memory : Nat -> UInt32} {size index : Nat}

theorem length_setSize (grows : array.length ≤ size) : (setSize array size memory).length = size := by
  unfold setSize
  rw [List.length_append, List.length_take, List.length_map, List.length_range]
  omega

theorem getElem?_setSize (grows : array.length ≤ size) (inside : index < array.length) :
    (setSize array size memory)[index]? = array[index]? := by
  unfold setSize
  rw [List.take_of_length_le grows, List.getElem?_append_left inside]

theorem removeFirstFast_perm (first : UInt32) (rest : List UInt32) : (removeFirstFast (first :: rest)).Perm rest := by
  unfold removeFirstFast
  cases rest with
  | nil => exact List.Perm.refl _
  | cons second rest =>
      show ((second :: rest).getLast?.toList ++ (second :: rest).dropLast).Perm _
      rw [List.getLast?_eq_getLast_of_ne_nil (List.cons_ne_nil second rest), Option.toList_some]
      refine List.perm_append_comm.trans ?_
      rw [List.dropLast_append_getLast]

end Arrays

/-! ## The maps -/

/-- Each id in use is mapped to the surface that has it, and the recorded id of a surface to its id unless a later
surface has it; the free ids are others, and the destroy commands are of surfaces in use. -/
structure Maps (replay : SpiceReplay) : Prop where
  known : forall surface, surface ∈ replay.inUse -> surface.recorded ≠ noId ∧
    replay.idMapInv[surface.replayId.toNat]? = some surface.recorded ∧ surface.recorded.toNat < replay.idMap.length
  distinct : (replay.inUse.map Surface.replayId).Nodup
  free : forall id, id ∈ replay.idFree -> id.toNat < replay.idMapInv.length ∧ id ∉ replay.inUse.map Surface.replayId
  freeOnce : replay.idFree.Nodup
  size : replay.idMapInv.length ≤ replay.nsurfaces
  small : replay.nsurfaces < 2 ^ 31
  latest : forall id surface, replay.latest id = some surface -> surface ∈ replay.inUse ->
    replay.idMap[id.toNat]? = some surface.replayId
  destroys : forall command, command ∈ replay.destroys -> Exists fun surface =>
    command = ⟨surface.replayId, some surface⟩ ∧ surface ∈ replay.inUse ∧ surface ≠ reserved
  destroyedOnce : (replay.destroys.map Destroy.surface).Nodup
  zero : reserved ∈ replay.inUse

/-- A reader waits for an id as long as none is free. -/
structure Inv (replay : SpiceReplay) : Prop extends Maps replay where
  blocked : forall waiting, replay.waiting = some waiting -> waiting.id ≠ noId ∧
    (replay.idFree = [] -> replay.idMapInv.length = replay.nsurfaces) ∧ (replay.idFree ≠ [] -> waiting.signalled = true)

section Maps

variable {replay : SpiceReplay} {id newId : UInt32} {memory : Nat -> UInt32}

theorem toNat_succ (small : id ≠ noId) : (id + 1).toNat = id.toNat + 1 := by
  have bound : id.toNat ≠ 4294967295 := fun same => small (UInt32.toNat_inj.mp same)
  have less := id.toNat_lt
  rw [UInt32.toNat_add]
  show (id.toNat + 1) % 2 ^ 32 = id.toNat + 1
  omega

/-- An array that holds the index after it grew, if it had to. -/
theorem grown (array : List UInt32) (memory : Nat -> UInt32) (small : id ≠ noId) : Exists fun larger : List UInt32 =>
    (if array.length ≤ id.toNat then setSize array (id + 1).toNat memory else array) = larger ∧
      larger.length = max array.length (id.toNat + 1) ∧
      forall index, index < array.length -> larger[index]? = array[index]? := by
  refine ⟨_, rfl, ?_⟩
  rw [toNat_succ small]
  split
  · rename_i short
    refine ⟨?_, fun index inside => getElem?_setSize (by omega) inside⟩
    rw [length_setSize (by omega)]
    omega
  · exact ⟨by omega, fun _ _ => rfl⟩


/-- An id is given to a surface. -/
theorem Maps.assign (maps : Maps replay) (memory : Nat -> UInt32) (small : id ≠ noId)
    (fresh : newId ∉ replay.inUse.map Surface.replayId)
    (taken : newId ∉ replay.idFree) (next : newId.toNat ≤ replay.idMapInv.length)
    (below : newId.toNat < replay.nsurfaces) :
    Exists fun after => replay.assign id newId memory = some after ∧ Maps after ∧ after.waiting = none := by
  have bound := maps.small
  have newSmall : newId ≠ noId := by
    intro same
    rw [same] at below
    exact absurd below (Nat.not_lt_of_le (Nat.le_trans (Nat.le_of_lt bound) (by decide)))
  obtain ⟨map, isMap, mapLength, mapKept⟩ := grown replay.idMap memory small
  obtain ⟨inv, isInv, invLength, invKept⟩ := grown replay.idMapInv memory newSmall
  unfold SpiceReplay.assign
  dsimp only
  rw [isMap, isInv, if_pos ⟨by omega, by omega⟩]
  refine ⟨_, rfl, ⟨?_, ?_, ?_, maps.freeOnce, ?_, bound, ?_, ?_, maps.destroyedOnce, List.mem_cons_of_mem _ maps.zero⟩,
    rfl⟩
  · intro surface member
    rcases List.mem_cons.mp member with rfl | member
    · refine ⟨small, ?_, ?_⟩
      · exact List.getElem?_set_self (by omega)
      · rw [List.length_set]
        exact (by omega : id.toNat < map.length)
    · obtain ⟨notNone, known, inside⟩ := maps.known surface member
      have other : newId.toNat ≠ surface.replayId.toNat := by
        intro same
        refine fresh (List.mem_map.mpr ⟨surface, member, ?_⟩)
        exact UInt32.toNat_inj.mp same.symm
      refine ⟨notNone, ?_, ?_⟩
      · rw [List.getElem?_set_ne other, invKept _ (List.getElem?_eq_some_iff.mp known).1, known]
      · rw [List.length_set]
        omega
  · rw [List.map_cons]
    exact List.nodup_cons.mpr ⟨fresh, maps.distinct⟩
  · intro other member
    obtain ⟨inside, unused⟩ := maps.free other member
    refine ⟨?_, ?_⟩
    · rw [List.length_set]
      omega
    · rw [List.map_cons, List.mem_cons]
      rintro (same | used)
      · exact taken ((show other = newId from same) ▸ member)
      · exact unused used
  · rw [List.length_set]
    have size := maps.size
    show inv.length ≤ replay.nsurfaces
    omega
  · intro other surface isLatest member
    show (map.set id.toNat newId)[other.toNat]? = _
    unfold SpiceReplay.latest at isLatest
    rw [List.find?_cons] at isLatest
    by_cases same : id = other
    · simp only [same, decide_true] at isLatest
      cases isLatest
      rw [same]
      exact List.getElem?_set_self (by rw [<- same]; omega)
    · simp only [same, decide_false] at isLatest
      have isOther : surface.recorded = other := by
        have found := List.find?_some isLatest
        exact of_decide_eq_true found
      have inUse : surface ∈ replay.inUse := by
        rcases List.mem_cons.mp member with rfl | member
        · exact absurd isOther same
        · exact member
      have inside := (maps.known surface inUse).2.2
      rw [isOther] at inside
      rw [List.getElem?_set_ne (fun equal => same (UInt32.toNat_inj.mp equal)), mapKept _ inside]
      exact maps.latest other surface isLatest inUse
  · intro command member
    obtain ⟨surface, isCommand, inUse, notReserved⟩ := maps.destroys command member
    exact ⟨surface, isCommand, List.mem_cons_of_mem _ inUse, notReserved⟩

/-- A new surface gets an id, or waits for one. -/
theorem Maps.replayIdNew (maps : Maps replay) (memory : Nat -> UInt32) (small : id ≠ noId) :
    Exists fun after => replay.replayIdNew id memory = some after ∧ Inv after ∧
      (replay.idFree ≠ [] -> after.waiting = none) := by
  unfold SpiceReplay.replayIdNew SpiceReplay.takeId
  cases isFree : replay.idFree with
  | nil =>
      have size := maps.size
      have bound := maps.small
      have isNext : (UInt32.ofNat replay.idMapInv.length).toNat = replay.idMapInv.length :=
        UInt32.toNat_ofNat_of_lt' (by rw [UInt32.size]; omega)
      dsimp only
      rw [isNext]
      split
      · have fresh : UInt32.ofNat replay.idMapInv.length ∉ replay.inUse.map Surface.replayId := by
          intro used
          obtain ⟨surface, inUse, isId⟩ := List.mem_map.mp used
          have inside := (List.getElem?_eq_some_iff.mp (maps.known surface inUse).2.1).1
          rw [isId, isNext] at inside
          exact Nat.lt_irrefl _ inside
        obtain ⟨after, assigned, afterMaps, runs⟩ :=
          maps.assign memory small fresh (by rw [isFree]; exact List.not_mem_nil)
          (Nat.le_of_eq isNext) (by rw [isNext]; assumption)
        refine ⟨after, assigned, ⟨afterMaps, ?_⟩, fun _ => runs⟩
        intro waiting isWaiting
        rw [runs] at isWaiting
        cases isWaiting
      · rename_i full
        refine ⟨_, rfl, ⟨⟨maps.known, maps.distinct, maps.free, maps.freeOnce, size, bound, maps.latest, maps.destroys,
          maps.destroyedOnce, maps.zero⟩, ?_⟩, fun more => absurd rfl more⟩
        rintro waiting same
        cases same
        exact ⟨small, fun _ => by show replay.idMapInv.length = replay.nsurfaces; omega, fun more => absurd isFree more⟩
  | cons first rest =>
      have isPerm := removeFirstFast_perm first rest
      obtain ⟨inside, unused⟩ := maps.free first (by rw [isFree]; exact List.mem_cons_self)
      have once := maps.freeOnce
      rw [isFree] at once
      obtain ⟨notRest, restOnce⟩ := List.nodup_cons.mp once
      have size := maps.size
      have others : Maps { replay with idFree := removeFirstFast (first :: rest) } := by
        refine ⟨maps.known, maps.distinct, ?_, isPerm.nodup_iff.mpr restOnce, size, maps.small, maps.latest,
          maps.destroys,
          maps.destroyedOnce, maps.zero⟩
        intro other member
        refine maps.free other ?_
        rw [isFree]
        exact List.mem_cons_of_mem _ (isPerm.mem_iff.mp member)
      dsimp only
      rw [if_pos (by omega)]
      obtain ⟨after, assigned, afterMaps, runs⟩ := others.assign memory small unused
        (fun member => notRest (isPerm.mem_iff.mp member)) (Nat.le_of_lt inside)
        (by show first.toNat < replay.nsurfaces; omega)
      refine ⟨after, assigned, ⟨afterMaps, ?_⟩, fun _ => runs⟩
      intro waiting isWaiting
      rw [runs] at isWaiting
      cases isWaiting

/-- A command is released: its id is free again. -/
theorem Inv.release {index : Nat} (inv : Inv replay) : Exists fun after => replay.release index = some after ∧
    Inv after := by
  unfold SpiceReplay.release
  cases isCommand : replay.destroys[index]? with
  | none => exact ⟨replay, rfl, inv⟩
  | some command =>
      obtain ⟨inside, isAt⟩ := List.getElem?_eq_some_iff.mp isCommand
      obtain ⟨surface, rfl, inUse, notReserved⟩ := inv.destroys command (isAt ▸ List.getElem_mem inside)
      obtain ⟨notNone, known, recordedInside⟩ := inv.known surface inUse
      have newest : replay.idMap[surface.recorded.toNat]? = some replay.idMap[surface.recorded.toNat] :=
        List.getElem?_eq_getElem recordedInside
      dsimp only
      unfold SpiceReplay.replayIdFree
      dsimp only
      rw [known]
      dsimp only
      rw [if_neg notNone, newest]
      have unused : surface.replayId ∉ replay.idFree := fun member =>
        (inv.free _ member).2 (List.mem_map.mpr ⟨surface, inUse, rfl⟩)
      have left : forall other, other ∈ replay.inUse.filter (fun other => some other ≠ some surface) ->
          other ∈ replay.inUse ∧ other.replayId ≠ surface.replayId := by
        intro other member
        obtain ⟨member, different⟩ := List.mem_filter.mp member
        refine ⟨member, fun same => of_decide_eq_true different ?_⟩
        rw [List.inj_on_of_nodup_map inv.distinct member inUse same]
      refine ⟨_, rfl, ⟨⟨?_, ?_, ?_, ?_, ?_, inv.small, ?_, ?_, ?_, ?_⟩, ?_⟩⟩
      · intro other member
        obtain ⟨member, different⟩ := left other member
        obtain ⟨otherNotNone, otherKnown, otherInside⟩ := inv.known other member
        refine ⟨otherNotNone, ?_, ?_⟩
        · show (replay.idMapInv.set surface.replayId.toNat noId)[other.replayId.toNat]? = _
          rw [List.getElem?_set_ne (fun same => different (UInt32.toNat_inj.mp same.symm)), otherKnown]
        · show other.recorded.toNat < (if _ then _ else _ : List UInt32).length
          split
          · rw [List.length_set]
            exact otherInside
          · exact otherInside
      · exact (List.filter_sublist.map _).nodup inv.distinct
      · intro id member
        show id.toNat < (replay.idMapInv.set _ _).length ∧ id ∉ (replay.inUse.filter _).map _
        rw [List.length_set]
        rcases List.mem_append.mp member with member | member
        · obtain ⟨idInside, idUnused⟩ := inv.free id member
          refine ⟨idInside, fun used => idUnused ?_⟩
          exact (List.filter_sublist.map _).subset used
        · rw [List.mem_singleton.mp member]
          refine ⟨(List.getElem?_eq_some_iff.mp known).1, fun used => ?_⟩
          obtain ⟨other, otherUsed, same⟩ := List.mem_map.mp used
          exact (left other otherUsed).2 same
      · exact List.nodup_append.mpr ⟨inv.freeOnce, List.nodup_singleton _, fun one member other single same =>
          unused ((List.mem_singleton.mp single) ▸ same ▸ member)⟩
      · show (replay.idMapInv.set _ _).length ≤ _
        rw [List.length_set]
        exact inv.size
      · intro id other isLatest member
        obtain ⟨member, different⟩ := left other member
        have mapped := inv.latest id other isLatest member
        show (if _ then _ else _ : List UInt32)[id.toNat]? = _
        split
        · rename_i isNewest
          have apart : surface.recorded.toNat ≠ id.toNat := by
            intro same
            rw [<- same, newest, isNewest] at mapped
            exact different (Option.some.inj mapped).symm
          rw [List.getElem?_set_ne apart, mapped]
        · exact mapped
      · intro other member
        obtain ⟨found, isOther, otherInUse, otherNotReserved⟩ := inv.destroys other (List.mem_of_mem_eraseIdx member)
        refine ⟨found, isOther, List.mem_filter.mpr ⟨otherInUse, decide_eq_true fun same => ?_⟩, otherNotReserved⟩
        -- the surface has no second destroy command
        have once := ((List.getElem_cons_eraseIdx_perm inside).map Destroy.surface).nodup_iff.mpr inv.destroyedOnce
        rw [List.map_cons, isAt] at once
        refine (List.nodup_cons.mp once).1 (List.mem_map.mpr ⟨other, member, ?_⟩)
        rw [isOther]
        exact same
      · exact ((List.eraseIdx_sublist _ _).map _).nodup inv.destroyedOnce
      · exact List.mem_filter.mpr ⟨inv.zero, decide_eq_true fun same => notReserved (Option.some.inj same).symm⟩
      · intro waiting isWaiting
        obtain ⟨before, isBefore, rfl⟩ := Option.map_eq_some_iff.mp isWaiting
        refine ⟨(inv.blocked before isBefore).1, fun none => absurd none ?_, fun _ => rfl⟩
        exact List.append_ne_nil_of_right_ne_nil _ (List.cons_ne_nil _ _)

theorem Maps.replayIdGet {surface : Surface} (maps : Maps replay) (isLatest : replay.latest id = some surface)
    (inUse : surface ∈ replay.inUse) : replay.replayIdGet id = surface.replayId := by
  have isId : surface.recorded = id := by
    have found := List.find?_some isLatest
    exact of_decide_eq_true found
  have notNone := (maps.known surface inUse).1
  rw [isId] at notNone
  have mapped := maps.latest id surface isLatest inUse
  obtain ⟨inside, _⟩ := List.getElem?_eq_some_iff.mp mapped
  unfold SpiceReplay.replayIdGet
  rw [if_neg notNone, if_neg (Nat.not_le_of_lt inside), List.getD_eq_getElem?_getD, mapped, Option.getD_some]

/-- A surface is destroyed that was not before. -/
theorem Inv.destroy {surface : Surface} (inv : Inv replay) (isLatest : replay.latest id = some surface)
    (inUse : surface ∈ replay.inUse) (notReserved : surface ≠ reserved)
    (once : surface ∉ replay.destroys.filterMap Destroy.surface) :
    Inv { replay with destroys := replay.destroys ++ [⟨replay.replayIdGet id, replay.latest id⟩] } := by
  rw [isLatest, inv.replayIdGet isLatest inUse]
  refine ⟨⟨inv.known, inv.distinct, inv.free, inv.freeOnce, inv.size, inv.small, inv.latest, ?_, ?_, inv.zero⟩,
    inv.blocked⟩
  · intro command member
    rcases List.mem_append.mp member with member | member
    · exact inv.destroys command member
    · exact ⟨surface, List.mem_singleton.mp member, inUse, notReserved⟩
  · rw [List.map_append, List.map_singleton]
    refine List.nodup_append.mpr ⟨inv.destroyedOnce, List.nodup_singleton _, ?_⟩
    intro one member other single same
    obtain ⟨command, isCommand, isOne⟩ := List.mem_map.mp member
    rw [same, List.mem_singleton.mp single] at isOne
    exact once (List.mem_filterMap.mpr ⟨command, isCommand, isOne⟩)

/-- Every operation that is well formed keeps the maps. -/
theorem Inv.step {op : Op} (inv : Inv replay) (wellFormed : WellFormed replay op) :
    Exists fun after => replay.step op = some after ∧ Inv after := by
  cases op with
  | get id => exact ⟨replay, rfl, inv⟩
  | release index => exact inv.release
  | create id memory =>
      unfold SpiceReplay.step
      dsimp only
      split
      · exact ⟨replay, rfl, inv⟩
      · obtain ⟨after, stepped, afterInv, _⟩ := inv.replayIdNew memory wellFormed
        exact ⟨after, stepped, afterInv⟩
  | destroy id =>
      obtain ⟨surface, isLatest, inUse, notReserved, once⟩ := wellFormed
      unfold SpiceReplay.step
      dsimp only
      split
      · exact ⟨replay, rfl, inv⟩
      · exact ⟨_, rfl, inv.destroy isLatest inUse notReserved once⟩
  | wake =>
      unfold SpiceReplay.step
      cases isWaiting : replay.waiting with
      | none => exact ⟨replay, rfl, inv⟩
      | some waiting =>
          obtain ⟨after, stepped, afterInv, _⟩ :=
            inv.replayIdNew waiting.memory (inv.blocked waiting isWaiting).1
          exact ⟨after, stepped, afterInv⟩

/-- A reader that waits while an id is free goes on. -/
theorem Inv.proceeds {waiting : Waiting} (inv : Inv replay) (isWaiting : replay.waiting = some waiting)
    (free : replay.idFree ≠ []) : waiting.signalled = true ∧
      Exists fun next => replay.step .wake = some next ∧ next.waiting = none := by
  obtain ⟨small, _, signalled⟩ := inv.blocked waiting isWaiting
  obtain ⟨after, stepped, _, runs⟩ := inv.replayIdNew waiting.memory small
  refine ⟨signalled free, after, ?_, runs free⟩
  unfold SpiceReplay.step
  rw [isWaiting]
  exact stepped

theorem Inv.bijection {past : List Op} (inv : Inv replay)
    (asked : forall id surface, past.getLast? = some (.get id) -> replay.latest id = some surface ->
      surface ∈ replay.inUse) : Bijection past replay where
  distinct := inv.distinct
  below := by
    intro surface member
    have inside := (List.getElem?_eq_some_iff.mp (inv.known surface member).2.1).1
    exact Nat.lt_of_lt_of_le inside inv.size
  zero := inv.zero
  answers := fun id surface isLast isLatest => inv.replayIdGet isLatest (asked id surface isLast isLatest)
  proceeds := fun _ isWaiting free => inv.proceeds isWaiting free

end Maps

theorem inv_new {nsurfaces : Nat} (positive : 1 ≤ nsurfaces) (small : nsurfaces < 2 ^ 31) : Inv (.new nsurfaces) where
  known := by
    intro surface member
    rw [List.mem_singleton.mp member]
    exact ⟨by decide, rfl, Nat.one_pos⟩
  distinct := List.nodup_singleton _
  free := fun _ member => (nomatch member)
  freeOnce := List.nodup_nil
  size := positive
  small := small
  latest := by
    intro id surface isLatest member
    have isId := List.find?_some isLatest
    rw [List.mem_singleton.mp member] at isId ⊢
    rw [<- of_decide_eq_true isId]
    rfl
  destroys := fun _ member => (nomatch member)
  destroyedOnce := List.nodup_nil
  zero := List.mem_singleton_self _
  blocked := fun _ isWaiting => (nomatch isWaiting)

/-- In every interleaving of the reading thread and the worker in which only surfaces that exist are named, and each is
destroyed once, the ids in use stay a bijection in every state. -/
theorem replay_ids (nsurfaces : Nat) (enough : 2 ≤ nsurfaces) (isInt : nsurfaces < 2 ^ 31) (ops : List Op)
    (meets : Meets SpiceReplay.step (fun _ => WellFormed) [] (.new nsurfaces) ops) :
    AllStates SpiceReplay.step Bijection [] (.new nsurfaces) ops := by
  have sound : forall (past : List Op) (replay : SpiceReplay),
      (Inv replay ∧ forall id surface, past.getLast? = some (.get id) -> replay.latest id = some surface ->
        surface ∈ replay.inUse) -> Bijection past replay := fun _ _ inv => inv.1.bijection inv.2
  refine allStates_of_meets sound ?_ ⟨inv_new (by omega) isInt, fun _ _ isLast => (nomatch isLast)⟩ meets
  intro past replay op inv wellFormed
  obtain ⟨after, stepped, afterInv⟩ := inv.1.step wellFormed
  refine ⟨after, stepped, afterInv, ?_⟩
  intro id surface isLast isLatest
  rw [List.getLast?_concat] at isLast
  cases isLast
  cases stepped
  exact wellFormed surface isLatest

/-- Surface 5 is destroyed and created again while its first destroy command is with the worker, and the reader waits
for an id. -/
theorem replay_ids_reuse : AllStates SpiceReplay.step Bijection [] (.new 2)
    [.create 5 fun _ => 7, .destroy 5, .create 5 fun _ => 7, .release 0, .wake, .get 5] := by
  have checked : checkRun SpiceReplay.step (fun replay op => decide (WellFormed replay op)) (.new 2)
      [.create 5 fun _ => 7, .destroy 5, .create 5 fun _ => 7, .release 0, .wake, .get 5] = true := by decide +kernel
  have sound : forall (_ : List Op) (replay : SpiceReplay) (op : Op), decide (WellFormed replay op) = true ->
      WellFormed replay op := fun _ _ _ isTrue => of_decide_eq_true isTrue
  exact replay_ids 2 (by decide) (by decide) _ (Meets.of_check sound _ [] _ checked)

/-- A surface that was never created is destroyed: the id that is freed is 0, and the next surface gets it. -/
theorem replay_ids_unknown_destroy :
    Not (forall (nsurfaces : Nat) (ops : List Op), 2 ≤ nsurfaces -> nsurfaces < 2 ^ 31 ->
    AllStates SpiceReplay.step Bijection [] (.new nsurfaces) ops) := by
  intro always
  have ran : (run SpiceReplay.step (.new 2) [.destroy 7, .release 0, .create 3 fun _ => 7]).map
      (fun replay => replay.inUse.map Surface.replayId) = some [0, 0] := by decide +kernel
  obtain ⟨middle, isMiddle, bijection⟩ := always 2 [.destroy 7, .release 0, .create 3 fun _ => 7]
    (by decide) (by decide) _ (List.prefix_refl _)
  rw [isMiddle] at ran
  have ids : middle.inUse.map Surface.replayId = [0, 0] := Option.some.inj ran
  have twice := bijection.distinct
  rw [ids] at twice
  revert twice
  decide

end ReplayIds
end Worker
end Spice
