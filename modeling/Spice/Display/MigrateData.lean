import Spice.Lib.Bytes
import Spice.Lib.Int32
import Mathlib.Logic.Function.Basic

namespace Spice
namespace Display

open Lib

/-!
# The migration data of a display channel

The source of a migration describes a display channel client in one message, which the
client hands on to the target.  The message has a fixed part and, at an offset that the
fixed part gives, the surfaces that the client has.  With jpeg compression every surface
comes with the extents of its lossy region, so there are two layouts, and it is the target
that decides which one it reads.

A read outside of the message is undefined, and so is a surface id outside of the tables.
-/

def numSurfaces : Nat := 10000

def wideClientAckWindow : Nat := 40

structure SpiceRect where
  left : Int32
  top : Int32
  right : Int32
  bottom : Int32
deriving DecidableEq, Repr

namespace SpiceRect

def Contains (rect : SpiceRect) (x y : Int) : Prop :=
  rect.left.toInt ≤ x ∧ x < rect.right.toInt ∧ rect.top.toInt ≤ y ∧ y < rect.bottom.toInt

def Inside (rect outer : SpiceRect) : Prop :=
  outer.left ≤ rect.left ∧ outer.top ≤ rect.top ∧ rect.right ≤ outer.right ∧ rect.bottom ≤ outer.bottom

/-- The smallest rectangle with both inside. -/
def hull (rect other : SpiceRect) : SpiceRect where
  left := min rect.left other.left
  top := min rect.top other.top
  right := max rect.right other.right
  bottom := max rect.bottom other.bottom

theorem Inside.refl (rect : SpiceRect) : rect.Inside rect :=
  ⟨Int32.le_refl _, Int32.le_refl _, Int32.le_refl _, Int32.le_refl _⟩

theorem Inside.trans {rect middle outer : SpiceRect} (first : rect.Inside middle) (second : middle.Inside outer) :
    rect.Inside outer :=
  ⟨Int32.le_trans second.1 first.1, Int32.le_trans second.2.1 first.2.1,
    Int32.le_trans first.2.2.1 second.2.2.1, Int32.le_trans first.2.2.2 second.2.2.2⟩

theorem left_le_max (one two : Int32) : one ≤ max one two := by
  show one ≤ if one ≤ two then two else one
  split
  · assumption
  · exact Int32.le_refl one

theorem right_le_max (one two : Int32) : two ≤ max one two := by
  show two ≤ if one ≤ two then two else one
  split
  · exact Int32.le_refl two
  · rename_i less
    rw [Int32.le_iff_toInt_le] at less ⊢
    omega

theorem inside_hull_left (rect other : SpiceRect) : rect.Inside (rect.hull other) :=
  ⟨Std.min_le_left, Std.min_le_left, left_le_max _ _, left_le_max _ _⟩

theorem inside_hull_right (rect other : SpiceRect) : other.Inside (rect.hull other) :=
  ⟨Std.min_le_right, Std.min_le_right, right_le_max _ _, right_le_max _ _⟩

theorem Contains.mono {rect outer : SpiceRect} {x y : Int} (contains : rect.Contains x y) (inside : rect.Inside outer) :
    outer.Contains x y := by
  unfold Contains at contains ⊢
  have left := Int32.le_iff_toInt_le.mp inside.1
  have top := Int32.le_iff_toInt_le.mp inside.2.1
  have right := Int32.le_iff_toInt_le.mp inside.2.2.1
  have bottom := Int32.le_iff_toInt_le.mp inside.2.2.2
  omega

end SpiceRect

/-- `QRegion`: rectangles, and their extents.  An empty region has extents too. -/
structure QRegion where
  rects : List SpiceRect
  extents : SpiceRect
  bounded : forall rect, rect ∈ rects -> rect.Inside extents
deriving DecidableEq, Repr

namespace QRegion

def Contains (region : QRegion) (x y : Int) : Prop := Exists fun rect => rect ∈ region.rects ∧ rect.Contains x y

def regionInit : QRegion where
  rects := []
  extents := { left := 0, top := 0, right := 0, bottom := 0 }
  bounded := fun _ member => absurd member List.not_mem_nil

/-- `region_add`; an empty rectangle is not added. -/
def regionAdd (region : QRegion) (rect : SpiceRect) : QRegion :=
  if rect.left < rect.right ∧ rect.top < rect.bottom then
    { rects := rect :: region.rects
      extents := if region.rects = [] then rect else rect.hull region.extents
      bounded := by
        intro other member
        split
        · rename_i empty
          rw [empty, List.mem_singleton] at member
          rw [member]
          exact SpiceRect.Inside.refl rect
        · rcases List.mem_cons.mp member with same | old
          · rw [same]
            exact SpiceRect.inside_hull_left rect region.extents
          · exact (region.bounded other old).trans (SpiceRect.inside_hull_right rect region.extents) }
  else region

end QRegion

/-- `PixmapCache`, as far as the migration goes. -/
structure PixmapCache where
  id : Nat
  refs : Nat
  available : Int
  size : Int
  sync : List Nat
deriving DecidableEq, Repr

/-- `GlzSharedDictionary`, with what its dictionary is restored from. -/
structure GlzSharedDictionary where
  id : Nat
  refs : Nat
  size : Nat
  maxEncoders : Nat
  lastImageId : Nat
deriving DecidableEq, Repr

def maxWindowSize : Nat := 2 ^ 25

inductive WanCompression
  | invalid
  | auto
  | always
  | never
deriving DecidableEq, Repr

inductive PipeItemType
  | pixmapReset
  | invalPaletteCache
deriving DecidableEq, Repr

/-- `surface_client_created` and `surface_client_lossy_region`. -/
structure ClientSurfaces where
  created : Nat -> Bool
  lossyRegion : Nat -> QRegion

/-- The display channel client with its channel, its worker, and the caches and dictionaries of its client. -/
structure DisplayChannelClient where
  jpegState : WanCompression
  zlibGlzState : WanCompression
  enableJpeg : Bool
  enableZlibGlzWrap : Bool
  pixmapCaches : List PixmapCache
  glzDictionaries : List GlzSharedDictionary
  pixmapCache : Option Nat
  glzDict : Option Nat
  isLowBandwidth : Nat
  clientWindow : Nat
  messagesWindow : Nat
  pipe : List PipeItemType
  surfaces : ClientSurfaces

/-- `SpiceMigrateDataHeader` and `SpiceMigrateDataDisplay`. -/
structure MigrateDataDisplay where
  magic : Nat
  version : Nat
  messageSerial : Nat
  lowBandwidthSetting : Nat
  pixmapCacheId : Nat
  pixmapCacheSize : Nat
  pixmapCacheFreezer : Nat
  pixmapCacheClients : List Nat
  glzDictId : Nat
  glzDictSize : Nat
  glzDictMaxEncoders : Nat
  glzDictLastImageId : Nat
  surfacesAtClientPtr : Nat
deriving DecidableEq, Repr

/-- `sizeof(SpiceMigrateDataHeader) + sizeof(SpiceMigrateDataDisplay)`. -/
def fixedSize : Nat := 80

/-- `SPICE_MIGRATE_DATA_DISPLAY_MAGIC`, the letters DCMD. -/
def displayMagic : Nat := 0x444d4344

def displayVersion : Nat := 1

/-- The fixed part of the message. -/
def readMigrateData (message : List UInt8) : Option MigrateDataDisplay := do
  let magic <- fieldAt message 0 4
  let version <- fieldAt message 4 4
  let messageSerial <- fieldAt message 8 8
  let lowBandwidthSetting <- fieldAt message 16 1
  let pixmapCacheId <- fieldAt message 17 1
  let pixmapCacheSize <- fieldAt message 18 8
  let pixmapCacheFreezer <- fieldAt message 26 1
  let client0 <- fieldAt message 27 8
  let client1 <- fieldAt message 35 8
  let client2 <- fieldAt message 43 8
  let client3 <- fieldAt message 51 8
  let glzDictId <- fieldAt message 59 1
  let glzDictSize <- fieldAt message 60 4
  let glzDictMaxEncoders <- fieldAt message 64 4
  let glzDictLastImageId <- fieldAt message 68 8
  let surfacesAtClientPtr <- fieldAt message 76 4
  some {
    magic := magic
    version := version
    messageSerial := messageSerial
    lowBandwidthSetting := lowBandwidthSetting
    pixmapCacheId := pixmapCacheId
    pixmapCacheSize := pixmapCacheSize
    pixmapCacheFreezer := pixmapCacheFreezer
    pixmapCacheClients := [client0, client1, client2, client3]
    glzDictId := glzDictId
    glzDictSize := glzDictSize
    glzDictMaxEncoders := glzDictMaxEncoders
    glzDictLastImageId := glzDictLastImageId
    surfacesAtClientPtr := surfacesAtClientPtr }

/-- What came of the message: `stopped` is an abort or a write through `NULL`. -/
inductive Handled (α : Type)
  | accepted (next : α)
  | rejected (next : α)
  | stopped
  | undefined

/-- What comes after something is accepted. -/
def Handled.andThen {α : Type} (next : α -> Handled α) : Handled α -> Handled α
  | .accepted value => next value
  | .rejected value => .rejected value
  | .stopped => .stopped
  | .undefined => .undefined

/-- `display_channel_client_restore_surface`; `none` when the id is outside of the table. -/
def restoreSurface (surfaces : ClientSurfaces) (id : Nat) : Option (ClientSurfaces × Bool) :=
  if id < numSurfaces then
    if surfaces.created id then some (surfaces, false)
    else some ({ surfaces with created := Function.update surfaces.created id true }, true)
  else none

/-- The loop over the surfaces.  An entry has a width, and what comes after its id is restored by `restoreRegion`. -/
def restoreSurfaces (message : List UInt8) (width : Nat)
    (restoreRegion : Nat -> Nat -> ClientSurfaces -> Option ClientSurfaces) :
    Nat -> Nat -> ClientSurfaces -> Handled ClientSurfaces
  | 0, _, surfaces => .accepted surfaces
  | count + 1, entry, surfaces =>
      match fieldAt message entry 4 with
      | none => .undefined
      | some id =>
          match restoreSurface surfaces id with
          | none => .undefined
          | some (surfaces, false) => .rejected surfaces
          | some (surfaces, true) =>
              match restoreRegion entry id surfaces with
              | none => .undefined
              | some surfaces => restoreSurfaces message width restoreRegion count (entry + width) surfaces

def int32At (message : List UInt8) (offset : Nat) : Option Int32 :=
  (fieldAt message offset 4).map (fun value => (UInt32.ofNat value).toInt32)

/-- `SpiceMigrateDataRect`. -/
def readRect (message : List UInt8) (offset : Nat) : Option SpiceRect := do
  let left <- int32At message offset
  let top <- int32At message (offset + 4)
  let right <- int32At message (offset + 8)
  let bottom <- int32At message (offset + 12)
  some { left := left, top := top, right := right, bottom := bottom }

def restoreLossyRegion (message : List UInt8) (entry id : Nat) (surfaces : ClientSurfaces) : Option ClientSurfaces :=
  (readRect message (entry + 4)).map (fun rect =>
    { surfaces with lossyRegion := Function.update surfaces.lossyRegion id (QRegion.regionInit.regionAdd rect) })

/-- `display_channel_client_restore_surfaces_lossless`, after `num_surfaces`. -/
def restoreSurfacesLossless (message : List UInt8) : Nat -> Nat -> ClientSurfaces -> Handled ClientSurfaces :=
  restoreSurfaces message 4 (fun _ _ surfaces => some surfaces)

/-- `display_channel_client_restore_surfaces_lossy`, after `num_surfaces`. -/
def restoreSurfacesLossy (message : List UInt8) : Nat -> Nat -> ClientSurfaces -> Handled ClientSurfaces :=
  restoreSurfaces message 20 (restoreLossyRegion message)

namespace DisplayChannelClient

variable (dcc : DisplayChannelClient)

/-- `red_get_pixmap_cache` with the size -1. -/
def getPixmapCache (id : Nat) : DisplayChannelClient :=
  if dcc.pixmapCaches.any (fun cache => cache.id == id) then
    { dcc with
      pixmapCache := some id
      pixmapCaches := dcc.pixmapCaches.map (fun cache =>
        if cache.id = id then { cache with refs := cache.refs + 1 } else cache) }
  else
    { dcc with
      pixmapCache := some id
      pixmapCaches := { id := id, refs := 1, available := -1, size := -1, sync := [0, 0, 0, 0] } :: dcc.pixmapCaches }

/-- The serials that the cache waits for, and its size if this client has frozen it. -/
def restorePixmapCache (data : MigrateDataDisplay) : DisplayChannelClient :=
  let dcc := dcc.getPixmapCache data.pixmapCacheId
  let synced := dcc.pixmapCaches.map (fun cache =>
    if cache.id = data.pixmapCacheId then { cache with sync := List.zipWith max cache.sync data.pixmapCacheClients }
    else cache)
  if data.pixmapCacheFreezer ≠ 0 then
    { dcc with
      pixmapCaches := synced.map (fun cache =>
        if cache.id = data.pixmapCacheId then { cache with size := (UInt64.ofNat data.pixmapCacheSize).toInt64.toInt }
        else cache)
      pipe := dcc.pipe ++ [.pixmapReset] }
  else { dcc with pixmapCaches := synced }

/-- `display_channel_handle_migrate_glz_dictionary`, where a failed assertion may abort.  A dictionary that cannot be
made is used all the same, and its image id is written through `NULL`.  The heads of the encoders are allocated with a
size that is an `int`: for a negative one the allocation aborts, for 0 it gives `NULL`, and all heads are set in any
case. -/
def handleMigrateGlzDictionary (aborts : Bool) (data : MigrateDataDisplay) : Handled DisplayChannelClient :=
  if dcc.glzDict.isSome && aborts then .stopped
  else if dcc.glzDictionaries.any (fun dict => dict.id == data.glzDictId) then
    .accepted { dcc with
      glzDict := some data.glzDictId
      glzDictionaries := dcc.glzDictionaries.map (fun dict =>
        if dict.id = data.glzDictId then { dict with refs := dict.refs + 1 } else dict) }
  else if maxWindowSize < data.glzDictSize ∨ int32 (4 * data.glzDictMaxEncoders) ≤ 0 then .stopped
  else if int32 (4 * data.glzDictMaxEncoders) < 4 * data.glzDictMaxEncoders then .undefined
  else
    .accepted { dcc with
      glzDict := some data.glzDictId
      glzDictionaries :=
        { id := data.glzDictId, refs := 1, size := data.glzDictSize, maxEncoders := data.glzDictMaxEncoders,
          lastImageId := data.glzDictLastImageId } :: dcc.glzDictionaries }

/-- The bandwidth of the client, and the compressions that follow it. -/
def restoreBandwidth (data : MigrateDataDisplay) : DisplayChannelClient :=
  let dcc := { dcc with isLowBandwidth := data.lowBandwidthSetting }
  if data.lowBandwidthSetting ≠ 0 then
    { dcc with
      clientWindow := wideClientAckWindow
      enableJpeg := if dcc.jpegState = .auto then true else dcc.enableJpeg
      enableZlibGlzWrap := if dcc.zlibGlzState = .auto then true else dcc.enableZlibGlzWrap }
  else dcc

/-- The part of `display_channel_handle_migrate_data` between the checks and the surfaces. -/
def restoreFixedPart (aborts : Bool) (data : MigrateDataDisplay) : Handled DisplayChannelClient :=
  ((dcc.restorePixmapCache data).handleMigrateGlzDictionary aborts data).andThen
    (fun dcc => .accepted (dcc.restoreBandwidth data))

/-- The surfaces, in the layout for the compression of the target. -/
def restoreClientSurfaces (message : List UInt8) (ptr : Nat) : Handled ClientSurfaces :=
  match fieldAt message ptr 4 with
  | none => .undefined
  | some num =>
      if dcc.enableJpeg then restoreSurfacesLossy message num (ptr + 4) dcc.surfaces
      else restoreSurfacesLossless message num (ptr + 4) dcc.surfaces

/-- `spice_error` before a return: it may abort, depending on the level that was set. -/
def refuse (aborts : Bool) : Handled DisplayChannelClient := if aborts then .stopped else .rejected dcc

def handleMigrateData (aborts : Bool) (message : List UInt8) : Handled DisplayChannelClient :=
  if message.length < fixedSize then dcc.refuse aborts
  else
    match readMigrateData message with
    | none => .undefined
    | some data =>
        if data.magic ≠ displayMagic then dcc.refuse aborts
        else if displayVersion < data.version then dcc.refuse aborts
        else
          (dcc.restoreFixedPart aborts data).andThen fun dcc =>
            match dcc.restoreClientSurfaces message data.surfacesAtClientPtr with
            | .accepted surfaces =>
                .accepted { dcc with
                  surfaces := surfaces
                  pipe := dcc.pipe ++ [.invalPaletteCache]
                  messagesWindow := 0 }
            | .rejected surfaces => .rejected { dcc with surfaces := surfaces }
            | .stopped => .stopped
            | .undefined => .undefined

end DisplayChannelClient

/-! ## The loop over the surfaces -/

/-- The ids of the surfaces, when all entries are inside of the message. -/
def entryIds (message : List UInt8) (width : Nat) : Nat -> Nat -> Option (List Nat)
  | 0, _ => some []
  | count + 1, entry =>
      if entry + width ≤ message.length then
        match fieldAt message entry 4, entryIds message width count (entry + width) with
        | some id, some rest => some (id :: rest)
        | _, _ => none
      else none

/-- Ids of the table that are all different and that the client does not have. -/
def Fresh (created : Nat -> Bool) (ids : List Nat) : Prop :=
  ids.Nodup ∧ forall id, id ∈ ids -> id < numSurfaces ∧ created id = false

/-- The surfaces that the client has together with the given ones. -/
def mark (created : Nat -> Bool) (ids : List Nat) (id : Nat) : Bool := created id || decide (id ∈ ids)

/-- What the loop needs of a layout: an entry starts with its id, and what is restored after it reads the rest of the
entry and leaves the created surfaces alone. -/
structure Layout (message : List UInt8) (width : Nat)
    (restoreRegion : Nat -> Nat -> ClientSurfaces -> Option ClientSurfaces) : Prop where
  wide : 4 ≤ width
  created : forall entry id surfaces next, restoreRegion entry id surfaces = some next ->
    next.created = surfaces.created
  inside : forall entry id surfaces, entry + 4 ≤ message.length ->
    ((Exists fun next => restoreRegion entry id surfaces = some next) <-> entry + width ≤ message.length)

theorem lossless_layout (message : List UInt8) : Layout message 4 (fun _ _ surfaces => some surfaces) where
  wide := Nat.le_refl 4
  created := fun _ _ _ _ same => by cases same; rfl
  inside := fun _ _ surfaces inside => ⟨fun _ => inside, fun _ => ⟨surfaces, rfl⟩⟩

theorem int32At_iff (message : List UInt8) (offset : Nat) :
    (Exists fun value => int32At message offset = some value) <-> offset + 4 ≤ message.length := by
  unfold int32At
  constructor
  · rintro ⟨value, found⟩
    rcases Option.map_eq_some_iff.mp found with ⟨field, isField, _⟩
    exact (fieldAt_eq_some isField).1
  · intro inside
    rcases fieldAt_of_inside inside with ⟨field, isField⟩
    rw [isField]
    exact ⟨_, rfl⟩

/-- A rectangle is read if it is in the message. -/
theorem readRect_iff (message : List UInt8) (offset : Nat) :
    (Exists fun rect => readRect message offset = some rect) <-> offset + 16 ≤ message.length := by
  unfold readRect
  constructor
  · rintro ⟨rect, found⟩
    simp only [Option.bind_eq_bind, Option.bind_eq_some_iff] at found
    rcases found with ⟨_, _, _, _, _, _, bottom, isBottom, _⟩
    have inside := (int32At_iff message (offset + 12)).mp ⟨bottom, isBottom⟩
    omega
  · intro inside
    rcases (int32At_iff message offset).mpr (by omega) with ⟨left, isLeft⟩
    rcases (int32At_iff message (offset + 4)).mpr (by omega) with ⟨top, isTop⟩
    rcases (int32At_iff message (offset + 8)).mpr (by omega) with ⟨right, isRight⟩
    rcases (int32At_iff message (offset + 12)).mpr (by omega) with ⟨bottom, isBottom⟩
    rw [isLeft, isTop, isRight, isBottom]
    exact ⟨_, rfl⟩

/-- The entries with a lossy region. -/
theorem lossy_layout (message : List UInt8) : Layout message 20 (restoreLossyRegion message) where
  wide := by decide
  created := fun entry id surfaces next restored => by
    rcases Option.map_eq_some_iff.mp restored with ⟨rect, _, same⟩
    rw [<- same]
  inside := fun entry id surfaces _ => by
    have rect := readRect_iff message (entry + 4)
    unfold restoreLossyRegion
    constructor
    · rintro ⟨next, restored⟩
      rcases Option.map_eq_some_iff.mp restored with ⟨found, isFound, _⟩
      have inside := rect.mp ⟨found, isFound⟩
      omega
    · intro inside
      rcases rect.mpr (by omega) with ⟨found, isFound⟩
      rw [isFound]
      exact ⟨_, rfl⟩

theorem restoreSurface_eq_true {surfaces next : ClientSurfaces} {id : Nat}
    (restored : restoreSurface surfaces id = some (next, true)) :
    id < numSurfaces ∧ surfaces.created id = false ∧ next.created = Function.update surfaces.created id true := by
  unfold restoreSurface at restored
  split at restored
  · rename_i inTable
    split at restored
    · cases restored
    · rename_i isFresh
      cases restored
      exact ⟨inTable, Bool.eq_false_iff.mpr isFresh, rfl⟩
  · cases restored

theorem restoreSurface_eq_false {surfaces next : ClientSurfaces} {id : Nat}
    (restored : restoreSurface surfaces id = some (next, false)) :
    id < numSurfaces ∧ surfaces.created id = true ∧ next = surfaces := by
  unfold restoreSurface at restored
  split at restored
  · rename_i inTable
    split at restored
    · rename_i isCreated
      cases restored
      exact ⟨inTable, isCreated, rfl⟩
    · cases restored
  · cases restored

theorem restoreSurface_of_fresh {surfaces : ClientSurfaces} {id : Nat} (inTable : id < numSurfaces)
    (isFresh : surfaces.created id = false) :
    restoreSurface surfaces id = some
      ({ surfaces with created := Function.update surfaces.created id true }, true) := by
  unfold restoreSurface
  rw [if_pos inTable, if_neg (by rw [isFresh]; decide)]

theorem mark_cons (created : Nat -> Bool) (id : Nat) (ids : List Nat) :
    mark (Function.update created id true) ids = mark created (id :: ids) := by
  funext other
  unfold mark
  by_cases same : other = id
  · rw [same, Function.update_self, Bool.true_or]
    simp
  · rw [Function.update_of_ne same]
    simp [List.mem_cons, same]

/-- Ids are fresh when the first is, and the others after it. -/
theorem fresh_cons (created : Nat -> Bool) (id : Nat) (ids : List Nat) : Fresh created (id :: ids) <->
      id < numSurfaces ∧ created id = false ∧ Fresh (Function.update created id true) ids := by
  unfold Fresh
  constructor
  · rintro ⟨distinct, fresh⟩
    rcases List.nodup_cons.mp distinct with ⟨absent, restDistinct⟩
    have first := fresh id List.mem_cons_self
    refine ⟨first.1, first.2, restDistinct, fun other member => ?_⟩
    have different : other ≠ id := fun same => absent (same ▸ member)
    rw [Function.update_of_ne different]
    exact fresh other (List.mem_cons_of_mem id member)
  · rintro ⟨inTable, isFresh, restDistinct, rest⟩
    refine ⟨List.nodup_cons.mpr ⟨fun member => ?_, restDistinct⟩, fun other member => ?_⟩
    · have impossible := (rest id member).2
      rw [Function.update_self] at impossible
      cases impossible
    · rcases List.mem_cons.mp member with same | later
      · rw [same]
        exact ⟨inTable, isFresh⟩
      · have old := rest other later
        by_cases same : other = id
        · rw [same]
          exact ⟨inTable, isFresh⟩
        · rw [Function.update_of_ne same] at old
          exact old

/-- The ids of an entry more. -/
theorem entryIds_succ (message : List UInt8) (width count entry : Nat) (ids : List Nat) :
    entryIds message width (count + 1) entry = some ids <->
      Exists fun id => Exists fun rest => ids = id :: rest ∧ entry + width ≤ message.length ∧
        fieldAt message entry 4 = some id ∧ entryIds message width count (entry + width) = some rest := by
  rw [entryIds]
  by_cases inside : entry + width ≤ message.length
  · rw [if_pos inside]
    cases isId : fieldAt message entry 4 with
    | none => simp
    | some id =>
        cases isRest : entryIds message width count (entry + width) with
        | none => simp
        | some rest => simp [inside, eq_comm]
  · rw [if_neg inside]
    simp [inside]

section Loop

variable {message : List UInt8} {width : Nat} {restoreRegion : Nat -> Nat -> ClientSurfaces -> Option ClientSurfaces}

/-- The loop gets to its end exactly when the entries are inside of the message and their ids are fresh; then the client
has these surfaces too. -/
theorem restoreSurfaces_accepted_iff (layout : Layout message width restoreRegion) (count entry : Nat)
    (surfaces : ClientSurfaces) (created : Nat -> Bool) :
    (Exists fun next => restoreSurfaces message width restoreRegion count entry surfaces = .accepted next ∧
        next.created = created) <->
      Exists fun ids => entryIds message width count entry = some ids ∧ Fresh surfaces.created ids ∧
        mark surfaces.created ids = created := by
  induction count generalizing entry surfaces with
  | zero =>
      have unmarked : mark surfaces.created [] = surfaces.created := by
        funext id
        simp [mark]
      constructor
      · rintro ⟨next, same, isCreated⟩
        cases same
        exact ⟨[], rfl, ⟨List.nodup_nil, fun _ member => absurd member List.not_mem_nil⟩, unmarked.trans isCreated⟩
      · rintro ⟨ids, same, _, isCreated⟩
        cases same
        exact ⟨surfaces, rfl, unmarked.symm.trans isCreated⟩
  | succ count ih =>
      unfold restoreSurfaces
      constructor
      · rintro ⟨next, accepted, isCreated⟩
        split at accepted
        · cases accepted
        · rename_i id isId
          split at accepted
          · cases accepted
          · cases accepted
          · rename_i marked isRestored
            rcases restoreSurface_eq_true isRestored with ⟨inTable, isFresh, same⟩
            split at accepted
            · cases accepted
            · rename_i later isRegion
              have inside := (layout.inside entry id marked (fieldAt_eq_some isId).1).mp ⟨later, isRegion⟩
              have kept := layout.created _ _ _ _ isRegion
              rcases (ih (entry + width) later).mp ⟨next, accepted, isCreated⟩ with ⟨ids, read, fresh, isMarked⟩
              rw [kept, same] at fresh isMarked
              refine ⟨id :: ids, (entryIds_succ _ _ _ _ _).mpr ⟨id, ids, rfl, inside, isId, read⟩, ?_, ?_⟩
              · exact (fresh_cons _ _ _).mpr ⟨inTable, isFresh, fresh⟩
              · exact (mark_cons _ _ _).symm.trans isMarked
      · rintro ⟨ids, read, fresh, isMarked⟩
        rcases (entryIds_succ _ _ _ _ _).mp read with ⟨id, rest, same, inside, isId, isRest⟩
        rw [same] at fresh isMarked
        rcases (fresh_cons _ _ _).mp fresh with ⟨inTable, isFresh, restFresh⟩
        rw [isId]
        dsimp only
        rw [restoreSurface_of_fresh inTable isFresh]
        dsimp only
        rcases (layout.inside entry id { surfaces with created := Function.update surfaces.created id true }
          (fieldAt_eq_some isId).1).mpr inside with ⟨later, isRegion⟩
        rw [isRegion]
        have kept := layout.created _ _ _ _ isRegion
        refine (ih (entry + width) later).mpr ⟨rest, isRest, ?_, ?_⟩
        · rw [kept]
          exact restFresh
        · rw [kept]
          exact (mark_cons _ _ _).trans isMarked

/-- Entries that are rejected leave the others as they were. -/
theorem restoreSurfaces_rejected_keeps (layout : Layout message width restoreRegion) {count entry : Nat}
    {surfaces next : ClientSurfaces}
    (rejected : restoreSurfaces message width restoreRegion count entry surfaces = .rejected next)
    {id : Nat} (isCreated : surfaces.created id = true) : next.created id = true := by
  induction count generalizing entry surfaces with
  | zero => cases rejected
  | succ count ih =>
      unfold restoreSurfaces at rejected
      split at rejected
      · cases rejected
      · rename_i first isFirst
        split at rejected
        · cases rejected
        · rename_i isRestored
          cases rejected
          rw [(restoreSurface_eq_false isRestored).2.2]
          exact isCreated
        · rename_i marked isRestored
          split at rejected
          · cases rejected
          · rename_i later isRegion
            refine ih rejected ?_
            rw [layout.created _ _ _ _ isRegion, (restoreSurface_eq_true isRestored).2.2]
            by_cases same : id = first
            · rw [same, Function.update_self]
            · rw [Function.update_of_ne same]
              exact isCreated

/-- A refusal leaves the created surfaces as they were exactly when it was made at the first entry. -/
theorem restoreSurfaces_rejected_iff (layout : Layout message width restoreRegion) (count entry : Nat)
    (surfaces : ClientSurfaces) :
    (Exists fun next => restoreSurfaces message width restoreRegion count entry surfaces = .rejected next ∧
        next.created = surfaces.created) <->
      (0 < count ∧ Exists fun id => fieldAt message entry 4 = some id ∧ id < numSurfaces ∧
        surfaces.created id = true) := by
  cases count with
  | zero =>
      constructor
      · rintro ⟨next, impossible, _⟩
        cases impossible
      · rintro ⟨impossible, _⟩
        cases impossible
  | succ count =>
      constructor
      · rintro ⟨next, rejected, kept⟩
        refine ⟨Nat.succ_pos count, ?_⟩
        unfold restoreSurfaces at rejected
        split at rejected
        · cases rejected
        · rename_i id isId
          split at rejected
          · cases rejected
          · rename_i isRestored
            have refused := restoreSurface_eq_false isRestored
            exact ⟨id, isId, refused.1, refused.2.1⟩
          · rename_i marked isRestored
            rcases restoreSurface_eq_true isRestored with ⟨_, isFresh, same⟩
            split at rejected
            · cases rejected
            · rename_i later isRegion
              -- the first surface was marked, and stays so
              have isMarked : later.created id = true := by
                rw [layout.created _ _ _ _ isRegion, same, Function.update_self]
              have still := restoreSurfaces_rejected_keeps layout rejected isMarked
              rw [kept, isFresh] at still
              cases still
      · rintro ⟨_, id, isId, inTable, isCreated⟩
        refine ⟨surfaces, ?_, rfl⟩
        unfold restoreSurfaces restoreSurface
        rw [isId]
        dsimp only
        rw [if_pos inTable, if_pos isCreated]

/-- The entries themselves stop nothing. -/
theorem restoreSurfaces_not_stopped (count entry : Nat) (surfaces : ClientSurfaces) :
    restoreSurfaces message width restoreRegion count entry surfaces ≠ .stopped := by
  induction count generalizing entry surfaces with
  | zero => exact fun impossible => by cases impossible
  | succ count ih =>
      unfold restoreSurfaces
      intro stopped
      split at stopped
      · cases stopped
      · split at stopped
        · cases stopped
        · cases stopped
        · split at stopped
          · cases stopped
          · exact ih _ _ stopped

end Loop

/-! ## The message as a whole -/

/-- Nothing undefined was done, and what a refusal leaves behind is as it has to be. -/
def Handled.Defined {α : Type} (refused : α -> Prop) : Handled α -> Prop
  | .accepted _ => True
  | .rejected next => refused next
  | .stopped => True
  | .undefined => False

/-- Whether the target reads the layout with the lossy regions. -/
def DisplayChannelClient.readsLossy (dcc : DisplayChannelClient) (data : MigrateDataDisplay) : Bool :=
  dcc.enableJpeg || (data.lowBandwidthSetting != 0 && dcc.jpegState == .auto)

/-- The dictionary of the message is shared already. -/
def DisplayChannelClient.Shares (dcc : DisplayChannelClient) (data : MigrateDataDisplay) : Prop :=
  dcc.glzDictionaries.any (fun dict => dict.id == data.glzDictId) = true

/-- The message does not get as far as its surfaces: there is a dictionary and assertions abort, or the one of the
message is not shared and is too large, or the size of its heads is no positive `int`. -/
def DisplayChannelClient.Stops (dcc : DisplayChannelClient) (aborts : Bool) (data : MigrateDataDisplay) : Prop :=
  (dcc.glzDict ≠ none ∧ aborts = true) ∨
    (¬ dcc.Shares data ∧ (maxWindowSize < data.glzDictSize ∨ int32 (4 * data.glzDictMaxEncoders) ≤ 0))

/-- No assertion aborts, and the dictionary of the message is shared already or can be made. -/
def DisplayChannelClient.CanRestore (dcc : DisplayChannelClient) (aborts : Bool) (data : MigrateDataDisplay) : Prop :=
  (dcc.glzDict = none ∨ aborts = false) ∧
    (dcc.Shares data ∨ (data.glzDictSize ≤ maxWindowSize ∧ 0 < data.glzDictMaxEncoders ∧
      data.glzDictMaxEncoders < 2 ^ 29))

/-- A message of the fixed size has all fields. -/
theorem readMigrateData_of_length {message : List UInt8} (long : fixedSize ≤ message.length) :
    Exists fun data => readMigrateData message = some data := by
  have inside : forall offset width, offset + width ≤ 80 ->
      Exists fun value => fieldAt message offset width = some value :=
    fun offset width bound => fieldAt_of_inside (Nat.le_trans bound long)
  rcases inside 0 4 (by decide) with ⟨_, magic⟩
  rcases inside 4 4 (by decide) with ⟨_, version⟩
  rcases inside 8 8 (by decide) with ⟨_, messageSerial⟩
  rcases inside 16 1 (by decide) with ⟨_, lowBandwidthSetting⟩
  rcases inside 17 1 (by decide) with ⟨_, pixmapCacheId⟩
  rcases inside 18 8 (by decide) with ⟨_, pixmapCacheSize⟩
  rcases inside 26 1 (by decide) with ⟨_, pixmapCacheFreezer⟩
  rcases inside 27 8 (by decide) with ⟨_, client0⟩
  rcases inside 35 8 (by decide) with ⟨_, client1⟩
  rcases inside 43 8 (by decide) with ⟨_, client2⟩
  rcases inside 51 8 (by decide) with ⟨_, client3⟩
  rcases inside 59 1 (by decide) with ⟨_, glzDictId⟩
  rcases inside 60 4 (by decide) with ⟨_, glzDictSize⟩
  rcases inside 64 4 (by decide) with ⟨_, glzDictMaxEncoders⟩
  rcases inside 68 8 (by decide) with ⟨_, glzDictLastImageId⟩
  rcases inside 76 4 (by decide) with ⟨_, surfacesAtClientPtr⟩
  unfold readMigrateData
  rw [magic, version, messageSerial, lowBandwidthSetting, pixmapCacheId, pixmapCacheSize, pixmapCacheFreezer,
    client0, client1,
    client2, client3, glzDictId, glzDictSize, glzDictMaxEncoders, glzDictLastImageId, surfacesAtClientPtr]
  exact ⟨_, rfl⟩

namespace DisplayChannelClient

theorem restorePixmapCache_same (dcc : DisplayChannelClient) (data : MigrateDataDisplay) :
    (dcc.restorePixmapCache data).surfaces = dcc.surfaces ∧ (dcc.restorePixmapCache data).glzDict = dcc.glzDict ∧
      (dcc.restorePixmapCache data).glzDictionaries = dcc.glzDictionaries ∧
      (dcc.restorePixmapCache data).enableJpeg = dcc.enableJpeg ∧
        (dcc.restorePixmapCache data).jpegState = dcc.jpegState := by
  unfold restorePixmapCache getPixmapCache
  dsimp only
  split
  · split
    · exact ⟨rfl, rfl, rfl, rfl, rfl⟩
    · exact ⟨rfl, rfl, rfl, rfl, rfl⟩
  · split
    · exact ⟨rfl, rfl, rfl, rfl, rfl⟩
    · exact ⟨rfl, rfl, rfl, rfl, rfl⟩

/-- The surfaces and the compression of jpeg stay what they are. -/
structure SameSurfaces (dcc next : DisplayChannelClient) : Prop where
  surfaces : next.surfaces = dcc.surfaces
  enableJpeg : next.enableJpeg = dcc.enableJpeg
  jpegState : next.jpegState = dcc.jpegState

/-- What can become of the dictionary. -/
inductive Restores (dcc : DisplayChannelClient) (aborts : Bool) (data : MigrateDataDisplay) :
    Handled DisplayChannelClient -> Prop
  | stops (stopped : dcc.Stops aborts data) (never : ¬ dcc.CanRestore aborts data) : Restores dcc aborts data .stopped
  | overruns (goesOn : ¬ dcc.Stops aborts data) (never : ¬ dcc.CanRestore aborts data) :
      Restores dcc aborts data .undefined
  | restored (next : DisplayChannelClient) (goesOn : ¬ dcc.Stops aborts data) (can : dcc.CanRestore aborts data)
      (same : dcc.SameSurfaces next) : Restores dcc aborts data (.accepted next)

/-- The size of the heads is that of all encoders, as long as these are not too many. -/
theorem heads_fit_iff (count : Nat) : 0 < int32 (4 * count) ∧ ¬ int32 (4 * count) < 4 * count <-> 0 < count ∧
    count < 2 ^ 29 := by
  constructor
  · rintro ⟨positive, all⟩
    have bound := (isInt32_int32 (4 * count)).2
    have some : count ≠ 0 := by
      rintro rfl
      exact absurd positive (by decide)
    omega
  · rintro ⟨some, few⟩
    have same : int32 (4 * count) = 4 * count := int32_of_isInt32 ⟨by omega, by omega⟩
    omega

/-- What becomes of the dictionary. -/
theorem restores_dictionary (dcc : DisplayChannelClient) (aborts : Bool) (data : MigrateDataDisplay) :
    Restores dcc aborts data (dcc.handleMigrateGlzDictionary aborts data) := by
  have heads := heads_fit_iff data.glzDictMaxEncoders
  unfold handleMigrateGlzDictionary
  by_cases twice : dcc.glzDict ≠ none ∧ aborts = true
  · rw [if_pos (by simpa [Option.isSome_iff_ne_none] using twice)]
    refine .stops (.inl twice) (fun can => ?_)
    rcases can.1 with noDict | goesOn
    · exact twice.1 noDict
    · exact Bool.false_ne_true (goesOn.symm.trans twice.2)
  have once : dcc.glzDict = none ∨ aborts = false := by
    rw [not_and_or, not_not, Bool.not_eq_true] at twice
    exact twice
  rw [if_neg (by simpa [Option.isSome_iff_ne_none] using twice)]
  by_cases shared : dcc.glzDictionaries.any (fun dict => dict.id == data.glzDictId) = true
  · rw [if_pos shared]
    exact .restored _ (fun stops => stops.elim twice (fun bad => bad.1 shared)) ⟨once, .inl shared⟩ ⟨rfl, rfl, rfl⟩
  rw [if_neg shared]
  by_cases bad : maxWindowSize < data.glzDictSize ∨ int32 (4 * data.glzDictMaxEncoders) ≤ 0
  · rw [if_pos bad]
    refine .stops (.inr ⟨shared, bad⟩) (fun can => ?_)
    rcases can.2 with isShared | ⟨small, few⟩
    · exact shared isShared
    · have fit := heads.mpr few
      omega
  rw [if_neg bad]
  have goesOn : ¬ dcc.Stops aborts data := fun stops => stops.elim twice (fun both => bad both.2)
  by_cases short : int32 (4 * data.glzDictMaxEncoders) < 4 * data.glzDictMaxEncoders
  · rw [if_pos short]
    refine .overruns goesOn (fun can => ?_)
    rcases can.2 with isShared | ⟨_, few⟩
    · exact shared isShared
    · exact (heads.mpr few).2 short
  · rw [if_neg short]
    rw [not_or, Nat.not_lt, not_le] at bad
    exact .restored _ goesOn ⟨once, .inr ⟨bad.1, heads.mp ⟨bad.2, short⟩⟩⟩ ⟨rfl, rfl, rfl⟩

/-- The bandwidth has nothing to do with the surfaces. -/
theorem restoreBandwidth_same (dcc : DisplayChannelClient) (data : MigrateDataDisplay) :
    (dcc.restoreBandwidth data).surfaces = dcc.surfaces ∧
      (dcc.restoreBandwidth data).enableJpeg = dcc.readsLossy data := by
  unfold restoreBandwidth readsLossy
  by_cases low : data.lowBandwidthSetting ≠ 0
  · dsimp only
    rw [if_pos low]
    refine ⟨rfl, ?_⟩
    by_cases auto : dcc.jpegState = .auto
    · simp [low, auto]
    · simp [auto]
  · dsimp only
    rw [if_neg low]
    refine ⟨rfl, ?_⟩
    simp [not_not.mp low]

/-- What can become of the fixed part: the target's layout is known when it is restored. -/
inductive RestoresFixedPart (dcc : DisplayChannelClient) (aborts : Bool) (data : MigrateDataDisplay) :
    Handled DisplayChannelClient -> Prop
  | stops (stopped : dcc.Stops aborts data) (never : ¬ dcc.CanRestore aborts data) :
  RestoresFixedPart dcc aborts data .stopped
  | overruns (goesOn : ¬ dcc.Stops aborts data) (never : ¬ dcc.CanRestore aborts data) :
      RestoresFixedPart dcc aborts data .undefined
  | restored (next : DisplayChannelClient) (goesOn : ¬ dcc.Stops aborts data) (can : dcc.CanRestore aborts data)
      (surfaces : next.surfaces = dcc.surfaces) (layout : next.enableJpeg = dcc.readsLossy data) :
      RestoresFixedPart dcc aborts data (.accepted next)

/-- What becomes of the fixed part. -/
theorem restores_fixedPart (dcc : DisplayChannelClient) (aborts : Bool) (data : MigrateDataDisplay) :
    RestoresFixedPart dcc aborts data (dcc.restoreFixedPart aborts data) := by
  rcases dcc.restorePixmapCache_same data with ⟨sameSurfaces, sameDict, sameDictionaries, sameJpeg, sameState⟩
  have stops : (dcc.restorePixmapCache data).Stops aborts data <-> dcc.Stops aborts data := by
    unfold Stops Shares
    rw [sameDict, sameDictionaries]
  have can : (dcc.restorePixmapCache data).CanRestore aborts data <-> dcc.CanRestore aborts data := by
    unfold CanRestore Shares
    rw [sameDict, sameDictionaries]
  have dictionary := (dcc.restorePixmapCache data).restores_dictionary aborts data
  unfold restoreFixedPart
  generalize (dcc.restorePixmapCache data).handleMigrateGlzDictionary aborts data = result at dictionary
  cases dictionary with
  | stops stopped never => exact .stops (stops.mp stopped) (mt can.mpr never)
  | overruns goesOn never => exact .overruns (mt stops.mpr goesOn) (mt can.mpr never)
  | restored middle goesOn canRestore same =>
      rcases middle.restoreBandwidth_same data with ⟨lastSurfaces, lastJpeg⟩
      refine .restored _ (mt stops.mpr goesOn) (can.mp canRestore)
        (lastSurfaces.trans (same.surfaces.trans sameSurfaces)) (lastJpeg.trans ?_)
      unfold readsLossy
      rw [same.enableJpeg, same.jpegState, sameJpeg, sameState]

/-- The message stays inside of its bounds and of the tables, and a refusal leaves the created surfaces alone. -/
def Contained (dcc : DisplayChannelClient) (aborts : Bool) (message : List UInt8) : Prop :=
  (dcc.handleMigrateData aborts message).Defined (fun next => next.surfaces.created = dcc.surfaces.created)

/-- The size of an entry in the layout that is read. -/
def entryWidth (dcc : DisplayChannelClient) (data : MigrateDataDisplay) : Nat := if dcc.readsLossy data then 20 else 4

/-- The surfaces at an offset: their number is inside of the message, and either all entries are, with fresh ids, or
the very first surface is one that the client has. -/
def SurfacesInside (dcc : DisplayChannelClient) (data : MigrateDataDisplay) (message : List UInt8) : Prop :=
  Exists fun num => fieldAt message data.surfacesAtClientPtr 4 = some num ∧
    ((Exists fun ids => entryIds message (dcc.entryWidth data) num (data.surfacesAtClientPtr + 4) = some ids ∧
        Fresh dcc.surfaces.created ids) ∨
      (0 < num ∧ Exists fun id => fieldAt message (data.surfacesAtClientPtr + 4) 4 = some id ∧ id < numSurfaces ∧
        dcc.surfaces.created id = true))

/-- The message does not get as far as its surfaces, or they are as they have to be. -/
def MessageInside (dcc : DisplayChannelClient) (aborts : Bool) (message : List UInt8) : Prop :=
  message.length < fixedSize ∨ Exists fun data => readMigrateData message = some data ∧
    (data.magic ≠ displayMagic ∨ displayVersion < data.version ∨ dcc.Stops aborts data ∨
      (dcc.CanRestore aborts data ∧ dcc.SurfacesInside data message))

/-- When the entries are read inside of the message, and accepted. -/
theorem restoreSurfaces_contained_iff {message : List UInt8} {width : Nat}
    {restoreRegion : Nat -> Nat -> ClientSurfaces -> Option ClientSurfaces}
    (layout : Layout message width restoreRegion)
    (count entry : Nat) (surfaces : ClientSurfaces) :
    (restoreSurfaces message width restoreRegion count entry surfaces).Defined
      (fun next => next.created = surfaces.created) <->
      ((Exists fun ids => entryIds message width count entry = some ids ∧ Fresh surfaces.created ids) ∨
        (0 < count ∧ Exists fun id => fieldAt message entry 4 = some id ∧ id < numSurfaces ∧
          surfaces.created id = true)) := by
  have accepted := restoreSurfaces_accepted_iff layout count entry surfaces
  have rejected := restoreSurfaces_rejected_iff layout count entry surfaces
  constructor
  · intro contained
    cases outcome : restoreSurfaces message width restoreRegion count entry surfaces with
    | accepted next =>
        rcases (accepted next.created).mp ⟨next, outcome, rfl⟩ with ⟨ids, read, fresh, _⟩
        exact .inl ⟨ids, read, fresh⟩
    | rejected next =>
        rw [outcome] at contained
        exact .inr (rejected.mp ⟨next, outcome, contained⟩)
    | stopped => exact absurd outcome (restoreSurfaces_not_stopped count entry surfaces)
    | undefined =>
        rw [outcome] at contained
        exact contained.elim
  · rintro (⟨ids, read, fresh⟩ | first)
    · rcases (accepted _).mpr ⟨ids, read, fresh, rfl⟩ with ⟨next, outcome, _⟩
      rw [outcome]
      trivial
    · rcases rejected.mpr first with ⟨next, outcome, kept⟩
      rw [outcome]
      exact kept

/-- When the entries of the layout that the target chooses are read, and accepted. -/
theorem restoreClientSurfaces_contained_iff {dcc next : DisplayChannelClient} {data : MigrateDataDisplay}
    (sameSurfaces : next.surfaces = dcc.surfaces) (sameJpeg : next.enableJpeg = dcc.readsLossy data)
    (message : List UInt8) :
    (next.restoreClientSurfaces message data.surfacesAtClientPtr).Defined
      (fun after => after.created = dcc.surfaces.created) <->
      dcc.SurfacesInside data message := by
  unfold restoreClientSurfaces SurfacesInside entryWidth
  rw [sameSurfaces, sameJpeg]
  cases fieldAt message data.surfacesAtClientPtr 4 with
  | none => simp [Handled.Defined]
  | some num =>
      dsimp only
      cases dcc.readsLossy data with
      | true =>
          rw [if_pos rfl, if_pos rfl]
          refine (restoreSurfaces_contained_iff (lossy_layout message) num _ dcc.surfaces).trans ⟨fun inside => ?_, ?_⟩
          · exact ⟨num, rfl, inside⟩
          · rintro ⟨other, same, inside⟩
            cases same
            exact inside
      | false =>
          rw [if_neg (by decide), if_neg (by decide)]
          refine (restoreSurfaces_contained_iff (lossless_layout message) num _ dcc.surfaces).trans
            ⟨fun inside => ?_, ?_⟩
          · exact ⟨num, rfl, inside⟩
          · rintro ⟨other, same, inside⟩
            cases same
            exact inside

theorem refuse_contained (dcc : DisplayChannelClient) (aborts : Bool) :
    (dcc.refuse aborts).Defined (fun next => next.surfaces.created = dcc.surfaces.created) := by
  cases aborts with
  | true => trivial
  | false => exact rfl

/-- Exactly when a message of migration data is handled within its bounds. -/
theorem migrate_data_contained (dcc : DisplayChannelClient) (aborts : Bool) (message : List UInt8) :
    dcc.Contained aborts message <-> dcc.MessageInside aborts message := by
  unfold Contained MessageInside handleMigrateData
  by_cases short : message.length < fixedSize
  · rw [if_pos short]
    exact ⟨fun _ => .inl short, fun _ => dcc.refuse_contained aborts⟩
  · rw [if_neg short]
    rcases readMigrateData_of_length (Nat.le_of_not_lt short) with ⟨data, isData⟩
    rw [isData]
    dsimp only
    have onlyData : (message.length < fixedSize ∨ Exists fun other => some data = some other ∧
        (other.magic ≠ displayMagic ∨ displayVersion < other.version ∨ dcc.Stops aborts other ∨
          (dcc.CanRestore aborts other ∧ dcc.SurfacesInside other message))) <->
        (data.magic ≠ displayMagic ∨ displayVersion < data.version ∨ dcc.Stops aborts data ∨
          (dcc.CanRestore aborts data ∧ dcc.SurfacesInside data message)) := by
      simp [short]
    rw [onlyData]
    by_cases badMagic : data.magic ≠ displayMagic
    · rw [if_pos badMagic]
      exact ⟨fun _ => .inl badMagic, fun _ => dcc.refuse_contained aborts⟩
    · rw [if_neg badMagic]
      by_cases badVersion : displayVersion < data.version
      · rw [if_pos badVersion]
        exact ⟨fun _ => .inr (.inl badVersion), fun _ => dcc.refuse_contained aborts⟩
      · rw [if_neg badVersion]
        simp only [badMagic, badVersion, false_or]
        have fixedPart := dcc.restores_fixedPart aborts data
        generalize dcc.restoreFixedPart aborts data = result at fixedPart
        cases fixedPart with
        | stops stopped never => exact ⟨fun _ => .inl stopped, fun _ => trivial⟩
        | overruns goesOn never =>
            refine ⟨False.elim, fun inside => ?_⟩
            rcases inside with stopped | both
            · exact goesOn stopped
            · exact never both.1
        | restored next goesOn can sameSurfaces sameJpeg =>
            have surfaces := restoreClientSurfaces_contained_iff sameSurfaces sameJpeg message
            have same : Handled.Defined (fun after => after.surfaces.created = dcc.surfaces.created)
                (match next.restoreClientSurfaces message data.surfacesAtClientPtr with
                  | .accepted surfaces => .accepted { next with
                      surfaces := surfaces
                      pipe := next.pipe ++ [.invalPaletteCache]
                      messagesWindow := 0 }
                  | .rejected surfaces => .rejected { next with surfaces := surfaces }
                  | .stopped => .stopped
                  | .undefined => .undefined) <->
                (next.restoreClientSurfaces message data.surfacesAtClientPtr).Defined
                  (fun after => after.created = dcc.surfaces.created) := by
              cases next.restoreClientSurfaces message data.surfacesAtClientPtr with
              | accepted => exact Iff.rfl
              | rejected => exact Iff.rfl
              | stopped => exact Iff.rfl
              | undefined => exact Iff.rfl
            refine same.trans (surfaces.trans ⟨fun inside => .inr ⟨can, inside⟩, ?_⟩)
            rintro (stopped | both)
            · exact absurd stopped goesOn
            · exact both.2

def waitingClient (jpegState : WanCompression) (enableJpeg : Bool) : DisplayChannelClient where
  jpegState := jpegState
  zlibGlzState := .never
  enableJpeg := enableJpeg
  enableZlibGlzWrap := false
  pixmapCaches := []
  glzDictionaries := []
  pixmapCache := none
  glzDict := none
  isLowBandwidth := 0
  clientWindow := 20
  messagesWindow := 0
  pipe := []
  surfaces := { created := fun _ => false, lossyRegion := fun _ => QRegion.regionInit }

/-- A message with four encoders and zeros for most of its fixed part. -/
def sparseMessage (ptr : List UInt8) (surfaces : List UInt8) : List UInt8 :=
  [0x44, 0x43, 0x4d, 0x44, 1, 0, 0, 0] ++ List.replicate 56 0 ++ [4, 0, 0, 0] ++ List.replicate 8 0 ++ ptr ++ surfaces

/-- Surface 10000 is not in the table; an entry goes on after the end of the message; the number of surfaces comes after
it; and a surface that is there twice is refused only after it was marked. -/
theorem migrate_data_escapes :
    ¬ (waitingClient .never false).Contained false (sparseMessage [80, 0, 0, 0] [1, 0, 0, 0, 0x10, 0x27, 0, 0]) ∧
    ¬ (waitingClient .always true).Contained false (sparseMessage [80, 0, 0, 0] [1, 0, 0, 0, 1, 0, 0, 0, 2, 0, 0, 0]) ∧
    ¬ (waitingClient .never false).Contained false (sparseMessage [80, 0, 0, 0] []) ∧
    ¬ (waitingClient .never false).Contained false
      (sparseMessage [80, 0, 0, 0] [2, 0, 0, 0, 5, 0, 0, 0, 5, 0, 0, 0]) := by
  refine ⟨fun contained => contained, fun contained => contained, fun contained => contained, fun contained => ?_⟩
  have changed : (true : Bool) = false := congrFun contained 5
  cases changed

end DisplayChannelClient

end Display
end Spice
