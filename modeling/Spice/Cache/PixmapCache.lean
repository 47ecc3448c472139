import Spice.Lib.HashRing
import Spice.Lib.Run

namespace Spice
namespace Cache

open Lib

/-!
# The pixmap cache shared by the display channels of a client

Every image in the cache carries, for each display channel that shares it, the
serial of that channel's last message that used it.  An image may be evicted by a
channel only if the message it is preparing does not use it; the other channels
are told what to wait for by the serials that go with the release.

A freeze puts the whole ring away and empties the table; the next reset or the
destruction of the cache brings the ring back and frees it.
-/

/-- `NewCacheItem`: the part that never changes, with its address. -/
structure NewCacheItem where
  address : Nat
  id : Nat
  size : Nat
  deriving DecidableEq, Repr

/-- The channels that share a cache: `MAX_CACHE_CLIENTS`. -/
abbrev Channel := Fin 4

def bitsCacheHashKey (id : Nat) : Nat := id % 2 ^ 10

def NewCacheItem.key (item : NewCacheItem) : Nat := bitsCacheHashKey item.id

/-- A call of `display_channel_push_release`. -/
structure Release where
  channel : Channel
  id : Nat
  sync : Channel -> Nat

/-- A use of an image: found by a message, or put into the cache by it. -/
inductive Use
  | hit (channel : Channel) (id serial : Nat)
  | added (channel : Channel) (id serial : Nat)

/-- `PixmapCache` and the channels that use it.  `lossy` and `itemSync` are fields of
the items.  `items` is an `int32_t`, which the items that fit into memory do not
exceed.  `pushed`, `freed` and `uses`, newest first, record what was done. -/
structure PixmapCache where
  links : HashRing NewCacheItem
  lossy : Nat -> Bool
  itemSync : Nat -> Channel -> Nat
  available : Int
  size : Int
  items : Int
  freezed : Bool
  frozen : List NewCacheItem
  generation : Nat
  generationInitiator : Channel × Nat
  sync : Channel -> Nat
  fresh : Nat
  serial : Channel -> Nat
  channelGeneration : Channel -> Nat
  pendingPixmapsSync : Channel -> Bool
  pushed : List Release
  freed : List NewCacheItem
  uses : List Use

namespace PixmapCache

variable (cache : PixmapCache)

/-- Set the serials of an item and of the cache. -/
def stamp (channel : Channel) (address : Nat) (serials : Channel -> Nat) : PixmapCache :=
  { cache with
    itemSync := Function.update cache.itemSync address (Function.update serials channel (cache.serial channel))
    sync := Function.update cache.sync channel (cache.serial channel) }

/-- `FUNC_NAME(unlocked_hit)`: whether the item is there, and whether it is lossy. -/
def unlockedHit (id : Nat) (channel : Channel) : PixmapCache × Option Bool :=
  match (cache.links.table (bitsCacheHashKey id)).find? (fun item => item.id = id) with
  | none => (cache, none)
  | some item =>
      ({ cache.stamp channel item.address (cache.itemSync item.address) with
          links := cache.links.touch item
          uses := .hit channel id (cache.serial channel) :: cache.uses },
        some (cache.lossy item.address))

/-- `FUNC_NAME(unlocked_set_lossy)`. -/
def unlockedSetLossy (id : Nat) (lossy : Bool) : PixmapCache × Bool :=
  match (cache.links.table (bitsCacheHashKey id)).find? (fun item => item.id = id) with
  | none => (cache, false)
  | some item => ({ cache with lossy := Function.update cache.lossy item.address lossy }, true)

/-- One eviction of `FUNC_NAME(unlocked_add)`; nothing if an assertion fails. -/
def evict (channel : Channel) (tail : NewCacheItem) : Option PixmapCache :=
  match cache.links.unlink (bitsCacheHashKey tail.id) tail with
  | none => none
  | some links =>
      some { cache with
        links := links
        items := cache.items - 1
        available := cache.available + tail.size
        sync := Function.update cache.sync channel (cache.serial channel)
        pushed := cache.pushed ++ [{ channel := channel, id := tail.id, sync := cache.itemSync tail.address }]
        freed := cache.freed ++ [tail] }

/-- The loop of `FUNC_NAME(unlocked_add)`; false if nothing more can be evicted. -/
def makeRoom (channel : Channel) (size : Nat) : Nat -> PixmapCache -> Option (PixmapCache × Bool)
  | 0, _ => none
  | rounds + 1, cache =>
      if cache.available < 0 then
        match cache.links.ring.getLast? with
        | none => some ({ cache with available := cache.available + size }, false)
        | some tail =>
            if cache.itemSync tail.address channel = cache.serial channel then
              some ({ cache with available := cache.available + size }, false)
            else
              match cache.evict channel tail with
              | none => none
              | some cache => makeRoom channel size rounds cache
      else some (cache, true)

/-- The new item of `FUNC_NAME(unlocked_add)`. -/
def addItem (channel : Channel) (item : NewCacheItem) (lossy : Bool) : PixmapCache :=
  { cache.stamp channel item.address (fun _ => 0) with
    links := cache.links.insert (bitsCacheHashKey item.id) item
    items := cache.items + 1
    lossy := Function.update cache.lossy item.address lossy
    uses := .added channel item.id (cache.serial channel) :: cache.uses }

/-- `FUNC_NAME(unlocked_add)`. -/
def unlockedAdd (id size : Nat) (lossy : Bool) (channel : Channel) : Option (PixmapCache × Bool) :=
  if size = 0 then none
  else if cache.generation ≠ cache.channelGeneration channel then
    some ({ cache with pendingPixmapsSync := Function.update cache.pendingPixmapsSync channel true }, false)
  else
    let item : NewCacheItem := { address := cache.fresh, id := id, size := size }
    let cache := { cache with fresh := cache.fresh + 1, available := cache.available - size }
    match makeRoom channel size (cache.links.ring.length + 1) cache with
    | none => none
    | some (cache, false) => some (cache, false)
    | some (cache, true) => some (cache.addItem channel item lossy, true)

/-- `PRIVATE_FUNC_NAME(clear)`. -/
def clear : PixmapCache :=
  { cache with
    freed := cache.freed ++ (if cache.freezed then cache.frozen else cache.links.ring)
    frozen := if cache.freezed then [] else cache.frozen
    freezed := false
    links := HashRing.empty
    available := cache.size
    items := 0 }

/-- The other channels that have used the cache, and what to wait for. -/
def waitList (channel : Channel) (sync : Channel -> Nat) : List (Channel × Nat) :=
  (List.finRange 4).filterMap (fun other =>
    if sync other ≠ 0 ∧ other ≠ channel then some (other, sync other) else none)

/-- `FUNC_NAME(reset)`, with its `sync_data`. -/
def reset (channel : Channel) : PixmapCache × List (Channel × Nat) :=
  let cache := cache.clear
  let generation := (cache.generation + 1) % 2 ^ 32
  let sync := Function.update cache.sync channel (cache.serial channel)
  ({ cache with
      generation := generation
      channelGeneration := Function.update cache.channelGeneration channel generation
      generationInitiator := (channel, cache.serial channel)
      sync := sync },
    waitList channel sync)

/-- `FUNC_NAME(freeze)`. -/
def freeze : PixmapCache × Bool :=
  if cache.freezed then (cache, false)
  else
    ({ cache with
        frozen := cache.links.ring
        links := HashRing.empty
        available := -1
        freezed := true }, true)

/-- `FUNC_NAME(destroy)`. -/
def destroy : PixmapCache := cache.clear

/-- `display_channel_marshall_pixmap_sync`, without the message. -/
def pixmapSync (channel : Channel) : PixmapCache :=
  { cache with
    channelGeneration := Function.update cache.channelGeneration channel cache.generation
    pendingPixmapsSync := Function.update cache.pendingPixmapsSync channel false }

/-- `red_channel_client_reset_send_data`: the next message of a channel. -/
def nextMessage (channel : Channel) : PixmapCache :=
  { cache with serial := Function.update cache.serial channel (cache.serial channel + 1) }

def create (size : Int) : PixmapCache where
  links := HashRing.empty
  lossy := fun _ => false
  itemSync := fun _ _ => 0
  available := size
  size := size
  items := 0
  freezed := false
  frozen := []
  generation := 0
  generationInitiator := (0, 0)
  sync := fun _ => 0
  fresh := 0
  serial := fun _ => 1
  channelGeneration := fun _ => 0
  pendingPixmapsSync := fun _ => false
  pushed := []
  freed := []
  uses := []

end PixmapCache

/-- What the channels do with the cache. -/
inductive PixmapOp
  | hit (channel : Channel) (id : Nat)
  | setLossy (id : Nat) (lossy : Bool)
  | add (channel : Channel) (id size : Nat) (lossy : Bool)
  | reset (channel : Channel)
  | freeze
  | destroy
  | pixmapSync (channel : Channel)
  | nextMessage (channel : Channel)

def PixmapCache.step (cache : PixmapCache) : PixmapOp -> Option PixmapCache
  | .hit channel id => some (cache.unlockedHit id channel).1
  | .setLossy id lossy => some (cache.unlockedSetLossy id lossy).1
  | .add channel id size lossy => (cache.unlockedAdd id size lossy channel).map Prod.fst
  | .reset channel => some (cache.reset channel).1
  | .freeze => some cache.freeze.1
  | .destroy => some cache.destroy
  | .pixmapSync channel => some (cache.pixmapSync channel)
  | .nextMessage channel => some (cache.nextMessage channel)

/-- What is added is not empty, and a hit has just reported it absent. -/
def PixmapLegal (cache : PixmapCache) : PixmapOp -> Prop
  | .add channel id size _ => 0 < size ∧ (cache.unlockedHit id channel).2 = none
  | _ => True

/-- The serial of the last message of a channel that used the image, since it was
put into the cache. -/
def lastUse : List Use -> Nat -> Channel -> Nat
  | [], _, _ => 0
  | .hit channel id serial :: rest, other, asked =>
      if id = other ∧ channel = asked then serial else lastUse rest other asked
  | .added channel id serial :: rest, other, asked =>
      if id = other then (if channel = asked then serial else 0) else lastUse rest other asked

/-- The items that are not freed. -/
def PixmapCache.live (cache : PixmapCache) : List NewCacheItem := cache.frozen ++ cache.links.ring

end Cache
end Spice
