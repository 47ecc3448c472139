import Spice.Lib.HashRing
import Spice.Lib.Run

namespace Spice
namespace Cache

open Lib
open HashRing (total total_nil total_cons total_append total_perm total_nonneg)

/-!
# The cursor and palette caches of a channel client

One template makes both caches.  A cached item is in the chain of its hash key
and in a ring ordered by use; `available` is what is left of the capacity.  When
an item has to leave, the object itself becomes a pipe item that tells the
client to forget the id.

The pipe is written in the order of sending: its next item is first, which is
where `red_channel_client_pipe_add_tail` puts an item.
-/

/-- `CacheItem`, with the address it was allocated at. -/
structure CacheItem where
  address : Nat
  id : Nat
  size : Nat
  deriving DecidableEq, Repr

/-- A pipe item: `PIPE_ITEM_TYPE_INVAL_ONE`, a message that refers to some
palettes or to a cursor, or one before which the cache is reset. -/
inductive PipeItem
  | invalOne (id : Nat)
  | message (uniques : List Nat)
  | resetCache (uniques : List Nat)
  deriving DecidableEq, Repr

structure ChannelClient where
  links : HashRing CacheItem
  available : Int
  items : Nat
  fresh : Nat
  pipe : List PipeItem

/-- `CURSOR_CACHE_HASH_KEY` and `PALETTE_CACHE_HASH_KEY`. -/
def cacheHashKey (id : Nat) : Nat := id % 2 ^ 8

/-- The value of a `long` after an operation. -/
def toLong (value : Int) : Int := value.bmod (2 ^ 64)

def CacheItem.key (item : CacheItem) : Nat := cacheHashKey item.id

namespace ChannelClient

variable (client : ChannelClient)

/-- `FUNC_NAME(find)`. -/
def find (id : Nat) : ChannelClient × Option CacheItem :=
  match (client.links.table (cacheHashKey id)).find? (fun item => item.id = id) with
  | some item => ({ client with links := client.links.touch item }, some item)
  | none => (client, none)

/-- `FUNC_NAME(remove)`; nothing if an assertion fails. -/
def remove (item : CacheItem) : Option ChannelClient :=
  match client.links.unlink (cacheHashKey item.id) item with
  | none => none
  | some links =>
      some { client with
        links := links
        items := (client.items + (2 ^ 32 - 1)) % 2 ^ 32
        available := toLong (client.available + item.size)
        pipe := .invalOne item.id :: client.pipe }

/-- The loop of `FUNC_NAME(add)`; false if the ring is empty and the item still does
not fit. -/
def makeRoom (size : Nat) : Nat -> ChannelClient -> Option (ChannelClient × Bool)
  | 0, _ => none
  | rounds + 1, client =>
      if client.available < 0 then
        match client.links.ring.getLast? with
        | none => some ({ client with available := toLong (client.available + size) }, false)
        | some tail =>
            match client.remove tail with
            | none => none
            | some client => makeRoom size rounds client
      else some (client, true)

/-- The new item of `FUNC_NAME(add)`. -/
def addItem (item : CacheItem) : ChannelClient :=
  { client with
    links := client.links.insert (cacheHashKey item.id) item
    items := (client.items + 1) % 2 ^ 32 }

/-- `FUNC_NAME(add)`. -/
def add (id size : Nat) : Option (ChannelClient × Bool) :=
  let item : CacheItem := { address := client.fresh, id := id, size := size }
  let client := { client with fresh := client.fresh + 1, available := toLong (client.available - size) }
  match makeRoom size (client.links.ring.length + 1) client with
  | none => none
  | some (client, false) => some (client, false)
  | some (client, true) => some (client.addItem item, true)

/-- `FUNC_NAME(reset)`. -/
def reset (size : Int) : ChannelClient :=
  { client with links := HashRing.empty, available := size, items := 0 }

/-- An empty cache. -/
def init (capacity : Int) : ChannelClient where
  links := HashRing.empty
  available := capacity
  items := 0
  fresh := 0
  pipe := []

end ChannelClient

/-- One of the generated operations. -/
inductive CacheOp
  | find (id : Nat)
  | add (id size : Nat)
  | remove (item : CacheItem)
  | reset (size : Int)

def ChannelClient.step (client : ChannelClient) : CacheOp -> Option ChannelClient
  | .find id => some (client.find id).1
  | .add id size => (client.add id size).map Prod.fst
  | .remove item => client.remove item
  | .reset size => some (client.reset size)

/-- What a caller may ask for: an item is not empty and its size is a `long`, what
is removed is in the cache, and the capacity is not negative. -/
def Legal (client : ChannelClient) : CacheOp -> Prop
  | .find _ => True
  | .add _ size => 0 < size ∧ size < 2 ^ 63
  | .remove item => item ∈ client.links.ring
  | .reset size => 0 ≤ size ∧ size < 2 ^ 32

/-- The capacity after some operations. -/
def configured (capacity : Int) (past : List CacheOp) : Int :=
  past.foldl (fun capacity op =>
    match op with
    | .reset size => size
    | _ => capacity) capacity

/-- The counters agree with the items, and the chains with the ring.  `reserved` is
what an item that is being added takes. -/
structure Accounted (capacity reserved : Int) (client : ChannelClient) : Prop where
  agree : client.links.Agree CacheItem.key
  balance : client.available + total CacheItem.size client.links.ring = capacity - reserved
  counted : client.items = client.links.ring.length
  filled : forall item, item ∈ client.links.ring -> 0 < item.size
  allocated : forall item, item ∈ client.links.ring -> item.address < client.fresh
  within : total CacheItem.size client.links.ring ≤ capacity
  bounded : capacity < 2 ^ 32
  room : 0 ≤ reserved ∧ reserved < 2 ^ 63

/-- The cache between two operations. -/
def Sound (capacity : Int) (client : ChannelClient) : Prop :=
  Accounted capacity 0 client ∧ 0 ≤ client.available

theorem toLong_eq {value : Int} (low : -(2 ^ 63) ≤ value) (high : value < 2 ^ 63) : toLong value = value := by
  unfold toLong
  apply Int.bmod_eq_of_le
  · omega
  · omega

theorem length_le_total {ring : List CacheItem} (filled : forall item, item ∈ ring -> 0 < item.size) :
    (ring.length : Int) ≤ total CacheItem.size ring := by
  induction ring with
  | nil => exact Int.le_refl 0
  | cons item rest ih =>
      have first := filled item List.mem_cons_self
      have others := ih (fun other member => filled other (List.mem_cons_of_mem _ member))
      rw [total_cons, List.length_cons]
      omega

namespace Accounted

variable {capacity reserved : Int} {client : ChannelClient}

theorem length_lt (accounted : Accounted capacity reserved client) : client.links.ring.length < 2 ^ 32 := by
  have few := length_le_total accounted.filled
  have within := accounted.within
  have bounded := accounted.bounded
  omega

/-- An item that is found moves to the front. -/
theorem touch {item : CacheItem} (accounted : Accounted capacity reserved client) (member : item ∈ client.links.ring) :
    Accounted capacity reserved { client with links := client.links.touch item } := by
  have perm := HashRing.Agree.perm_touch member
  refine ⟨accounted.agree.touch member, ?_, ?_, ?_, ?_, ?_, accounted.bounded, accounted.room⟩
  · show client.available + total CacheItem.size (client.links.touch item).ring = capacity - reserved
    rw [total_perm _ perm]
    exact accounted.balance
  · show client.items = (client.links.touch item).ring.length
    rw [perm.length_eq]
    exact accounted.counted
  · exact fun other found => accounted.filled other (perm.mem_iff.mp found)
  · exact fun other found => accounted.allocated other (perm.mem_iff.mp found)
  · show total CacheItem.size (client.links.touch item).ring ≤ capacity
    rw [total_perm _ perm]
    exact accounted.within

theorem available_bounds (accounted : Accounted capacity reserved client) :
    -(2 ^ 63) < client.available ∧ client.available < 2 ^ 32 := by
  have balance := accounted.balance
  have within := accounted.within
  have bounded := accounted.bounded
  have room := accounted.room
  have nonneg := total_nonneg CacheItem.size client.links.ring
  constructor
  · omega
  · omega

/-- An item that leaves is announced, and what it took is available again. -/
theorem remove {item : CacheItem} (accounted : Accounted capacity reserved client) (member : item ∈ client.links.ring) :
    Exists fun next => client.remove item = some next ∧ next.links.ring = client.links.ring.erase item ∧
      next.pipe = .invalOne item.id :: client.pipe ∧ next.fresh = client.fresh ∧ Accounted capacity reserved next := by
  rcases accounted.agree.unlink member with ⟨links, unlinked, ring, agree⟩
  have perm := List.perm_cons_erase member
  have sizes : total CacheItem.size client.links.ring = item.size +
      total CacheItem.size (client.links.ring.erase item) := by
    rw [total_perm _ perm, total_cons]
  have balance := accounted.balance
  have bounds := accounted.available_bounds
  have nonneg := total_nonneg CacheItem.size (client.links.ring.erase item)
  have within := accounted.within
  have bounded := accounted.bounded
  have room := accounted.room
  have isLong : toLong (client.available + item.size) = client.available + item.size :=
    toLong_eq (by omega) (by omega)
  have unlinked : client.links.unlink (cacheHashKey item.id) item = some links := unlinked
  have removed : client.remove item = some { client with
      links := links
      items := (client.items + (2 ^ 32 - 1)) % 2 ^ 32
      available := toLong (client.available + item.size)
      pipe := .invalOne item.id :: client.pipe } := by
    rw [ChannelClient.remove, unlinked]
  refine ⟨_, removed, ring, rfl, rfl, agree, ?_, ?_, ?_, ?_, ?_, bounded, room⟩
  · show toLong (client.available + item.size) + total CacheItem.size links.ring = capacity - reserved
    rw [isLong, ring]
    omega
  · show (client.items + (2 ^ 32 - 1)) % 2 ^ 32 = links.ring.length
    have short := accounted.length_lt
    have one := perm.length_eq
    rw [List.length_cons] at one
    rw [ring, accounted.counted]
    omega
  · intro other found
    rw [ring] at found
    exact accounted.filled other (List.mem_of_mem_erase found)
  · intro other found
    rw [ring] at found
    exact accounted.allocated other (List.mem_of_mem_erase found)
  · show total CacheItem.size links.ring ≤ capacity
    rw [ring]
    omega

/-- The loop takes items from the end of the ring until the new one fits, or until
there are none.  It stops as soon as it can. -/
theorem makeRoom {size : Nat} (rounds : Nat) (isSize : reserved = size) (accounted : Accounted capacity reserved client)
    (enough : client.links.ring.length < rounds) : Exists fun next => Exists fun gone => Exists fun fits =>
      ChannelClient.makeRoom size rounds client = some (next, fits) ∧ client.links.ring = next.links.ring ++ gone ∧
      next.pipe = gone.map (fun item => .invalOne item.id) ++ client.pipe ∧ next.fresh = client.fresh ∧
      (gone = [] ∨ Exists fun item => Exists fun rest => gone = item :: rest ∧
        capacity < size + total CacheItem.size next.links.ring + item.size) ∧
      (fits = true -> Accounted capacity reserved next ∧ 0 ≤ next.available) ∧
      (fits = false -> Accounted capacity 0 next ∧ 0 ≤ next.available ∧ capacity < size ∧ next.links.ring = []) := by
  induction rounds generalizing client with
  | zero => exact absurd enough (Nat.not_lt_zero _)
  | succ rounds ih =>
      rw [ChannelClient.makeRoom]
      by_cases short : client.available < 0
      · rw [if_pos short]
        cases isLast : client.links.ring.getLast? with
        | none =>
            -- nothing is cached, so the item is larger than the whole cache
            have isEmpty := List.getLast?_eq_none_iff.mp isLast
            have balance := accounted.balance
            have bounded := accounted.bounded
            have bounds := accounted.available_bounds
            have within := accounted.within
            rw [isEmpty] at balance within
            have nothing := total_nil CacheItem.size
            have isLong : toLong (client.available + size) = client.available + size :=
              toLong_eq (by omega) (by omega)
            refine ⟨_, [], false, rfl,
              by simp, rfl, rfl, Or.inl rfl, fun wrong => absurd wrong (by decide), fun _ => ?_⟩
            refine ⟨⟨accounted.agree, ?_, accounted.counted, accounted.filled, accounted.allocated, accounted.within,
              bounded, by decide⟩, ?_, by omega, isEmpty⟩
            · show toLong (client.available + size) + total CacheItem.size client.links.ring = capacity - 0
              rw [isLong, isEmpty]
              omega
            · show 0 ≤ toLong (client.available + size)
              rw [isLong]
              omega
        | some tail =>
            have split : client.links.ring = client.links.ring.dropLast ++ [tail] :=
              (List.dropLast_append_getLast? tail (by rw [isLast]; rfl)).symm
            have member : tail ∈ client.links.ring := List.mem_of_getLast? isLast
            rcases accounted.remove member with ⟨middle, removed, ring, pipe, fresh, middleAccounted⟩
            rw [accounted.agree.erase_last split] at ring
            have shorter : middle.links.ring.length < rounds := by
              have lengths := congrArg List.length split
              rw [List.length_append, List.length_singleton] at lengths
              rw [ring]
              omega
            rcases ih middleAccounted shorter with
              ⟨next, gone, fits, made, kept, announced, sameFresh, stops, fit, unfit⟩
            simp only [removed]
            refine ⟨next, gone ++ [tail], fits, made, ?_, ?_, sameFresh.trans fresh, Or.inr ?_, fit, unfit⟩
            · rw [split, <- ring, kept, List.append_assoc]
            · rw [announced, pipe, List.map_append, List.append_assoc]
              rfl
            · rcases stops with rfl | ⟨item, rest, rfl, enough⟩
              · refine ⟨tail, [], rfl, ?_⟩
                rw [List.append_nil] at kept
                have balance := accounted.balance
                rw [split, total_append, <- ring, kept] at balance
                have one : total CacheItem.size [tail] = tail.size := by simp [total]
                omega
              · exact ⟨item, rest ++ [tail], rfl, enough⟩
      · rw [if_neg short]
        exact ⟨client, [], true, rfl, by simp, rfl, rfl, Or.inl rfl,
          fun _ => ⟨accounted, by omega⟩, fun wrong => absurd wrong (by decide)⟩

/-- An item is added when its size has been reserved. -/
theorem addItem {item : CacheItem} (accounted : Accounted capacity item.size client) (nonneg : 0 ≤ client.available)
    (filled : 0 < item.size) (isNew : forall other, other ∈ client.links.ring -> other.address < item.address)
    (allocated : item.address < client.fresh) : Sound capacity (client.addItem item) := by
  have absent : item ∉ client.links.ring := fun member => absurd (isNew item member) (Nat.lt_irrefl _)
  have balance := accounted.balance
  have sizes := total_cons CacheItem.size item client.links.ring
  have within : total CacheItem.size (item :: client.links.ring) ≤ capacity := by omega
  have room := accounted.bounded
  have every : forall other, other ∈ item :: client.links.ring -> 0 < other.size := by
    intro other member
    rcases List.mem_cons.mp member with rfl | old
    · exact filled
    · exact accounted.filled other old
  refine ⟨⟨accounted.agree.insert absent, ?_, ?_, every, ?_, within, accounted.bounded, by decide⟩, nonneg⟩
  · show client.available + total CacheItem.size (item :: client.links.ring) = capacity - 0
    omega
  · show (client.items + 1) % 2 ^ 32 = (item :: client.links.ring).length
    have few := length_le_total every
    rw [accounted.counted]
    rw [List.length_cons] at few ⊢
    omega
  · intro other member
    rcases List.mem_cons.mp member with rfl | old
    · exact allocated
    · exact accounted.allocated other old

end Accounted

/-- The items `gone` left the cache from the end of the ring, and were announced. -/
structure Evicted (before after : ChannelClient) (kept gone : List CacheItem) : Prop where
  split : before.links.ring = kept ++ gone
  announced : after.pipe = gone.map (fun item => .invalOne item.id) ++ before.pipe

namespace Sound

variable {capacity : Int} {client : ChannelClient}

/-- Adding evicts from the end of the ring, and no more than is needed; only an item
that is larger than the whole cache is refused. -/
theorem add {size : Nat} (sound : Sound capacity client) (id : Nat) (filled : 0 < size) (isLong : size < 2 ^ 63) :
    Exists fun next => Exists fun fits => Exists fun kept => Exists fun gone =>
      client.add id size = some (next, fits) ∧ Sound capacity next ∧ Evicted client next kept gone ∧
      (fits = true -> next.links.ring = { address := client.fresh, id := id, size := size } :: kept) ∧
      (fits = false -> next.links.ring = [] ∧ kept = [] ∧ capacity < size) ∧
      (gone = [] ∨ Exists fun item => Exists fun rest => gone = item :: rest ∧
        capacity < size + total CacheItem.size kept + item.size) := by
  rcases sound with ⟨accounted, nonneg⟩
  have balance := accounted.balance
  have bounds := accounted.available_bounds
  have isSize : toLong (client.available - size) = client.available - size := toLong_eq (by omega) (by omega)
  have reserved : Accounted capacity size
      { client with fresh := client.fresh + 1, available := toLong (client.available - size) } := by
    refine ⟨accounted.agree, ?_, accounted.counted, accounted.filled, ?_, accounted.within, accounted.bounded,
      by omega, by omega⟩
    · show toLong (client.available - size) + total CacheItem.size client.links.ring = capacity - size
      omega
    · exact fun item member => Nat.lt_succ_of_lt (accounted.allocated item member)
  rcases reserved.makeRoom (client.links.ring.length + 1) rfl (Nat.lt_succ_self _) with
    ⟨next, gone, fits, made, split, announced, fresh, stops, fit, unfit⟩
  have isOlder : forall other, other ∈ next.links.ring -> other.address < client.fresh := by
    intro other member
    apply accounted.allocated other
    show other ∈ client.links.ring
    rw [show client.links.ring = next.links.ring ++ gone from split]
    exact List.mem_append_left _ member
  cases fits with
  | false =>
      rcases unfit rfl with ⟨nextAccounted, nextNonneg, large, isEmpty⟩
      refine ⟨next, false, next.links.ring, gone, ?_, ⟨nextAccounted, nextNonneg⟩, ⟨split, announced⟩,
        fun wrong => absurd wrong (by decide), fun _ => ⟨isEmpty, isEmpty, large⟩, stops⟩
      simp only [ChannelClient.add, made]
  | true =>
      rcases fit rfl with ⟨nextAccounted, nextNonneg⟩
      have isFresh : client.fresh < next.fresh := by
        rw [fresh]
        exact Nat.lt_succ_self _
      refine ⟨next.addItem { address := client.fresh, id := id, size := size }, true, next.links.ring, gone, ?_, ?_,
        ⟨split, announced⟩, fun _ => rfl, fun wrong => absurd wrong (by decide), stops⟩
      · simp only [ChannelClient.add, made]
      · exact nextAccounted.addItem nextNonneg filled isOlder isFresh

theorem find (sound : Sound capacity client) (id : Nat) :
    Sound capacity (client.find id).1 ∧ (client.find id).1.links.ring.Perm client.links.ring ∧
      (client.find id).1.pipe = client.pipe := by
  unfold ChannelClient.find
  cases found : (client.links.table (cacheHashKey id)).find? (fun item => item.id = id) with
  | none => exact ⟨sound, List.Perm.refl _, rfl⟩
  | some item =>
      have chained := List.mem_of_find?_eq_some found
      have member := ((sound.1.agree.members _ item).mp chained).1
      exact ⟨⟨sound.1.touch member, sound.2⟩, HashRing.Agree.perm_touch member, rfl⟩

theorem remove {item : CacheItem} (sound : Sound capacity client) (member : item ∈ client.links.ring) :
    Exists fun next => client.remove item = some next ∧ next.links.ring = client.links.ring.erase item ∧
      next.pipe = .invalOne item.id :: client.pipe ∧ Sound capacity next := by
  rcases sound.1.remove member with ⟨next, removed, ring, pipe, -, accounted⟩
  refine ⟨next, removed, ring, pipe, accounted, ?_⟩
  have within := accounted.within
  have balance := accounted.balance
  omega

theorem reset (client : ChannelClient) {size : Int} (nonneg : 0 ≤ size) (bounded : size < 2 ^ 32) :
    Sound size (client.reset size) := by
  refine ⟨⟨HashRing.Agree.empty, ?_, rfl, ?_, ?_, nonneg, bounded, by decide⟩, nonneg⟩
  · show size + total CacheItem.size [] = size - 0
    have nothing := total_nil CacheItem.size
    omega
  · exact fun item member => absurd member List.not_mem_nil
  · exact fun item member => absurd member List.not_mem_nil

theorem init {size : Int} (nonneg : 0 ≤ size) (bounded : size < 2 ^ 32) : Sound size (ChannelClient.init size) :=
  reset (ChannelClient.init size) nonneg bounded

end Sound

/-- Every item that left the cache queued one pipe item for its id: what was cached
before is what is cached now, without a new item, and what was announced. -/
def Announces (before after : ChannelClient) : Prop :=
  Exists fun gone => Exists fun added => Exists fun kept =>
    after.links.ring = added ++ kept ∧ added.length ≤ 1 ∧ (forall item, item ∈ added -> item ∉ before.links.ring) ∧
      before.links.ring.Perm (kept ++ gone) ∧
      after.pipe = gone.map (fun item => .invalOne item.id) ++ before.pipe

/-- Every legal operation keeps the cache sound and announces what leaves it. -/
theorem step_sound {capacity : Int} {client : ChannelClient} {op : CacheOp} (sound : Sound capacity client)
    (legal : Legal client op) : Exists fun next => client.step op = some next ∧ Sound (configured capacity [op]) next ∧
      ((forall size, op ≠ .reset size) -> Announces client next) := by
  cases op with
  | find id =>
      rcases sound.find id with ⟨kept, perm, pipe⟩
      refine ⟨_, rfl, kept, fun _ => ⟨[], [], _, rfl, Nat.zero_le 1, ?_, ?_, ?_⟩⟩
      · exact fun item member => absurd member List.not_mem_nil
      · rw [List.append_nil]
        exact perm.symm
      · exact pipe
  | add id size =>
      rcases sound.add id legal.1 legal.2 with ⟨next, fits, kept, gone, added, nextSound, evicted, fit, unfit, -⟩
      have stepped : client.step (.add id size) = some next := by
        simp only [ChannelClient.step, added, Option.map_some]
      refine ⟨next, stepped, nextSound, fun _ => ?_⟩
      cases fits with
      | true =>
          refine ⟨gone, [_], kept, fit rfl, Nat.le_refl 1, ?_, ?_, evicted.announced⟩
          · intro item member old
            rw [List.mem_singleton] at member
            subst member
            exact absurd (sound.1.allocated _ old) (Nat.lt_irrefl _)
          · rw [evicted.split]
      | false =>
          rcases unfit rfl with ⟨isEmpty, nothing, -⟩
          refine ⟨gone, [], kept, ?_, Nat.zero_le 1, ?_, ?_, evicted.announced⟩
          · rw [isEmpty, nothing]
            rfl
          · exact fun item member => absurd member List.not_mem_nil
          · rw [evicted.split]
  | remove item =>
      rcases sound.remove legal with ⟨next, removed, ring, pipe, nextSound⟩
      refine ⟨next, removed, nextSound, fun _ => ⟨[item], [], next.links.ring, rfl, Nat.zero_le 1, ?_, ?_, pipe⟩⟩
      · exact fun other member => absurd member List.not_mem_nil
      · rw [ring]
        exact (List.perm_cons_erase legal).trans (List.perm_append_singleton item _).symm
  | reset size =>
      exact ⟨_, rfl, Sound.reset client legal.1 legal.2, fun other => absurd rfl (other size)⟩

end Cache
end Spice
