import Spice.Cache.PixmapCache

namespace Spice
namespace Cache

open Lib
open HashRing (total total_nil total_cons total_append total_perm total_nonneg)

/-!
# What the shared pixmap cache keeps

The table and the ring hold the same images, the counters follow them while the
cache is not frozen, and the serials of an image are those of the messages that
used it.  An add takes images from the end of the ring, tells the channel about
each of them with these serials, and stops at one that its own message uses.
-/

/-- The cache between two steps of an operation.  `reserved` is what an image that is
being added takes. -/
structure PixmapInv (reserved : Int) (cache : PixmapCache) : Prop where
  agree : cache.links.Agree NewCacheItem.key
  balance : cache.freezed = false -> cache.available + total NewCacheItem.size cache.links.ring = cache.size - reserved
  counted : cache.freezed = false -> cache.items = cache.links.ring.length
  within : cache.freezed = false -> total NewCacheItem.size cache.links.ring ≤ cache.size
  frozenRing : cache.freezed = true -> cache.links.ring = [] ∧ cache.available = -1 - reserved
  thawed : cache.freezed = false -> cache.frozen = []
  allocated : forall item, item ∈ cache.live -> item.address < cache.fresh
  addresses : (cache.live.map NewCacheItem.address).Nodup
  ids : (cache.links.ring.map NewCacheItem.id).Nodup
  stamped : forall item, item ∈ cache.links.ring -> forall channel,
    cache.itemSync item.address channel = lastUse cache.uses item.id channel
  latest : forall item, item ∈ cache.live -> forall channel, cache.itemSync item.address channel ≤ cache.sync channel
  current : forall channel, cache.sync channel ≤ cache.serial channel

/-- The cache between two operations. -/
def PixmapSound (cache : PixmapCache) : Prop :=
  PixmapInv 0 cache ∧ (cache.freezed = false -> 0 ≤ cache.available)

/-- What an eviction leaves as it is. -/
structure SameUses (before after : PixmapCache) : Prop where
  itemSync : after.itemSync = before.itemSync
  serial : after.serial = before.serial
  uses : after.uses = before.uses
  fresh : after.fresh = before.fresh
  freezed : after.freezed = before.freezed
  size : after.size = before.size

theorem SameUses.trans {one two three : PixmapCache} (first : SameUses one two) (second : SameUses two three) :
    SameUses one three :=
  ⟨second.itemSync.trans first.itemSync, second.serial.trans first.serial, second.uses.trans first.uses,
    second.fresh.trans first.fresh, second.freezed.trans first.freezed, second.size.trans first.size⟩

/-- What is released for an image: the serials of its last uses. -/
def releaseOf (cache : PixmapCache) (channel : Channel) (item : NewCacheItem) : Release :=
  { channel := channel, id := item.id, sync := cache.itemSync item.address }

theorem le_update_sync {cache : PixmapCache} (current : forall channel, cache.sync channel ≤ cache.serial channel)
    (channel other : Channel) : cache.sync other ≤ Function.update cache.sync channel (cache.serial channel) other := by
  by_cases same : other = channel
  · subst same
    rw [Function.update_self]
    exact current other
  · exact Nat.le_of_eq (Function.update_of_ne same _ _).symm

theorem update_sync_le {cache : PixmapCache} (current : forall channel, cache.sync channel ≤ cache.serial channel)
    (channel other : Channel) : Function.update cache.sync channel (cache.serial channel) other ≤
      cache.serial other := by
  by_cases same : other = channel
  · subst same
    exact Nat.le_of_eq (Function.update_self other _ _)
  · rw [Function.update_of_ne same]
    exact current other

namespace PixmapInv

variable {reserved : Int} {cache : PixmapCache}

theorem not_freezed (inv : PixmapInv reserved cache) {item : NewCacheItem} (member : item ∈ cache.links.ring) :
    cache.freezed = false := by
  rw [Bool.eq_false_iff]
  intro frozen
  rw [(inv.frozenRing frozen).1] at member
  cases member

/-- The last image of the ring leaves: it is released with its serials and freed. -/
theorem evict (inv : PixmapInv reserved cache) (channel : Channel) {front : List NewCacheItem} {tail : NewCacheItem}
    (split : cache.links.ring = front ++ [tail]) :
    Exists fun next => cache.evict channel tail = some next ∧ next.links.ring = front ∧
      next.pushed = cache.pushed ++ [releaseOf cache channel tail] ∧ next.freed = cache.freed ++ [tail] ∧
      SameUses cache next ∧ PixmapInv reserved next := by
  have member : tail ∈ cache.links.ring := by
    rw [split]
    exact List.mem_append_right _ List.mem_cons_self
  have notFrozen := inv.not_freezed member
  rcases inv.agree.unlink member with ⟨links, unlinked, ring, agree⟩
  rw [inv.agree.erase_last split] at ring
  have unlinked : cache.links.unlink (bitsCacheHashKey tail.id) tail = some links := unlinked
  have evicted : cache.evict channel tail = some { cache with
      links := links
      items := cache.items - 1
      available := cache.available + tail.size
      sync := Function.update cache.sync channel (cache.serial channel)
      pushed := cache.pushed ++ [releaseOf cache channel tail]
      freed := cache.freed ++ [tail] } := by
    rw [PixmapCache.evict, unlinked]
    rfl
  have sizes : total NewCacheItem.size cache.links.ring = total NewCacheItem.size front + tail.size := by
    rw [split, total_append, total_cons, total_nil]
    omega
  have fewer : (cache.frozen ++ front).Sublist cache.live := by
    rw [PixmapCache.live, split, <- List.append_assoc]
    exact List.sublist_append_left _ _
  have balance := inv.balance notFrozen
  have within := inv.within notFrozen
  refine ⟨_, evicted, ring, rfl, rfl, ⟨rfl, rfl, rfl, rfl, rfl, rfl⟩, agree, ?_, ?_, ?_, ?_, inv.thawed, ?_, ?_,
    ?_, ?_, ?_, ?_⟩
  · intro _
    show cache.available + tail.size + total NewCacheItem.size links.ring = cache.size - reserved
    rw [ring]
    omega
  · intro _
    show cache.items - 1 = links.ring.length
    have counted := inv.counted notFrozen
    rw [split, List.length_append, List.length_singleton] at counted
    rw [ring]
    omega
  · intro _
    show total NewCacheItem.size links.ring ≤ cache.size
    rw [ring]
    omega
  · intro frozen
    have frozen : cache.freezed = true := frozen
    rw [notFrozen] at frozen
    cases frozen
  · intro item found
    rw [PixmapCache.live, ring] at found
    exact inv.allocated item (fewer.subset found)
  · rw [PixmapCache.live, ring]
    exact inv.addresses.sublist (fewer.map _)
  · show (links.ring.map NewCacheItem.id).Nodup
    have ids := inv.ids
    rw [split, List.map_append] at ids
    rw [ring]
    exact (List.nodup_append.mp ids).1
  · intro item found
    apply inv.stamped item
    rw [split]
    rw [ring] at found
    exact List.mem_append_left _ found
  · intro item found other
    rw [PixmapCache.live, ring] at found
    exact Nat.le_trans (inv.latest item (fewer.subset found) other) (le_update_sync inv.current channel other)
  · exact update_sync_le inv.current channel

/-- A failed reservation is taken back. -/
theorem giveBack {size : Nat} (inv : PixmapInv size cache) :
    PixmapSound { cache with available := cache.available + size } := by
  refine ⟨⟨inv.agree, ?_, inv.counted, inv.within, ?_, inv.thawed, inv.allocated, inv.addresses, inv.ids, inv.stamped,
    inv.latest, inv.current⟩, ?_⟩
  · intro notFrozen
    have balance := inv.balance notFrozen
    show cache.available + size + total NewCacheItem.size cache.links.ring = cache.size - 0
    omega
  · intro frozen
    have available := (inv.frozenRing frozen).2
    refine ⟨(inv.frozenRing frozen).1, ?_⟩
    show cache.available + size = -1 - 0
    omega
  · intro notFrozen
    have balance := inv.balance notFrozen
    have within := inv.within notFrozen
    show 0 ≤ cache.available + size
    omega

/-- The loop takes images from the end of the ring, each released once with its
serials, and none that the current message of the channel uses. -/
theorem makeRoom {size : Nat} (rounds : Nat) (channel : Channel) (inv : PixmapInv size cache)
    (enough : cache.links.ring.length < rounds) : Exists fun next => Exists fun gone => Exists fun fits =>
      PixmapCache.makeRoom channel size rounds cache = some (next, fits) ∧ cache.links.ring = next.links.ring ++ gone ∧
      next.pushed = cache.pushed ++ gone.reverse.map (releaseOf cache channel) ∧
      next.freed = cache.freed ++ gone.reverse ∧ SameUses cache next ∧
      (forall item, item ∈ gone -> cache.itemSync item.address channel ≠ cache.serial channel) ∧
      (fits = true -> PixmapInv size next ∧ 0 ≤ next.available) ∧ (fits = false -> PixmapSound next) := by
  induction rounds generalizing cache with
  | zero => exact absurd enough (Nat.not_lt_zero _)
  | succ rounds ih =>
      rw [PixmapCache.makeRoom]
      by_cases short : cache.available < 0
      · rw [if_pos short]
        have refused : Exists fun next => Exists fun gone => Exists fun fits =>
            some ({ cache with available := cache.available + size }, false) = some (next, fits) ∧
            cache.links.ring = next.links.ring ++ gone ∧
            next.pushed = cache.pushed ++ gone.reverse.map (releaseOf cache channel) ∧
            next.freed = cache.freed ++ gone.reverse ∧ SameUses cache next ∧
            (forall item, item ∈ gone -> cache.itemSync item.address channel ≠ cache.serial channel) ∧
            (fits = true -> PixmapInv size next ∧ 0 ≤ next.available) ∧ (fits = false -> PixmapSound next) := by
          refine ⟨_, [], false, rfl, (List.append_nil _).symm, (List.append_nil _).symm, (List.append_nil _).symm,
            ⟨rfl, rfl, rfl, rfl, rfl, rfl⟩, ?_, fun wrong => absurd wrong (by decide), fun _ => inv.giveBack⟩
          exact fun item member => absurd member List.not_mem_nil
        cases isLast : cache.links.ring.getLast? with
        | none => exact refused
        | some tail =>
            by_cases pinned : cache.itemSync tail.address channel = cache.serial channel
            · simp only [if_pos pinned]
              exact refused
            · have split : cache.links.ring = cache.links.ring.dropLast ++ [tail] :=
                (List.dropLast_append_getLast? tail (by rw [isLast]; rfl)).symm
              rcases inv.evict channel split with ⟨middle, evicted, ring, pushed, freed, same, middleInv⟩
              have shorter : middle.links.ring.length < rounds := by
                have lengths := congrArg List.length split
                rw [List.length_append, List.length_singleton] at lengths
                rw [ring]
                omega
              rcases ih middleInv shorter with
                ⟨next, gone, fits, made, kept, nextPushed, nextFreed, nextSame, unpinned, fit, unfit⟩
              have sameRelease : releaseOf middle channel = releaseOf cache channel := by
                unfold releaseOf
                rw [same.itemSync]
              simp only [if_neg pinned, evicted]
              refine ⟨next, gone ++ [tail], fits, made, ?_, ?_, ?_, same.trans nextSame, ?_, fit, unfit⟩
              · rw [split, <- ring, kept, List.append_assoc]
              · rw [nextPushed, pushed, sameRelease, List.reverse_append, List.reverse_singleton, List.map_append,
                  List.append_assoc]
                rfl
              · rw [nextFreed, freed, List.reverse_append, List.reverse_singleton, List.append_assoc]
              · intro item member
                rcases List.mem_append.mp member with isGone | isTail
                · have unpinned := unpinned item isGone
                  rw [same.itemSync, same.serial] at unpinned
                  exact unpinned
                · rw [List.mem_singleton] at isTail
                  subst isTail
                  exact pinned
      · rw [if_neg short]
        refine ⟨cache, [], true, rfl, (List.append_nil _).symm, (List.append_nil _).symm, (List.append_nil _).symm,
          ⟨rfl, rfl, rfl, rfl, rfl, rfl⟩, ?_, fun _ => ⟨inv, by omega⟩, fun wrong => absurd wrong (by decide)⟩
        exact fun item member => absurd member List.not_mem_nil

/-- The serials of a use are the latest ones. -/
theorem stamp_latest (inv : PixmapInv reserved cache) (channel : Channel) (address : Nat) {serials : Channel -> Nat}
    (older : forall other, serials other ≤ cache.sync other) {item : NewCacheItem}
    (known : item ∈ cache.live ∨ item.address = address) (other : Channel) :
    (cache.stamp channel address serials).itemSync item.address other ≤
      (cache.stamp channel address serials).sync other := by
  simp only [PixmapCache.stamp]
  by_cases isAddress : item.address = address
  · rw [isAddress, Function.update_self]
    by_cases same : other = channel
    · subst same
      have stamped : Function.update serials other (cache.serial other) other = cache.serial other :=
        Function.update_self other (cache.serial other) serials
      have synced : Function.update cache.sync other (cache.serial other) other = cache.serial other :=
        Function.update_self other (cache.serial other) cache.sync
      exact Nat.le_of_eq (stamped.trans synced.symm)
    · rw [Function.update_of_ne same, Function.update_of_ne same]
      exact older other
  · rw [Function.update_of_ne isAddress]
    have member := known.resolve_right isAddress
    exact Nat.le_trans (inv.latest item member other) (le_update_sync inv.current channel other)

/-- The new image takes what was reserved for it; the message that adds it is the
only one that has used it. -/
theorem addItem {item : NewCacheItem} (inv : PixmapInv item.size cache) (nonneg : 0 ≤ cache.available)
    (channel : Channel) (lossy : Bool) (isNew : forall other, other ∈ cache.live -> other.address < item.address)
    (allocated : item.address < cache.fresh) (absent : item.id ∉ cache.links.ring.map NewCacheItem.id) :
    PixmapSound (cache.addItem channel item lossy) := by
  have notFrozen : cache.freezed = false := by
    rw [Bool.eq_false_iff]
    intro frozen
    have available := (inv.frozenRing frozen).2
    omega
  have thawed := inv.thawed notFrozen
  have live : cache.live = cache.links.ring := by rw [PixmapCache.live, thawed, List.nil_append]
  have nextLive : (cache.addItem channel item lossy).live = item :: cache.links.ring := by
    show cache.frozen ++ (item :: cache.links.ring) = _
    rw [thawed, List.nil_append]
  have absentItem : item ∉ cache.links.ring := fun member => absent (List.mem_map_of_mem member)
  have otherAddress : forall other, other ∈ cache.links.ring -> other.address ≠ item.address := by
    intro other member same
    have before := isNew other (by rw [live]; exact member)
    omega
  have balance := inv.balance notFrozen
  have sizes := total_cons NewCacheItem.size item cache.links.ring
  refine ⟨⟨inv.agree.insert absentItem, ?_, ?_, ?_, ?_, fun _ => thawed, ?_, ?_, ?_, ?_, ?_, ?_⟩, fun _ => nonneg⟩
  · intro _
    show cache.available + total NewCacheItem.size (item :: cache.links.ring) = cache.size - 0
    omega
  · intro _
    show cache.items + 1 = (item :: cache.links.ring).length
    have counted := inv.counted notFrozen
    rw [List.length_cons]
    omega
  · intro _
    show total NewCacheItem.size (item :: cache.links.ring) ≤ cache.size
    omega
  · intro frozen
    have frozen : cache.freezed = true := frozen
    rw [notFrozen] at frozen
    cases frozen
  · intro other member
    rw [nextLive] at member
    rcases List.mem_cons.mp member with rfl | old
    · exact allocated
    · exact inv.allocated other (by rw [live]; exact old)
  · rw [nextLive, List.map_cons]
    refine List.nodup_cons.mpr ⟨?_, by rw [<- live]; exact inv.addresses⟩
    intro member
    rcases List.mem_map.mp member with ⟨other, isThere, same⟩
    exact otherAddress other isThere same
  · exact List.nodup_cons.mpr ⟨absent, inv.ids⟩
  · intro other member asked
    show Function.update cache.itemSync item.address (Function.update (fun _ => 0) channel (cache.serial channel))
      other.address asked = lastUse (.added channel item.id (cache.serial channel) :: cache.uses) other.id asked
    rcases List.mem_cons.mp member with rfl | old
    · rw [Function.update_self, lastUse, if_pos rfl, Function.update_apply]
      by_cases same : asked = channel
      · rw [if_pos same, if_pos same.symm]
      · rw [if_neg same, if_neg (fun isChannel => same isChannel.symm)]
    · have different : item.id ≠ other.id := fun same => absent (same ▸ List.mem_map_of_mem old)
      rw [Function.update_of_ne (otherAddress other old), lastUse, if_neg different]
      exact inv.stamped other old asked
  · intro other member asked
    rw [nextLive] at member
    refine inv.stamp_latest channel item.address (fun _ => Nat.zero_le _) ?_ asked
    rcases List.mem_cons.mp member with rfl | old
    · exact Or.inr rfl
    · exact Or.inl (by rw [live]; exact old)
  · exact update_sync_le inv.current channel

/-- A hit makes the current message the last one of its channel that used the image. -/
theorem hit (inv : PixmapInv reserved cache) (id : Nat) (channel : Channel) :
    PixmapInv reserved (cache.unlockedHit id channel).1 := by
  unfold PixmapCache.unlockedHit
  cases found : (cache.links.table (bitsCacheHashKey id)).find? (fun item => item.id = id) with
  | none => exact inv
  | some item =>
      have member := ((inv.agree.members _ item).mp (List.mem_of_find?_eq_some found)).1
      have isId : item.id = id := by simpa using List.find?_some found
      subst isId
      have perm := HashRing.Agree.perm_touch member
      have notFrozen := inv.not_freezed member
      have livePerm : (cache.frozen ++ (cache.links.touch item).ring).Perm cache.live := perm.append_left _
      have inLive : item ∈ cache.live := List.mem_append_right _ member
      refine ⟨inv.agree.touch member, ?_, ?_, ?_, ?_, inv.thawed, ?_, ?_, ?_, ?_, ?_, ?_⟩
      · intro notFrozen
        show cache.available + total NewCacheItem.size (cache.links.touch item).ring = cache.size - reserved
        rw [total_perm _ perm]
        exact inv.balance notFrozen
      · intro notFrozen
        show cache.items = (cache.links.touch item).ring.length
        rw [perm.length_eq]
        exact inv.counted notFrozen
      · intro notFrozen
        show total NewCacheItem.size (cache.links.touch item).ring ≤ cache.size
        rw [total_perm _ perm]
        exact inv.within notFrozen
      · intro frozen
        have frozen : cache.freezed = true := frozen
        rw [notFrozen] at frozen
        cases frozen
      · exact fun other isThere => inv.allocated other (livePerm.mem_iff.mp isThere)
      · exact ((livePerm.map _).nodup_iff).mpr inv.addresses
      · exact ((perm.map _).nodup_iff).mpr inv.ids
      · intro other isThere asked
        have wasThere := perm.mem_iff.mp isThere
        show Function.update cache.itemSync item.address
            (Function.update (cache.itemSync item.address) channel (cache.serial channel)) other.address asked =
          lastUse (.hit channel item.id (cache.serial channel) :: cache.uses) other.id asked
        rw [lastUse]
        by_cases same : other = item
        · subst same
          rw [Function.update_self]
          by_cases isChannel : asked = channel
          · subst isChannel
            rw [Function.update_self, if_pos ⟨rfl, rfl⟩]
          · rw [Function.update_of_ne isChannel, if_neg (fun both => isChannel both.2.symm)]
            exact inv.stamped other wasThere asked
        · have otherAddress : other.address ≠ item.address := fun sameAddress =>
            same (List.inj_on_of_nodup_map inv.addresses (List.mem_append_right _ wasThere) inLive sameAddress)
          have otherId : item.id ≠ other.id := fun sameId =>
            same (List.inj_on_of_nodup_map inv.ids wasThere member sameId.symm)
          rw [Function.update_of_ne otherAddress, if_neg (fun both => otherId both.1)]
          exact inv.stamped other wasThere asked
      · intro other isThere asked
        exact inv.stamp_latest channel item.address (inv.latest item inLive)
          (Or.inl (livePerm.mem_iff.mp isThere)) asked
      · exact update_sync_le inv.current channel

end PixmapInv

namespace PixmapSound

variable {cache : PixmapCache}

/-- The images an add removes, and what it leaves. -/
structure AddSpec (cache next : PixmapCache) (channel : Channel) (item : NewCacheItem) (added : Bool) : Prop where
  removed : Exists fun kept => Exists fun gone => cache.links.ring = kept ++ gone ∧
    next.links.ring = (if added then item :: kept else kept) ∧
    next.pushed = cache.pushed ++ gone.reverse.map (fun item =>
      { channel := channel, id := item.id, sync := lastUse cache.uses item.id }) ∧
    next.freed = cache.freed ++ gone.reverse ∧
    forall item, item ∈ gone -> lastUse cache.uses item.id channel ≠ cache.serial channel

theorem absent_of_hit (sound : PixmapSound cache) {id : Nat} {channel : Channel}
    (missing : (cache.unlockedHit id channel).2 = none) : id ∉ cache.links.ring.map NewCacheItem.id := by
  intro cached
  rcases List.mem_map.mp cached with ⟨item, member, isId⟩
  have chained : item ∈ cache.links.table (bitsCacheHashKey id) :=
    (sound.1.agree.members _ item).mpr ⟨member, by rw [NewCacheItem.key, isId]⟩
  unfold PixmapCache.unlockedHit at missing
  cases found : (cache.links.table (bitsCacheHashKey id)).find? (fun item => item.id = id) with
  | none =>
      have never := List.find?_eq_none.mp found item chained
      exact never (decide_eq_true isId)
  | some other =>
      rw [found] at missing
      cases missing

/-- An addition starts by taking its size away. -/
theorem reserve (sound : PixmapSound cache) (size : Nat) :
    PixmapInv size { cache with fresh := cache.fresh + 1, available := cache.available - size } := by
  have inv := sound.1
  refine ⟨inv.agree, ?_, inv.counted, inv.within, ?_, inv.thawed, ?_, inv.addresses, inv.ids, inv.stamped, inv.latest,
    inv.current⟩
  · intro notFrozen
    have balance := inv.balance notFrozen
    show cache.available - size + total NewCacheItem.size cache.links.ring = cache.size - size
    omega
  · intro frozen
    have available := (inv.frozenRing frozen).2
    refine ⟨(inv.frozenRing frozen).1, ?_⟩
    show cache.available - size = -1 - size
    omega
  · exact fun item member => Nat.lt_succ_of_lt (inv.allocated item member)

/-- An addition evicts from the end, or fails and inserts nothing. -/
theorem add (sound : PixmapSound cache) {id size : Nat} (lossy : Bool) {channel : Channel} (filled : 0 < size)
    (missing : (cache.unlockedHit id channel).2 = none) :
    Exists fun next => Exists fun added => cache.unlockedAdd id size lossy channel = some (next, added) ∧
      PixmapSound next ∧ next.size = cache.size ∧
      AddSpec cache next channel { address := cache.fresh, id := id, size := size } added := by
  have inv := sound.1
  have absent := sound.absent_of_hit missing
  unfold PixmapCache.unlockedAdd
  rw [if_neg (Nat.pos_iff_ne_zero.mp filled)]
  by_cases stale : cache.generation ≠ cache.channelGeneration channel
  · rw [if_pos stale]
    refine ⟨_, false, rfl, ⟨⟨inv.agree, inv.balance, inv.counted, inv.within, inv.frozenRing, inv.thawed, inv.allocated,
      inv.addresses, inv.ids, inv.stamped, inv.latest, inv.current⟩, sound.2⟩, rfl, ⟨cache.links.ring, [], ?_⟩⟩
    refine ⟨(List.append_nil _).symm, rfl, (List.append_nil _).symm, (List.append_nil _).symm, ?_⟩
    exact fun item member => absurd member List.not_mem_nil
  · rw [if_neg stale]
    rcases (sound.reserve size).makeRoom (cache.links.ring.length + 1) channel (Nat.lt_succ_self _) with
      ⟨next, gone, fits, made, split, pushed, freed, same, unpinned, fit, unfit⟩
    have split : cache.links.ring = next.links.ring ++ gone := split
    have inRing : forall item, item ∈ gone -> item ∈ cache.links.ring := by
      intro item member
      rw [split]
      exact List.mem_append_right _ member
    have stampedGone : forall item, item ∈ gone -> cache.itemSync item.address = lastUse cache.uses item.id :=
      fun item member => funext (fun asked => inv.stamped item (inRing item member) asked)
    have pushedSpec : next.pushed = cache.pushed ++ gone.reverse.map (fun item =>
        { channel := channel, id := item.id, sync := lastUse cache.uses item.id }) := by
      rw [pushed]
      congr 1
      apply List.map_congr_left
      intro item member
      show Release.mk channel item.id (cache.itemSync item.address) = _
      rw [stampedGone item (List.mem_reverse.mp member)]
    have pinned : forall item, item ∈ gone -> lastUse cache.uses item.id channel ≠ cache.serial channel := by
      intro item member
      rw [<- stampedGone item member]
      exact unpinned item member
    cases fits with
    | false =>
        refine ⟨next, false, ?_, unfit rfl, same.size, ⟨next.links.ring, gone, split, rfl, pushedSpec, freed, pinned⟩⟩
        simp only [made]
    | true =>
        rcases fit rfl with ⟨nextInv, nonneg⟩
        have fresh : next.fresh = cache.fresh + 1 := same.fresh
        have isNew : forall other, other ∈ next.live -> other.address < cache.fresh := by
          intro other member
          have notFrozen : next.freezed = false := by
            rw [Bool.eq_false_iff]
            intro frozen
            have available := (nextInv.frozenRing frozen).2
            omega
          rw [PixmapCache.live, nextInv.thawed notFrozen, List.nil_append] at member
          apply inv.allocated other
          apply List.mem_append_right
          rw [split]
          exact List.mem_append_left _ member
        have stillAbsent : id ∉ next.links.ring.map NewCacheItem.id := by
          intro member
          apply absent
          rw [split, List.map_append]
          exact List.mem_append_left _ member
        refine ⟨next.addItem channel { address := cache.fresh, id := id, size := size } lossy, true, ?_, ?_,
          same.size, ?_⟩
        · simp only [made]
        · exact nextInv.addItem nonneg channel lossy isNew (by rw [fresh]; exact Nat.lt_succ_self _) stillAbsent
        · exact ⟨next.links.ring, gone, split, rfl, pushedSpec, freed, pinned⟩

theorem live_eq (sound : PixmapSound cache) : cache.live = if cache.freezed then cache.frozen
    else cache.links.ring := by
  unfold PixmapCache.live
  cases frozen : cache.freezed with
  | false => rw [sound.1.thawed frozen]; rfl
  | true => rw [(sound.1.frozenRing frozen).1, List.append_nil]; rfl

/-- A cleared cache has freed everything that lived. -/
theorem clear (sound : PixmapSound cache) (nonneg : 0 ≤ cache.size) :
    PixmapSound cache.clear ∧ cache.clear.freed = cache.freed ++ cache.live ∧ cache.clear.live = [] := by
  have thawed : (if cache.freezed then [] else cache.frozen) = [] := by
    cases frozen : cache.freezed with
    | false => exact sound.1.thawed frozen
    | true => rfl
  have live : cache.clear.live = [] := by
    show (if cache.freezed then [] else cache.frozen) ++ [] = []
    rw [thawed, List.append_nil]
  refine ⟨⟨⟨HashRing.Agree.empty, ?_, fun _ => rfl, fun _ => nonneg, ?_, fun _ => thawed, ?_, ?_,
    List.nodup_nil, ?_, ?_,
    sound.1.current⟩, fun _ => nonneg⟩, ?_, live⟩
  · intro _
    show cache.size + total NewCacheItem.size [] = cache.size - 0
    rw [total_nil]
    omega
  · intro frozen
    cases frozen
  · intro item member
    rw [live] at member
    cases member
  · rw [live]
    exact List.nodup_nil
  · intro item member
    cases member
  · intro item member
    rw [live] at member
    cases member
  · rw [sound.live_eq]
    rfl

theorem channels (sound : PixmapSound cache) {lossy : Nat -> Bool} {generation : Nat} {initiator : Channel × Nat}
    {channelGeneration : Channel -> Nat} {pending : Channel -> Bool} {serial : Channel -> Nat}
    (later : forall channel, cache.serial channel ≤ serial channel) :
    PixmapSound { cache with
      lossy := lossy, generation := generation, generationInitiator := initiator
      channelGeneration := channelGeneration, pendingPixmapsSync := pending, serial := serial } :=
  ⟨⟨sound.1.agree, sound.1.balance, sound.1.counted, sound.1.within, sound.1.frozenRing, sound.1.thawed,
    sound.1.allocated, sound.1.addresses, sound.1.ids, sound.1.stamped, sound.1.latest,
    fun channel => Nat.le_trans (sound.1.current channel) (later channel)⟩, sound.2⟩

theorem stampCache (sound : PixmapSound cache) (channel : Channel) :
    PixmapSound { cache with sync := Function.update cache.sync channel (cache.serial channel) } :=
  ⟨⟨sound.1.agree, sound.1.balance, sound.1.counted, sound.1.within, sound.1.frozenRing, sound.1.thawed,
    sound.1.allocated, sound.1.addresses, sound.1.ids, sound.1.stamped,
    fun item member other =>
      Nat.le_trans (sound.1.latest item member other) (le_update_sync sound.1.current channel other),
    update_sync_le sound.1.current channel⟩, sound.2⟩

theorem reset (sound : PixmapSound cache) (nonneg : 0 ≤ cache.size) (channel : Channel) :
    PixmapSound (cache.reset channel).1 :=
  ((sound.clear nonneg).1.stampCache channel).channels (fun _ => Nat.le_refl _)

/-- A frozen cache keeps its items aside. -/
theorem freeze (sound : PixmapSound cache) : PixmapSound cache.freeze.1 := by
  unfold PixmapCache.freeze
  cases frozen : cache.freezed with
  | true => exact sound
  | false =>
      have inv := sound.1
      have thawed := inv.thawed frozen
      have live : cache.live = cache.links.ring := by rw [PixmapCache.live, thawed, List.nil_append]
      have allocated := inv.allocated
      have addresses := inv.addresses
      have latest := inv.latest
      rw [live] at allocated addresses latest
      rw [if_neg (by decide)]
      refine ⟨⟨HashRing.Agree.empty, ?_, ?_, ?_, fun _ => ⟨rfl, rfl⟩, ?_, ?_, ?_, List.nodup_nil, ?_, ?_, inv.current⟩,
        ?_⟩
      · intro wrong
        cases wrong
      · intro wrong
        cases wrong
      · intro wrong
        cases wrong
      · intro wrong
        cases wrong
      · intro item member
        exact allocated item (List.append_nil cache.links.ring ▸ member)
      · show ((cache.links.ring ++ []).map NewCacheItem.address).Nodup
        rw [List.append_nil]
        exact addresses
      · exact fun item member => absurd member List.not_mem_nil
      · intro item member
        exact latest item (List.append_nil cache.links.ring ▸ member)
      · intro wrong
        cases wrong

/-- Every legal operation keeps the cache sound. -/
theorem step {op : PixmapOp} (sound : PixmapSound cache) (nonneg : 0 ≤ cache.size) (legal : PixmapLegal cache op) :
    Exists fun next => cache.step op = some next ∧ PixmapSound next ∧ next.size = cache.size := by
  cases op with
  | hit channel id =>
      refine ⟨_, rfl, ⟨sound.1.hit id channel, ?_⟩, ?_⟩
      · unfold PixmapCache.unlockedHit
        split
        · exact sound.2
        · exact sound.2
      · unfold PixmapCache.unlockedHit
        split <;> rfl
  | setLossy id lossy =>
      refine ⟨_, rfl, ?_, ?_⟩
      · unfold PixmapCache.unlockedSetLossy
        split
        · exact sound
        · exact sound.channels (fun _ => Nat.le_refl _)
      · unfold PixmapCache.unlockedSetLossy
        split <;> rfl
  | add channel id size lossy =>
      rcases sound.add lossy legal.1 legal.2 with ⟨next, added, isAdded, nextSound, sameSize, -⟩
      refine ⟨next, ?_, nextSound, sameSize⟩
      simp only [PixmapCache.step, isAdded, Option.map_some]
  | reset channel => exact ⟨_, rfl, sound.reset nonneg channel, rfl⟩
  | freeze =>
      refine ⟨_, rfl, sound.freeze, ?_⟩
      unfold PixmapCache.freeze
      split <;> rfl
  | destroy => exact ⟨_, rfl, (sound.clear nonneg).1, rfl⟩
  | pixmapSync channel => exact ⟨_, rfl, sound.channels (fun _ => Nat.le_refl _), rfl⟩
  | nextMessage channel =>
      refine ⟨_, rfl, sound.channels (fun other => ?_), rfl⟩
      by_cases same : other = channel
      · subst same
        rw [Function.update_self]
        exact Nat.le_succ _
      · exact Nat.le_of_eq (Function.update_of_ne same _ _).symm

theorem create {size : Int} (nonneg : 0 ≤ size) : PixmapSound (PixmapCache.create size) := by
  refine ⟨⟨HashRing.Agree.empty, ?_, fun _ => rfl, fun _ => nonneg, ?_, fun _ => rfl, ?_, List.nodup_nil,
    List.nodup_nil,
    ?_, ?_, fun _ => Nat.zero_le _⟩, fun _ => nonneg⟩
  · intro _
    show size + total NewCacheItem.size [] = size - 0
    rw [total_nil]
    omega
  · intro wrong
    cases wrong
  · exact fun item member => absurd member List.not_mem_nil
  · exact fun item member => absurd member List.not_mem_nil
  · exact fun item member => absurd member List.not_mem_nil

end PixmapSound

/-- What the shared cache promises in a state: the counters while it is not frozen, the
same images in the table and the ring, serials that are not behind those of any
image; for an add, which images it removes and what it says about them; and that
a reset or the destruction frees every image that is left, frozen or not. -/
structure PixmapSafe (cache : PixmapCache) : Prop where
  agree : cache.links.Agree NewCacheItem.key
  balance : cache.freezed = false ->
    cache.available + total NewCacheItem.size cache.links.ring = cache.size ∧ 0 ≤ cache.available ∧
      cache.items = cache.links.ring.length
  latest : forall item, item ∈ cache.live -> forall channel, cache.itemSync item.address channel ≤ cache.sync channel
  add : forall channel id size lossy, PixmapLegal cache (.add channel id size lossy) ->
    Exists fun next => Exists fun added => cache.unlockedAdd id size lossy channel = some (next, added) ∧
      PixmapSound.AddSpec cache next channel { address := cache.fresh, id := id, size := size } added
  freed : forall channel, (cache.reset channel).1.freed = cache.freed ++ cache.live ∧
    (cache.reset channel).1.live = [] ∧ cache.destroy.freed = cache.freed ++ cache.live ∧ cache.destroy.live = []

theorem PixmapSound.safe {cache : PixmapCache} (sound : PixmapSound cache) (nonneg : 0 ≤ cache.size) :
    PixmapSafe cache where
  agree := sound.1.agree
  balance := by
    intro notFrozen
    have balance := sound.1.balance notFrozen
    exact ⟨by omega, sound.2 notFrozen, sound.1.counted notFrozen⟩
  latest := sound.1.latest
  add := by
    intro channel id size lossy legal
    rcases sound.add lossy legal.1 legal.2 with ⟨next, added, isAdded, -, -, spec⟩
    exact ⟨next, added, isAdded, spec⟩
  freed := by
    intro channel
    have cleared := sound.clear nonneg
    exact ⟨cleared.2.1, cleared.2.2, cleared.2.1, cleared.2.2⟩

/-- Over every sequence of operations of the channels that share a cache whose size is
not negative, the cache is safe in every state. -/
theorem pixmap_cache_pinning (size : Int) (nonneg : 0 ≤ size) (ops : List PixmapOp)
    (legal : Meets PixmapCache.step (fun _ cache op => PixmapLegal cache op) [] (PixmapCache.create size) ops) :
    AllStates PixmapCache.step (fun _ cache => PixmapSafe cache) [] (PixmapCache.create size) ops := by
  have keep : forall (_ : List PixmapOp) (cache : PixmapCache) (op : PixmapOp),
      PixmapSound cache ∧ 0 ≤ cache.size -> PixmapLegal cache op ->
        Exists fun next => cache.step op = some next ∧ PixmapSound next ∧ 0 ≤ next.size := by
    intro _ cache op inv legal
    rcases inv.1.step inv.2 legal with ⟨next, stepped, sound, sameSize⟩
    exact ⟨next, stepped, sound, by rw [sameSize]; exact inv.2⟩
  have safe : forall (_ : List PixmapOp) (cache : PixmapCache), PixmapSound cache ∧ 0 ≤ cache.size ->
      PixmapSafe cache := fun _ _ inv => inv.1.safe inv.2
  exact allStates_of_meets safe keep
    ⟨PixmapSound.create nonneg, nonneg⟩ legal

/-- Two channels fill a cache of ten pixels; the second frees what the first has used
in an earlier message. -/
theorem pixmap_cache_pinning_two_channels :
    AllStates PixmapCache.step (fun _ cache => PixmapSafe cache) [] (PixmapCache.create 10)
      [.add 0 7 6 false, .hit 1 7, .nextMessage 0, .nextMessage 1, .add 1 8 5 true, .freeze, .reset 0] := by
  refine pixmap_cache_pinning 10 (by decide) _ ?_
  refine ⟨⟨by decide, by decide⟩, fun _ first => ⟨trivial, fun _ second => ⟨trivial, fun _ third => ⟨trivial,
    fun _ fourth => ⟨⟨by decide, ?_⟩, fun _ _ => ⟨trivial, fun _ _ => ⟨trivial, fun _ _ => trivial⟩⟩⟩⟩⟩⟩⟩
  cases first
  cases second
  cases third
  cases fourth
  decide

/-- A cache that is created to wait for the size it had before a migration is not
frozen, and has less than nothing available. -/
theorem waiting_cache_below_zero : Not (forall (size : Int) (ops : List PixmapOp),
    Meets PixmapCache.step (fun _ cache op => PixmapLegal cache op) [] (PixmapCache.create size) ops ->
      AllStates PixmapCache.step (fun _ cache => PixmapSafe cache) [] (PixmapCache.create size) ops) := by
  intro always
  rcases always (-1) [] trivial [] (List.prefix_refl []) with ⟨cache, isCache, safe⟩
  cases isCache
  exact absurd (safe.balance rfl).2.1 (by decide)

end Cache
end Spice
