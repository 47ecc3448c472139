import Spice.Cache.ClientCache
import Spice.Lib.Recency

namespace Spice
namespace Cache

open Lib
open HashRing (total total_cons)

/-!
# The client's copy of a cache

A message that needs a palette looks it up in the server's cache.  If it is
there, the message only names it; otherwise the message carries the palette and
asks the client to keep it.  What the server evicts meanwhile is announced by pipe
items that are sent directly behind the message, so the client may hold more than
the server believes, never less, unless a palette comes back into the cache before
its own eviction was announced.
-/

/-- How a message refers to a palette or a cursor. -/
inductive CacheRef
  | inline
  | fromCache (id : Nat)
  | cacheMe (id : Nat)
  deriving DecidableEq, Repr

/-- A message on the wire: `INVAL_ONE`, one with references, or one that clears the
client's cache first. -/
inductive Wire
  | invalOne (id : Nat)
  | message (refs : List CacheRef)
  | invalAll (refs : List CacheRef)
  deriving DecidableEq, Repr

def PipeItem.isInval : PipeItem -> Bool
  | .invalOne _ => true
  | _ => false

namespace ChannelClient

variable (client : ChannelClient)

/-- `fill_palette`, and the same part of `fill_cursor`. -/
def fillPalette (unique : Nat) : Option (ChannelClient × CacheRef) :=
  if unique = 0 then some (client, .inline)
  else
    match client.find unique with
    | (found, some _) => some (found, .fromCache unique)
    | (missing, none) =>
        match missing.add unique 1 with
        | none => none
        | some (next, true) => some (next, .cacheMe unique)
        | some (next, false) => some (next, .inline)

end ChannelClient

/-- The references of one message, in the order they are looked up. -/
def fillAll : List Nat -> ChannelClient -> Option (ChannelClient × List CacheRef)
  | [], client => some (client, [])
  | unique :: rest, client =>
      match client.fillPalette unique with
      | none => none
      | some (next, ref) => (fillAll rest next).map (fun filled => (filled.1, ref :: filled.2))

/-- The client takes a reference: `cache_find`, which must succeed, or `cache_add`. -/
def takeRef (held : List Nat) : CacheRef -> Option (List Nat)
  | .inline => some held
  | .fromCache id => if id ∈ held then some held else none
  | .cacheMe id => some (id :: held)

/-- All references of a message. -/
def takeRefs : List Nat -> List CacheRef -> Option (List Nat)
  | held, [] => some held
  | held, ref :: rest =>
      match takeRef held ref with
      | none => none
      | some next => takeRefs next rest

/-- The client takes a message: `cache_remove` or `cache_clear` before the references. -/
def takeWire (held : List Nat) : Wire -> Option (List Nat)
  | .invalOne id => some (held.filter (fun other => other ≠ id))
  | .message refs => takeRefs held refs
  | .invalAll refs => takeRefs [] refs

/-- The server's side of the channel and everything it has sent. -/
structure Session where
  server : ChannelClient
  sent : List Wire

/-- The worker queues an item, inserts one before another in the order of sending, or
takes one back; the next item is sent, or replaced by items that have to go first. -/
inductive SessionOp
  | pipeAdd (item : PipeItem)
  | pipeAddAfter (position : Nat) (item : PipeItem)
  | pipeRemove (position : Nat)
  | send
  | resend (items : List PipeItem)

namespace Session

variable (session : Session)

def setPipe (pipe : List PipeItem) : Session := { session with server := { session.server with pipe := pipe } }

/-- The item is a message, not an announcement. -/
def isMessage : Option PipeItem -> Bool
  | some (.message _) => true
  | _ => false

/-- `red_channel_client_push` of one item. -/
def send (capacity : Nat) : Option Session :=
  match session.server.pipe with
  | [] => none
  | .invalOne id :: rest => some { session.setPipe rest with sent := session.sent ++ [.invalOne id] }
  | .message uniques :: rest =>
      (fillAll uniques { session.server with pipe := rest }).map (fun filled =>
        { server := filled.1, sent := session.sent ++ [.message filled.2] })
  | .resetCache uniques :: rest =>
      (fillAll uniques ({ session.server with pipe := rest }.reset capacity)).map (fun filled =>
        { server := filled.1, sent := session.sent ++ [.invalAll filled.2] })

def step (capacity : Nat) : SessionOp -> Option Session
  | .pipeAdd item => if item.isInval then none else some (session.setPipe (session.server.pipe ++ [item]))
  | .pipeAddAfter position item =>
      if item.isInval || !isMessage session.server.pipe[position]? then none
      else some (session.setPipe (session.server.pipe.take position ++ item :: session.server.pipe.drop position))
  | .pipeRemove position =>
      if isMessage session.server.pipe[position]? then some (session.setPipe (session.server.pipe.eraseIdx position))
      else none
  | .send => session.send capacity
  | .resend items =>
      match session.server.pipe with
      | .message _ :: rest => if items.any PipeItem.isInval then none else some (session.setPipe (items ++ rest))
      | _ => none

def init (capacity : Nat) : Session where
  server := ChannelClient.init capacity
  sent := []

end Session

/-- Everything the client holds after the messages, if it had what they named. -/
def clientHolds : List Nat -> List Wire -> Option (List Nat)
  | held, [] => some held
  | held, wire :: rest =>
      match takeWire held wire with
      | none => none
      | some next => clientHolds next rest

/-- The ids in the server's cache, the one used last first. -/
def ChannelClient.cached (client : ChannelClient) : List Nat := client.links.ring.map (fun item => item.id)

/-- A palette of the message that was cached before the message, or that the message
looked up before, has fewer than `capacity` others used after it. -/
def Recent (capacity : Nat) : List Nat -> List Nat -> Prop
  | _, [] => True
  | history, unique :: rest =>
      if unique = 0 then Recent capacity history rest
      else
        (unique ∈ history -> (Recency.newer history unique).card < capacity) ∧
          Recent capacity (unique :: history) rest

instance decidableRecent (capacity : Nat) : forall history uniques, Decidable (Recent capacity history uniques)
  | _, [] => .isTrue trivial
  | history, unique :: rest =>
      have := decidableRecent capacity history rest
      have := decidableRecent capacity (unique :: history) rest
      inferInstanceAs (Decidable (if unique = 0 then Recent capacity history rest
        else (unique ∈ history -> (Recency.newer history unique).card < capacity) ∧
          Recent capacity (unique :: history) rest))

/-- The message that is sent next does not bring back what it evicts. -/
def RecentSend (capacity : Nat) (session : Session) : SessionOp -> Prop
  | .send =>
      match session.server.pipe with
      | .message uniques :: _ => Recent capacity session.server.cached uniques
      | .resetCache uniques :: _ => Recent capacity [] uniques
      | _ => True
  | _ => True

instance (capacity : Nat) (session : Session) (op : SessionOp) : Decidable (RecentSend capacity session op) := by
  unfold RecentSend
  split
  · split <;> infer_instance
  · infer_instance

def clientPaletteCacheSize : Nat := 128

/-- The cache as its callers use it: an id is cached once, with size one. -/
structure OneEach (capacity : Nat) (client : ChannelClient) : Prop where
  sound : Sound capacity client
  single : forall item, item ∈ client.links.ring -> item.size = 1
  nodup : client.cached.Nodup

namespace OneEach

variable {capacity : Nat} {client : ChannelClient}

theorem total_eq {ring : List CacheItem} (single : forall item, item ∈ ring -> item.size = 1) :
    total CacheItem.size ring = ring.length := by
  induction ring with
  | nil => rfl
  | cons item rest ih =>
      have first := single item List.mem_cons_self
      have others := ih (fun other member => single other (List.mem_cons_of_mem _ member))
      rw [total_cons, List.length_cons]
      omega

theorem length_le (unit : OneEach capacity client) : client.links.ring.length ≤ capacity := by
  have within := unit.sound.1.within
  rw [total_eq unit.single] at within
  omega

theorem setPipe (unit : OneEach capacity client) (pipe : List PipeItem) : OneEach capacity
    { client with pipe := pipe } where
  sound := ⟨⟨unit.sound.1.agree, unit.sound.1.balance, unit.sound.1.counted, unit.sound.1.filled,
    unit.sound.1.allocated, unit.sound.1.within, unit.sound.1.bounded, unit.sound.1.room⟩, unit.sound.2⟩
  single := unit.single
  nodup := unit.nodup

theorem find_none (unit : OneEach capacity client) {unique : Nat}
    (missing : (client.links.table (cacheHashKey unique)).find? (fun item => item.id = unique) = none) :
    unique ∉ client.cached := by
  intro cached
  rcases List.mem_map.mp cached with ⟨item, member, isUnique⟩
  have chained : item ∈ client.links.table (cacheHashKey unique) :=
    (unit.sound.1.agree.members _ item).mpr ⟨member, by rw [CacheItem.key, isUnique]⟩
  have never := List.find?_eq_none.mp missing item chained
  exact never (decide_eq_true isUnique)

theorem cached_touch (unit : OneEach capacity client) {item : CacheItem} (member : item ∈ client.links.ring) :
    (item :: client.links.ring.erase item).map (fun item => item.id) = item.id :: client.cached.erase item.id := by
  rw [List.map_cons]
  congr 1
  rcases List.append_of_mem member with ⟨front, back, split⟩
  have nodup := unit.nodup
  unfold ChannelClient.cached at nodup ⊢
  rw [split, List.map_append, List.map_cons] at nodup
  have notFront : item.id ∉ front.map (fun item => item.id) := by
    intro inFront
    exact List.disjoint_of_nodup_append nodup inFront List.mem_cons_self
  have itemNotFront : item ∉ front := fun inFront => notFront (List.mem_map_of_mem inFront)
  rw [split, List.map_append, List.map_cons, List.erase_append_right _ notFront, List.erase_cons_head,
    List.erase_append_right _ itemNotFront, List.erase_cons_head, List.map_append]

theorem take_add {kept gone : List Nat} (unique : Nat) (room : kept.length + 1 ≤ capacity)
    (stops : gone = [] ∨ capacity ≤ kept.length + 1) : (unique :: (kept ++ gone)).take capacity = unique :: kept ∧
      (unique :: (kept ++ gone)).drop capacity = gone := by
  rw [<- List.cons_append]
  rcases stops with rfl | full
  · rw [List.append_nil]
    exact ⟨List.take_of_length_le room, List.drop_of_length_le room⟩
  · have exactly : capacity = (unique :: kept).length := by
      rw [List.length_cons]
      omega
    rw [exactly, List.take_left, List.drop_left]
    exact ⟨rfl, rfl⟩

/-- A lookup uses the palette: it is first afterwards, and what no longer fits is
announced before everything else in the pipe. -/
theorem fillPalette (unit : OneEach capacity client) {unique : Nat} (proper : unique ≠ 0) (positive : 0 < capacity) :
    Exists fun next => client.fillPalette unique =
        some (next, if unique ∈ client.cached then .fromCache unique else .cacheMe unique) ∧
      OneEach capacity next ∧ next.cached = Recency.use capacity client.cached unique ∧
      next.pipe = (Recency.dropped capacity client.cached unique).map PipeItem.invalOne ++ client.pipe := by
  unfold ChannelClient.fillPalette
  rw [if_neg proper]
  cases found : (client.links.table (cacheHashKey unique)).find? (fun item => item.id = unique) with
  | some item =>
      have member := ((unit.sound.1.agree.members _ item).mp (List.mem_of_find?_eq_some found)).1
      have isUnique : item.id = unique := by simpa using List.find?_some found
      subst isUnique
      have cached : item.id ∈ client.cached := List.mem_map_of_mem member
      have length : (item.id :: client.cached.erase item.id).length ≤ capacity := by
        have same := (List.perm_cons_erase cached).length_eq
        have few := unit.length_le
        rw [<- same, ChannelClient.cached, List.length_map]
        exact few
      have isFound : client.find item.id = ({ client with links := client.links.touch item }, some item) := by
        rw [ChannelClient.find, found]
      simp only [isFound, if_pos cached]
      refine ⟨_, rfl, ⟨⟨unit.sound.1.touch member, unit.sound.2⟩, ?_, ?_⟩, ?_, ?_⟩
      · intro other found
        exact unit.single other ((HashRing.Agree.perm_touch member).mem_iff.mp found)
      · show ((item :: client.links.ring.erase item).map (fun item => item.id)).Nodup
        rw [unit.cached_touch member]
        exact Recency.nodup_front unit.nodup item.id
      · show (item :: client.links.ring.erase item).map (fun item => item.id) = _
        rw [unit.cached_touch member, Recency.use, List.take_of_length_le length]
      · rw [Recency.dropped, List.drop_of_length_le length]
        rfl
  | none =>
      have absent := unit.find_none found
      have isMissing : client.find unique = (client, none) := by
        rw [ChannelClient.find, found]
      simp only [isMissing, if_neg absent]
      rcases unit.sound.add unique Nat.one_pos (by decide) with
        ⟨next, fits, kept, gone, added, sound, evicted, fit, unfit, stops⟩
      cases fits with
      | false =>
          have large := (unfit rfl).2.2
          omega
      | true =>
          have ring := fit rfl
          have keptSingle : forall item, item ∈ kept -> item.size = 1 := by
            intro item member
            apply unit.single item
            rw [evicted.split]
            exact List.mem_append_left _ member
          have within := sound.1.within
          rw [ring, total_cons, total_eq keptSingle] at within
          have cachedSplit : client.cached = kept.map (fun item => item.id) ++ gone.map (fun item => item.id) := by
            rw [ChannelClient.cached, evicted.split, List.map_append]
          have noErase : client.cached.erase unique = client.cached := List.erase_of_not_mem absent
          have room : (kept.map (fun item => item.id)).length + 1 ≤ capacity := by
            rw [List.length_map]
            simp only at within
            omega
          have full : gone.map (fun item => item.id) = [] ∨
              capacity ≤ (kept.map (fun item => item.id)).length + 1 := by
            rcases stops with rfl | ⟨item, rest, isGone, enough⟩
            · exact Or.inl rfl
            · refine Or.inr ?_
              have one : item.size = 1 := by
                apply unit.single item
                rw [evicted.split, isGone]
                exact List.mem_append_right _ List.mem_cons_self
              rw [total_eq keptSingle] at enough
              rw [List.length_map]
              omega
          have cut := take_add unique room full
          rw [<- cachedSplit] at cut
          simp only [added]
          refine ⟨next, rfl, ⟨sound, ?_, ?_⟩, ?_, ?_⟩
          · intro item member
            rw [ring] at member
            rcases List.mem_cons.mp member with rfl | old
            · rfl
            · exact keptSingle item old
          · rw [ChannelClient.cached, ring, List.map_cons, <- cut.1]
            exact (List.take_sublist _ _).nodup (List.nodup_cons.mpr ⟨absent, unit.nodup⟩)
          · rw [ChannelClient.cached, ring, List.map_cons, Recency.use, noErase, cut.1]
          · rw [Recency.dropped, noErase, cut.2, evicted.announced, List.map_map]
            rfl

end OneEach

/-- What the client holds covers the server's cache, and what is announced is out
of it. -/
structure Covers (client : ChannelClient) (held : List Nat) : Prop where
  held : forall id, id ∈ client.cached -> id ∈ held
  announced : forall id, PipeItem.invalOne id ∈ client.pipe -> id ∉ client.cached
  ordered : client.pipe.Pairwise (fun first second => second.isInval = true -> first.isInval = true)

/-- A message that is being filled: the palettes that were cached or looked up since
it was started are in its history. -/
structure Filling (capacity : Nat) (history : List Nat) (client : ChannelClient) (held : List Nat) : Prop where
  unit : OneEach capacity client
  covers : Covers client held
  follows : Recency.Follows capacity client.cached history
  known : forall id, id ∈ client.cached -> id ∈ history
  knownGone : forall id, PipeItem.invalOne id ∈ client.pipe -> id ∈ history

namespace Filling

variable {capacity : Nat} {history held : List Nat} {client : ChannelClient}

theorem mem_use_or_dropped {cached : List Nat} {unique id : Nat} :
    id ∈ Recency.use capacity cached unique ∨ id ∈ Recency.dropped capacity cached unique <->
      id = unique ∨ id ∈ cached.erase unique := by
  rw [Recency.use, Recency.dropped, <- List.mem_append, List.take_append_drop, List.mem_cons]

/-- One lookup: the client has what is named, and the palette is not announced. -/
theorem lookup (filling : Filling capacity history client held) (positive : 0 < capacity) {unique : Nat}
    (proper : unique ≠ 0) (recent : unique ∈ history -> (Recency.newer history unique).card < capacity) :
    Exists fun next => Exists fun ref => Exists fun heldNext =>
      client.fillPalette unique = some (next, ref) ∧ takeRef held ref = some heldNext ∧
        Filling capacity (unique :: history) next heldNext := by
  rcases filling.unit.fillPalette proper positive with ⟨next, filled, unit, cached, pipe⟩
  have inCache : forall id, id ∈ next.cached -> id = unique ∨ id ∈ client.cached := by
    intro id member
    rw [cached] at member
    rcases mem_use_or_dropped.mp (Or.inl member) with same | old
    · exact Or.inl same
    · exact Or.inr (List.mem_of_mem_erase old)
  have droppedOld : forall id, id ∈ Recency.dropped capacity client.cached unique -> id = unique ∨
      id ∈ client.cached := by
    intro id member
    rcases mem_use_or_dropped.mp (Or.inr member) with same | old
    · exact Or.inl same
    · exact Or.inr (List.mem_of_mem_erase old)
  have inPipe : forall id, PipeItem.invalOne id ∈ next.pipe ->
      id ∈ Recency.dropped capacity client.cached unique ∨ PipeItem.invalOne id ∈ client.pipe := by
    intro id member
    rw [pipe] at member
    rcases List.mem_append.mp member with isDropped | old
    · rcases List.mem_map.mp isDropped with ⟨other, found, same⟩
      cases same
      exact Or.inl found
    · exact Or.inr old
  have announced : forall id, PipeItem.invalOne id ∈ next.pipe -> id ∉ next.cached := by
    intro id member kept
    rcases inPipe id member with isDropped | old
    · rw [cached] at kept
      have front := Recency.nodup_front filling.unit.nodup unique
      rw [<- List.take_append_drop capacity (unique :: client.cached.erase unique)] at front
      exact List.disjoint_of_nodup_append front kept isDropped
    · rcases inCache id kept with rfl | wasCached
      · -- the palette was evicted by this message, but it is still recent: it is cached
        have known := filling.knownGone id old
        exact filling.covers.announced id old (filling.follows id known (recent known)).1
      · exact filling.covers.announced id old wasCached
  have ordered : next.pipe.Pairwise (fun first second => second.isInval = true -> first.isInval = true) := by
    rw [pipe]
    have isInval : forall item, item ∈ (Recency.dropped capacity client.cached unique).map PipeItem.invalOne ->
        item.isInval = true := by
      intro item member
      rcases List.mem_map.mp member with ⟨id, -, rfl⟩
      rfl
    refine List.pairwise_append.mpr ⟨?_, filling.covers.ordered, fun first member _ _ _ => isInval first member⟩
    exact List.pairwise_of_forall_mem_list (fun first member _ _ _ => isInval first member)
  have known : forall id, id ∈ next.cached -> id ∈ unique :: history := by
    intro id member
    rcases inCache id member with rfl | old
    · exact List.mem_cons_self
    · exact List.mem_cons_of_mem _ (filling.known id old)
  have knownGone : forall id, PipeItem.invalOne id ∈ next.pipe -> id ∈ unique :: history := by
    intro id member
    rcases inPipe id member with isDropped | old
    · rcases droppedOld id isDropped with rfl | wasCached
      · exact List.mem_cons_self
      · exact List.mem_cons_of_mem _ (filling.known id wasCached)
    · exact List.mem_cons_of_mem _ (filling.knownGone id old)
  have follows : Recency.Follows capacity next.cached (unique :: history) := by
    rw [cached]
    exact filling.follows.use filling.unit.nodup unique
  by_cases isCached : unique ∈ client.cached
  · rw [if_pos isCached] at filled
    have has := filling.covers.held unique isCached
    refine ⟨next, _, held, filled,
      by rw [takeRef, if_pos has], unit, ⟨?_, announced, ordered⟩, follows, known, knownGone⟩
    intro id member
    rcases inCache id member with rfl | old
    · exact has
    · exact filling.covers.held id old
  · rw [if_neg isCached] at filled
    refine ⟨next, _, unique :: held, filled, rfl, unit, ⟨?_, announced, ordered⟩, follows, known, knownGone⟩
    intro id member
    rcases inCache id member with rfl | old
    · exact List.mem_cons_self
    · exact List.mem_cons_of_mem _ (filling.covers.held id old)

/-- A message is filled, and the client follows it. -/
theorem fillAll {uniques : List Nat} (filling : Filling capacity history client held) (positive : 0 < capacity)
    (recent : Recent capacity history uniques) : Exists fun next => Exists fun refs => Exists fun heldNext =>
      fillAll uniques client = some (next, refs) ∧ takeRefs held refs = some heldNext ∧
        OneEach capacity next ∧ Covers next heldNext := by
  induction uniques generalizing history client held with
  | nil => exact ⟨client, [], held, rfl, rfl, filling.unit, filling.covers⟩
  | cons unique rest ih =>
      rw [Recent] at recent
      by_cases isZero : unique = 0
      · rw [if_pos isZero] at recent
        rcases ih filling recent with ⟨next, refs, heldNext, filled, taken, unit, covers⟩
        refine ⟨next, .inline :: refs, heldNext, ?_, taken, unit, covers⟩
        simp only [Cache.fillAll, ChannelClient.fillPalette, if_pos isZero, filled, Option.map_some]
      · rw [if_neg isZero] at recent
        rcases filling.lookup positive isZero recent.1 with ⟨middle, ref, heldMiddle, filledOne, takenOne, nextFilling⟩
        rcases ih nextFilling recent.2 with ⟨next, refs, heldNext, filled, taken, unit, covers⟩
        refine ⟨next, ref :: refs, heldNext, ?_, ?_, unit, covers⟩
        · simp only [Cache.fillAll, filledOne, filled, Option.map_some]
        · simp only [takeRefs, takenOne]
          exact taken

end Filling

/-- The state between two messages. -/
structure Mirrored (capacity : Nat) (session : Session) : Prop where
  unit : OneEach capacity session.server
  covers : Exists fun held => clientHolds [] session.sent = some held ∧ Covers session.server held

theorem clientHolds_append {held next : List Nat} {sent : List Wire} (before : clientHolds held sent = some next)
    (wire : Wire) : clientHolds held (sent ++ [wire]) = takeWire next wire := by
  induction sent generalizing held with
  | nil =>
      cases before
      rw [List.nil_append, clientHolds]
      cases takeWire next wire with
      | none => rfl
      | some last => rfl
  | cons first rest ih =>
      rw [List.cons_append]
      cases taken : takeWire held first with
      | none =>
          rw [clientHolds, taken] at before
          cases before
      | some middle =>
          rw [clientHolds, taken] at before
          rw [clientHolds, taken]
          exact ih before

namespace Mirrored

variable {capacity : Nat} {session next : Session}

theorem messages_behind {item : PipeItem} {rest : List PipeItem}
    (ordered : (item :: rest).Pairwise (fun first second => second.isInval = true -> first.isInval = true))
    (message : item.isInval = false) (second : PipeItem) (member : second ∈ item :: rest) : second.isInval = false := by
  rcases List.mem_cons.mp member with rfl | behind
  · exact message
  · rw [Bool.eq_false_iff]
    intro isInval
    have first := (List.pairwise_cons.mp ordered).1 second behind isInval
    rw [message] at first
    cases first

theorem nothing_announced {item : PipeItem} {rest : List PipeItem}
    (ordered : (item :: rest).Pairwise (fun first second => second.isInval = true -> first.isInval = true))
    (message : item.isInval = false) (id : Nat) : PipeItem.invalOne id ∉ rest := by
  intro member
  cases messages_behind ordered message _ (List.mem_cons_of_mem _ member)

/-- The worker may change the pipe as long as it does not put anything before an
announcement. -/
theorem setPipe {pipe : List PipeItem} (mirrored : Mirrored capacity session)
    (fewer : forall id, PipeItem.invalOne id ∈ pipe -> PipeItem.invalOne id ∈ session.server.pipe)
    (ordered : pipe.Pairwise (fun first second => second.isInval = true -> first.isInval = true)) :
    Mirrored capacity (session.setPipe pipe) := by
  rcases mirrored.covers with ⟨held, holds, covers⟩
  refine ⟨mirrored.unit.setPipe pipe, held, holds, covers.held, ?_, ordered⟩
  exact fun id member => covers.announced id (fewer id member)

theorem sendFilled {server filled : ChannelClient} {before held history uniques : List Nat} {refs : List CacheRef}
    {wire : List CacheRef -> Wire} (holds : clientHolds [] session.sent = some before)
    (isWire : forall refs, takeWire before (wire refs) = takeRefs held refs)
    (filling : Filling capacity history server held) (positive : 0 < capacity)
    (recent : Recent capacity history uniques) (isFilled : fillAll uniques server = some (filled, refs)) :
    Mirrored capacity { server := filled, sent := session.sent ++ [wire refs] } := by
  rcases filling.fillAll positive recent with ⟨next, wireRefs, heldNext, sameFilled, taken, unit, covers⟩
  have same := isFilled.symm.trans sameFilled
  cases same
  refine ⟨unit, heldNext, ?_, covers⟩
  rw [clientHolds_append holds, isWire, taken]

theorem filling_start {client : ChannelClient} {held : List Nat} (unit : OneEach capacity client)
    (covered : forall id, id ∈ client.cached -> id ∈ held) (nothing : forall id, PipeItem.invalOne id ∉ client.pipe)
    (ordered : client.pipe.Pairwise (fun first second => second.isInval = true -> first.isInval = true)) :
    Filling capacity client.cached client held where
  unit := unit
  covers := ⟨covered, fun id member => absurd member (nothing id), ordered⟩
  follows := Recency.Follows.refl capacity client.cached
  known := fun _ member => member
  knownGone := fun id member => absurd member (nothing id)

/-- Sending an item keeps the client at what it is referred to. -/
theorem send (mirrored : Mirrored capacity session) (positive : 0 < capacity) (bounded : capacity < 2 ^ 32)
    (recent : RecentSend capacity session .send) (sent : session.send capacity = some next) :
    Mirrored capacity next := by
  rcases mirrored.covers with ⟨held, holds, covers⟩
  unfold Session.send at sent
  unfold RecentSend at recent
  cases isPipe : session.server.pipe with
  | nil =>
      rw [isPipe] at sent
      cases sent
  | cons item rest =>
      have ordered := covers.ordered
      rw [isPipe] at sent recent ordered
      have restOrdered := (List.pairwise_cons.mp ordered).2
      cases item with
      | invalOne id =>
          cases sent
          refine ⟨mirrored.unit.setPipe rest, held.filter (fun other => other ≠ id), ?_, ?_, ?_, restOrdered⟩
          · exact clientHolds_append holds (.invalOne id)
          · intro other cached
            refine List.mem_filter.mpr ⟨covers.held other cached, decide_eq_true ?_⟩
            rintro rfl
            apply covers.announced other ?_ cached
            rw [isPipe]
            exact List.mem_cons_self
          · intro other member
            apply covers.announced other
            rw [isPipe]
            exact List.mem_cons_of_mem _ member
      | message uniques =>
          rcases Option.map_eq_some_iff.mp sent with ⟨⟨filled, refs⟩, isFilled, rfl⟩
          have start : Filling capacity session.server.cached { session.server with pipe := rest } held :=
            filling_start (mirrored.unit.setPipe rest) covers.held (nothing_announced ordered rfl) restOrdered
          exact sendFilled holds (fun _ => rfl) start positive recent isFilled
      | resetCache uniques =>
          rcases Option.map_eq_some_iff.mp sent with ⟨⟨filled, refs⟩, isFilled, rfl⟩
          have empty : OneEach capacity ({ session.server with pipe := rest }.reset capacity) :=
            ⟨Sound.reset _ (Int.natCast_nonneg capacity) (by exact_mod_cast bounded),
              fun item member => absurd member List.not_mem_nil, List.nodup_nil⟩
          have start : Filling capacity [] ({ session.server with pipe := rest }.reset capacity) [] :=
            filling_start empty (fun id member => absurd member List.not_mem_nil) (nothing_announced ordered rfl)
              restOrdered
          exact sendFilled holds (fun _ => rfl) start positive recent isFilled

theorem message_at {pipe : List PipeItem} {position : Nat} (message : Session.isMessage pipe[position]? = true) :
    Exists fun uniques => Exists fun later => pipe.drop position = .message uniques :: later := by
  unfold Session.isMessage at message
  split at message
  · next uniques found =>
      rcases List.getElem?_eq_some_iff.mp found with ⟨inside, isItem⟩
      exact ⟨uniques, _, by rw [List.drop_eq_getElem_cons inside, isItem]⟩
  · cases message

/-- Every step of the channel keeps the client's copy complete. -/
theorem step {op : SessionOp} (mirrored : Mirrored capacity session) (positive : 0 < capacity)
    (bounded : capacity < 2 ^ 32) (recent : RecentSend capacity session op)
    (stepped : session.step capacity op = some next) : Mirrored capacity next := by
  rcases mirrored.covers with ⟨held, holds, covers⟩
  cases op with
  | pipeAdd item =>
      simp only [Session.step] at stepped
      split at stepped
      · cases stepped
      · next message =>
          cases stepped
          refine mirrored.setPipe ?_ (List.pairwise_append.mpr ⟨covers.ordered, List.pairwise_singleton _ _, ?_⟩)
          · intro id member
            rcases List.mem_append.mp member with old | isItem
            · exact old
            · rw [List.mem_singleton] at isItem
              subst isItem
              exact absurd rfl message
          · intro first _ second isItem isInval
            rw [List.mem_singleton] at isItem
            subst isItem
            exact absurd isInval message
  | pipeAddAfter position item =>
      simp only [Session.step] at stepped
      split at stepped
      · cases stepped
      · next allowed =>
          cases stepped
          have allowed := Bool.or_eq_false_iff.mp (Bool.not_eq_true _ ▸ allowed)
          rcases message_at (by simpa using allowed.2) with ⟨uniques, later, isLater⟩
          have ordered := covers.ordered
          rw [<- List.take_append_drop position session.server.pipe, isLater] at ordered
          rcases List.pairwise_append.mp ordered with ⟨earlierOrdered, laterOrdered, across⟩
          have noInval := messages_behind laterOrdered rfl
          rw [isLater]
          refine mirrored.setPipe ?_ (List.pairwise_append.mpr
            ⟨earlierOrdered, List.pairwise_cons.mpr ⟨?_, laterOrdered⟩, ?_⟩)
          · intro id member
            rcases List.mem_append.mp member with earlier | rest
            · exact List.mem_of_mem_take earlier
            · rcases List.mem_cons.mp rest with rfl | isLast
              · cases allowed.1
              · cases noInval _ isLast
          · intro second member isInval
            rw [noInval second member] at isInval
            cases isInval
          · intro first earlier second member isInval
            rcases List.mem_cons.mp member with rfl | isLast
            · rw [allowed.1] at isInval
              cases isInval
            · exact across first earlier second isLast isInval
  | pipeRemove position =>
      simp only [Session.step] at stepped
      split at stepped
      · cases stepped
        have sublist := List.eraseIdx_sublist session.server.pipe position
        exact mirrored.setPipe (fun id member => sublist.subset member) (covers.ordered.sublist sublist)
      · cases stepped
  | send => exact mirrored.send positive bounded recent stepped
  | resend items =>
      simp only [Session.step] at stepped
      split at stepped
      · next uniques rest isPipe =>
          split at stepped
          · cases stepped
          · next messages =>
              cases stepped
              have ordered := covers.ordered
              rw [isPipe] at ordered
              have noItem : forall item, item ∈ items -> item.isInval = false := by
                intro item member
                by_contra isInval
                exact messages (List.any_eq_true.mpr ⟨item, member, Bool.not_eq_false _ ▸ isInval⟩)
              have noInval : forall item, item ∈ items ++ rest -> item.isInval = false := by
                intro item member
                rcases List.mem_append.mp member with isItem | isRest
                · exact noItem item isItem
                · exact messages_behind ordered rfl item (List.mem_cons_of_mem _ isRest)
              refine mirrored.setPipe ?_ (List.pairwise_of_forall_mem_list ?_)
              · intro id member
                cases noInval _ member
              · intro first _ second member isInval
                rw [noInval second member] at isInval
                cases isInval
      · cases stepped

theorem init (bounded : capacity < 2 ^ 32) : Mirrored capacity (Session.init capacity) where
  unit := ⟨Sound.init (Int.natCast_nonneg capacity) (by exact_mod_cast bounded),
    fun item member => absurd member List.not_mem_nil, List.nodup_nil⟩
  covers := ⟨[], rfl, fun id member => absurd member List.not_mem_nil, fun id member => absurd member List.not_mem_nil,
    List.Pairwise.nil⟩

end Mirrored

theorem configured_append (capacity : Int) (past : List CacheOp) (op : CacheOp) :
    configured capacity (past ++ [op]) = configured (configured capacity past) [op] := by
  unfold configured
  rw [List.foldl_append]

/-- Over every sequence of the cache's operations the counters, the chains and the
ring agree; every operation but a reset announces exactly what leaves the cache;
and if every message that is sent looks up again only what is recent, the client
has everything that it is referred to, and all that is cached for it. -/
theorem client_cache_mirror (capacity : Nat) (positive : 0 < capacity) (bounded : capacity < 2 ^ 32) :
    (forall ops, Meets ChannelClient.step (fun _ client op => Legal client op) [] (ChannelClient.init capacity) ops ->
      AllStates ChannelClient.step (fun past client => Sound (configured capacity past) client ∧
          forall op, Legal client op -> (forall size, op ≠ .reset size) ->
            Exists fun next => client.step op = some next ∧
              Announces client next) [] (ChannelClient.init capacity) ops) ∧
    (forall ops session,
      Meets (fun session op => Session.step session capacity op) (fun _ session op => RecentSend capacity session op) []
        (Session.init capacity) ops ->
      run (fun session op => Session.step session capacity op) (Session.init capacity) ops = some session ->
        Exists fun held => clientHolds [] session.sent = some held ∧ forall id, id ∈ session.server.cached ->
          id ∈ held) := by
  refine ⟨?_, ?_⟩
  · intro ops meets
    have small : (capacity : Int) < 2 ^ 32 := by exact_mod_cast bounded
    have start : Sound (configured capacity []) (ChannelClient.init capacity) :=
      Sound.init (Int.natCast_nonneg capacity) small
    have safe : forall (past : List CacheOp) (client : ChannelClient), Sound (configured capacity past) client ->
        Sound (configured capacity past) client ∧ forall op, Legal client op -> (forall size, op ≠ .reset size) ->
          Exists fun next => client.step op = some next ∧ Announces client next := by
      intro past client sound
      refine ⟨sound, fun op legal notReset => ?_⟩
      rcases step_sound sound legal with ⟨next, stepped, -, announces⟩
      exact ⟨next, stepped, announces notReset⟩
    have keep : forall (past : List CacheOp) (client : ChannelClient) (op : CacheOp),
        Sound (configured capacity past) client -> Legal client op ->
          Exists fun next => client.step op = some next ∧ Sound (configured capacity (past ++ [op])) next := by
      intro past client op sound legal
      rcases step_sound sound legal with ⟨next, stepped, nextSound, -⟩
      refine ⟨next, stepped, ?_⟩
      rw [configured_append]
      exact nextSound
    exact allStates_of_meets safe keep start meets
  · intro ops session meets ran
    have keep : forall (_ : List SessionOp) (session : Session) (op : SessionOp) (next : Session),
        Mirrored capacity session -> RecentSend capacity session op -> session.step capacity op = some next ->
          Mirrored capacity next :=
      fun _ _ _ _ mirrored recent stepped => mirrored.step positive bounded recent stepped
    have mirrored := run_invariant_of_meets keep ops []
      (Session.init capacity) session (Mirrored.init bounded) meets ran
    rcases mirrored.covers with ⟨held, holds, covers⟩
    exact ⟨held, holds, covers.held⟩

/-- Three palettes in a cache for two: the first one leaves, and takes the place of the third again. -/
def evictingRun : List SessionOp :=
  [.pipeAdd (.message [7]), .pipeAdd (.message [8]), .send, .send, .pipeAdd (.message [9, 0]), .send, .send,
    .pipeAdd (.message [8, 7]), .send, .send]

/-- Each palette that leaves the cache is announced, and the client holds the two that are cached. -/
theorem client_cache_mirror_twice :
    Exists fun session => run (fun session op => Session.step session 2 op) (Session.init 2) evictingRun =
      some session ∧
      session.sent = [.message [.cacheMe 7], .message [.cacheMe 8], .message [.cacheMe 9, .inline], .invalOne 7,
        .message [.fromCache 8, .cacheMe 7], .invalOne 9] ∧
      Exists fun held => clientHolds [] session.sent = some held ∧ forall id, id ∈ session.server.cached ->
        id ∈ held := by
  have wire : (run (fun session op => Session.step session 2 op) (Session.init 2) evictingRun).map
      (fun session => session.sent) =
      some [.message [.cacheMe 7], .message [.cacheMe 8], .message [.cacheMe 9, .inline], .invalOne 7,
        .message [.fromCache 8, .cacheMe 7], .invalOne 9] := by decide +kernel
  rcases Option.map_eq_some_iff.mp wire with ⟨session, isSession, isSent⟩
  refine ⟨session, isSession, isSent, ?_⟩
  refine (client_cache_mirror 2 (by decide) (by decide)).2 _ session ?_ isSession
  have sound : forall (_ : List SessionOp) (session : Session) (op : SessionOp),
      decide (RecentSend 2 session op) = true -> RecentSend 2 session op :=
    fun _ _ _ checked => of_decide_eq_true checked
  exact Meets.of_check sound _ _ _ (by decide +kernel)

/-- Fill the cache, then send a message with a new palette and the oldest one: the
second lookup brings the oldest back after the first has evicted it, and its
announcement is sent afterwards. -/
def refillRun : List SessionOp :=
  (List.range 128).flatMap (fun id => [.pipeAdd (.message [id + 1]), .send]) ++
    [.pipeAdd (.message [129, 1]), .send, .send, .send, .pipeAdd (.message [1]), .send]

/-- The client drops a palette that the server still refers to. -/
theorem refilled_palette_dropped : Not (forall (ops : List SessionOp) (session : Session),
    run (fun session op => Session.step session clientPaletteCacheSize op) (Session.init clientPaletteCacheSize) ops =
      some session ->
      Exists fun held => clientHolds [] session.sent = some held ∧ forall id, id ∈ session.server.cached ->
        id ∈ held) := by
  intro always
  have lost : (run (fun session op => Session.step session clientPaletteCacheSize op)
      (Session.init clientPaletteCacheSize) refillRun).map
      (fun session => clientHolds [] session.sent) = some none := by decide +kernel
  rcases Option.map_eq_some_iff.mp lost with ⟨session, isSession, missing⟩
  rcases always refillRun session isSession with ⟨held, holds, -⟩
  rw [missing] at holds
  cases holds

end Cache
end Spice
