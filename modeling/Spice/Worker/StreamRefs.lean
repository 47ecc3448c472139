import Spice.Lib.Run
import Mathlib.Algebra.BigOperators.Group.List.Basic
import Mathlib.Algebra.Order.BigOperators.Group.List
import Mathlib.Algebra.Order.Ring.Int
import Mathlib.Data.List.Basic
import Mathlib.Data.List.Nodup
import Mathlib.Data.List.Range
import Mathlib.Logic.Function.Basic

namespace Spice
namespace Streams

open Lib

/-!
# References of streams

A slot of the stream table is kept by its place in the ring of streams and by the
items in the pipes that create, clip and destroy it at a client.  The references
are an unsigned byte, and every change of a clip queues one more item.

The regions of the agents are not modelled: an operation says at which clients a
region changed.  A client sends its items in order; a clip item keeps its stream
until its message was written, the others let go of it when the message is made.
-/

def numStreams : Nat := 50

/-- `refs++` and `refs--` of a `uint8_t`. -/
def refUp (refs : Nat) : Nat := (refs + 1) % 256

def refDown (refs : Nat) : Nat := (refs + 255) % 256

/-- `width * height`, an `int`, as it is added to a `uint64_t`. -/
def area (width height : Int) : Nat := (Int.bmod (width * height) (2 ^ 32) % 2 ^ 64).toNat

inductive Kind
  | create
  | clip
  | destroy
deriving DecidableEq, Repr

/-- A pipe item of a client that refers to a stream. -/
structure Item where
  client : Nat
  kind : Kind
  stream : Nat
deriving DecidableEq, Repr

/-- The streams of `RedWorker`, the drawables' streams, and the items of the clients' pipes, oldest first.
`sending` holds the clip items whose message is being written. -/
structure RedWorker where
  clients : List Nat
  streams : List Nat
  freeStreams : List Nat
  refs : Nat -> Nat
  current : Nat -> Option Nat
  width : Nat -> Int
  height : Nat -> Int
  drawableStream : Nat -> Option Nat
  streamCount : Nat
  streamsSizeTotal : Nat
  pipe : List Item
  sending : List Item

namespace RedWorker

variable (worker : RedWorker)

def redReleaseStream (slot : Nat) : Option RedWorker :=
  let refs := refDown (worker.refs slot)
  let worker := { worker with refs := Function.update worker.refs slot refs }
  if refs = 0 then
    if slot ∈ worker.streams then none
    else some { worker with
      freeStreams := slot :: worker.freeStreams
      streamCount := (worker.streamCount + (2 ^ 32 - 1)) % 2 ^ 32 }
  else some worker

/-- The items of a client are released one after the other. -/
def releaseAll : List Nat -> RedWorker -> Option RedWorker
  | [], worker => some worker
  | slot :: rest, worker => (worker.redReleaseStream slot).bind (releaseAll rest)

/-- An item that takes a reference is added to a pipe. -/
def pushItem (kind : Kind) (slot : Nat) (worker : RedWorker) (client : Nat) : RedWorker :=
  { worker with
    refs := Function.update worker.refs slot (refUp (worker.refs slot))
    pipe := worker.pipe ++ [{ client := client, kind := kind, stream := slot }] }

def pushItems (kind : Kind) (slot : Nat) (clients : List Nat) : RedWorker :=
  clients.foldl (pushItem kind slot) worker

/-- The item of an agent is in the pipe; a second `ring_add` of it asserts. -/
def isLinked (kind : Kind) (slot client : Nat) : Bool :=
  decide ({ client := client, kind := kind, stream := slot } ∈ worker.pipe)

def redDetachStream (slot : Nat) : Option RedWorker :=
  match worker.current slot with
  | none => none
  | some drawable =>
      if worker.drawableStream drawable = some slot then
        some { worker with
          current := Function.update worker.current slot none
          drawableStream := Function.update worker.drawableStream drawable none }
      else none

def changedClients (changed : List Nat) : List Nat := worker.clients.filter (fun client => decide (client ∈ changed))

def redAttachStream (drawable slot : Nat) (changed : List Nat) : Option RedWorker :=
  if worker.drawableStream drawable = none ∧ worker.current slot = none then
    some ({ worker with
      current := Function.update worker.current slot (some drawable)
      drawableStream := Function.update worker.drawableStream drawable (some slot) }.pushItems .clip slot
        (worker.changedClients changed))
  else none

/-- `red_create_stream`, with `red_alloc_stream` and `red_display_create_stream`. -/
def redCreateStream (drawable : Nat) (width height : Int) : Option RedWorker :=
  if worker.drawableStream drawable = none then
    match worker.freeStreams with
    | [] => some worker
    | slot :: rest =>
        if worker.clients.any (worker.isLinked .create slot) then none
        else some ({ worker with
          freeStreams := rest
          streams := slot :: worker.streams
          current := Function.update worker.current slot (some drawable)
          width := Function.update worker.width slot width
          height := Function.update worker.height slot height
          refs := Function.update worker.refs slot 1
          drawableStream := Function.update worker.drawableStream drawable (some slot)
          streamsSizeTotal := (worker.streamsSizeTotal + area width height) % 2 ^ 64
          streamCount := (worker.streamCount + 1) % 2 ^ 32 }.pushItems .create slot worker.clients)
  else none

/-- A drawable is the next frame of a stream, in `red_use_stream_trace` and `red_stream_maintenance`. -/
def nextFrame (drawable slot : Nat) (changed : List Nat) : Option RedWorker :=
  if slot ∈ worker.streams ∨ worker.current slot ≠ none then
    if worker.current slot = none then worker.redAttachStream drawable slot changed
    else (worker.redDetachStream slot).bind (fun worker => worker.redAttachStream drawable slot changed)
  else none

/-- `red_streams_update_visible_region`, for one stream. -/
def updateVisibleRegion (slot : Nat) (changed : List Nat) : Option RedWorker :=
  if slot ∈ worker.streams then some (worker.pushItems .clip slot (worker.changedClients changed)) else none

/-- `red_detach_streams_behind`, for one stream.  Without clients the region of the current drawable decides. -/
def redDetachStreamsBehind (slot : Nat) (changed : List Nat) (intersects : Bool) : Option RedWorker :=
  if slot ∈ worker.streams then
    let pushed := worker.pushItems .clip slot (worker.changedClients changed)
    if worker.changedClients changed ≠ [] ∧ worker.current slot ≠ none then pushed.redDetachStream slot
    else if worker.clients = [] ∧ worker.current slot ≠ none ∧ intersects = true then pushed.redDetachStream slot
    else some pushed
  else none

def redDetachStreamGracefully (slot : Nat) : Option RedWorker :=
  if slot ∈ worker.streams then
    let pushed := worker.pushItems .clip slot worker.clients
    if worker.current slot ≠ none then pushed.redDetachStream slot else some pushed
  else none

def redStopStream (slot : Nat) : Option RedWorker :=
  if slot ∈ worker.streams ∧ worker.current slot = none ∧
      worker.clients.any (worker.isLinked .destroy slot) = false then
    let pushed := worker.pushItems .destroy slot worker.clients
    { pushed with
      streamsSizeTotal :=
        (pushed.streamsSizeTotal + (2 ^ 64 - area (pushed.width slot) (pushed.height slot))) % 2 ^ 64
      streams := pushed.streams.erase slot }.redReleaseStream slot
  else none

def redDisplyStartStreams (client : Nat) : RedWorker :=
  worker.streams.foldl (fun worker slot => worker.pushItem .create slot client) worker

/-- A client joins; it gets the streams when there is a primary surface and nothing is migrated. -/
def connect (client : Nat) (start : Bool) : Option RedWorker :=
  if client ∈ worker.clients then none
  else
    let joined := { worker with clients := client :: worker.clients }
    some (if start then joined.redDisplyStartStreams client else joined)

/-- `red_channel_client_disconnect`: the item being sent and the items of the pipe are released, the newest
one first. -/
def disconnect (client : Nat) : Option RedWorker :=
  let isOwn := fun item : Item => decide (item.client = client)
  let released := worker.sending.filter isOwn ++ (worker.pipe.filter isOwn).reverse
  releaseAll (released.map Item.stream) { worker with
    clients := worker.clients.erase client
    pipe := worker.pipe.filter (fun item => !isOwn item)
    sending := worker.sending.filter (fun item => !isOwn item) }

/-- The oldest item of a client's pipe is sent. -/
def sendItem (client : Nat) : Option RedWorker :=
  let isOwn := fun item : Item => decide (item.client = client)
  if worker.sending.any isOwn then none
  else
    match worker.pipe.find? isOwn with
    | none => none
    | some item =>
        let sent := { worker with pipe := worker.pipe.erase item }
        match item.kind with
        | .clip => some { sent with sending := item :: sent.sending }
        | _ => sent.redReleaseStream item.stream

/-- The message of a clip item was written. -/
def itemSent (client : Nat) : Option RedWorker :=
  match worker.sending.find? (fun item => decide (item.client = client)) with
  | none => none
  | some item => { worker with sending := worker.sending.erase item }.redReleaseStream item.stream

end RedWorker

/-- What happens to the streams.  A timeout is a graceful detach followed by a stop. -/
inductive Op
  | createStream (drawable : Nat) (width height : Int)
  | nextFrame (drawable slot : Nat) (changed : List Nat)
  | updateVisibleRegion (slot : Nat) (changed : List Nat)
  | detachBehind (slot : Nat) (changed : List Nat) (intersects : Bool)
  | detachGracefully (slot : Nat)
  | detach (slot : Nat)
  | stop (slot : Nat)
  | connect (client : Nat) (start : Bool)
  | disconnect (client : Nat)
  | sendItem (client : Nat)
  | itemSent (client : Nat)

namespace RedWorker

def step (worker : RedWorker) : Op -> Option RedWorker
  | .createStream drawable width height => worker.redCreateStream drawable width height
  | .nextFrame drawable slot changed => worker.nextFrame drawable slot changed
  | .updateVisibleRegion slot changed => worker.updateVisibleRegion slot changed
  | .detachBehind slot changed intersects => worker.redDetachStreamsBehind slot changed intersects
  | .detachGracefully slot => worker.redDetachStreamGracefully slot
  | .detach slot => worker.redDetachStream slot
  | .stop slot => worker.redStopStream slot
  | .connect client start => worker.connect client start
  | .disconnect client => worker.disconnect client
  | .sendItem client => worker.sendItem client
  | .itemSent client => worker.itemSent client

def init : RedWorker where
  clients := []
  streams := []
  freeStreams := (List.range numStreams).reverse
  refs := fun _ => 0
  current := fun _ => none
  width := fun _ => 0
  height := fun _ => 0
  drawableStream := fun _ => none
  streamCount := 0
  streamsSizeTotal := 0
  pipe := []
  sending := []

def references (worker : RedWorker) (slot : Nat) : Nat :=
  worker.pipe.countP (fun item => decide (item.stream = slot)) +
    worker.sending.countP (fun item => decide (item.stream = slot))

/-- The references that the ring and the items hold on a stream. -/
def holds (worker : RedWorker) (slot : Nat) : Nat := (if slot ∈ worker.streams then 1 else 0) + worker.references slot

end RedWorker

/-- The references of every stream are those of the ring and of the items, the slots without references are the
free ones, and the counters are what they count. -/
structure StreamsCounted (worker : RedWorker) : Prop where
  refs : forall slot, slot < numStreams -> worker.refs slot = worker.holds slot
  free : forall slot, slot < numStreams -> (slot ∈ worker.freeStreams <-> worker.holds slot = 0)
  count : worker.streamCount = (List.range numStreams).countP (fun slot => decide (slot ∉ worker.freeStreams))
  total : (worker.streamsSizeTotal : Int) =
    (worker.streams.map (fun slot => worker.width slot * worker.height slot)).sum

/-- A step that adds items to the pipes does not take a stream above 255 references, and the size of a new
stream is an `int` that is not negative. -/
def RoomForRefs (worker : RedWorker) : Op -> Prop
  | .createStream _ width height =>
      worker.freeStreams ≠ [] ->
        1 + worker.clients.length ≤ 255 ∧ 0 ≤ width * height ∧ width * height < 2 ^ 31
  | .nextFrame _ slot changed | .updateVisibleRegion slot changed | .detachBehind slot changed _ =>
      worker.refs slot + (worker.changedClients changed).length ≤ 255
  | .detachGracefully slot | .stop slot => worker.refs slot + worker.clients.length ≤ 255
  | .connect _ start => start = true -> forall slot, slot ∈ worker.streams -> worker.refs slot + 1 ≤ 255
  | _ => True

instance (worker : RedWorker) (op : Op) : Decidable (RoomForRefs worker op) := by
  cases op <;> unfold RoomForRefs <;> infer_instance

/-! ## Taking and releasing references -/

/-- The references, with those of releases that are still to come: `held` lists their streams. -/
structure Accounts (worker : RedWorker) (held : List Nat) : Prop where
  refs : forall slot, worker.refs slot = worker.holds slot + held.count slot
  small : forall slot, worker.refs slot ≤ 255
  valid : forall slot, worker.refs slot ≠ 0 -> slot < numStreams
  free : forall slot, slot ∈ worker.freeStreams <-> slot < numStreams ∧ worker.refs slot = 0
  nodupFree : worker.freeStreams.Nodup
  nodup : worker.streams.Nodup
  shown : forall slot, worker.current slot ≠ none -> slot ∈ worker.streams
  count : worker.streamCount + worker.freeStreams.length = numStreams
  sizes : forall slot, slot ∈ worker.streams ->
    0 ≤ worker.width slot * worker.height slot ∧ worker.width slot * worker.height slot < 2 ^ 31
  total : (worker.streamsSizeTotal : Int) =
    (worker.streams.map (fun slot => worker.width slot * worker.height slot)).sum

variable {slot : Nat}

namespace RedWorker

/-- Items for some clients take as many references. -/
theorem pushItems_eq (worker : RedWorker) (kind : Kind) (slot : Nat) (clients : List Nat)
    (fits : worker.refs slot + clients.length ≤ 255) :
    worker.pushItems kind slot clients = { worker with
      refs := Function.update worker.refs slot (worker.refs slot + clients.length)
      pipe := worker.pipe ++ clients.map (fun client => { client := client, kind := kind, stream := slot }) } := by
  induction clients generalizing worker with
  | nil => simp [pushItems]
  | cons client rest ih =>
      rw [List.length_cons] at fits
      have once : refUp (worker.refs slot) = worker.refs slot + 1 := Nat.mod_eq_of_lt (by omega)
      have others := ih (worker.pushItem kind slot client) (by
        show Function.update worker.refs slot (refUp (worker.refs slot)) slot + rest.length ≤ 255
        rw [Function.update_self, once]
        omega)
      show (worker.pushItem kind slot client).pushItems kind slot rest = _
      rw [others]
      simp only [pushItem, Function.update_self, Function.update_idem, once, List.append_assoc, List.map_cons,
        List.singleton_append, List.length_cons]
      rw [Nat.add_assoc, Nat.add_comm 1 rest.length]

theorem area_eq {width height : Int} (notNegative : 0 ≤ width * height) (fits : width * height < 2 ^ 31) :
    (area width height : Int) = width * height := by
  have same : Int.bmod (width * height) (2 ^ 32) = width * height :=
    Int.bmod_eq_of_le (by omega) (by omega)
  rw [area, same, Int.emod_eq_of_lt notNegative (by omega)]
  exact Int.toNat_of_nonneg notNegative

/-- A stream is freed with its last reference. -/
theorem redReleaseStream_cases {worker next : RedWorker}
    (released : worker.redReleaseStream slot = some next) :
    (refDown (worker.refs slot) = 0 ∧ slot ∉ worker.streams ∧
      next = { worker with
        refs := Function.update worker.refs slot 0
        freeStreams := slot :: worker.freeStreams
        streamCount := (worker.streamCount + (2 ^ 32 - 1)) % 2 ^ 32 }) ∨
    (refDown (worker.refs slot) ≠ 0 ∧
      next = { worker with refs := Function.update worker.refs slot (refDown (worker.refs slot)) }) := by
  unfold redReleaseStream at released
  dsimp only at released
  split at released
  · rename_i isZero
    split at released
    · cases released
    · rename_i unlinked
      refine Or.inl ⟨isZero, unlinked, ?_⟩
      rw [isZero] at released
      exact (Option.some.inj released).symm
  · rename_i isPositive
    exact Or.inr ⟨isPositive, (Option.some.inj released).symm⟩

theorem redDetachStream_frame {worker next : RedWorker} (detached : worker.redDetachStream slot = some next) :
    next.streams = worker.streams ∧ next.refs = worker.refs ∧ next.clients = worker.clients := by
  unfold redDetachStream at detached
  split at detached
  · cases detached
  · split at detached
    · rw [← Option.some.inj detached]
      exact ⟨rfl, rfl, rfl⟩
    · cases detached

end RedWorker

namespace Accounts

variable {worker next : RedWorker} {held : List Nat}

theorem pos_of_mem (accounts : Accounts worker held) (linked : slot ∈ worker.streams) : 0 < worker.refs slot := by
  rw [accounts.refs, RedWorker.holds, if_pos linked]
  omega

theorem lt_of_mem (accounts : Accounts worker held) (linked : slot ∈ worker.streams) : slot < numStreams :=
  accounts.valid slot (Nat.pos_iff_ne_zero.mp (accounts.pos_of_mem linked))

theorem length_lt (accounts : Accounts worker held) (valid : slot < numStreams)
    (taken : slot ∉ worker.freeStreams) : worker.freeStreams.length < numStreams := by
  have within : slot :: worker.freeStreams ⊆ List.range numStreams := by
    intro other member
    rcases List.mem_cons.mp member with same | isFree
    · exact List.mem_range.mpr (same ▸ valid)
    · exact List.mem_range.mpr ((accounts.free other).mp isFree).1
  have bound := (List.subperm_of_subset (List.nodup_cons.mpr ⟨taken, accounts.nodupFree⟩) within).length_le
  rw [List.length_cons, List.length_range] at bound
  exact bound

theorem small_update (accounts : Accounts worker held) {slot value : Nat} (fits : value ≤ 255) (other : Nat) :
    Function.update worker.refs slot value other ≤ 255 := by
  by_cases same : other = slot
  · rw [same, Function.update_self]
    exact fits
  · rw [Function.update_of_ne same]
    exact accounts.small other

theorem valid_update (accounts : Accounts worker held) {slot value : Nat} (valid : slot < numStreams) (other : Nat)
    (used : Function.update worker.refs slot value other ≠ 0) : other < numStreams := by
  by_cases same : other = slot
  · exact same ▸ valid
  · rw [Function.update_of_ne same] at used
    exact accounts.valid other used

/-- Items are queued for the clients. -/
theorem push (accounts : Accounts worker held) {kind : Kind} {clients : List Nat}
    (linked : slot ∈ worker.streams) (fits : worker.refs slot + clients.length ≤ 255) :
    Accounts (worker.pushItems kind slot clients) held := by
  have positive := accounts.pos_of_mem linked
  rw [RedWorker.pushItems_eq worker kind slot clients fits]
  refine { accounts with
    refs := fun other => ?_, small := accounts.small_update fits, valid :=
      accounts.valid_update (accounts.lt_of_mem linked),
    free := fun other => ?_ }
  · have before := accounts.refs other
    simp only [RedWorker.holds, RedWorker.references, List.countP_append, List.countP_map] at before ⊢
    by_cases same : other = slot
    · subst same
      have all : clients.countP ((fun item : Item => decide (item.stream = other)) ∘
          fun client => { client := client, kind := kind, stream := other }) = clients.length :=
        List.countP_eq_length.mpr (fun client _ => by simp)
      rw [Function.update_self, all]
      omega
    · have none : clients.countP ((fun item : Item => decide (item.stream = other)) ∘
          fun client => { client := client, kind := kind, stream := slot }) = 0 :=
        List.countP_eq_zero.mpr (fun client _ => by simpa using fun isOther => same isOther.symm)
      rw [Function.update_of_ne same, none]
      omega
  · by_cases same : other = slot
    · subst same
      simp only [Function.update_self]
      refine iff_of_false (fun isFree => ?_) (fun both => by omega)
      have isZero := ((accounts.free other).mp isFree).2
      omega
    · simpa [same] using accounts.free other

/-- A reference is given back. -/
theorem release (accounts : Accounts worker (slot :: held))
    (released : worker.redReleaseStream slot = some next) : Accounts next held := by
  have atSlot := accounts.refs slot
  rw [List.count_cons_self] at atSlot
  have small := accounts.small slot
  have down : refDown (worker.refs slot) = worker.refs slot - 1 := by
    unfold refDown
    omega
  have valid : slot < numStreams := accounts.valid slot (by omega)
  have taken : slot ∉ worker.freeStreams := fun isFree => by
    have isZero := ((accounts.free slot).mp isFree).2
    omega
  have others : forall other, other ≠ slot -> worker.refs other = worker.holds other + held.count other := by
    intro other different
    rw [accounts.refs other, List.count_cons_of_ne different.symm]
  rcases RedWorker.redReleaseStream_cases released with ⟨isZero, unlinked, rfl⟩ | ⟨isPositive, rfl⟩
  · rw [down] at isZero
    refine { accounts with
      refs := fun other => ?_, small := accounts.small_update (Nat.zero_le _), valid := accounts.valid_update valid,
      free := fun other => ?_, nodupFree := List.nodup_cons.mpr ⟨taken, accounts.nodupFree⟩, count := ?_ }
    · show Function.update worker.refs slot 0 other = worker.holds other + held.count other
      by_cases same : other = slot
      · subst same
        rw [Function.update_self]
        omega
      · rw [Function.update_of_ne same, others other same]
    · by_cases same : other = slot
      · simp [same, valid]
      · simpa [same] using accounts.free other
    · have count := accounts.count
      have bound := accounts.length_lt valid taken
      have positive : (worker.streamCount + (2 ^ 32 - 1)) % 2 ^ 32 = worker.streamCount - 1 := by
        unfold numStreams at count bound
        omega
      show (worker.streamCount + (2 ^ 32 - 1)) % 2 ^ 32 + (slot :: worker.freeStreams).length = numStreams
      rw [positive, List.length_cons]
      omega
  · rw [down] at isPositive ⊢
    refine { accounts with
      refs := fun other => ?_, small := accounts.small_update (by omega), valid := accounts.valid_update valid,
      free := fun other => ?_ }
    · show Function.update worker.refs slot (worker.refs slot - 1) other = worker.holds other + held.count other
      by_cases same : other = slot
      · subst same
        rw [Function.update_self]
        omega
      · rw [Function.update_of_ne same, others other same]
    · by_cases same : other = slot
      · subst same
        simp only [Function.update_self]
        exact iff_of_false taken (fun both => isPositive both.2)
      · simpa [same] using accounts.free other

theorem releaseAll {slots : List Nat} (accounts : Accounts worker slots)
    (released : RedWorker.releaseAll slots worker = some next) : Accounts next [] := by
  induction slots generalizing worker with
  | nil =>
      cases released
      exact accounts
  | cons slot rest ih =>
      rcases Option.bind_eq_some_iff.mp released with ⟨middle, one, others⟩
      exact ih (accounts.release one) others

theorem setCurrent (accounts : Accounts worker held) {current : Nat -> Option Nat}
    {drawableStream : Nat -> Option Nat} (shown : forall slot, current slot ≠ none -> slot ∈ worker.streams) :
    Accounts { worker with current := current, drawableStream := drawableStream } held :=
  { accounts with shown := shown }

theorem redDetachStream (accounts : Accounts worker held)
    (detached : worker.redDetachStream slot = some next) : Accounts next held := by
  unfold RedWorker.redDetachStream at detached
  split at detached
  · cases detached
  · split at detached
    · rw [← Option.some.inj detached]
      refine accounts.setCurrent (fun other shown => accounts.shown other (fun isNone => shown ?_))
      by_cases same : other = slot
      · rw [same, Function.update_self]
      · rw [Function.update_of_ne same, isNone]
    · cases detached

theorem redAttachStream (accounts : Accounts worker held) {drawable slot : Nat} {changed : List Nat}
    (linked : slot ∈ worker.streams) (fits : worker.refs slot + (worker.changedClients changed).length ≤ 255)
    (attached : worker.redAttachStream drawable slot changed = some next) : Accounts next held := by
  unfold RedWorker.redAttachStream at attached
  split at attached
  · rw [← Option.some.inj attached]
    refine push (accounts.setCurrent (fun other shown => ?_)) linked fits
    by_cases same : other = slot
    · exact same ▸ linked
    · rw [Function.update_of_ne same] at shown
      exact accounts.shown other shown
  · cases attached

/-- A stream gets its next frame. -/
theorem nextFrame (accounts : Accounts worker held) {drawable slot : Nat} {changed : List Nat}
    (fits : worker.refs slot + (worker.changedClients changed).length ≤ 255)
    (framed : worker.nextFrame drawable slot changed = some next) : Accounts next held := by
  unfold RedWorker.nextFrame at framed
  split at framed
  · rename_i isStream
    have linked : slot ∈ worker.streams := isStream.elim id (accounts.shown slot)
    split at framed
    · exact accounts.redAttachStream linked fits framed
    · rcases Option.bind_eq_some_iff.mp framed with ⟨middle, detached, attached⟩
      have same := RedWorker.redDetachStream_frame detached
      refine (accounts.redDetachStream detached).redAttachStream ?_ ?_ attached
      · rw [same.1]
        exact linked
      · rw [same.2.1, RedWorker.changedClients, same.2.2]
        exact fits
  · cases framed

/-- Streams behind a drawable are detached. -/
theorem detachBehind (accounts : Accounts worker held) {changed : List Nat} {intersects : Bool}
    (fits : worker.refs slot + (worker.changedClients changed).length ≤ 255)
    (detached : worker.redDetachStreamsBehind slot changed intersects = some next) : Accounts next held := by
  unfold RedWorker.redDetachStreamsBehind at detached
  dsimp only at detached
  split at detached
  · rename_i linked
    have pushed : Accounts (worker.pushItems .clip slot _) held := accounts.push linked fits
    split at detached
    · exact pushed.redDetachStream detached
    · split at detached
      · exact pushed.redDetachStream detached
      · rw [← Option.some.inj detached]
        exact pushed
  · cases detached

theorem detachGracefully (accounts : Accounts worker held) (fits : worker.refs slot + worker.clients.length ≤ 255)
    (detached : worker.redDetachStreamGracefully slot = some next) : Accounts next held := by
  unfold RedWorker.redDetachStreamGracefully at detached
  dsimp only at detached
  split at detached
  · rename_i linked
    have pushed : Accounts (worker.pushItems .clip slot _) held := accounts.push linked fits
    split at detached
    · exact pushed.redDetachStream detached
    · rw [← Option.some.inj detached]
      exact pushed
  · cases detached

theorem total_lt (accounts : Accounts worker held) : worker.streamsSizeTotal ≤ worker.streams.length * 2 ^ 31 := by
  have bound := List.sum_le_card_nsmul (worker.streams.map (fun slot => worker.width slot * worker.height slot))
    (2 ^ 31) (fun size member => by
      rcases List.mem_map.mp member with ⟨slot, linked, rfl⟩
      exact (accounts.sizes slot linked).2.le)
  rw [← accounts.total, List.length_map, nsmul_eq_mul] at bound
  exact_mod_cast bound

theorem length_le (accounts : Accounts worker held) : worker.streams.length ≤ numStreams := by
  have bound := (List.subperm_of_subset accounts.nodup (fun slot linked =>
    List.mem_range.mpr (accounts.lt_of_mem linked))).length_le
  rwa [List.length_range] at bound

/-- The first free slot is linked, with one reference. -/
theorem link (accounts : Accounts worker held) {slot drawable : Nat} {rest : List Nat} {width height : Int}
    (isFree : worker.freeStreams = slot :: rest) (notNegative : 0 ≤ width * height) (small : width * height < 2 ^ 31) :
    Accounts { worker with
      freeStreams := rest
      streams := slot :: worker.streams
      current := Function.update worker.current slot (some drawable)
      width := Function.update worker.width slot width
      height := Function.update worker.height slot height
      refs := Function.update worker.refs slot 1
      drawableStream := Function.update worker.drawableStream drawable (some slot)
      streamsSizeTotal := (worker.streamsSizeTotal + area width height) % 2 ^ 64
      streamCount := (worker.streamCount + 1) % 2 ^ 32 } held := by
  have nodupFree := accounts.nodupFree
  rw [isFree] at nodupFree
  rcases List.nodup_cons.mp nodupFree with ⟨slotTaken, restNodup⟩
  have inFree : slot ∈ worker.freeStreams := by
    rw [isFree]
    exact List.mem_cons_self
  rcases (accounts.free slot).mp inFree with ⟨valid, isZero⟩
  have unlinked : slot ∉ worker.streams := fun linked =>
    Nat.lt_irrefl 0 (isZero ▸ accounts.pos_of_mem linked)
  have unused := accounts.refs slot
  rw [isZero, RedWorker.holds, if_neg unlinked] at unused
  constructor
  case refs =>
    intro other
    by_cases same : other = slot
    · subst same
      simp only [RedWorker.holds, RedWorker.references, Function.update_self, List.mem_cons_self, if_true] at unused ⊢
      omega
    · have before := accounts.refs other
      simp only [RedWorker.holds, RedWorker.references, List.mem_cons, same, false_or, ne_eq, not_false_eq_true,
        Function.update_of_ne] at before ⊢
      exact before
  case small => exact accounts.small_update (by decide)
  case valid => exact accounts.valid_update valid
  case free =>
    intro other
    by_cases same : other = slot
    · simp [same, slotTaken]
    · have before := accounts.free other
      rw [isFree] at before
      simpa [same] using before
  case nodupFree => exact restNodup
  case nodup => exact List.nodup_cons.mpr ⟨unlinked, accounts.nodup⟩
  case shown =>
    intro other shown
    by_cases same : other = slot
    · exact same ▸ List.mem_cons_self
    · exact List.mem_cons_of_mem _ (accounts.shown other (by simpa [same] using shown))
  case count =>
    have count := accounts.count
    rw [isFree, List.length_cons] at count
    show (worker.streamCount + 1) % 2 ^ 32 + rest.length = numStreams
    rw [Nat.mod_eq_of_lt (by unfold numStreams at count; omega)]
    omega
  case sizes =>
    intro other linked
    by_cases same : other = slot
    · subst same
      simpa using ⟨notNegative, small⟩
    · simpa [same] using accounts.sizes other (by simpa [same] using linked)
  case total =>
    have sum : (worker.streams.map (fun other =>
        Function.update worker.width slot width other * Function.update worker.height slot height other)).sum =
        worker.streamsSizeTotal := by
      rw [accounts.total]
      refine congrArg List.sum (List.map_congr_left (fun other linked => ?_))
      have different : other ≠ slot := fun same => unlinked (same ▸ linked)
      rw [Function.update_of_ne different, Function.update_of_ne different]
    have bound := accounts.total_lt
    have length := accounts.length_le
    have size := RedWorker.area_eq notNegative small
    show (((worker.streamsSizeTotal + area width height) % 2 ^ 64 : Nat) : Int) =
      ((slot :: worker.streams).map (fun other =>
        Function.update worker.width slot width other * Function.update worker.height slot height other)).sum
    rw [Nat.mod_eq_of_lt (by unfold numStreams at length; omega), List.map_cons, List.sum_cons, sum,
      Function.update_self, Function.update_self]
    omega

/-- A stream is created for all clients. -/
theorem createStream (accounts : Accounts worker held) {drawable : Nat} {width height : Int}
    (room : worker.freeStreams ≠ [] ->
      1 + worker.clients.length ≤ 255 ∧ 0 ≤ width * height ∧ width * height < 2 ^ 31)
    (created : worker.redCreateStream drawable width height = some next) : Accounts next held := by
  unfold RedWorker.redCreateStream at created
  split at created
  · split at created
    · rw [← Option.some.inj created]
      exact accounts
    · rename_i slot rest isFree
      have available : worker.freeStreams ≠ [] := by
        rw [isFree]
        exact List.cons_ne_nil slot rest
      rcases room available with ⟨fits, notNegative, small⟩
      split at created
      · cases created
      · rw [← Option.some.inj created]
        exact (accounts.link isFree notNegative small).push List.mem_cons_self (by simpa using fits)
  · cases created

/-- A stream leaves the list. -/
theorem unlink (accounts : Accounts worker held) (linked : slot ∈ worker.streams)
    (noFrame : worker.current slot = none) :
    Accounts { worker with
      streamsSizeTotal := (worker.streamsSizeTotal + (2 ^ 64 - area (worker.width slot) (worker.height slot))) % 2 ^ 64
      streams := worker.streams.erase slot } (slot :: held) := by
  refine { accounts with
    refs := fun other => ?_, nodup := accounts.nodup.erase slot, shown := fun other shown => ?_,
    sizes := fun other member => accounts.sizes other (List.mem_of_mem_erase member), total := ?_ }
  · have before := accounts.refs other
    by_cases same : other = slot
    · subst same
      rw [RedWorker.holds, if_pos linked] at before
      rw [RedWorker.holds, if_neg accounts.nodup.not_mem_erase, List.count_cons_self]
      show worker.refs other = 0 + worker.references other + (held.count other + 1)
      omega
    · rw [RedWorker.holds] at before ⊢
      rw [List.count_cons_of_ne (fun isOther => same isOther.symm)]
      simp only [List.mem_erase_of_ne same]
      exact before
  · have different : other ≠ slot := fun same => shown (same ▸ noFrame)
    exact (List.mem_erase_of_ne different).mpr (accounts.shown other shown)
  · have sum := List.sum_map_erase (fun other => worker.width other * worker.height other) linked
    have total := accounts.total
    have bound := accounts.total_lt
    have length := accounts.length_le
    rcases accounts.sizes slot linked with ⟨notNegative, small⟩
    have size := RedWorker.area_eq notNegative small
    have rest : 0 ≤ ((worker.streams.erase slot).map (fun other => worker.width other * worker.height other)).sum :=
      List.sum_nonneg (fun value member => by
        rcases List.mem_map.mp member with ⟨other, inRest, rfl⟩
        exact (accounts.sizes other (List.mem_of_mem_erase inRest)).1)
    unfold numStreams at length
    show (((worker.streamsSizeTotal + (2 ^ 64 - area (worker.width slot) (worker.height slot))) % 2 ^ 64 : Nat) : Int) =
      ((worker.streams.erase slot).map (fun other => worker.width other * worker.height other)).sum
    omega

theorem stop (accounts : Accounts worker held) (fits : worker.refs slot + worker.clients.length ≤ 255)
    (stopped : worker.redStopStream slot = some next) : Accounts next held := by
  unfold RedWorker.redStopStream at stopped
  split at stopped
  · rename_i asserted
    have pushed : Accounts (worker.pushItems .destroy slot worker.clients) held := accounts.push asserted.1 fits
    have frame := RedWorker.pushItems_eq worker .destroy slot worker.clients fits
    refine release (pushed.unlink ?_ ?_) stopped
    · rw [frame]
      exact asserted.1
    · rw [frame]
      exact asserted.2.1
  · cases stopped

/-- A new client is told of all streams. -/
theorem startStreams (client : Nat) (slots : List Nat) (accounts : Accounts worker held) (nodup : slots.Nodup)
    (linked : forall slot, slot ∈ slots -> slot ∈ worker.streams)
    (fits : forall slot, slot ∈ slots -> worker.refs slot + 1 ≤ 255) :
    Accounts (slots.foldl (fun worker slot => worker.pushItem .create slot client) worker) held := by
  induction slots generalizing worker with
  | nil => exact accounts
  | cons slot rest ih =>
      have fitsSlot : worker.refs slot + [client].length ≤ 255 := fits slot List.mem_cons_self
      have pushed : Accounts (worker.pushItems .create slot [client]) held :=
        accounts.push (linked slot List.mem_cons_self) fitsSlot
      have frame := RedWorker.pushItems_eq worker .create slot [client] fitsSlot
      rcases List.nodup_cons.mp nodup with ⟨notInRest, restNodup⟩
      refine ih pushed restNodup (fun other member => ?_) (fun other member => ?_)
      · show other ∈ (worker.pushItems .create slot [client]).streams
        rw [frame]
        exact linked other (List.mem_cons_of_mem slot member)
      · have different : other ≠ slot := fun same => notInRest (same ▸ member)
        show (worker.pushItems .create slot [client]).refs other + 1 ≤ 255
        rw [frame]
        show Function.update worker.refs slot _ other + 1 ≤ 255
        rw [Function.update_of_ne different]
        exact fits other (List.mem_cons_of_mem slot member)

theorem connect (accounts : Accounts worker held) {client : Nat} {start : Bool}
    (fits : start = true -> forall slot, slot ∈ worker.streams -> worker.refs slot + 1 ≤ 255)
    (connected : worker.connect client start = some next) : Accounts next held := by
  unfold RedWorker.connect at connected
  split at connected
  · cases connected
  · have joined : Accounts { worker with clients := client :: worker.clients } held := { accounts with }
    rw [← Option.some.inj connected]
    cases start with
    | false => exact joined
    | true => exact startStreams client worker.streams joined accounts.nodup (fun _ linked => linked) (fits rfl)

theorem take (accounts : Accounts worker []) {pipe sending : List Item} {clients slots : List Nat}
    (taken : forall slot, worker.references slot =
      pipe.countP (fun item => decide (item.stream = slot)) + sending.countP (fun item => decide (item.stream = slot)) +
        slots.count slot) : Accounts { worker with clients := clients, pipe := pipe, sending := sending } slots := by
  refine { accounts with refs := fun slot => ?_ }
  have before := accounts.refs slot
  have items := taken slot
  rw [RedWorker.holds, List.count_nil] at before
  simp only [RedWorker.holds, RedWorker.references] at items before ⊢
  omega

theorem disconnect (accounts : Accounts worker []) {client : Nat}
    (disconnected : worker.disconnect client = some next) : Accounts next [] := by
  refine releaseAll (accounts.take (fun slot => ?_)) disconnected
  have inPipe := List.countP_eq_countP_filter_add worker.pipe (fun item => decide (item.stream = slot))
    (fun item => decide (item.client = client))
  have inSending := List.countP_eq_countP_filter_add worker.sending (fun item => decide (item.stream = slot))
    (fun item => decide (item.client = client))
  rw [List.count_eq_countP, List.countP_map, List.countP_append, List.countP_reverse, RedWorker.references, inPipe,
    inSending]
  simp only [Function.comp_def, beq_eq_decide]
  omega

theorem countP_erase_add {items : List Item} {item : Item} (member : item ∈ items) (slot : Nat) :
    items.countP (fun item => decide (item.stream = slot)) =
      (items.erase item).countP (fun item => decide (item.stream = slot)) + [item.stream].count slot := by
  rw [(List.perm_cons_erase member).countP_eq, List.countP_cons, List.count_singleton, beq_eq_decide]

/-- An item is sent, and gives its reference back. -/
theorem sendItem (accounts : Accounts worker []) {client : Nat} (sent : worker.sendItem client = some next) :
    Accounts next [] := by
  unfold RedWorker.sendItem at sent
  dsimp only at sent
  split at sent
  · cases sent
  · split at sent
    · cases sent
    · rename_i item found
      have erased := countP_erase_add (List.mem_of_find?_eq_some found)
      split at sent
      · rw [← Option.some.inj sent]
        refine accounts.take (fun slot => ?_)
        rw [RedWorker.references, erased slot, List.countP_cons, List.count_singleton, List.count_nil, beq_eq_decide]
        omega
      · refine release (accounts.take (fun slot => ?_)) sent
        rw [RedWorker.references, erased slot]
        omega

theorem itemSent (accounts : Accounts worker []) {client : Nat} (sent : worker.itemSent client = some next) :
    Accounts next [] := by
  unfold RedWorker.itemSent at sent
  split at sent
  · cases sent
  · rename_i item found
    refine release (accounts.take (fun slot => ?_)) sent
    rw [RedWorker.references, countP_erase_add (List.mem_of_find?_eq_some found) slot, Nat.add_assoc]

/-- Every operation with room for its references keeps the accounts. -/
theorem step {op : Op} (accounts : Accounts worker []) (room : RoomForRefs worker op)
    (stepped : worker.step op = some next) : Accounts next [] := by
  cases op with
  | createStream drawable width height => exact accounts.createStream room stepped
  | nextFrame drawable slot changed => exact accounts.nextFrame room stepped
  | updateVisibleRegion slot changed =>
      simp only [RedWorker.step, RedWorker.updateVisibleRegion] at stepped
      split at stepped
      · rename_i linked
        rw [← Option.some.inj stepped]
        exact accounts.push linked room
      · cases stepped
  | detachBehind slot changed intersects => exact accounts.detachBehind room stepped
  | detachGracefully slot => exact accounts.detachGracefully room stepped
  | detach slot => exact accounts.redDetachStream stepped
  | stop slot => exact accounts.stop room stepped
  | connect client start => exact accounts.connect room stepped
  | disconnect client => exact accounts.disconnect stepped
  | sendItem client => exact accounts.sendItem stepped
  | itemSent client => exact accounts.itemSent stepped

theorem init : Accounts RedWorker.init [] where
  refs := fun _ => rfl
  small := fun _ => Nat.zero_le _
  valid := fun _ used => absurd rfl used
  free := fun slot => by simp [RedWorker.init]
  nodupFree := List.nodup_reverse.mpr List.nodup_range
  nodup := List.nodup_nil
  shown := fun _ shown => absurd rfl shown
  count := by simp [RedWorker.init]
  sizes := fun _ linked => absurd linked List.not_mem_nil
  total := rfl

/-- The streams that are not free are counted. -/
theorem countP_free (accounts : Accounts worker []) :
    worker.streamCount = (List.range numStreams).countP (fun slot => decide (slot ∉ worker.freeStreams)) := by
  have count := accounts.count
  have length : (List.range numStreams).length =
      (List.range numStreams).countP (fun slot => decide (slot ∈ worker.freeStreams)) +
        (List.range numStreams).countP (fun slot => decide (slot ∉ worker.freeStreams)) := by
    simpa using List.length_eq_countP_add_countP (fun slot => decide (slot ∈ worker.freeStreams))
      (l := List.range numStreams)
  have isFree : ((List.range numStreams).filter (fun slot => decide (slot ∈ worker.freeStreams))).Perm
      worker.freeStreams := by
    refine (List.perm_ext_iff_of_nodup (List.nodup_range.filter _) accounts.nodupFree).mpr (fun slot => ?_)
    have valid : slot ∈ worker.freeStreams -> slot < numStreams := fun isFree => ((accounts.free slot).mp isFree).1
    simpa using valid
  rw [List.length_range, List.countP_eq_length_filter, isFree.length_eq] at length
  omega

theorem counted (accounts : Accounts worker []) : StreamsCounted worker where
  refs := fun slot _ => by simpa using accounts.refs slot
  free := fun slot valid => by
    have refs := accounts.refs slot
    rw [List.count_nil, Nat.add_zero] at refs
    rw [accounts.free, refs]
    exact and_iff_right valid
  count := accounts.countP_free
  total := accounts.total

end Accounts

/-- In every run whose steps have room for the references they take, the references and the counters of the
streams are right in every state. -/
theorem stream_refs_counted (ops : List Op) (final : RedWorker)
    (meets : Meets RedWorker.step (fun _ => RoomForRefs) [] RedWorker.init ops)
    (ran : run RedWorker.step RedWorker.init ops = some final) : StreamsCounted final := by
  have keep : forall (_ : List Op) (worker : RedWorker) (op : Op) (next : RedWorker), Accounts worker [] ->
      RoomForRefs worker op -> worker.step op = some next -> Accounts next [] :=
    fun _ _ _ _ accounts room stepped => accounts.step room stepped
  exact (run_invariant_of_meets keep ops [] RedWorker.init final Accounts.init meets ran).counted

/-- Two clients watch a video whose clip changes with every frame; one of them does not read. -/
def slowClient (frames : Nat) : List Op :=
  [.connect 1 false, .connect 2 false, .createStream 0 640 480, .sendItem 1] ++
    (List.range frames).flatMap (fun frame => [.nextFrame (frame + 1) 49 [1, 2], .sendItem 1, .itemSent 1]) ++
    [.nextFrame (frames + 1) 49 [1, 2]]

/-- A video of three frames, the second client leaves, and the stream times out. -/
theorem stream_refs_counted_timeout : Exists fun final => run RedWorker.step RedWorker.init (slowClient 2 ++
      [.disconnect 2, .detachGracefully 49, .stop 49, .sendItem 1, .itemSent 1, .sendItem 1]) = some final ∧
      StreamsCounted final := by
  have checked : checkRun RedWorker.step (fun worker op => decide (RoomForRefs worker op)) RedWorker.init
      (slowClient 2 ++ [.disconnect 2, .detachGracefully 49, .stop 49, .sendItem 1, .itemSent 1, .sendItem 1]) =
        true := by
    decide +kernel
  have finishes : (run RedWorker.step RedWorker.init (slowClient 2 ++
      [.disconnect 2, .detachGracefully 49, .stop 49, .sendItem 1, .itemSent 1, .sendItem 1])).isSome = true := by
    decide +kernel
  have sound : forall (_ : List Op) (worker : RedWorker) (op : Op), decide (RoomForRefs worker op) = true ->
      RoomForRefs worker op := fun _ _ _ isTrue => of_decide_eq_true isTrue
  rcases Option.isSome_iff_exists.mp finishes with ⟨final, ran⟩
  exact ⟨final, ran, stream_refs_counted _ final (Meets.of_check sound _ [] RedWorker.init checked) ran⟩

/-- The references wrap while the slow client still has the items in its pipe. -/
theorem slow_client_wraps : Exists fun final => run RedWorker.step RedWorker.init (slowClient 253) = some final ∧
    Not (StreamsCounted final) := by
  have wrapped : (run RedWorker.step RedWorker.init (slowClient 253)).map
      (fun final => (final.refs 49, final.holds 49)) = some (1, 257) := by decide +kernel
  rcases Option.map_eq_some_iff.mp wrapped with ⟨final, ran, values⟩
  refine ⟨final, ran, fun counted => ?_⟩
  have same := counted.refs 49 (by decide)
  rw [Prod.mk.injEq] at values
  rw [values.1, values.2] at same
  cases same

end Streams
end Spice
