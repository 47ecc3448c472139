import Spice.Lib.Run
import Spice.Lib.Bytes
import Spice.Lib.Ring
import Spice.Sound.Receive

namespace Spice
namespace Sound
namespace RecordRing

open Lib

/-!
# Recorded samples

The client sends samples, and the guest takes them out of a ring between two positions that only
grow and wrap at `2 ^ 32`.  A call for more than there is receives first, which can move both
positions or close the connection.  Over the ring stands the queue that it is meant to be, which
loses its oldest samples when there are too many.
-/

def recordSamplesSize : Nat := Receive.sndReceiveBufSize / 4

def maxFrameSize : Nat := 480

/-! ## The queue -/

/-- What happens to the samples: a message wrote some, a call for `bufsize` gave some, or the connection was closed. -/
inductive Event
  | wrote (samples : List UInt32)
  | gave (bufsize : Nat) (samples : List UInt32)
  | closed
deriving DecidableEq, Repr

/-- The samples that were not read, and how many were written in all. -/
structure Fifo where
  unread : List UInt32
  written : Nat
deriving DecidableEq, Repr

namespace Fifo

/-- The newest samples, as many as fit. -/
def newest (samples : List UInt32) : List UInt32 := samples.drop (samples.length - recordSamplesSize)

/-- What a call gives: nothing before enough was written, and then all that there is. -/
def given (fifo : Fifo) (bufsize : Nat) : List UInt32 :=
  if fifo.written < recordSamplesSize / 2 then [] else fifo.unread.take bufsize

/-- A step; `none` when the event is not what the queue does. -/
def step (fifo : Fifo) : Event -> Option Fifo
  | .wrote samples => some ⟨newest (fifo.unread ++ samples), fifo.written + samples.length⟩
  | .gave bufsize samples =>
      if samples = fifo.given bufsize then some { fifo with unread := fifo.unread.drop samples.length } else none
  | .closed => some { fifo with unread := [] }

def empty : Fifo := ⟨[], 0⟩

end Fifo

namespace Event

/-- The samples that an event gives. -/
def taken : Event -> List UInt32
  | .gave _ samples => samples
  | _ => []

/-- The samples that an event writes. -/
def sent : Event -> List UInt32
  | .wrote samples => samples
  | _ => []

end Event

theorem Fifo.newest_sublist (samples : List UInt32) : (Fifo.newest samples).Sublist samples := by
  unfold Fifo.newest
  exact List.drop_sublist _ _

/-- Each sample is given at most once, in order. -/
theorem Fifo.sublist {log : List Event} {fifo : Fifo} (ran : run Fifo.step Fifo.empty log = some fifo) :
    (log.flatMap Event.taken ++ fifo.unread).Sublist (log.flatMap Event.sent) := by
  have keep : forall (past : List Event) (fifo : Fifo) (event : Event) (next : Fifo),
      (past.flatMap Event.taken ++ fifo.unread).Sublist (past.flatMap Event.sent) -> fifo.step event = some next ->
        ((past ++ [event]).flatMap Event.taken ++ next.unread).Sublist ((past ++ [event]).flatMap Event.sent) := by
    intro past fifo event next sublist stepped
    rw [List.flatMap_append, List.flatMap_append, List.flatMap_singleton, List.flatMap_singleton]
    cases event with
    | wrote samples =>
        obtain ⟨unread, written⟩ := next
        obtain ⟨isUnread, _⟩ := Fifo.mk.inj (Option.some.inj stepped)
        have all := sublist.append (List.Sublist.refl samples)
        rw [List.append_assoc] at all
        have less := (Fifo.newest_sublist (fifo.unread ++ samples)).append_left (past.flatMap Event.taken)
        rw [isUnread] at less
        rw [Event.taken, List.append_nil]
        · exact less.trans all
        · exact nofun
    | gave bufsize samples =>
        obtain ⟨isGiven, isNext⟩ := Option.ite_none_right_eq_some.mp stepped
        rw [<- Option.some.inj isNext]
        have split : (samples ++ fifo.unread.drop samples.length).Sublist fifo.unread := by
          rw [isGiven]
          unfold Fifo.given
          split
          · exact List.Sublist.refl _
          · rw [List.length_take]
            by_cases more : bufsize ≤ fifo.unread.length
            · rw [Nat.min_eq_left more, List.take_append_drop]
            · rw [Nat.min_eq_right (by omega), List.drop_length, List.append_nil]
              exact List.take_sublist _ _
        show (past.flatMap Event.taken ++ samples ++ fifo.unread.drop samples.length).Sublist
          (past.flatMap Event.sent ++ [])
        rw [List.append_nil, List.append_assoc]
        exact ((List.Sublist.refl _).append split).trans sublist
    | closed =>
        cases stepped
        show (past.flatMap Event.taken ++ [] ++ []).Sublist (past.flatMap Event.sent ++ [])
        rw [List.append_nil, List.append_nil, List.append_nil]
        exact (List.sublist_append_left _ _).trans sublist
  exact run_invariant keep log [] Fifo.empty fifo (List.Sublist.refl _) ran

/-! ## The channel -/

/-- What `snd_codec_decode` makes of a packet: no more samples than its buffer holds. -/
structure Decoded where
  samples : List UInt32
  fits : samples.length ≤ maxFrameSize

/-- A message of the client: samples with what the codec makes of them, a mode that can be taken or not, or one that is
not parsed or not handled; the others with the size that their header has. -/
inductive Message
  | data (bytes : List UInt8) (decoded : Option Decoded)
  | mode (raw capable : Bool) (size : Nat)
  | invalid (size : Nat)

/-- The size in the header; samples come after their time. -/
def Message.size : Message -> Nat
  | .data bytes _ => 4 + bytes.length
  | .mode _ _ size => size
  | .invalid size => size

/-- `RecordChannel` between `record_start` and `record_stop`, as long as it is connected, with what happened. -/
structure RecordChannel where
  headerSize : Nat
  connected : Bool
  raw : Bool
  samples : List UInt32
  writePos : Nat
  readPos : Nat
  log : List Event

/-- The `uint32_t` of the data of a packet. -/
def toWords (bytes : List UInt8) : List UInt32 :=
  (List.range (bytes.length / 4)).map fun index => UInt32.ofNat (littleEndian ((bytes.drop (4 * index)).take 4))

namespace RecordChannel

variable (channel : RecordChannel)

def disconnect : RecordChannel := { channel with connected := false, log := channel.log ++ [.closed] }

/-- The difference of the positions. -/
def unread : Nat := (channel.writePos + 2 ^ 32 - channel.readPos) % 2 ^ 32

/-- The positions after `size` samples were written. -/
def advance (size : Nat) : RecordChannel :=
  let moved := { channel with writePos := (channel.writePos + size) % 2 ^ 32 }
  if recordSamplesSize < moved.unread then
    { moved with readPos := (moved.writePos + 2 ^ 32 - recordSamplesSize) % 2 ^ 32 }
  else moved

/-- The samples of a message are copied to the ring. -/
def write (data : List UInt32) (size : Nat) : Option RecordChannel :=
  (ringWrite channel.samples (channel.writePos % recordSamplesSize) data size).map fun samples =>
    { channel.advance size with samples := samples, log := channel.log ++ [.wrote data] }

/-- `snd_record_handle_write`, with whether the message is handled. -/
def handleWrite (bytes : List UInt8) (decoded : Option Decoded) : Option (RecordChannel × Bool) :=
  if channel.raw then
    (channel.write (toWords bytes) (min (bytes.length / 4) recordSamplesSize)).map fun next => (next, true)
  else
    match decoded with
    | none => some (channel, false)
    | some decoded => (channel.write decoded.samples decoded.samples.length).map fun next => (next, true)

def handleMessage : Message -> Option (RecordChannel × Bool)
  | .data bytes decoded => channel.handleWrite bytes decoded
  | .mode raw capable _ =>
      if raw then some ({ channel with raw := true }, true)
      else if capable then some ({ channel with raw := false }, true)
      else some (channel, false)
  | .invalid _ => some (channel, false)

/-- A message is received and handled.  One that does not fit the buffer closes the connection; but the size with that
of the header is a sum of 32 bits, and when it wraps around bytes are parsed that never came. -/
def receiveMessage (message : Message) : Option (RecordChannel × Bool) :=
  if 2 ^ 32 ≤ channel.headerSize + message.size then none
  else if Receive.sndReceiveBufSize < channel.headerSize + message.size then some (channel, false)
  else channel.handleMessage message

end RecordChannel

/-- The messages that `snd_receive` finds; the first that is not handled closes the connection. -/
def receiveAll : List Message -> RecordChannel -> Option RecordChannel
  | [], channel => some channel
  | message :: messages, channel =>
      match channel.receiveMessage message with
      | none => none
      | some (next, true) => receiveAll messages next
      | some (next, false) => some next.disconnect

namespace RecordChannel

variable (channel : RecordChannel)

/-- `snd_receive`, with whether the connection ends after the messages. -/
def receive (messages : List Message) (ends : Bool) : Option RecordChannel :=
  (receiveAll messages channel).map fun next => if ends && next.connected then next.disconnect else next

def gave (bufsize : Nat) (samples : List UInt32) : RecordChannel :=
  { channel with log := channel.log ++ [.gave bufsize samples] }

def copyOut (bufsize : Nat) : Option RecordChannel :=
  let len := min channel.unread bufsize
  (ringRead channel.samples (channel.readPos % recordSamplesSize) len).map fun samples =>
    { channel with readPos := (channel.readPos + len) % 2 ^ 32 }.gave bufsize samples

/-- `spice_server_record_get_samples`, with what there is to receive. -/
def getSamples (bufsize : Nat) (messages : List Message) (ends : Bool) : Option RecordChannel :=
  if channel.connected = false then some (channel.gave bufsize [])
  else if channel.writePos < recordSamplesSize / 2 then some (channel.gave bufsize [])
  else if min channel.unread bufsize < bufsize then
    (channel.receive messages ends).bind fun next =>
      if next.connected = false then some (next.gave bufsize []) else next.copyOut bufsize
  else channel.copyOut bufsize

end RecordChannel

/-- Messages arrive, and the connection may end, or samples are asked for. -/
inductive Op
  | arrive (messages : List Message) (ends : Bool)
  | getSamples (bufsize : UInt32) (messages : List Message) (ends : Bool)

namespace RecordChannel

def step (channel : RecordChannel) : Op -> Option RecordChannel
  | .arrive messages ends => if channel.connected then channel.receive messages ends else some channel
  | .getSamples bufsize messages ends => channel.getSamples bufsize.toNat messages ends

/-- The samples that were written since the start. -/
def total (channel : RecordChannel) : Nat := (channel.log.flatMap Event.sent).length

end RecordChannel

/-- What the ring of a channel can hold. -/
structure Ring where
  samples : List UInt32
  full : samples.length = recordSamplesSize

/-- The channel when `record_start` returns, in any mode and whatever its ring holds. -/
def started (headerSize : Nat) (raw : Bool) (ring : Ring) : RecordChannel :=
  { headerSize := headerSize
    connected := true
    raw := raw
    samples := ring.samples
    writePos := 0
    readPos := 0
    log := [] }

/-- The samples are those of a queue: what is given was sent, in order and once, the oldest are lost when there are too
many, and after the start each call gives all that there is. -/
structure Queued (channel : RecordChannel) : Prop where
  fifo : Exists fun fifo => run Fifo.step Fifo.empty channel.log = some fifo
  inOrder : (channel.log.flatMap Event.taken).Sublist (channel.log.flatMap Event.sent)

def modeAfter (headerSize : Nat) (raw : Bool) (message : Message) : Option Bool :=
  if Receive.sndReceiveBufSize < headerSize + message.size then none
  else
    match message with
    | .data _ decoded => if raw ∨ decoded.isSome then some raw else none
    | .mode toRaw capable _ => if toRaw ∨ capable then some toRaw else none
    | .invalid _ => none

/-- As long as the connection stays, the size of no message wraps around with that of its header. -/
def Sized (headerSize : Nat) : Bool -> List Message -> Prop
  | _, [] => True
  | raw, message :: messages => headerSize + message.size < 2 ^ 32 ∧
      forall next, modeAfter headerSize raw message = some next -> Sized headerSize next messages

/-- No size of a message that is received wraps around, and no samples are asked for while some are unread and the
position has wrapped to less than half of the ring. -/
def Unwrapped (channel : RecordChannel) : Op -> Prop
  | .arrive messages _ => channel.connected = true -> Sized channel.headerSize channel.raw messages
  | .getSamples bufsize messages _ => channel.connected = true ->
      if channel.writePos < recordSamplesSize / 2 then
        recordSamplesSize / 2 ≤ channel.total -> bufsize = 0 ∨ channel.writePos = channel.readPos
      else min channel.unread bufsize.toNat < bufsize.toNat -> Sized channel.headerSize channel.raw messages

/-! ## The ring holds the queue -/

theorem recordSamplesSize_eq : recordSamplesSize = 8192 := rfl

/-- The positions are those of the queue, and its samples are in the ring. -/
structure Holds (fifo : Fifo) (channel : RecordChannel) : Prop where
  ring : channel.samples.length = 8192
  writePos : channel.writePos = fifo.written % 2 ^ 32
  most : fifo.unread.length ≤ 8192
  enough : fifo.unread.length ≤ fifo.written
  readPos : channel.readPos = (fifo.written - fifo.unread.length) % 2 ^ 32
  content : forall index, index < fifo.unread.length ->
    channel.samples[(fifo.written - fifo.unread.length + index) % 8192]? = fifo.unread[index]?

/-- The log is what the queue does, and the ring of a connected channel holds it. -/
structure Inv (fifo : Fifo) (channel : RecordChannel) : Prop where
  log : run Fifo.step Fifo.empty channel.log = some fifo
  total : channel.total = fifo.written
  holds : channel.connected = true -> Holds fifo channel
  closed : channel.connected = false -> fifo.unread = []

section Rings

variable {fifo : Fifo} {channel : RecordChannel}

theorem wrapped_sub {written unread : Nat} (enough : unread ≤ written) (small : unread < 2 ^ 32) :
    (written % 2 ^ 32 + 2 ^ 32 - (written - unread) % 2 ^ 32) % 2 ^ 32 = unread := by
  obtain ⟨read, rfl⟩ := Nat.exists_eq_add_of_le' enough
  rw [Nat.add_sub_cancel]
  omega

theorem Holds.unread (holds : Holds fifo channel) : channel.unread = fifo.unread.length := by
  have most := holds.most
  unfold RecordChannel.unread
  rw [holds.writePos, holds.readPos]
  exact wrapped_sub holds.enough (by omega)

/-- The positions after a message was written. -/
theorem Holds.advance {size : Nat} (holds : Holds fifo channel) (fits : size ≤ 8192) :
    channel.advance size = { channel with
      writePos := (fifo.written + size) % 2 ^ 32
      readPos := (fifo.written + size - min (fifo.unread.length + size) 8192) % 2 ^ 32 } := by
  have most := holds.most
  have enough := holds.enough
  have isUnread : ({ channel with writePos := (fifo.written + size) % 2 ^ 32 } : RecordChannel).unread =
      fifo.unread.length + size := by
    unfold RecordChannel.unread
    dsimp only
    rw [holds.readPos, show fifo.written - fifo.unread.length = fifo.written +
      size - (fifo.unread.length + size) by omega]
    exact wrapped_sub (by omega) (by omega)
  unfold RecordChannel.advance
  rw [holds.writePos, Nat.mod_add_mod]
  dsimp only
  rw [isUnread, recordSamplesSize_eq]
  split
  · have isRead : ((fifo.written + size) % 2 ^ 32 + 2 ^ 32 - 8192) % 2 ^ 32 = (fifo.written + size - 8192) % 2 ^ 32 :=
      by omega
    rw [Nat.min_eq_right (by omega), isRead]
  · rw [Nat.min_eq_left (by omega), Nat.add_sub_add_right, <- holds.readPos]

/-- A message that fits the ring is written. -/
theorem Holds.write {data : List UInt32} (holds : Holds fifo channel) (fits : data.length ≤ 8192) :
    Exists fun next => channel.write data data.length = some next ∧ next.connected = channel.connected ∧
      next.raw = channel.raw ∧ next.headerSize = channel.headerSize ∧ next.log = channel.log ++ [.wrote data] ∧
      Holds ⟨Fifo.newest (fifo.unread ++ data), fifo.written + data.length⟩ next := by
  have isWrite := holds.writePos
  have isRead := holds.readPos
  have most := holds.most
  have enough := holds.enough
  have ring := holds.ring
  obtain ⟨samples, isSamples, length, isAt⟩ := ringWrite_spec
    (show channel.writePos % 8192 < channel.samples.length by omega)
    (show data.length ≤ channel.samples.length by omega) (Nat.le_refl data.length)
  unfold RecordChannel.write
  rw [recordSamplesSize_eq, isSamples]
  have isNewest : (Fifo.newest (fifo.unread ++ data)).length = min (fifo.unread.length + data.length) 8192 := by
    unfold Fifo.newest
    rw [List.length_drop, List.length_append, recordSamplesSize_eq]
    omega
  rw [holds.advance fits]
  refine ⟨_, rfl, rfl, rfl, rfl, rfl, ?_, rfl, ?_, ?_, ?_, ?_⟩
  · exact length.trans ring
  · dsimp only
    omega
  · dsimp only
    omega
  · dsimp only
    rw [isNewest]
  · intro index inside
    dsimp only at inside ⊢
    rw [isNewest] at inside ⊢
    unfold Fifo.newest
    rw [List.getElem?_drop, List.length_append, recordSamplesSize_eq, isAt _ (by omega), ring, isWrite]
    -- the sample is one of the message or was not written over
    by_cases new : fifo.unread.length ≤ fifo.unread.length + data.length - 8192 + index
    · rw [if_pos (by omega), List.getElem?_append_right new]
      exact congrArg (fun place => data[place]?) (by omega)
    · rw [if_neg (by omega), List.getElem?_append_left (by omega), <- holds.content _ (by omega)]
      exact congrArg (fun place => channel.samples[place]?) (by omega)

/-- Samples are taken out of the ring. -/
theorem Holds.copyOut (holds : Holds fifo channel) (bufsize : Nat) : Exists fun next =>
    channel.copyOut bufsize = some next ∧ next.connected = channel.connected ∧
      next.log = channel.log ++ [.gave bufsize (fifo.unread.take bufsize)] ∧
      Holds { fifo with unread := fifo.unread.drop (fifo.unread.take bufsize).length } next := by
  have isRead := holds.readPos
  have most := holds.most
  have enough := holds.enough
  have ring := holds.ring
  obtain ⟨samples, isSamples, length, isAt⟩ := ringRead_spec
    (show channel.readPos % 8192 < channel.samples.length by omega)
    (show min fifo.unread.length bufsize ≤ channel.samples.length by omega)
  have isTake : samples = fifo.unread.take bufsize := by
    refine List.ext_getElem? fun index => ?_
    by_cases inside : index < min fifo.unread.length bufsize
    · rw [isAt index inside, List.getElem?_take_of_lt (by omega), <- holds.content index (by omega), ring]
      exact congrArg (fun place => channel.samples[place]?) (by omega)
    · rw [List.getElem?_eq_none (by omega), List.getElem?_eq_none (by rw [List.length_take]; omega)]
  unfold RecordChannel.copyOut
  dsimp only
  rw [holds.unread, recordSamplesSize_eq, isSamples, isTake]
  refine ⟨_, rfl, rfl, rfl, ring, holds.writePos, ?_, ?_, ?_, ?_⟩
  · dsimp only
    rw [List.length_drop]
    omega
  · dsimp only
    rw [List.length_drop]
    omega
  · dsimp only [RecordChannel.gave]
    rw [List.length_drop, List.length_take]
    omega
  · intro index inside
    dsimp only [RecordChannel.gave] at inside ⊢
    rw [List.length_drop, List.length_take] at inside ⊢
    rw [List.getElem?_drop, <- holds.content _ (by omega)]
    exact congrArg (fun place => channel.samples[place]?) (by omega)

end Rings

/-! ## What arrives -/

section Arrivals

variable {fifo : Fifo} {channel : RecordChannel}

theorem log_snoc {event : Event} {next : Fifo} (inv : Inv fifo channel) (stepped : fifo.step event = some next) :
    run Fifo.step Fifo.empty (channel.log ++ [event]) = some next := by
  rw [run_append, inv.log, Option.bind_some, run_cons_of_some _ _ stepped, run_nil]

theorem total_snoc {event : Event} (inv : Inv fifo channel) :
    ((channel.log ++ [event]).flatMap Event.sent).length = fifo.written + event.sent.length := by
  rw [List.flatMap_append, List.flatMap_singleton, List.length_append, <- inv.total]
  rfl

theorem Inv.disconnect (inv : Inv fifo channel) : Inv { fifo with unread := [] } channel.disconnect where
  log := log_snoc inv rfl
  total := total_snoc inv
  holds := fun connected => (nomatch connected)
  closed := fun _ => rfl

/-- Samples are put into the ring, over the oldest ones. -/
theorem Inv.write {data : List UInt32} (inv : Inv fifo channel) (connected : channel.connected = true)
    (fits : data.length ≤ 8192) : Exists fun next => channel.write data data.length = some next ∧
      next.connected = true ∧
      next.raw = channel.raw ∧ next.headerSize = channel.headerSize ∧ next.log = channel.log ++ [.wrote data] ∧
      Inv ⟨Fifo.newest (fifo.unread ++ data), fifo.written + data.length⟩ next := by
  obtain ⟨next, written, same, sameRaw, sameHeader, isLog, holds⟩ := (inv.holds connected).write fits
  rw [connected] at same
  refine ⟨next, written, same, sameRaw, sameHeader, isLog, ?_, ?_, fun _ => holds, ?_⟩
  · rw [isLog]
    exact log_snoc inv rfl
  · unfold RecordChannel.total
    rw [isLog]
    exact total_snoc inv
  · intro closed
    rw [same] at closed
    cases closed

theorem length_toWords (bytes : List UInt8) : (toWords bytes).length = bytes.length / 4 := by
  unfold toWords
  rw [List.length_map, List.length_range]

/-- A message whose size does not wrap around is handled, and the queue has not fewer samples in all. -/
theorem Inv.receiveMessage (inv : Inv fifo channel) (connected : channel.connected = true) {message : Message}
    (small : channel.headerSize + message.size < 2 ^ 32) : Exists fun next => Exists fun handled =>
      channel.receiveMessage message = some (next, handled) ∧ next.connected = true ∧
      next.headerSize = channel.headerSize ∧
      modeAfter channel.headerSize channel.raw message = (if handled then some next.raw else none) ∧
      Exists fun after => Inv after next ∧ fifo.written ≤ after.written := by
  have holds := inv.holds connected
  have same : forall raw : Bool, Inv fifo { channel with raw := raw } := fun raw =>
    { log := inv.log
      total := inv.total
      holds := fun _ => ⟨holds.ring, holds.writePos, holds.most, holds.enough, holds.readPos, holds.content⟩
      closed := inv.closed }
  unfold RecordChannel.receiveMessage modeAfter
  rw [if_neg (Nat.not_le_of_lt small)]
  by_cases large : Receive.sndReceiveBufSize < channel.headerSize + message.size
  · rw [if_pos large, if_pos large]
    exact ⟨_, _, rfl, connected, rfl, rfl, fifo, inv, Nat.le_refl _⟩
  rw [if_neg large, if_neg large]
  cases message with
  | invalid size => exact ⟨_, _, rfl, connected, rfl, rfl, fifo, inv, Nat.le_refl _⟩
  | mode raw capable size =>
      cases raw with
      | true => exact ⟨_, _, rfl, connected, rfl, rfl, fifo, same true, Nat.le_refl _⟩
      | false =>
          cases capable with
          | true => exact ⟨_, _, rfl, connected, rfl, rfl, fifo, same false, Nat.le_refl _⟩
          | false => exact ⟨_, _, rfl, connected, rfl, rfl, fifo, inv, Nat.le_refl _⟩
  | data bytes decoded =>
      unfold RecordChannel.handleMessage RecordChannel.handleWrite
      dsimp only
      have short : bytes.length / 4 ≤ 8192 := by
        rw [Receive.sndReceiveBufSize, Message.size] at large
        omega
      by_cases raw : channel.raw = true
      · have fits : (toWords bytes).length ≤ 8192 := by rwa [length_toWords]
        obtain ⟨next, written, nextConnected, sameRaw, sameHeader, _, nextInv⟩ := inv.write connected fits
        rw [if_pos raw, if_pos (Or.inl raw), recordSamplesSize_eq, Nat.min_eq_left short, <- length_toWords,
          written, <- sameRaw]
        exact ⟨next, true, rfl, nextConnected, sameHeader, rfl, _, nextInv, Nat.le_add_right _ _⟩
      · rw [if_neg raw]
        cases decoded with
        | none =>
            rw [if_neg (not_or.mpr ⟨raw, nofun⟩)]
            exact ⟨_, _, rfl, connected, rfl, rfl, fifo, inv, Nat.le_refl _⟩
        | some decoded =>
            have fits := decoded.fits
            unfold maxFrameSize at fits
            obtain ⟨next, written, nextConnected, sameRaw, sameHeader, _, nextInv⟩ :=
              inv.write connected (Nat.le_trans fits (by decide))
            have known : channel.raw = true ∨ (some decoded).isSome = true := Or.inr rfl
            rw [if_pos known, <- sameRaw]
            dsimp only
            rw [written]
            exact ⟨next, true, rfl, nextConnected, sameHeader, rfl, _, nextInv, Nat.le_add_right _ _⟩

/-- A message that was received did not wrap around. -/
theorem small_of_receiveMessage {message : Message} {result : RecordChannel × Bool}
    (received : channel.receiveMessage message = some result) : channel.headerSize + message.size < 2 ^ 32 := by
  by_contra wraps
  unfold RecordChannel.receiveMessage at received
  rw [if_pos (Nat.le_of_not_lt wraps)] at received
  cases received

/-- The messages are received if none wraps around, and only then. -/
theorem inv_receiveAll (messages : List Message) : forall {fifo : Fifo} {channel : RecordChannel}, Inv fifo channel ->
    channel.connected = true -> Sized channel.headerSize channel.raw messages ->
      Exists fun next => receiveAll messages channel = some next ∧
        Exists fun after => Inv after next ∧ fifo.written ≤ after.written := by
  induction messages with
  | nil => exact fun inv _ _ => ⟨_, rfl, _, inv, Nat.le_refl _⟩
  | cons message messages ih =>
      intro fifo channel inv connected sized
      obtain ⟨next, handled, isNext, nextConnected, header, mode, after, afterInv, more⟩ :=
        inv.receiveMessage connected sized.1
      rw [receiveAll, isNext]
      cases handled with
      | false => exact ⟨_, rfl, _, afterInv.disconnect, more⟩
      | true =>
          have rest := sized.2 next.raw mode
          rw [<- header] at rest
          obtain ⟨final, received, last, lastInv, most⟩ := ih afterInv nextConnected rest
          exact ⟨final, received, last, lastInv, Nat.le_trans more most⟩

theorem sized_of_receiveAll (messages : List Message) : forall {fifo : Fifo} {channel next : RecordChannel},
    Inv fifo channel -> channel.connected = true -> receiveAll messages channel = some next ->
      Sized channel.headerSize channel.raw messages := by
  induction messages with
  | nil => exact fun _ _ _ => trivial
  | cons message messages ih =>
      intro fifo channel final inv connected received
      unfold receiveAll at received
      have small : channel.headerSize + message.size < 2 ^ 32 := by
        cases isNext : channel.receiveMessage message with
        | none =>
            rw [isNext] at received
            cases received
        | some result => exact small_of_receiveMessage isNext
      obtain ⟨next, handled, isNext, nextConnected, header, mode, after, afterInv, _⟩ :=
        inv.receiveMessage connected small
      refine ⟨small, fun last isLast => ?_⟩
      rw [mode] at isLast
      rw [isNext] at received
      cases handled with
      | false => cases isLast
      | true =>
          rw [<- Option.some.inj isLast, <- header]
          exact ih afterInv nextConnected received

theorem Inv.receive (inv : Inv fifo channel) (connected : channel.connected = true) {messages : List Message}
    (sized : Sized channel.headerSize channel.raw messages) (ends : Bool) :
    Exists fun next => channel.receive messages ends = some next ∧
      Exists fun after => Inv after next ∧ fifo.written ≤ after.written := by
  obtain ⟨next, received, after, afterInv, more⟩ := inv_receiveAll messages inv connected sized
  unfold RecordChannel.receive
  rw [received]
  refine ⟨_, rfl, ?_⟩
  dsimp only
  split
  · exact ⟨_, afterInv.disconnect, more⟩
  · exact ⟨after, afterInv, more⟩

theorem Inv.sized_of_receive {messages : List Message} {ends : Bool} {next : RecordChannel} (inv : Inv fifo channel)
    (connected : channel.connected = true) (received : channel.receive messages ends = some next) :
    Sized channel.headerSize channel.raw messages := by
  obtain ⟨_, all, _⟩ := Option.map_eq_some_iff.mp received
  exact sized_of_receiveAll messages inv connected all

/-! ## What is given -/

/-- A call that gives nothing, when the queue gives nothing. -/
theorem Inv.gave {bufsize : Nat} (inv : Inv fifo channel) (nothing : fifo.given bufsize = []) :
    Inv fifo (channel.gave bufsize []) where
  log := log_snoc inv (if_pos nothing.symm)
  total := total_snoc inv
  holds := fun connected =>
    have holds := inv.holds connected
    ⟨holds.ring, holds.writePos, holds.most, holds.enough, holds.readPos, holds.content⟩
  closed := inv.closed

theorem Fifo.given_closed {fifo : Fifo} (none : fifo.unread = []) (bufsize : Nat) : fifo.given bufsize = [] := by
  unfold Fifo.given
  rw [none, List.take_nil, ite_self]

theorem Fifo.given_late {fifo : Fifo} (late : recordSamplesSize / 2 ≤ fifo.written) (bufsize : Nat) :
    fifo.given bufsize = fifo.unread.take bufsize := if_neg (Nat.not_lt_of_le late)

theorem Inv.copyOut {bufsize : Nat} (inv : Inv fifo channel) (connected : channel.connected = true)
    (late : recordSamplesSize / 2 ≤ fifo.written) :
    Exists fun next => channel.copyOut bufsize = some next ∧ Exists fun after => Inv after next := by
  obtain ⟨next, copied, same, isLog, holds⟩ := (inv.holds connected).copyOut bufsize
  rw [connected] at same
  refine ⟨next, copied, _, ?_, ?_, fun _ => holds, ?_⟩
  · rw [isLog]
    exact log_snoc inv (if_pos (Fifo.given_late late bufsize).symm)
  · unfold RecordChannel.total
    rw [isLog]
    exact total_snoc inv
  · intro closed
    rw [same] at closed
    cases closed

/-- The device gets samples after what was received meanwhile. -/
theorem Inv.getSamples {bufsize : UInt32} {messages : List Message} {ends : Bool} (inv : Inv fifo channel)
    (unwrapped : Unwrapped channel (.getSamples bufsize messages ends)) : Exists fun next =>
      channel.getSamples bufsize.toNat messages ends = some next ∧ Exists fun after => Inv after next := by
  unfold RecordChannel.getSamples
  split
  · rename_i closed
    exact ⟨_, rfl, fifo, inv.gave (Fifo.given_closed (inv.closed closed) _)⟩
  rename_i notClosed
  have connected : channel.connected = true := Bool.eq_true_of_not_eq_false notClosed
  have holds := inv.holds connected
  have isWrite := holds.writePos
  split
  · rename_i early
    refine ⟨_, rfl, fifo, inv.gave ?_⟩
    unfold Fifo.given
    split
    · rfl
    · rename_i late
      have allowed := unwrapped connected
      rw [if_pos early] at allowed
      rcases allowed (by rw [inv.total]; omega) with none | same
      · rw [none]
        rfl
      · have none := holds.unread
        unfold RecordChannel.unread at none
        rw [same, Nat.add_sub_cancel_left, Nat.mod_self] at none
        rw [List.length_eq_zero_iff.mp none.symm, List.take_nil]
  · rename_i notEarly
    have late : recordSamplesSize / 2 ≤ fifo.written := by
      have most := Nat.mod_le fifo.written (2 ^ 32)
      omega
    split
    · rename_i wants
      have sized := unwrapped connected
      rw [if_neg notEarly] at sized
      obtain ⟨next, received, after, afterInv, more⟩ := inv.receive connected (sized wants) ends
      rw [received, Option.bind_some]
      split
      · rename_i closed
        exact ⟨_, rfl, after, afterInv.gave (Fifo.given_closed (afterInv.closed closed) _)⟩
      · rename_i stays
        exact afterInv.copyOut (Bool.eq_true_of_not_eq_false stays) (Nat.le_trans late more)
    · exact inv.copyOut connected late

theorem Inv.step {op : Op} (inv : Inv fifo channel) (unwrapped : Unwrapped channel op) :
    Exists fun next => channel.step op = some next ∧ Exists fun after => Inv after next := by
  cases op with
  | getSamples bufsize messages ends => exact inv.getSamples unwrapped
  | arrive messages ends =>
      unfold RecordChannel.step
      dsimp only
      split
      · rename_i connected
        obtain ⟨next, received, after, afterInv, _⟩ := inv.receive connected (unwrapped connected) ends
        exact ⟨next, received, after, afterInv⟩
      · exact ⟨channel, rfl, fifo, inv⟩

theorem Inv.queued (inv : Inv fifo channel) : Queued channel where
  fifo := ⟨fifo, inv.log⟩
  inOrder := (List.sublist_append_left _ _).trans (Fifo.sublist inv.log)

/-- A call that gives nothing although samples are unread is not one of the queue. -/
theorem Inv.unwrapped {op : Op} {next : RecordChannel} (inv : Inv fifo channel) (stepped : channel.step op = some next)
    (queued : Queued next) : Unwrapped channel op := by
  cases op with
  | arrive messages ends =>
      intro connected
      exact inv.sized_of_receive connected ((if_pos connected).symm.trans stepped)
  | getSamples bufsize messages ends =>
      intro connected
      have open_ : Not (channel.connected = false) := by
        rw [connected]
        exact nofun
      split
      case isFalse notEarly =>
        intro wants
        unfold RecordChannel.step RecordChannel.getSamples at stepped
        dsimp only at stepped
        rw [if_neg open_, if_neg notEarly, if_pos wants] at stepped
        obtain ⟨received, isReceived, _⟩ := Option.bind_eq_some_iff.mp stepped
        exact inv.sized_of_receive connected isReceived
      rename_i early
      intro late
      have isNext : channel.step (.getSamples bufsize messages ends) = some (channel.gave bufsize.toNat []) := by
        unfold RecordChannel.step RecordChannel.getSamples
        dsimp only
        rw [if_neg open_, if_pos early]
      rw [stepped] at isNext
      rw [Option.some.inj isNext] at queued
      obtain ⟨after, ran⟩ := queued.fifo
      unfold RecordChannel.gave at ran
      dsimp only at ran
      rw [run_append, inv.log, Option.bind_some] at ran
      obtain ⟨_, given, _⟩ := (run_cons_eq_some _).mp ran
      rw [inv.total] at late
      obtain ⟨isGiven, _⟩ := Option.ite_none_right_eq_some.mp given
      rw [Fifo.given_late late] at isGiven
      rcases List.take_eq_nil_iff.mp isGiven.symm with none | none
      · exact .inl (UInt32.toNat_inj.mp none)
      · have holds := inv.holds connected
        have isRead := holds.readPos
        rw [none, List.length_nil, Nat.sub_zero, <- holds.writePos] at isRead
        exact .inr isRead.symm

end Arrivals

theorem inv_started (headerSize : Nat) (raw : Bool) (ring : Ring) : Inv Fifo.empty (started headerSize raw ring) where
  log := rfl
  total := rfl
  holds := fun _ => ⟨ring.full, rfl, Nat.zero_le _, Nat.zero_le _, rfl,
    fun _ inside => absurd inside (Nat.not_lt_zero _)⟩
  closed := fun closed => (nomatch closed)

/-- For every list of messages and calls, the samples are those of a queue in every state exactly if no size of a
message wraps around with its header, and no samples are asked for while some are unread and the write position has
wrapped to less than half of the ring. -/
theorem record_samples (headerSize : Nat) (raw : Bool) (ring : Ring) (ops : List Op) :
    AllStates RecordChannel.step (fun _ => Queued) [] (started headerSize raw ring) ops <->
      Meets RecordChannel.step (fun _ => Unwrapped) [] (started headerSize raw ring) ops := by
  have sound : forall (_ : List Op) (channel : RecordChannel), (Exists fun fifo => Inv fifo channel) ->
      Queued channel :=
    fun _ _ ⟨_, inv⟩ => inv.queued
  exact allStates_iff_meets sound (fun _ _ _ ⟨_, inv⟩ (_ : True) unwrapped => inv.step unwrapped)
    (fun _ _ _ _ ⟨_, inv⟩ _ stepped queued => inv.unwrapped stepped queued)
    ops [] _ ⟨_, inv_started headerSize raw ring⟩ (fun _ _ _ _ => trivial)

/-- A message of 4096 samples. -/
def silence : Message := .data (List.replicate 16384 0) none

theorem receive_silence (count : Nat) : forall {fifo : Fifo} {channel : RecordChannel}, Inv fifo channel ->
    channel.connected = true -> channel.raw = true -> channel.headerSize = 6 -> Exists fun next =>
      receiveAll (List.replicate count silence) channel = some next ∧ next.connected = true ∧
        Exists fun after => Inv after next ∧ after.written = fifo.written + count * 4096 ∧
          (0 < count ∨ fifo.unread ≠ [] -> after.unread ≠ []) := by
  induction count with
  | zero =>
      intro fifo channel inv connected _ _
      refine ⟨channel, rfl, connected, fifo, inv, by omega, fun filled => ?_⟩
      exact filled.resolve_left (Nat.lt_irrefl 0)
  | succ count ih =>
      intro fifo channel inv connected isRaw header
      have length : (toWords (List.replicate 16384 0)).length = 4096 := by rw [length_toWords, List.length_replicate]
      obtain ⟨next, written, nextConnected, nextRaw, nextHeader, _, nextInv⟩ := inv.write connected
        (show (toWords (List.replicate 16384 0)).length ≤ 8192 by omega)
      obtain ⟨final, received, finalConnected, after, afterInv, isWritten, filled⟩ :=
        ih nextInv nextConnected (nextRaw.trans isRaw) (nextHeader.trans header)
      have handled : channel.receiveMessage silence = some (next, true) := by
        have size : silence.size = 16388 := congrArg (4 + ·) List.length_replicate
        unfold RecordChannel.receiveMessage
        rw [size, header, Receive.sndReceiveBufSize, if_neg (by omega), if_neg (by omega)]
        unfold silence RecordChannel.handleMessage RecordChannel.handleWrite
        dsimp only
        rw [if_pos isRaw, List.length_replicate, recordSamplesSize_eq]
        rw [length] at written
        rw [show min (16384 / 4) 8192 = 4096 from rfl, written]
        rfl
      refine ⟨final, ?_, finalConnected, after, afterInv, ?_, fun _ => filled (.inr ?_)⟩
      · rw [List.replicate_succ, receiveAll, handled]
        exact received
      · rw [isWritten]
        dsimp only
        rw [length]
        omega
      · refine List.length_pos_iff.mp ?_
        unfold Fifo.newest
        rw [List.length_drop, List.length_append, length, recordSamplesSize_eq]
        omega

/-- After `2 ^ 32` samples a call gives none of those that are unread. -/
theorem record_samples_wrapped : Not (forall (headerSize : Nat) (raw : Bool) (ring : Ring) (ops : List Op),
    AllStates RecordChannel.step (fun _ => Queued) [] (started headerSize raw ring) ops) := by
  intro always
  have all := always 6 true ⟨List.replicate recordSamplesSize 0, List.length_replicate⟩
    [.arrive (List.replicate (2 ^ 20) silence) false, .getSamples 1 [] false]
  obtain ⟨middle, received, connected, fifo, inv, isWritten, filled⟩ := receive_silence (2 ^ 20)
    (inv_started 6 true ⟨List.replicate recordSamplesSize 0, List.length_replicate⟩) rfl rfl rfl
  have arrived : (started 6 true ⟨List.replicate recordSamplesSize 0, List.length_replicate⟩).step
      (.arrive (List.replicate (2 ^ 20) silence) false) = some middle := by
    unfold RecordChannel.step RecordChannel.receive
    dsimp only
    rw [if_pos (show (started _ _ _).connected = true from rfl), received]
    rfl
  obtain ⟨next, ran, queued⟩ := (all.cons arrived) [.getSamples 1 [] false] (List.prefix_refl _)
  obtain ⟨final, stepped, same⟩ := (run_cons_eq_some _).mp ran
  cases same
  have written : fifo.written = 2 ^ 32 := isWritten
  have holds := inv.holds connected
  have isWrite := holds.writePos
  rw [written, Nat.mod_self] at isWrite
  have unwrapped := inv.unwrapped stepped queued connected
  rw [if_pos (by rw [isWrite]; decide)] at unwrapped
  rcases unwrapped (by rw [inv.total, written]; decide) with none | same
  · cases none
  · have unread := holds.unread
    unfold RecordChannel.unread at unread
    rw [same, Nat.add_sub_cancel_left, Nat.mod_self] at unread
    exact filled (.inl (by decide)) (List.length_eq_zero_iff.mp unread.symm)

end RecordRing
end Sound
end Spice
