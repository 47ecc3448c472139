import Spice.Lib.Run
import Spice.Lib.Bytes

namespace Spice
namespace Smartcard
namespace DeviceFraming

open Lib

/-!
# Messages of a smartcard device

The device writes a stream of messages, each with its length in the header.  The server
reads them into a buffer, as much at a time as the device gives, and sends what is complete
to the client.  On a migration the bytes of a message that is not complete go with it.

A step fails where the code asserts, leaves a buffer, or uses one that was reallocated.
-/

/-- `sizeof(VSCMsgHeader)`, `APDUBufSize` and `VSC_Init`. -/
def headerSize : Nat := 12

def apduBufSize : Nat := 270

def vscInit : Nat := 1

/-- `ntohl` of the four bytes at an offset. -/
def ntohl (bytes : List UInt8) (offset : Nat) : Nat := littleEndian ((bytes.drop offset).take 4).reverse

/-- The `type` and the `length` of a `VSCMsgHeader`. -/
def typeOf (bytes : List UInt8) : Nat := ntohl bytes 0

def lengthOf (bytes : List UInt8) : Nat := ntohl bytes 8

structure Message where
  type : Nat
  readerId : Nat
  payload : List UInt8
deriving DecidableEq

/-- `SmartCardDeviceState`.  `bufPos` is an offset in the block `buf`; `scc` says whether a client is attached. -/
structure DeviceState where
  buf : List UInt8
  bufSize : Nat
  bufPos : Nat
  bufUsed : Nat
  scc : Bool

/-- `smartcard_device_state_new`, with a client. -/
def deviceState : DeviceState := ⟨List.replicate (apduBufSize + headerSize) 0, apduBufSize + headerSize, 0, 0, true⟩

/-- Put bytes into a block, which they may not leave. -/
def store (block : List UInt8) (at_ : Nat) (bytes : List UInt8) : Option (List UInt8) :=
  if at_ + bytes.length ≤ block.length then some (block.take at_ ++ bytes ++ block.drop (at_ + bytes.length)) else none

namespace DeviceState

variable (state : DeviceState)

/-- `smartcard_read_buf_prepare`; a block that grows is another one. -/
def readBufPrepare (length : Nat) : DeviceState × Bool :=
  if length > state.bufSize then
    let bufSize := max (state.bufSize * 2 % 2 ^ 32) (length + headerSize) % 2 ^ 32
    ({ state with
      bufSize := bufSize
      buf := (state.buf ++ List.replicate bufSize 0).take bufSize }, true)
  else (state, false)

def convertHeader : List UInt8 :=
  ((state.buf.drop 0).take 4).reverse ++ ((state.buf.drop 4).take 4).reverse ++ ((state.buf.drop 8).take 4).reverse ++
    state.buf.drop headerSize

def onMessageFromDevice (readerId : Nat) : Option Message :=
  if typeOf state.buf = vscInit then none
  else if state.scc then some ⟨typeOf state.buf, readerId, (state.buf.drop headerSize).take (lengthOf state.buf)⟩
  else none

/-- What follows a read in the loop of `smartcard_read_msg_from_device`. -/
def afterRead (readerId : Nat) : Option (DeviceState × Option Message) :=
  if state.bufUsed < headerSize then some (state, none)
  else
    let (state, moved) := state.readBufPrepare (lengthOf state.buf)
    -- the pointer to the header is one into the block before
    if moved then none
    else
      let actualLength := lengthOf state.buf
      -- the length is an int that is compared as a size
      if 2 ^ 31 ≤ actualLength ∨ state.bufUsed - headerSize < actualLength then some (state, none)
      else
        let message := state.onMessageFromDevice readerId
        let remaining := state.bufUsed - headerSize - actualLength
        let buf := state.convertHeader
        if state.bufPos + remaining ≤ buf.length then
          (store buf 0 ((buf.drop state.bufPos).take remaining)).map fun buf => ({ state with
            buf := buf
            bufPos := 0
            bufUsed := remaining }, message)
        else none

/-- `smartcard_channel_send_migrate_data`, with the partial message if there is a device, and the restoration in
`smartcard_device_state_restore_partial_read` for a new device. -/
def migrate : Option DeviceState :=
  if state.scc = false then some deviceState
  else if state.buf.length < state.bufUsed then none
  else
    let readData := state.buf.take state.bufUsed
    let restored :=
      if state.bufUsed < headerSize then deviceState else (deviceState.readBufPrepare (lengthOf readData)).1
    (store restored.buf 0 readData).map fun buf => { restored with
      buf := buf
      bufUsed := state.bufUsed
      bufPos := state.bufUsed }

end DeviceState

/-- The device with what it has yet to write, the state of the server, and what it sent to the client. -/
structure System where
  stream : List UInt8
  state : DeviceState
  sent : List Message

def begin_ (stream : List UInt8) : System := ⟨stream, deviceState, []⟩

inductive Op
  | read (count : Nat)
  | attach (scc : Bool)
  | migrate

namespace System

variable (system : System)

/-- The bytes that `sif->read` returns when it has some. -/
def given (count : Nat) : List UInt8 := system.stream.take (min count (system.state.bufSize - system.state.bufUsed))

end System

/-- A read of the loop, a change of the client, or a migration. -/
def step (readerId : Nat) (system : System) : Op -> Option System
  | .read count =>
      let bytes := system.given count
      if bytes = [] then some system
      else
        (store system.state.buf system.state.bufPos bytes).bind fun buf =>
          let state := { system.state with
            buf := buf
            bufPos := system.state.bufPos + bytes.length
            bufUsed := system.state.bufUsed + bytes.length }
          (state.afterRead readerId).map fun (state, message) =>
            ⟨system.stream.drop bytes.length, state, system.sent ++ message.toList⟩
  | .attach scc => some { system with
      state := { system.state with
        scc := scc } }
  | .migrate => system.state.migrate.map fun state => { system with
      state := state }

/-! ## What should be sent -/

/-- A message of the stream, with its header. -/
def Whole (raw : List UInt8) : Prop := headerSize ≤ raw.length ∧ raw.length = headerSize + lengthOf raw

/-- What the client should get for it. -/
def expected (readerId : Nat) (raw : List UInt8) : Message := ⟨typeOf raw, readerId, raw.drop headerSize⟩

namespace System

variable (system : System)

/-- What is in the buffer. -/
def held : List UInt8 := system.state.buf.take system.state.bufUsed

/-- The stream is what was sent, a message in the buffer that is not complete, and what is yet to be written; and the
next bytes go behind those in the buffer, which has room for them. -/
structure Follows (readerId : Nat) (stream : List UInt8) (system : System) : Prop where
  messages : Exists fun raws : List (List UInt8) => (forall raw, raw ∈ raws -> Whole raw) ∧
    stream = raws.flatten ++ (system.held ++ system.stream) ∧ system.sent = raws.map (expected readerId)
  incomplete : headerSize ≤ system.held.length -> system.held.length < headerSize + lengthOf system.held
  behind : system.state.bufPos = system.state.bufUsed
  room : system.state.bufUsed < system.state.bufSize

/-- A read ends with the message it is of, a message that is complete is not `VSC_Init` and finds a client, and one that
is not complete leaves room; on a migration a message that is not complete has a client. -/
def Kept (system : System) : Op -> Prop
  | .read count =>
      let bytes := system.given count
      let held := system.held ++ bytes
      (bytes ≠ [] -> headerSize ≤ held.length -> lengthOf held ≤ system.state.bufSize ∧
        (headerSize + lengthOf held ≤ held.length ->
          held.length = headerSize + lengthOf held ∧ typeOf held ≠ vscInit ∧ system.state.scc = true) ∧
        (held.length < headerSize + lengthOf held -> held.length < system.state.bufSize))
  | .attach _ => True
  | .migrate => system.state.scc = true ∨ system.state.bufUsed = 0

end System

/-! ## Headers and blocks -/

theorem ntohl_take {bytes : List UInt8} {offset count : Nat} (inside : offset + 4 ≤ count) :
    ntohl (bytes.take count) offset = ntohl bytes offset := by
  unfold ntohl
  rw [List.drop_take, List.take_take, Nat.min_eq_left (Nat.le_sub_of_add_le' inside)]

theorem ntohl_append {bytes rest : List UInt8} {offset : Nat} (inside : offset + 4 ≤ bytes.length) :
    ntohl (bytes ++ rest) offset = ntohl bytes offset := by
  unfold ntohl
  rw [List.drop_append_of_le_length (by omega), List.take_append_of_le_length (by rw [List.length_drop]; omega)]

theorem lengthOf_append {bytes rest : List UInt8} (header : headerSize ≤ bytes.length) :
    lengthOf (bytes ++ rest) = lengthOf bytes :=
  ntohl_append header

/-- A stream is cut into messages in one way. -/
theorem raws_eq {raws others : List (List UInt8)} {rest other : List UInt8}
    (whole : forall raw, raw ∈ raws -> Whole raw)
    (isWhole : forall raw, raw ∈ others -> Whole raw) (same : raws.flatten ++ rest = others.flatten ++ other)
    (length : raws.length = others.length) : raws = others := by
  induction raws generalizing others with
  | nil => exact (List.length_eq_zero_iff.mp length.symm).symm
  | cons raw raws ih =>
      cases others with
      | nil => contradiction
      | cons first others =>
          rw [List.flatten_cons, List.flatten_cons, List.append_assoc, List.append_assoc] at same
          rcases whole raw List.mem_cons_self with ⟨header, size⟩
          rcases isWhole first List.mem_cons_self with ⟨otherHeader, otherSize⟩
          have lengths : lengthOf raw = lengthOf first := by
            rw [<- lengthOf_append header, same, lengthOf_append otherHeader]
          rcases List.append_inj same (by omega) with ⟨rfl, others_⟩
          exact congrArg (raw :: ·) (ih (fun other member => whole other (List.mem_cons_of_mem _ member))
            (fun other member => isWhole other (List.mem_cons_of_mem _ member)) others_ (Nat.succ.inj length))

theorem store_of_fits {block bytes : List UInt8} {at_ : Nat} (fits : at_ + bytes.length ≤ block.length) :
    store block at_ bytes = some (block.take at_ ++ bytes ++ block.drop (at_ + bytes.length)) := if_pos fits

theorem length_stored {block bytes : List UInt8} {at_ : Nat} (fits : at_ + bytes.length ≤ block.length) :
    (block.take at_ ++ bytes ++ block.drop (at_ + bytes.length)).length = block.length := by
  rw [List.length_append, List.length_append, List.length_take, List.length_drop, Nat.min_eq_left (by omega)]
  omega

/-- What is behind the bytes that were stored is not among the first. -/
theorem take_stored {block bytes : List UInt8} {at_ : Nat} (fits : at_ + bytes.length ≤ block.length) :
    (block.take at_ ++ bytes ++ block.drop (at_ + bytes.length)).take (at_ + bytes.length) =
      block.take at_ ++ bytes := by
  refine List.take_left' ?_
  rw [List.length_append, List.length_take, Nat.min_eq_left (by omega)]

theorem deviceState_block : deviceState.buf.length = apduBufSize + headerSize := List.length_replicate

/-! ## A read -/

namespace DeviceState

variable {state : DeviceState} {readerId : Nat}

theorem afterRead_short (short : state.bufUsed < headerSize) : state.afterRead readerId = some (state, none) :=
  if_pos short

theorem afterRead_large (header : headerSize ≤ state.bufUsed) (large : state.bufSize < lengthOf state.buf) :
    state.afterRead readerId = none := by
  unfold afterRead readBufPrepare
  rw [if_neg (Nat.not_lt_of_le header), if_pos large]
  rfl

/-- A message whose length is not larger than the buffer. -/
theorem afterRead_eq (header : headerSize ≤ state.bufUsed) (fits : lengthOf state.buf ≤ state.bufSize)
    (small : state.bufSize < 2 ^ 31) :
    state.afterRead readerId =
      if state.bufUsed - headerSize < lengthOf state.buf then some (state, none)
      else if state.bufPos + (state.bufUsed - headerSize - lengthOf state.buf) ≤ state.convertHeader.length then
        (store state.convertHeader 0 ((state.convertHeader.drop state.bufPos).take
          (state.bufUsed - headerSize - lengthOf state.buf))).map fun buf => ({ state with
            buf := buf
            bufPos := 0
            bufUsed := state.bufUsed - headerSize - lengthOf state.buf }, state.onMessageFromDevice readerId)
      else none := by
  unfold afterRead readBufPrepare
  rw [if_neg (Nat.not_lt_of_le header), if_neg (Nat.not_lt_of_le fits)]
  dsimp only
  rw [if_neg Bool.false_ne_true]
  refine if_congr (or_iff_right fun negative => ?_) rfl rfl
  omega

theorem length_convertHeader (header : headerSize ≤ state.buf.length) :
    state.convertHeader.length = state.buf.length := by
  unfold headerSize at header
  unfold convertHeader headerSize
  simp only [List.length_append, List.length_reverse, List.length_take, List.length_drop]
  omega

theorem afterRead_whole (block : state.buf.length = state.bufSize) (small : state.bufSize < 2 ^ 31)
    (inside : state.bufUsed ≤ state.bufSize)
    (behind : state.bufPos = state.bufUsed) (whole : state.bufUsed = headerSize + lengthOf state.buf) :
    state.afterRead readerId = some ({ state with
      buf := state.convertHeader
      bufPos := 0
      bufUsed := 0 }, state.onMessageFromDevice readerId) := by
  have header : headerSize ≤ state.bufUsed := by omega
  have remaining : state.bufUsed - headerSize - lengthOf state.buf = 0 := by omega
  rw [afterRead_eq header (by omega) small, if_neg (by omega), remaining, length_convertHeader (by omega),
    if_pos (by omega), List.take_zero,
    store_of_fits (Nat.zero_le _)]
  rfl

end DeviceState

variable {count : Nat}

namespace System

variable {readerId : Nat} {stream : List UInt8} {system next : System}

structure Inv (readerId : Nat) (stream : List UInt8) (system : System) : Prop where
  follows : system.Follows readerId stream
  block : system.state.buf.length = apduBufSize + headerSize
  size : system.state.bufSize = apduBufSize + headerSize
  small : headerSize ≤ system.held.length -> lengthOf system.held ≤ system.state.bufSize

/-- The state with bytes stored behind those that are held. -/
def filled (system : System) (bytes : List UInt8) : DeviceState :=
  { system.state with
    buf := system.state.buf.take system.state.bufPos ++ bytes ++
      system.state.buf.drop (system.state.bufPos + bytes.length)
    bufPos := system.state.bufPos + bytes.length
    bufUsed := system.state.bufUsed + bytes.length }

theorem held_eq_nil (used : system.state.bufUsed = 0) : system.held = [] := by
  unfold held
  rw [used, List.take_zero]

theorem given_length_le (system : System) (count : Nat) :
    (system.given count).length ≤ system.state.bufSize - system.state.bufUsed :=
  (List.length_take_le _ _).trans (Nat.min_le_right _ _)

theorem given_append (system : System) (count : Nat) :
    system.given count ++ system.stream.drop (system.given count).length = system.stream :=
  List.prefix_iff_eq_append.mp (List.take_prefix _ _)

/-- The stream with the bytes of a read in their place. -/
theorem stream_split (count : Nat) {raws : List (List UInt8)}
    (split : stream = raws.flatten ++ (system.held ++ system.stream)) :
    stream = raws.flatten ++ ((system.held ++ system.given count) ++
      system.stream.drop (system.given count).length) := by
  rw [List.append_assoc, system.given_append count]
  exact split

namespace Inv

variable (inv : system.Inv readerId stream)

include inv

theorem held_length : system.held.length = system.state.bufUsed := by
  have room := inv.follows.room
  have block := inv.block
  have size := inv.size
  unfold held
  rw [List.length_take]
  omega

theorem given_fits (count : Nat) : system.state.bufPos + (system.given count).length ≤ system.state.buf.length := by
  have given := system.given_length_le count
  have room := inv.follows.room
  have behind := inv.follows.behind
  have block := inv.block
  have size := inv.size
  omega

theorem held_filled (count : Nat) :
    (system.filled (system.given count)).buf.take (system.filled (system.given count)).bufUsed =
    system.held ++ system.given count := by
  unfold filled held
  dsimp only
  rw [<- inv.follows.behind]
  exact take_stored (inv.given_fits count)

theorem length_filled (count : Nat) : (system.filled (system.given count)).buf.length = system.state.bufSize := by
  rw [inv.size, <- inv.block]
  exact length_stored (inv.given_fits count)

theorem lengthOf_filled (header : headerSize ≤ (system.held ++ system.given count).length) :
    lengthOf (system.filled (system.given count)).buf = lengthOf (system.held ++ system.given count) := by
  rw [<- inv.held_filled count]
  rw [List.length_append, inv.held_length] at header
  exact (ntohl_take header).symm

theorem bufUsed_filled (count : Nat) :
    (system.filled (system.given count)).bufUsed = (system.held ++ system.given count).length := by
  rw [List.length_append, inv.held_length]
  rfl

theorem step_read (some_ : system.given count ≠ []) : step readerId system (.read count) =
    ((system.filled (system.given count)).afterRead readerId).map fun after =>
      ⟨system.stream.drop (system.given count).length, after.1, system.sent ++ after.2.toList⟩ := by
  unfold step
  dsimp only
  rw [if_neg some_, store_of_fits (inv.given_fits count)]
  rfl

/-- Bytes of a message that is not complete. -/
theorem read_partial (incomplete : headerSize ≤ (system.held ++ system.given count).length ->
      lengthOf (system.held ++ system.given count) ≤ system.state.bufSize ∧
        (system.held ++ system.given count).length < headerSize + lengthOf (system.held ++ system.given count))
    (room : (system.held ++ system.given count).length < system.state.bufSize) :
    (system.filled (system.given count)).afterRead readerId = some (system.filled (system.given count), none) ∧
      Inv readerId stream ⟨system.stream.drop (system.given count).length, system.filled (system.given count),
        system.sent⟩ := by
  have used := inv.bufUsed_filled count
  have held : System.held ⟨system.stream.drop (system.given count).length, system.filled (system.given count),
      system.sent⟩ =
      system.held ++ system.given count := inv.held_filled count
  rcases inv.follows.messages with ⟨raws, whole, split, sent⟩
  constructor
  · by_cases header : headerSize ≤ (system.held ++ system.given count).length
    · have isLength := inv.lengthOf_filled header
      rcases incomplete header with ⟨fits, partial_⟩
      have size : (system.filled (system.given count)).bufSize = system.state.bufSize := rfl
      rw [DeviceState.afterRead_eq (used ▸ header) (isLength ▸ fits) (by rw [size, inv.size]; decide),
        if_pos (by omega)]
    · exact DeviceState.afterRead_short (used ▸ Nat.lt_of_not_le header)
  · refine ⟨⟨⟨raws, whole, ?_, sent⟩, ?_, ?_, ?_⟩, ?_, inv.size, ?_⟩
    · rw [held]
      exact stream_split count split
    · rw [held]
      exact fun header => (incomplete header).2
    · exact congrArg (· + _) inv.follows.behind
    · exact used.symm ▸ room
    · exact (inv.length_filled count).trans inv.size
    · rw [held]
      exact fun header => (incomplete header).1

/-- A message that is there is handed over. -/
theorem onMessage_filled (whole : Whole (system.held ++ system.given count))
    (type : typeOf (system.held ++ system.given count) ≠ vscInit) (attached : system.state.scc = true) :
    (system.filled (system.given count)).onMessageFromDevice readerId =
      some (expected readerId (system.held ++ system.given count)) := by
  have isLength := inv.lengthOf_filled whole.1
  have isType : typeOf (system.filled (system.given count)).buf = typeOf (system.held ++ system.given count) := by
    rw [<- inv.held_filled count]
    have header := whole.1
    rw [List.length_append, inv.held_length] at header
    exact (ntohl_take (Nat.le_trans (by decide) header)).symm
  have payload : ((system.filled (system.given count)).buf.drop headerSize).take
      (lengthOf (system.held ++ system.given count)) =
      (system.held ++ system.given count).drop headerSize := by
    have taken := inv.held_filled count
    have size := whole.2
    rw [inv.bufUsed_filled count] at taken
    refine Eq.trans ?_ (congrArg (List.drop headerSize) taken)
    rw [List.drop_take]
    exact congrArg (List.take · _) (by omega)
  have isAttached : (system.filled (system.given count)).scc = true := attached
  unfold DeviceState.onMessageFromDevice
  rw [isType, if_neg type, if_pos isAttached, isLength, payload]
  rfl

/-- The last bytes of a message, which is then sent. -/
theorem read_whole (whole : Whole (system.held ++ system.given count))
    (type : typeOf (system.held ++ system.given count) ≠ vscInit) (attached : system.state.scc = true) :
    Exists fun state => (system.filled (system.given count)).afterRead readerId =
        some (state, some (expected readerId (system.held ++ system.given count))) ∧
      Inv readerId stream ⟨system.stream.drop (system.given count).length, state,
        system.sent ++ [expected readerId (system.held ++ system.given count)]⟩ := by
  have used := inv.bufUsed_filled count
  have isLength := inv.lengthOf_filled whole.1
  have given := system.given_length_le count
  have room := inv.follows.room
  have inside : (system.filled (system.given count)).bufUsed ≤ system.state.bufSize := by
    rw [used, List.length_append, inv.held_length]
    omega
  have after := @DeviceState.afterRead_whole (system.filled (system.given count)) readerId (inv.length_filled count)
    (by change system.state.bufSize < _; rw [inv.size]; decide) inside (congrArg (· + _) inv.follows.behind)
    (by rw [used, isLength]; exact whole.2)
  rw [inv.onMessage_filled whole type attached] at after
  refine ⟨_, after, ?_⟩
  rcases inv.follows.messages with ⟨raws, isWhole, split, sent⟩
  refine ⟨⟨⟨raws ++ [system.held ++ system.given count], fun raw member => ?_, ?_, ?_⟩, fun header => ?_, rfl, ?_⟩, ?_,
    inv.size, fun header => ?_⟩
  · rcases List.mem_append.mp member with old | new
    · exact isWhole raw old
    · exact List.mem_singleton.mp new ▸ whole
  · rw [List.flatten_append, List.flatten_singleton]
    refine (stream_split count split).trans ?_
    rw [List.append_assoc raws.flatten]
    rfl
  · rw [List.map_append, sent]
    rfl
  · exact absurd (show headerSize ≤ 0 from header) (by decide)
  · exact Nat.lt_of_le_of_lt (Nat.zero_le _) room
  · have block := inv.length_filled count
    refine (DeviceState.length_convertHeader ?_).trans (block.trans inv.size)
    rw [block, inv.size]
    decide
  · exact absurd (show headerSize ≤ 0 from header) (by decide)

/-- A read leaves the stream followed. -/
theorem read (kept : system.Kept (.read count)) :
    Exists fun next => step readerId system (.read count) = some next ∧ next.Inv readerId stream := by
  by_cases none_ : system.given count = []
  · refine ⟨system, ?_, inv⟩
    unfold step
    dsimp only
    rw [if_pos none_]
  · have kept := kept none_
    rw [inv.step_read none_]
    by_cases whole : headerSize ≤ (system.held ++ system.given count).length ∧
        headerSize + lengthOf (system.held ++ system.given count) ≤ (system.held ++ system.given count).length
    · rcases (kept whole.1).2.1 whole.2 with ⟨size, type, attached⟩
      rcases inv.read_whole ⟨whole.1, size⟩ type attached with ⟨state, after, next⟩
      rw [after]
      exact ⟨_, rfl, next⟩
    · have partial_ : headerSize ≤ (system.held ++ system.given count).length ->
          (system.held ++ system.given count).length <
          headerSize + lengthOf (system.held ++ system.given count) :=
            fun header => Nat.lt_of_not_le fun complete => whole ⟨header, complete⟩
      have room : (system.held ++ system.given count).length < system.state.bufSize := by
        by_cases header : headerSize ≤ (system.held ++ system.given count).length
        · exact (kept header).2.2 (partial_ header)
        · rw [inv.size]
          exact Nat.lt_of_lt_of_le (Nat.lt_of_not_le header) (by decide)
      rcases inv.read_partial (fun header => ⟨(kept header).1, partial_ header⟩) room with ⟨after, next⟩
      rw [after]
      refine ⟨_, rfl, ?_⟩
      change Inv readerId stream ⟨_, _, system.sent ++ []⟩
      rw [List.append_nil]
      exact next

/-- A migration leaves the stream followed. -/
theorem migrate (kept : system.Kept .migrate) :
    Exists fun next => step readerId system .migrate = some next ∧ next.Inv readerId stream := by
  have room := inv.follows.room
  have size := inv.size
  have block := inv.block
  rcases inv.follows.messages with ⟨raws, whole, split, sent⟩
  cases attached : system.state.scc with
  | false =>
      have empty : system.state.bufUsed = 0 := kept.resolve_left (ne_true_of_eq_false attached)
      have none_ : system.held = [] := List.eq_nil_of_length_eq_zero (inv.held_length.trans empty)
      have fresh : System.held { system with
          state := deviceState } = [] := rfl
      refine ⟨{ system with
        state := deviceState }, ?_, ⟨⟨raws, whole, ?_, sent⟩, fun header => ?_, rfl, Nat.zero_lt_succ _⟩,
          deviceState_block, rfl, fun header => ?_⟩
      · unfold step DeviceState.migrate
        dsimp only
        rw [if_pos attached]
        rfl
      · rw [fresh, <- none_]
        exact split
      · exact absurd (show headerSize ≤ 0 from header) (by decide)
      · exact absurd (show headerSize ≤ 0 from header) (by decide)
  | true =>
      have restored : (if system.state.bufUsed < headerSize then deviceState
          else (deviceState.readBufPrepare (lengthOf (system.state.buf.take system.state.bufUsed))).1) =
            deviceState := by
        split
        next => rfl
        next header =>
          have small : lengthOf system.held ≤ system.state.bufSize :=
            inv.small (inv.held_length ▸ Nat.le_of_not_lt header)
          exact congrArg Prod.fst (if_neg (Nat.not_lt_of_le (Nat.le_trans small (Nat.le_of_eq size))))
      have fits : 0 + system.held.length ≤ deviceState.buf.length := by
        rw [inv.held_length]
        exact Nat.le_trans (Nat.le_of_eq (Nat.zero_add _))
          (Nat.le_trans (Nat.le_of_lt room) (Nat.le_of_eq (size.trans deviceState_block.symm)))
      have stored := store_of_fits fits
      have held : (deviceState.buf.take 0 ++ system.held ++ deviceState.buf.drop (0 + system.held.length)).take
          system.state.bufUsed = system.held := by
        have taken := take_stored fits
        rw [Nat.zero_add, List.take_zero, List.nil_append, inv.held_length] at taken
        rw [Nat.zero_add, List.take_zero, List.nil_append, inv.held_length]
        exact taken
      refine ⟨{ system with
        state := { deviceState with
          buf := deviceState.buf.take 0 ++ system.held ++ deviceState.buf.drop (0 + system.held.length)
          bufUsed := system.state.bufUsed
          bufPos := system.state.bufUsed } }, ?_, ⟨⟨raws, whole, ?_, sent⟩, ?_, rfl, ?_⟩, ?_, rfl, ?_⟩
      · unfold step DeviceState.migrate
        dsimp only
        rw [if_neg (ne_false_of_eq_true attached), if_neg (by omega), restored]
        change ((store deviceState.buf 0 system.held).map _).map _ = _
        rw [stored]
        rfl
      · exact (congrArg (fun bytes => raws.flatten ++ (bytes ++ system.stream)) held).symm ▸ split
      · exact (congrArg (fun bytes : List UInt8 => headerSize ≤ bytes.length ->
          bytes.length < headerSize + lengthOf bytes) held).symm ▸ inv.follows.incomplete
      · exact Nat.lt_of_lt_of_le room (Nat.le_of_eq size)
      · exact (length_stored fits).trans deviceState_block
      · exact (congrArg (fun bytes : List UInt8 => headerSize ≤ bytes.length ->
          lengthOf bytes ≤ apduBufSize + headerSize) held).symm ▸
          size ▸ inv.small

theorem attach (scc : Bool) : Inv readerId stream { system with
    state := { system.state with
      scc := scc } } :=
  ⟨⟨inv.follows.messages, inv.follows.incomplete, inv.follows.behind, inv.follows.room⟩, inv.block, inv.size, inv.small⟩

theorem step (op : Op) (kept : system.Kept op) : Exists fun next => DeviceFraming.step readerId system op = some next ∧
    next.Inv readerId stream := by
  cases op with
  | read count => exact inv.read kept
  | attach scc => exact ⟨_, rfl, inv.attach scc⟩
  | migrate => exact inv.migrate kept

end Inv

end System

namespace System

variable {readerId : Nat} {stream : List UInt8} {system next : System}

namespace Inv

theorem left_of_sent (inv : system.Inv readerId stream) (follows : next.Follows readerId stream)
    (same : next.sent = system.sent) :
    next.held ++ next.stream = system.held ++ system.stream := by
  rcases inv.follows.messages with ⟨raws, whole, split, sent⟩
  rcases follows.messages with ⟨others, isWhole, otherSplit, otherSent⟩
  have lengths : others.length = raws.length := by
    have lengths := congrArg List.length (otherSent.symm.trans (same.trans sent))
    rwa [List.length_map, List.length_map] at lengths
  have equal := raws_eq isWhole whole (otherSplit.symm.trans split) lengths
  rw [equal] at otherSplit
  exact List.append_cancel_left (otherSplit.symm.trans split)

/-- Bytes that leave the buffer empty are sent. -/
theorem sent_of_read (inv : system.Inv readerId stream) (some_ : system.given count ≠ [])
    (follows : next.Follows readerId stream)
    (read : next.stream = system.stream.drop (system.given count).length) (used : next.state.bufUsed = 0) :
    next.sent ≠ system.sent := by
  intro same
  have left := congrArg List.length (inv.left_of_sent follows same)
  have held : next.held = [] := held_eq_nil used
  rw [held, read, <- system.given_append count] at left
  simp only [List.length_append, List.length_nil, List.drop_left] at left
  exact some_ (List.eq_nil_of_length_eq_zero (by omega))

/-- A read that is followed as it should be. -/
theorem kept_read (inv : system.Inv readerId stream)
    (stepped : DeviceFraming.step readerId system (.read count) = some next)
    (follows : next.Follows readerId stream) : system.Kept (.read count) := by
  intro some_ header
  rw [inv.step_read some_] at stepped
  have used := inv.bufUsed_filled count
  have isLength := inv.lengthOf_filled header
  have size : (system.filled (system.given count)).bufSize = system.state.bufSize := rfl
  by_cases fits : lengthOf (system.held ++ system.given count) ≤ system.state.bufSize
  · refine ⟨fits, ?_⟩
    rw [DeviceState.afterRead_eq (used ▸ header) (isLength ▸ fits) (by rw [size, inv.size]; decide), used,
      isLength] at stepped
    split at stepped
    next partial_ =>
      cases stepped
      refine ⟨fun whole => absurd whole (by omega), fun _ => ?_⟩
      exact used ▸ follows.room
    next whole =>
      refine ⟨fun _ => ?_, fun partial_ => absurd partial_ (by omega)⟩
      split at stepped
      next =>
        rcases Option.map_eq_some_iff.mp stepped with ⟨after, isAfter, rfl⟩
        rcases Option.map_eq_some_iff.mp isAfter with ⟨buf, _, rfl⟩
        have remaining : 0 = (system.held ++ system.given count).length - headerSize - lengthOf
            (system.held ++ system.given count) := follows.behind
        have isWhole : (system.held ++ system.given count).length = headerSize +
            lengthOf (system.held ++ system.given count) := by omega
        have isType : typeOf (system.filled (system.given count)).buf = typeOf (system.held ++ system.given count) := by
          rw [<- inv.held_filled count]
          exact (ntohl_take (Nat.le_trans (by decide) (used ▸ header))).symm
        have isSent : (system.filled (system.given count)).onMessageFromDevice readerId ≠ none := by
          intro none_
          refine inv.sent_of_read some_ follows rfl remaining.symm ?_
          dsimp only
          rw [none_, Option.toList_none, List.append_nil]
        unfold DeviceState.onMessageFromDevice at isSent
        rw [isType] at isSent
        split at isSent
        next => exact absurd rfl isSent
        next type =>
          split at isSent
          next attached => exact ⟨isWhole, type, attached⟩
          next => exact absurd rfl isSent
      next => exact nomatch stepped
  · rw [DeviceState.afterRead_large (used ▸ header) (by rw [isLength]; exact Nat.lt_of_not_le fits)] at stepped
    exact nomatch stepped

/-- A step that leaves it followed met the condition. -/
theorem kept (inv : system.Inv readerId stream) {op : Op} (stepped : DeviceFraming.step readerId system op = some next)
    (follows : next.Follows readerId stream) : system.Kept op := by
  cases op with
  | read count => exact inv.kept_read stepped follows
  | attach scc => trivial
  | migrate =>
      by_contra lost
      rcases not_or.mp lost with ⟨detached, used⟩
      unfold DeviceFraming.step DeviceState.migrate at stepped
      dsimp only at stepped
      rw [if_pos (eq_false_of_ne_true detached)] at stepped
      cases stepped
      have left := congrArg List.length (inv.left_of_sent follows rfl)
      rw [held_eq_nil rfl, List.nil_append, List.length_append, inv.held_length] at left
      exact used (by dsimp only at left; omega)

end Inv

end System

theorem begin_inv (readerId : Nat) (stream : List UInt8) : (begin_ stream).Inv readerId stream where
  follows := ⟨⟨[], fun _ member => absurd member List.not_mem_nil, rfl, rfl⟩,
    fun header => absurd (show headerSize ≤ 0 from header) (by decide),
    rfl, Nat.zero_lt_succ _⟩
  block := deviceState_block
  size := rfl
  small := fun header => absurd (show headerSize ≤ 0 from header) (by decide)

/-- The client gets the messages of the stream exactly if every read ends with the message it is of, each message has
room in the first buffer and finds a client, and none is lost with its client at a migration. -/
theorem device_framing_iff (readerId : Nat) (stream : List UInt8) (ops : List Op) :
    AllStates (step readerId) (fun _ system => system.Follows readerId stream) [] (begin_ stream) ops <->
      Meets (step readerId) (fun _ system op => system.Kept op) [] (begin_ stream) ops :=
  @allStates_iff_meets _ _ (step readerId) (fun _ system op => system.Kept op)
    (fun _ system => system.Inv readerId stream)
    (fun _ system => system.Follows readerId stream) (fun _ _ => True) (fun _ _ inv => inv.follows)
      (fun _ _ op inv _ kept => inv.step op kept)
    (fun _ _ _ _ inv _ stepped follows => inv.kept stepped follows) ops [] (begin_ stream) (begin_inv readerId stream)
      fun _ _ _ _ => trivial

/-- Two messages without a payload, of `VSC_APDU`. -/
def twoMessages : List UInt8 := [0, 0, 0, 7, 0, 0, 0, 0, 0, 0, 0, 0, 0, 0, 0, 7, 0, 0, 0, 0, 0, 0, 0, 0]

/-- A read that brings both. -/
theorem two_messages_in_one_read :
    ¬ AllStates (step 0) (fun _ system => system.Follows 0 twoMessages) [] (begin_ twoMessages) [.read 24] := by
  intro follows
  rcases follows _ (List.prefix_refl _) with ⟨final, ran, holds⟩
  rcases (run_cons_eq_some (step 0)).mp ran with ⟨next, stepped, same⟩
  cases same
  have kept := (begin_inv 0 twoMessages).kept stepped holds
  exact absurd ((kept (by decide) (by decide)).2.1 (by decide)).1 (by decide)

end DeviceFraming
end Smartcard
end Spice
