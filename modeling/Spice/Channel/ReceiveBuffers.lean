import Spice.Lib.Numbers
import Mathlib.Tactic.Common

namespace Spice
namespace Channel
namespace ReceiveBuffers

/-!
# Buffers for what a client sends

`red_peer_handle_incoming` reads a header, asks the channel for a buffer for the message,
reads the message into it, handles it and gives the buffer back.  A channel has a fixed
array, allocates a block, or takes a write buffer of its device, and remembers that one.

A step fails where the server is ended, by an assertion, an error or a missing buffer.  A
block of fewer than `2 ^ 32` bytes can be allocated; a negative size, which becomes one of
almost `2 ^ 64`, cannot.
-/

/-! ## Write buffers of a device -/

/-- A `SpiceCharDeviceWriteBuffer` and its `buf_size`.  Its size was an `int`. -/
structure WriteBuffer where
  key : Nat
  bufSize : Nat
  small : bufSize < 2 ^ 31

/-- What a channel sees of the `SpiceCharDeviceState`: the tokens of the client, if the device knows it, and the pool,
of which the next buffer comes first. -/
structure CharDevice where
  client : Option Nat
  doFlowControl : Bool
  writeBufsPool : List WriteBuffer
  allocated : Nat

namespace CharDevice

variable (dev : CharDevice)

/-- The client may write to the device. -/
def Admits : Prop := Exists fun tokens => dev.client = some tokens ∧ (dev.doFlowControl = true -> 0 < tokens)

/-- The buffer of the pool, or a new one without memory, and the device without it. -/
def pooled : WriteBuffer × CharDevice :=
  match dev.writeBufsPool with
  | buf :: rest => (buf, { dev with
      writeBufsPool := rest })
  | [] => (⟨dev.allocated, 0, Nat.two_pow_pos 31⟩, { dev with
      allocated := dev.allocated + 1 })

def spendToken : CharDevice :=
  { dev with
    client := dev.client.map fun tokens => if dev.doFlowControl then tokens - 1 else tokens }

/-- `spice_char_device_write_buffer_get`, whose size is an `int`, for the client. -/
def writeBufferGet (size : Nat) : Option (CharDevice × Option WriteBuffer) :=
  let asked := size % 2 ^ 32
  let (buf, dev) := dev.pooled
  -- the comparison is that of unsigned numbers, so a negative size is larger than any buffer
  if negative : 2 ^ 31 ≤ asked then none
  else
    let buf : WriteBuffer := ⟨buf.key, max buf.bufSize asked, Nat.max_lt.mpr ⟨buf.small, Nat.lt_of_not_le negative⟩⟩
    match dev.client with
    | none => some ({ dev with
        writeBufsPool := dev.writeBufsPool ++ [buf] }, none)
    | some tokens =>
        if dev.doFlowControl = true ∧ tokens = 0 then some ({ dev with
          writeBufsPool := dev.writeBufsPool ++ [buf] }, none)
        else some (dev.spendToken, some buf)

/-- `spice_char_device_write_buffer_release` for the client, which has to be there. -/
def writeBufferRelease (buf : WriteBuffer) : Option CharDevice :=
  dev.client.map fun _ => { dev with
    writeBufsPool := dev.writeBufsPool ++ [buf] }

end CharDevice

/-! ## The callbacks of a channel -/

/-- What a buffer is in: an array of the channel, a block of the heap, or a write buffer. -/
inductive Block
  | recvBuf
  | heap
  | writeBuf (key : Nat)
deriving DecidableEq

structure Pointer where
  block : Block
  offset : Nat
deriving DecidableEq

/-- The bytes from a pointer on to the end of its block. -/
structure Buffer where
  pointer : Pointer
  room : Nat

/-- `alloc_recv_buf`, which may return `NULL`, and `release_recv_buf` with the block that it frees.  Between the two the
channel may give the buffer to its device. -/
structure Callbacks (State : Type) where
  allocRecvBuf : State -> Nat -> Nat -> Option (State × Option Buffer)
  Between : Nat -> State -> State -> Bool -> Prop
  releaseRecvBuf : State -> Nat -> Nat -> Option Pointer -> Option (State × Option Block)

/-- What `red_peer_handle_incoming` gets for a message. -/
inductive Incoming
  | closed
  | msg (buffer : Option Buffer)

section Serve

variable {State : Type} (cb : Callbacks State)

/-- The buffer for a message; a message without bytes needs none. -/
def incoming (state : State) (type size : Nat) : Option (State × Incoming) :=
  if size = 0 then some (state, .msg none)
  else
    match cb.allocRecvBuf state type size with
    | none => none
    | some (state, none) => some (state, .closed)
    | some (state, some buffer) => some (state, .msg (some buffer))

/-- What is to be freed of a buffer: nothing that the device took, and not the array. -/
def toFree : Option Buffer -> Bool -> Option Block
  | some ⟨⟨.heap, _⟩, _⟩, false => some .heap
  | some ⟨⟨.writeBuf key, _⟩, _⟩, false => some (.writeBuf key)
  | _, _ => none

/-- The message has room in its buffer, and exactly that one is freed, or the connection is closed. -/
def Served (state : State) (type size : Nat) : Prop :=
  Exists fun next => Exists fun answer => incoming cb state type size = some (next, answer) ∧
    forall buffer, answer = .msg buffer -> (forall taken, buffer = some taken -> size ≤ taken.room) ∧
      forall later pushed, cb.Between type next later pushed -> Exists fun final =>
        cb.releaseRecvBuf later type size (buffer.map Buffer.pointer) = some (final, toFree buffer pushed)

end Serve

/-! ## The main channel -/

/-- `SPICE_AGENT_MAX_DATA_SIZE`, `MAIN_CHANNEL_RECEIVE_BUF_SIZE` and `RECEIVE_BUF_SIZE` of the inputs channel. -/
def agentMaxDataSize : Nat := 2048

def receiveBufSize : Nat := 4096 + (10 + 1) * agentMaxDataSize

/-- `SPICE_MSGC_MAIN_AGENT_DATA` and `sizeof(VDIChunkHeader)`. -/
def mainAgentData : Nat := 107

def chunkHeaderSize : Nat := 8

structure Main where
  clientAgentStarted : Bool
  base : CharDevice
  recvFromClientBuf : Option WriteBuffer
  recvFromClientBufPushed : Bool

namespace Main

/-- `reds_get_agent_data_buffer`; the header of the chunk comes before what is returned. -/
def getAgentDataBuffer (main : Main) (size : Nat) : Option (Main × Option Buffer) :=
  if main.clientAgentStarted = false then some (main, some ⟨⟨.heap, 0⟩, size⟩)
  else if main.recvFromClientBuf.isSome then none
  else
    match main.base.writeBufferGet (size + chunkHeaderSize) with
    | some (base, some buf) =>
        some ({ main with
          base := base
          recvFromClientBuf := some buf
          recvFromClientBufPushed := false },
            some ⟨⟨.writeBuf buf.key, chunkHeaderSize⟩, buf.bufSize - chunkHeaderSize⟩)
    | _ => none

def releaseAgentDataBuffer (main : Main) (pointer : Option Pointer) : Option (Main × Option Block) :=
  match main.recvFromClientBuf with
  | none => some (main, pointer.map Pointer.block)
  | some buf =>
      if pointer ≠ some ⟨.writeBuf buf.key, chunkHeaderSize⟩ then none
      else
        let left := { main with
          recvFromClientBuf := none
          recvFromClientBufPushed := false }
        if main.recvFromClientBufPushed then some (left, none)
        else
          (main.base.writeBufferRelease buf).map fun base => ({ left with
            base := base }, some (.writeBuf buf.key))

/-- The agent is not removed and attached again between the two. -/
inductive Between (type : Nat) (main : Main) : Main -> Bool -> Prop
  | kept : Between type main main false
  | pushed (isData : type = mainAgentData) (isSome : main.recvFromClientBuf ≠ none) : Between type main { main with
      recvFromClientBufPushed := true } true

/-- `main_channel_alloc_msg_rcv_buf` and `main_channel_release_msg_rcv_buf`. -/
def callbacks : Callbacks Main where
  allocRecvBuf main type size :=
    if type = mainAgentData then main.getAgentDataBuffer size else some (main, some ⟨⟨.recvBuf, 0⟩, receiveBufSize⟩)
  Between := Between
  releaseRecvBuf main type _ pointer :=
    if type = mainAgentData then main.releaseAgentDataBuffer pointer else some (main, none)

/-- Data for the agent finds no other data on its way, and if the agent was started, the device lets the client write
and the size with the header is not negative; another message is not larger than the array. -/
def Fits (main : Main) (type size : Nat) : Prop :=
  if type = mainAgentData then
    main.recvFromClientBuf = none ∧
      (0 < size -> main.clientAgentStarted = true -> main.base.Admits ∧ size + chunkHeaderSize < 2 ^ 31)
  else size ≤ receiveBufSize

end Main

/-! ## The inputs channel -/

namespace Inputs

/-- `inputs_channel_alloc_msg_rcv_buf` and `inputs_channel_release_msg_rcv_buf`. -/
def callbacks : Callbacks Unit where
  allocRecvBuf _ _ size := if size > receiveBufSize then some ((), none)
    else some ((), some ⟨⟨.recvBuf, 0⟩, receiveBufSize⟩)
  Between _ _ _ pushed := pushed = false
  releaseRecvBuf _ _ _ _ := some ((), none)

end Inputs

/-! ## The channels of devices -/

def spicevmcData : Nat := 101

structure SpiceVmc where
  chardevSt : CharDevice
  recvFromClientBuf : Option WriteBuffer

namespace SpiceVmc

/-- `spicevmc_red_channel_alloc_msg_rcv_buf`. -/
def allocRecvBuf (state : SpiceVmc) (type size : Nat) : Option (SpiceVmc × Option Buffer) :=
  if type = spicevmcData then
    if state.recvFromClientBuf.isSome then none
    else
      match state.chardevSt.writeBufferGet size with
      | some (dev, some buf) => some (⟨dev, some buf⟩, some ⟨⟨.writeBuf buf.key, 0⟩, buf.bufSize⟩)
      | _ => none
  else some (state, some ⟨⟨.heap, 0⟩, size⟩)

/-- `spicevmc_red_channel_release_msg_rcv_buf`. -/
def releaseRecvBuf (state : SpiceVmc) (type : Nat) (pointer : Option Pointer) : Option (SpiceVmc × Option Block) :=
  if type = spicevmcData then
    match state.recvFromClientBuf with
    | some buf => (state.chardevSt.writeBufferRelease buf).map fun dev => (⟨dev, none⟩, some (.writeBuf buf.key))
    | none => some (state, none)
  else some (state, pointer.map Pointer.block)

inductive Between (type : Nat) (state : SpiceVmc) : SpiceVmc -> Bool -> Prop
  | kept : Between type state state false
  | pushed (isData : type = spicevmcData) (isSome : state.recvFromClientBuf ≠ none) : Between type state { state with
      recvFromClientBuf := none } true

def callbacks : Callbacks SpiceVmc where
  allocRecvBuf := allocRecvBuf
  Between := Between
  releaseRecvBuf state type _ pointer := state.releaseRecvBuf type pointer

/-- Data finds no other data on its way, the device knows the client, and the size is not negative. -/
def Fits (state : SpiceVmc) (type size : Nat) : Prop :=
  type = spicevmcData -> state.recvFromClientBuf = none ∧ (0 < size -> state.chardevSt.Admits ∧ size < 2 ^ 31)

end SpiceVmc

/-- `SmartCardChannelClient`, with the device it is attached to. -/
structure Smartcard where
  readersNum : Nat
  smartcardState : Option CharDevice
  writeBuf : Option WriteBuffer
  msgInWriteBuf : Bool

namespace Smartcard

/-- `smartcard_channel_alloc_msg_rcv_buf`. -/
def allocRecvBuf (scc : Smartcard) (size : Nat) : Option (Smartcard × Option Buffer) :=
  match scc.smartcardState with
  | none => some ({ scc with
      msgInWriteBuf := false }, some ⟨⟨.heap, 0⟩, size⟩)
  | some st =>
      if scc.readersNum ≠ 1 ∨ scc.writeBuf.isSome then none
      else
        match st.writeBufferGet size with
        | some (st, some buf) =>
            some ({ scc with
              smartcardState := some st
              writeBuf := some buf
              msgInWriteBuf := true }, some ⟨⟨.writeBuf buf.key, 0⟩, buf.bufSize⟩)
        | _ => none

/-- `smartcard_channel_release_msg_rcv_buf`; without a device the buffer is freed. -/
def releaseRecvBuf (scc : Smartcard) (pointer : Option Pointer) : Option (Smartcard × Option Block) :=
  match scc.msgInWriteBuf, scc.writeBuf with
  | false, some _ => none
  | false, none => some (scc, pointer.map Pointer.block)
  | true, none => some (scc, none)
  | true, some buf =>
      if pointer ≠ some ⟨.writeBuf buf.key, 0⟩ then none
      else
        match scc.smartcardState with
        | none => some ({ scc with
            writeBuf := none }, some (.writeBuf buf.key))
        | some st =>
            (st.writeBufferRelease buf).map fun st => ({ scc with
              smartcardState := some st
              writeBuf := none }, some (.writeBuf buf.key))

/-- A reader may be detached, or one attached that then knows the client. -/
inductive Between (type : Nat) (scc : Smartcard) : Smartcard -> Bool -> Prop
  | kept : Between type scc scc false
  | detached : Between type scc { scc with
      smartcardState := none } false
  | attached (st : CharDevice) (known : st.client ≠ none) : Between type scc { scc with
      smartcardState := some st } false
  | pushed (isSome : scc.writeBuf ≠ none) : Between type scc { scc with
      writeBuf := none } true

def callbacks : Callbacks Smartcard where
  allocRecvBuf scc _ size := scc.allocRecvBuf size
  Between := Between
  releaseRecvBuf scc _ _ pointer := scc.releaseRecvBuf pointer

/-- The message finds no other one on its way, and if there is a reader, it is the only one, knows the client, and the
size is not negative. -/
def Fits (scc : Smartcard) (size : Nat) : Prop :=
  scc.writeBuf = none ∧ (0 < size -> forall st, scc.smartcardState = some st ->
    scc.readersNum = 1 ∧ st.Admits ∧ size < 2 ^ 31)

end Smartcard

/-! ## Which messages have room -/

namespace CharDevice

variable {dev next : CharDevice} {size : Nat} {buf : WriteBuffer}

theorem pooled_client (dev : CharDevice) :
    dev.pooled.2.client = dev.client ∧ dev.pooled.2.doFlowControl = dev.doFlowControl := by
  unfold pooled
  split <;> exact ⟨rfl, rfl⟩

/-- A buffer for a client that may write. -/
theorem writeBufferGet_of_admits (admits : dev.Admits) (small : size < 2 ^ 31) : Exists fun next => Exists fun buf =>
    dev.writeBufferGet size = some (next, some buf) ∧ next.client ≠ none ∧ size ≤ buf.bufSize := by
  rcases admits with ⟨tokens, known, token⟩
  rcases dev.pooled_client with ⟨client, flow⟩
  have asked : size % 2 ^ 32 = size := Nat.mod_eq_of_lt (by omega)
  unfold writeBufferGet
  simp only [asked]
  rw [dif_neg (Nat.not_le_of_lt small), client, known]
  dsimp only
  rw [if_neg (fun none_ => by rw [flow] at none_; exact absurd none_.2 (Nat.ne_of_gt (token none_.1)))]
  refine ⟨_, _, rfl, ?_, Nat.le_max_right _ _⟩
  unfold spendToken
  rw [client, known]
  exact Option.some_ne_none _

/-- A device that gives a buffer admits the size. -/
theorem admits_of_writeBufferGet (got : dev.writeBufferGet size = some (next, some buf)) : dev.Admits := by
  rcases dev.pooled_client with ⟨client, flow⟩
  unfold writeBufferGet at got
  dsimp only at got
  split at got
  next => contradiction
  next =>
    rw [client] at got
    cases known : dev.client with
    | none =>
        rw [known] at got
        exact absurd (congrArg Prod.snd (Option.some.inj got)) (Option.some_ne_none _).symm
    | some tokens =>
        rw [known] at got
        dsimp only at got
        split at got
        next => exact absurd (congrArg Prod.snd (Option.some.inj got)) (Option.some_ne_none _).symm
        next spent => exact ⟨tokens, known, fun flows => Nat.pos_of_ne_zero fun zero => spent ⟨flow.trans flows, zero⟩⟩

theorem writeBufferRelease_of_known (known : dev.client ≠ none) (buf : WriteBuffer) :
    Exists fun next => dev.writeBufferRelease buf = some next := by
  rcases Option.ne_none_iff_exists'.mp known with ⟨tokens, known⟩
  unfold writeBufferRelease
  rw [known]
  exact ⟨_, rfl⟩

end CharDevice

section Serve

variable {State : Type} {cb : Callbacks State} {state : State} {type size : Nat}

theorem served_zero (zero : size = 0)
    (released : forall later pushed, cb.Between type state later pushed -> Exists fun final =>
    cb.releaseRecvBuf later type size none = some (final, none)) : Served cb state type size := by
  refine ⟨state, .msg none, if_pos zero, fun buffer isBuffer => ?_⟩
  cases isBuffer
  exact ⟨fun _ isSome => absurd isSome (Option.some_ne_none _).symm, released⟩

theorem served_buffer {next : State} {buffer : Buffer} (positive : 0 < size)
    (allocated : cb.allocRecvBuf state type size = some (next, some buffer)) (room : size ≤ buffer.room)
    (released : forall later pushed, cb.Between type next later pushed -> Exists fun final =>
      cb.releaseRecvBuf later type size (some buffer.pointer) = some (final, toFree (some buffer) pushed)) :
    Served cb state type size := by
  refine ⟨next, .msg (some buffer), ?_, fun other isOther => ?_⟩
  · unfold incoming
    rw [if_neg (Nat.ne_of_gt positive), allocated]
  · cases isOther
    exact ⟨fun taken isTaken => Option.some.inj isTaken ▸ room, released⟩

/-- What a message that is served has got. -/
theorem Served.allocated (served : Served cb state type size) (positive : 0 < size) :
    Exists fun next => Exists fun answer =>
    cb.allocRecvBuf state type size = some (next, answer) ∧ forall buffer, answer = some buffer -> size ≤ buffer.room ∧
      forall later pushed, cb.Between type next later pushed -> Exists fun final =>
        cb.releaseRecvBuf later type size (some buffer.pointer) = some (final, toFree (some buffer) pushed) := by
  rcases served with ⟨next, answer, got, holds⟩
  unfold incoming at got
  rw [if_neg (Nat.ne_of_gt positive)] at got
  split at got
  next => contradiction
  next closed allocated =>
    exact ⟨_, none, allocated, fun _ isSome => absurd isSome (Option.some_ne_none _).symm⟩
  next held buffer allocated =>
    cases got
    refine ⟨_, some buffer, allocated, fun other isOther => ?_⟩
    cases isOther
    exact ⟨(holds _ rfl).1 _ rfl, (holds _ rfl).2⟩

theorem Served.zero (served : Served cb state type 0) : forall later pushed, cb.Between type state later pushed ->
    Exists fun final =>
    cb.releaseRecvBuf later type 0 none = some (final, none) := by
  rcases served with ⟨next, answer, got, holds⟩
  unfold incoming at got
  rw [if_pos rfl] at got
  cases got
  exact (holds none rfl).2

end Serve

namespace Main

variable {main : Main} {type size : Nat}

theorem release_of_none (empty : main.recvFromClientBuf = none) (pointer : Option Pointer) :
    main.releaseAgentDataBuffer pointer = some (main, pointer.map Pointer.block) := by
  unfold releaseAgentDataBuffer
  rw [empty]

/-- Only the buffer that is remembered may be given back. -/
theorem eq_of_release {buf : WriteBuffer} (held : main.recvFromClientBuf = some buf) {pointer : Option Pointer}
    {answer : Main × Option Block}
    (released : main.releaseAgentDataBuffer pointer = some answer) :
    pointer = some ⟨.writeBuf buf.key, chunkHeaderSize⟩ := by
  unfold releaseAgentDataBuffer at released
  rw [held] at released
  by_contra different
  dsimp only at released
  rw [if_pos different] at released
  contradiction

/-- A buffer of the device comes back from where it went. -/
theorem released_of_taken (isData : type = mainAgentData) {buf : WriteBuffer}
    (taken : main.recvFromClientBuf = some buf)
    (pushed_ : main.recvFromClientBufPushed = false) (known : main.base.client ≠ none) (later : Main) (pushed : Bool)
    (between : Between type main later pushed) : Exists fun final =>
      callbacks.releaseRecvBuf later type size (some ⟨.writeBuf buf.key, chunkHeaderSize⟩) =
        some (final, toFree (some ⟨⟨.writeBuf buf.key, chunkHeaderSize⟩, buf.bufSize - chunkHeaderSize⟩) pushed) := by
  have released : callbacks.releaseRecvBuf later type size = later.releaseAgentDataBuffer :=
    funext fun _ => if_pos isData
  rw [released]
  unfold releaseAgentDataBuffer
  cases between with
  | kept =>
      rcases CharDevice.writeBufferRelease_of_known known buf with ⟨base, isReleased⟩
      rw [taken, pushed_]
      dsimp only
      rw [if_neg (not_not.mpr rfl), if_neg Bool.false_ne_true, isReleased]
      exact ⟨_, rfl⟩
  | pushed =>
      dsimp only
      rw [taken]
      dsimp only
      rw [if_neg (not_not.mpr rfl), if_pos rfl]
      exact ⟨_, rfl⟩

theorem alloc_started (isData : type = mainAgentData) (empty : main.recvFromClientBuf = none)
    (started : main.clientAgentStarted = true)
    {base : CharDevice} {buf : WriteBuffer}
    (got : main.base.writeBufferGet (size + chunkHeaderSize) = some (base, some buf)) :
    callbacks.allocRecvBuf main type size = some (⟨true, base, some buf, false⟩,
      some ⟨⟨.writeBuf buf.key, chunkHeaderSize⟩, buf.bufSize - chunkHeaderSize⟩) := by
  refine (if_pos isData).trans ?_
  unfold getAgentDataBuffer
  rw [if_neg (ne_false_of_eq_true started), empty, if_neg (by decide), got, started]

/-- The buffer is the device's, and is remembered. -/
theorem eq_of_alloc (isData : type = mainAgentData) (started : main.clientAgentStarted = true) {next : Main}
    {answer : Option Buffer}
    (allocated : callbacks.allocRecvBuf main type size = some (next, answer)) : main.recvFromClientBuf = none ∧
      Exists fun base => Exists fun buf => main.base.writeBufferGet (size + chunkHeaderSize) = some (base, some buf) ∧
        answer = some ⟨⟨.writeBuf buf.key, chunkHeaderSize⟩, buf.bufSize - chunkHeaderSize⟩ := by
  have allocated := (if_pos isData).symm.trans allocated
  unfold getAgentDataBuffer at allocated
  rw [if_neg (ne_false_of_eq_true started)] at allocated
  split at allocated
  next => contradiction
  next empty =>
    split at allocated
    next base buf got =>
      cases allocated
      exact ⟨by simpa using empty, base, buf, got, rfl⟩
    next => contradiction

theorem alloc_heap (isData : type = mainAgentData) (started : main.clientAgentStarted = false) :
    callbacks.allocRecvBuf main type size = some (main, some ⟨⟨.heap, 0⟩, size⟩) :=
  (if_pos isData).trans (if_pos started)

/-- Without a buffer nothing is released. -/
theorem released_of_none (isData : type = mainAgentData) (empty : main.recvFromClientBuf = none)
    (buffer : Option Buffer)
    (isHeap : forall held, buffer = some held -> held.pointer.block = .heap) (later : Main) (pushed : Bool)
    (between : Between type main later pushed) : Exists fun final =>
      callbacks.releaseRecvBuf later type size (buffer.map Buffer.pointer) = some (final, toFree buffer pushed) := by
  cases between with
  | kept =>
      refine ⟨main, (if_pos isData).trans ((release_of_none empty _).trans ?_)⟩
      cases buffer with
      | none => rfl
      | some held =>
          rcases held with ⟨⟨block, offset⟩, room⟩
          cases isHeap _ rfl
          rfl
  | pushed _ isSome => exact absurd empty isSome

/-- Under the condition a message of the main channel is served. -/
theorem served_of_fits (fits : main.Fits type size) : Served callbacks main type size := by
  unfold Fits at fits
  split at fits
  next isData =>
    rcases fits with ⟨empty, admitted⟩
    rcases Nat.eq_zero_or_pos size with zero | positive
    · exact served_zero zero (released_of_none isData empty none fun _ isSome =>
        absurd isSome (Option.some_ne_none _).symm)
    · cases started : main.clientAgentStarted with
      | false =>
          refine served_buffer positive (alloc_heap isData started) le_rfl
            (released_of_none isData empty (some ⟨⟨.heap, 0⟩, size⟩) fun held isHeld => ?_)
          cases isHeld
          rfl
      | true =>
          rcases admitted positive started with ⟨admits, small⟩
          rcases CharDevice.writeBufferGet_of_admits admits small with ⟨base, buf, got, known, room⟩
          exact served_buffer positive (alloc_started isData empty started got) (Nat.le_sub_of_add_le room)
            (@released_of_taken ⟨true, base, some buf, false⟩ type size isData buf rfl rfl known)
  next other =>
    rcases Nat.eq_zero_or_pos size with zero | positive
    · exact served_zero zero fun later pushed _ => ⟨later, if_neg other⟩
    · exact served_buffer positive (if_neg other) fits fun later pushed _ => ⟨later, if_neg other⟩

/-- A message of the main channel that is served meets the condition. -/
theorem fits_of_served (served : Served callbacks main type size) : main.Fits type size := by
  unfold Fits
  split
  next isData =>
    have empty : main.recvFromClientBuf = none := by
      by_contra isSome
      rcases Option.ne_none_iff_exists'.mp isSome with ⟨buf, held⟩
      rcases Nat.eq_zero_or_pos size with rfl | positive
      · rcases served.zero main false .kept with ⟨final, released⟩
        exact absurd (eq_of_release held ((if_pos isData).symm.trans released)) (Option.some_ne_none _).symm
      · rcases served.allocated positive with ⟨next, answer, allocated, holds⟩
        cases started : main.clientAgentStarted with
        | false =>
            cases (alloc_heap isData started).symm.trans allocated
            rcases (holds _ rfl).2 main false .kept with ⟨final, released⟩
            have same := eq_of_release held ((if_pos isData).symm.trans released)
            cases same
        | true =>
            rcases eq_of_alloc isData started allocated with ⟨empty, _⟩
            exact isSome empty
    refine ⟨empty, fun positive started => ?_⟩
    rcases served.allocated positive with ⟨next, answer, allocated, holds⟩
    rcases eq_of_alloc isData started allocated with ⟨_, base, buf, got, rfl⟩
    have room : size ≤ buf.bufSize - chunkHeaderSize := (holds _ rfl).1
    have small := buf.small
    exact ⟨CharDevice.admits_of_writeBufferGet got, by omega⟩
  next other =>
    rcases Nat.eq_zero_or_pos size with zero | positive
    · exact zero ▸ Nat.zero_le _
    · rcases served.allocated positive with ⟨next, answer, allocated, holds⟩
      cases (if_neg other).symm.trans allocated
      exact (holds _ rfl).1

end Main

namespace SpiceVmc

variable {state : SpiceVmc} {type size : Nat}

theorem released_of_taken (isData : type = spicevmcData) {buf : WriteBuffer}
    (taken : state.recvFromClientBuf = some buf)
    (known : state.chardevSt.client ≠ none) (later : SpiceVmc) (pushed : Bool)
    (between : Between type state later pushed) :
    Exists fun final => callbacks.releaseRecvBuf later type size (some ⟨.writeBuf buf.key, 0⟩) =
      some (final, toFree (some ⟨⟨.writeBuf buf.key, 0⟩, buf.bufSize⟩) pushed) := by
  have released : callbacks.releaseRecvBuf later type size = later.releaseRecvBuf type := rfl
  rw [released]
  unfold releaseRecvBuf
  rw [if_pos isData]
  cases between with
  | kept =>
      rcases CharDevice.writeBufferRelease_of_known known buf with ⟨dev, isReleased⟩
      rw [taken]
      dsimp only
      rw [isReleased]
      exact ⟨_, rfl⟩
  | pushed => exact ⟨_, rfl⟩

theorem eq_of_alloc (isData : type = spicevmcData) {next : SpiceVmc} {answer : Option Buffer}
    (allocated : callbacks.allocRecvBuf state type size = some (next, answer)) : state.recvFromClientBuf = none ∧
      Exists fun dev => Exists fun buf => state.chardevSt.writeBufferGet size = some (dev, some buf) ∧
        answer = some ⟨⟨.writeBuf buf.key, 0⟩, buf.bufSize⟩ := by
  have allocated := (if_pos isData).symm.trans allocated
  split at allocated
  next => contradiction
  next empty =>
    split at allocated
    next dev buf got =>
      cases allocated
      exact ⟨by simpa using empty, dev, buf, got, rfl⟩
    next => contradiction

theorem alloc_data (isData : type = spicevmcData) (empty : state.recvFromClientBuf = none) {dev : CharDevice}
    {buf : WriteBuffer}
    (got : state.chardevSt.writeBufferGet size = some (dev, some buf)) :
    callbacks.allocRecvBuf state type size = some (⟨dev, some buf⟩, some ⟨⟨.writeBuf buf.key, 0⟩, buf.bufSize⟩) := by
  refine (if_pos isData).trans ?_
  rw [empty, if_neg (by decide), got]

/-- Under the condition a message of spicevmc is served. -/
theorem served_of_fits (fits : state.Fits type size) : Served callbacks state type size := by
  by_cases isData : type = spicevmcData
  · rcases fits isData with ⟨empty, admitted⟩
    rcases Nat.eq_zero_or_pos size with zero | positive
    · refine served_zero zero fun later pushed between => ?_
      cases between with
      | kept =>
          refine ⟨state, (if_pos isData).trans ?_⟩
          rw [empty]
      | pushed _ isSome => exact absurd empty isSome
    · rcases admitted positive with ⟨admits, small⟩
      rcases CharDevice.writeBufferGet_of_admits admits small with ⟨dev, buf, got, known, room⟩
      exact served_buffer positive (alloc_data isData empty got) room
        (@released_of_taken ⟨dev, some buf⟩ type size isData buf rfl known)
  · have released : forall (later : SpiceVmc) (pointer : Option Pointer),
        callbacks.releaseRecvBuf later type size pointer = some (later, pointer.map Pointer.block) :=
          fun _ _ => if_neg isData
    rcases Nat.eq_zero_or_pos size with zero | positive
    · exact served_zero zero fun later pushed _ => ⟨later, released later none⟩
    · refine served_buffer positive (if_neg isData) le_rfl fun later pushed between =>
        ⟨later, (released later _).trans ?_⟩
      cases between with
      | kept => rfl
      | pushed isOther => exact absurd isOther isData

/-- A message of spicevmc that is served meets the condition. -/
theorem fits_of_served (served : Served callbacks state type size) : state.Fits type size := by
  intro isData
  rcases Nat.eq_zero_or_pos size with rfl | positive
  · refine ⟨?_, fun positive => absurd positive (Nat.lt_irrefl 0)⟩
    by_contra isSome
    rcases Option.ne_none_iff_exists'.mp isSome with ⟨buf, held⟩
    rcases served.zero state false .kept with ⟨final, released⟩
    have released := (if_pos isData).symm.trans released
    rw [held] at released
    rcases Option.map_eq_some_iff.mp released with ⟨dev, _, same⟩
    exact absurd (congrArg Prod.snd same) (Option.some_ne_none _)
  · rcases served.allocated positive with ⟨next, answer, allocated, holds⟩
    rcases eq_of_alloc isData allocated with ⟨empty, dev, buf, got, rfl⟩
    have room : size ≤ buf.bufSize := (holds _ rfl).1
    exact ⟨empty, fun _ => ⟨CharDevice.admits_of_writeBufferGet got, Nat.lt_of_le_of_lt room buf.small⟩⟩

end SpiceVmc

namespace Smartcard

variable {scc : Smartcard} {type size : Nat}

theorem release_of_none (empty : scc.writeBuf = none) (heap : scc.msgInWriteBuf = false) (pointer : Option Pointer) :
    scc.releaseRecvBuf pointer = some (scc, pointer.map Pointer.block) := by
  unfold releaseRecvBuf
  rw [empty, heap]

theorem release_empty (empty : scc.writeBuf = none) : scc.releaseRecvBuf none = some (scc, none) := by
  unfold releaseRecvBuf
  rw [empty]
  cases scc.msgInWriteBuf <;> rfl

/-- What is remembered is what is given back, to the device there is. -/
theorem release_of_some {buf : WriteBuffer} (held : scc.writeBuf = some buf) (inBuf : scc.msgInWriteBuf = true)
    (known : forall st, scc.smartcardState = some st -> st.client ≠ none) : Exists fun final =>
      scc.releaseRecvBuf (some ⟨.writeBuf buf.key, 0⟩) = some (final, some (.writeBuf buf.key)) := by
  unfold releaseRecvBuf
  rw [held, inBuf]
  dsimp only
  rw [if_neg (not_not.mpr rfl)]
  cases attached : scc.smartcardState with
  | none => exact ⟨_, rfl⟩
  | some st =>
      rcases CharDevice.writeBufferRelease_of_known (known st attached) buf with ⟨released, isReleased⟩
      dsimp only
      rw [isReleased]
      exact ⟨_, rfl⟩

theorem alloc_heap (detached : scc.smartcardState = none) : callbacks.allocRecvBuf scc type size = some ({ scc with
    msgInWriteBuf := false }, some ⟨⟨.heap, 0⟩, size⟩) := by
  change scc.allocRecvBuf size = _
  unfold allocRecvBuf
  rw [detached]

theorem alloc_attached {st dev : CharDevice} {buf : WriteBuffer} (attached : scc.smartcardState = some st)
    (one : scc.readersNum = 1)
    (empty : scc.writeBuf = none) (got : st.writeBufferGet size = some (dev, some buf)) :
    callbacks.allocRecvBuf scc type size =
      some (⟨scc.readersNum, some dev, some buf, true⟩, some ⟨⟨.writeBuf buf.key, 0⟩, buf.bufSize⟩) := by
  change scc.allocRecvBuf size = _
  unfold allocRecvBuf
  rw [attached]
  dsimp only
  rw [empty, if_neg (by simp [one]), got]

theorem eq_of_alloc {st : CharDevice} (attached : scc.smartcardState = some st) {next : Smartcard}
    {answer : Option Buffer}
    (allocated : callbacks.allocRecvBuf scc type size = some (next, answer)) :
    scc.readersNum = 1 ∧ scc.writeBuf = none ∧
      Exists fun dev => Exists fun buf => st.writeBufferGet size = some (dev, some buf) ∧
        answer = some ⟨⟨.writeBuf buf.key, 0⟩, buf.bufSize⟩ := by
  change scc.allocRecvBuf size = _ at allocated
  unfold allocRecvBuf at allocated
  rw [attached] at allocated
  dsimp only at allocated
  split at allocated
  next => contradiction
  next free =>
    rcases not_or.mp free with ⟨one, empty⟩
    split at allocated
    next dev buf got =>
      cases allocated
      exact ⟨not_not.mp one, by simpa using empty, dev, buf, got, rfl⟩
    next => contradiction

/-- Under the condition a message of a smartcard is served. -/
theorem served_of_fits (fits : scc.Fits size) : Served callbacks scc type size := by
  rcases fits with ⟨empty, admitted⟩
  rcases Nat.eq_zero_or_pos size with zero | positive
  · refine served_zero zero fun later pushed between => ?_
    cases between with
    | kept => exact ⟨_, release_empty empty⟩
    | detached => exact ⟨_, @release_empty ⟨scc.readersNum, none, scc.writeBuf, scc.msgInWriteBuf⟩ empty⟩
    | attached st => exact ⟨_, @release_empty ⟨scc.readersNum, some st, scc.writeBuf, scc.msgInWriteBuf⟩ empty⟩
    | pushed isSome => exact absurd empty isSome
  · cases attached : scc.smartcardState with
    | none =>
        refine served_buffer positive (alloc_heap attached) le_rfl fun later pushed between => ?_
        cases between with
        | kept => exact ⟨_, @release_of_none ⟨scc.readersNum, scc.smartcardState, scc.writeBuf, false⟩ empty rfl _⟩
        | detached => exact ⟨_, @release_of_none ⟨scc.readersNum, none, scc.writeBuf, false⟩ empty rfl _⟩
        | attached st => exact ⟨_, @release_of_none ⟨scc.readersNum, some st, scc.writeBuf, false⟩ empty rfl _⟩
        | pushed isSome => exact absurd empty isSome
    | some st =>
        rcases admitted positive st attached with ⟨one, admits, small⟩
        rcases CharDevice.writeBufferGet_of_admits admits small with ⟨dev, buf, got, known, room⟩
        refine served_buffer positive (alloc_attached attached one empty got) room fun later pushed between => ?_
        cases between with
        | kept =>
            exact @release_of_some ⟨scc.readersNum, some dev, some buf, true⟩ buf rfl rfl fun _ isDev =>
              Option.some.inj isDev ▸ known
        | detached =>
            exact @release_of_some ⟨scc.readersNum, none, some buf, true⟩ buf rfl rfl fun _ isDev =>
              absurd isDev (Option.some_ne_none _).symm
        | attached st other =>
            exact @release_of_some ⟨scc.readersNum, some st, some buf, true⟩ buf rfl rfl fun _ isDev =>
              Option.some.inj isDev ▸ other
        | pushed => exact ⟨_, rfl⟩

/-- A message of a smartcard that is served meets the condition. -/
theorem fits_of_served (served : Served callbacks scc type size) : scc.Fits size := by
  have empty : scc.writeBuf = none := by
    by_contra isSome
    rcases Option.ne_none_iff_exists'.mp isSome with ⟨buf, held⟩
    rcases Nat.eq_zero_or_pos size with rfl | positive
    · rcases served.zero scc false .kept with ⟨final, released⟩
      change scc.releaseRecvBuf none = _ at released
      unfold releaseRecvBuf at released
      rw [held] at released
      cases inBuf : scc.msgInWriteBuf with
      | false =>
          rw [inBuf] at released
          contradiction
      | true =>
          rw [inBuf] at released
          dsimp only at released
          rw [if_pos (Option.some_ne_none _).symm] at released
          contradiction
    · rcases served.allocated positive with ⟨next, answer, allocated, holds⟩
      cases attached : scc.smartcardState with
      | none =>
          cases (alloc_heap attached).symm.trans allocated
          rcases (holds _ rfl).2 _ false .kept with ⟨final, released⟩
          change ({ scc with
            msgInWriteBuf := false } : Smartcard).releaseRecvBuf _ = _ at released
          unfold releaseRecvBuf at released
          dsimp only at released
          rw [held] at released
          contradiction
      | some st => exact isSome (eq_of_alloc attached allocated).2.1
  refine ⟨empty, fun positive st attached => ?_⟩
  rcases served.allocated positive with ⟨next, answer, allocated, holds⟩
  rcases eq_of_alloc attached allocated with ⟨one, _, dev, buf, got, rfl⟩
  have room : size ≤ buf.bufSize := (holds _ rfl).1
  exact ⟨one, CharDevice.admits_of_writeBufferGet got, Nat.lt_of_le_of_lt room buf.small⟩

end Smartcard

/-! ## Every channel -/

/-- A channel of a client, in some state. -/
inductive Receiver
  | main (state : Main)
  | inputs
  | spicevmc (state : SpiceVmc)
  | smartcard (state : Smartcard)

namespace Receiver

/-- A message of a type and a size is received safely. -/
def Serves (type size : Nat) : Receiver -> Prop
  | .main state => Served Main.callbacks state type size
  | .inputs => Served Inputs.callbacks () type size
  | .spicevmc state => Served SpiceVmc.callbacks state type size
  | .smartcard state => Served Smartcard.callbacks state type size

def Fits (type size : Nat) : Receiver -> Prop
  | .main state => state.Fits type size
  | .inputs => True
  | .spicevmc state => state.Fits type size
  | .smartcard state => state.Fits size

end Receiver

/-- The inputs channel has room, or refuses. -/
theorem inputs_served (type size : Nat) : Served Inputs.callbacks () type size := by
  rcases Nat.eq_zero_or_pos size with zero | positive
  · exact served_zero zero fun _ _ _ => ⟨(), rfl⟩
  · by_cases large : size > receiveBufSize
    · refine ⟨(), .closed, ?_, fun _ isMsg => by cases isMsg⟩
      have refused : Inputs.callbacks.allocRecvBuf () type size = some ((), none) := if_pos large
      unfold incoming
      rw [if_neg (Nat.ne_of_gt positive), refused]
    · exact served_buffer positive (if_neg large) (Nat.le_of_not_lt large) fun _ _ _ => ⟨(), rfl⟩

/-- A message has room exactly if it fits into what its channel has for it. -/
theorem receive_buffers_iff (receiver : Receiver) (type size : Nat) :
    receiver.Serves type size <-> receiver.Fits type size := by
  cases receiver with
  | main state => exact ⟨Main.fits_of_served, Main.served_of_fits⟩
  | inputs => exact iff_of_true (inputs_served type size) trivial
  | spicevmc state => exact ⟨SpiceVmc.fits_of_served, SpiceVmc.served_of_fits⟩
  | smartcard state => exact ⟨Smartcard.fits_of_served, Smartcard.served_of_fits⟩

/-- The header of a message of the main channel that is larger than the array. -/
theorem large_message_without_room :
    ¬ Receiver.Serves 105 (2 ^ 32 - 1) (.main ⟨false, ⟨none, false, [], 0⟩, none, false⟩) := by
  rintro ⟨next, answer, got, holds⟩
  cases got
  exact absurd ((holds _ rfl).1 _ rfl) (by decide)

end ReceiveBuffers
end Channel
end Spice
