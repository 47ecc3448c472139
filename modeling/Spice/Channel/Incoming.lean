import Spice.Lib.Bytes

namespace Spice
namespace Channel

open Lib

/-!
# Incoming messages

`red_peer_handle_incoming` is called whenever the socket has data.  It reads a
header, then as many bytes as the header announces, and hands them to the
channel.  A read may bring any part of what was asked for; the handler then
remembers how far it got and goes on at the next call.

The callbacks of the channel are parameters.  Their answers may depend on
everything they were asked before, and the record of these calls is what the
model observes.  A callback may shut the stream down, or disconnect the client
and thereby free the stream.
-/

/-- The two forms of `SpiceDataHeaderOpaque`. -/
inductive DataHeader
  | full
  | mini
  deriving DecidableEq, Repr

namespace DataHeader

/-- `header_size`: serial, type, size and sub-list, or only type and size. -/
def headerSize : DataHeader -> Nat
  | .full => 18
  | .mini => 6

def getMsgType (header : DataHeader) (data : List UInt8) : Nat :=
  match header with
  | .full => littleEndian ((data.drop 8).take 2)
  | .mini => littleEndian (data.take 2)

def getMsgSize (header : DataHeader) (data : List UInt8) : Nat :=
  match header with
  | .full => littleEndian ((data.drop 10).take 4)
  | .mini => littleEndian ((data.drop 2).take 4)

theorem headerSize_pos (header : DataHeader) : 0 < header.headerSize := by
  cases header <;> decide

theorem headerSize_le (header : DataHeader) : header.headerSize ≤ 18 := by
  cases header <;> decide

theorem getMsgSize_lt (header : DataHeader) (data : List UInt8) : header.getMsgSize data < 2 ^ 32 := by
  have field : forall bytes : List UInt8, bytes.length ≤ 4 -> littleEndian bytes < 2 ^ 32 := by
    intro bytes short
    calc littleEndian bytes < 256 ^ bytes.length := littleEndian_lt bytes
      _ ≤ 256 ^ 4 := Nat.pow_le_pow_right (by decide) short
      _ = 2 ^ 32 := by decide
  cases header <;> exact field _ (List.length_take_le _ _)

end DataHeader

/-- What the next reads of the socket bring: bytes (never none), `EAGAIN`,
`EINTR`, the end of the stream, or another error. -/
inductive Read
  | chunk (head : UInt8) (tail : List UInt8)
  | again
  | intr
  | eof
  | failed
  deriving DecidableEq, Repr

/-- `RedsStream`.  Behind the listed reads the socket has no data. -/
structure RedsStream where
  shutdown : Bool
  reads : List Read
  deriving DecidableEq, Repr

/-- The loop of `red_peer_receive`: the bytes, unless a read fails, and the
reads that are left.  What does not fit stays in the socket. -/
def receiveLoop : List Read -> Nat -> Option (List UInt8) × List Read
  | reads, 0 => (some [], reads)
  | [], _ + 1 => (some [], [])
  | .again :: rest, _ + 1 => (some [], rest)
  | .intr :: rest, size + 1 => receiveLoop rest (size + 1)
  | .eof :: rest, _ + 1 => (none, rest)
  | .failed :: rest, _ + 1 => (none, rest)
  | .chunk head tail :: rest, size + 1 =>
      match tail.drop size with
      | [] =>
          let received := receiveLoop rest (size - tail.length)
          (received.1.map (fun bytes => head :: (tail ++ bytes)), received.2)
      | next :: others => (some (head :: tail.take size), .chunk next others :: rest)

/-- A byte count as an `int`. -/
def toInt (count : Nat) : Int :=
  if count % 2 ^ 32 < 2 ^ 31 then (count % 2 ^ 32 : Nat) else (count % 2 ^ 32 : Nat) - 2 ^ 32

/-- Adding an `int` to an unsigned position. -/
def advance (pos : Nat) (count : Int) : Nat := ((pos + count) % 2 ^ 32).toNat

/-- `red_peer_receive`: the result, the bytes stored, and the stream. -/
def redPeerReceive (stream : RedsStream) (size : Nat) : Int × List UInt8 × RedsStream :=
  if size ≠ 0 ∧ stream.shutdown then (-1, [], stream)
  else
    match receiveLoop stream.reads size with
    | (none, rest) => (-1, [], { stream with reads := rest })
    | (some bytes, rest) => (toInt bytes.length, bytes, { stream with reads := rest })

inductive StreamFate
  | kept
  | shutdown
  | freed
  deriving DecidableEq, Repr

/-- The answer of `handle_message` or `handle_parsed`. -/
structure Handled where
  ret : Bool
  stream : StreamFate
  deriving DecidableEq, Repr

/-- A call of a callback of the channel. -/
inductive Event (Parsed : Type)
  | alloc (type size : Nat)
  | message (type : Nat) (payload : List UInt8)
  | parsed (type : Nat) (msg : Parsed)
  | release (type size : Nat)
  | error

variable {Parsed : Type}

/-- `IncomingHandlerInterface`.  A buffer has whatever contents it was found with. -/
structure IncomingHandlerInterface (Parsed : Type) where
  allocMsgBuf : List (Event Parsed) -> Nat -> Nat -> Option (List UInt8)
  parser : Option (List UInt8 -> Nat -> Option Parsed)
  handleParsed : List (Event Parsed) -> Nat -> Parsed -> Handled
  handleMessage : List (Event Parsed) -> Nat -> List UInt8 -> Handled

/-- Hand a message to the parser and to the channel; nothing if it does not parse. -/
def IncomingHandlerInterface.deliver (cb : IncomingHandlerInterface Parsed) (trace : List (Event Parsed)) (type : Nat)
    (payload : List UInt8) : Option (Event Parsed × Handled) :=
  match cb.parser with
  | some parser =>
      (parser payload type).map (fun msg => (.parsed type msg, cb.handleParsed trace type msg))
  | none => some (.message type payload, cb.handleMessage trace type payload)

structure IncomingHandler where
  headerBuf : List UInt8
  headerPos : Nat
  msg : Option (List UInt8)
  msgPos : Nat

def IncomingHandler.Initial (handler : IncomingHandler) : Prop :=
  handler.headerPos = 0 ∧ handler.msg = none ∧ handler.msgPos = 0

instance (handler : IncomingHandler) : Decidable handler.Initial :=
  inferInstanceAs (Decidable (_ ∧ _ ∧ _))

/-- The part of `RedChannelClient` that receives, the calls of its callbacks,
and whether a freed stream was used. -/
structure RedChannelClient (Parsed : Type) where
  stream : Option RedsStream
  incoming : IncomingHandler
  trace : List (Event Parsed)
  dangling : Bool

def store (buf : List UInt8) (pos : Nat) (bytes : List UInt8) : List UInt8 :=
  buf.take pos ++ bytes ++ buf.drop (pos + bytes.length)

namespace RedChannelClient

variable (header : DataHeader) (cb : IncomingHandlerInterface Parsed) (rcc : RedChannelClient Parsed)

def ask (events : List (Event Parsed)) : RedChannelClient Parsed := { rcc with trace := rcc.trace ++ events }

/-- `on_error` disconnects the client. -/
def onError : RedChannelClient Parsed := { rcc.ask [.error] with stream := none }

/-- The first part of a round of `red_peer_handle_incoming`.  An error of
`Except` is a `return`. -/
def readHeader : Except (RedChannelClient Parsed) (RedChannelClient Parsed) :=
  if rcc.incoming.headerPos < header.headerSize then
    match rcc.stream with
    | none => .error { rcc with dangling := true }
    | some stream =>
        let (bytesRead, bytes, stream) := redPeerReceive stream (header.headerSize - rcc.incoming.headerPos)
        if bytesRead = -1 then .error { rcc with stream := some stream }.onError
        else
          let rcc := { rcc with
            stream := some stream
            incoming := { rcc.incoming with
              headerBuf := store rcc.incoming.headerBuf rcc.incoming.headerPos bytes
              headerPos := advance rcc.incoming.headerPos bytesRead } }
          if rcc.incoming.headerPos ≠ header.headerSize then .error rcc else .ok rcc
  else .ok rcc

/-- Ask for a buffer unless there is one. -/
def allocMsg (type size : Nat) : Except (RedChannelClient Parsed) (RedChannelClient Parsed) :=
  match rcc.incoming.msg with
  | some _ => .ok rcc
  | none =>
      match cb.allocMsgBuf rcc.trace type size with
      | none => .error (rcc.ask [.alloc type size]).onError
      | some buf => .ok { rcc.ask [.alloc type size] with incoming := { rcc.incoming with msg := some buf } }

def receiveMsg (type size : Nat) : Except (RedChannelClient Parsed) (RedChannelClient Parsed) :=
  match rcc.stream with
  | none => .error { rcc with dangling := true }
  | some stream =>
      let (bytesRead, bytes, stream) := redPeerReceive stream (size - rcc.incoming.msgPos)
      if bytesRead = -1 then .error ({ rcc with stream := some stream }.ask [.release type size]).onError
      else
        let rcc := { rcc with
          stream := some stream
          incoming := { rcc.incoming with
            msg := rcc.incoming.msg.map (fun buf => store buf rcc.incoming.msgPos bytes)
            msgPos := advance rcc.incoming.msgPos bytesRead } }
        if rcc.incoming.msgPos ≠ size then .error rcc else .ok rcc

/-- The second part of a round: the bytes behind the header. -/
def readMsg (type size : Nat) : Except (RedChannelClient Parsed) (RedChannelClient Parsed) :=
  if rcc.incoming.msgPos < size then do
    let rcc <- rcc.allocMsg cb type size
    rcc.receiveMsg type size
  else .ok rcc

/-- What the callback did to the stream. -/
def meet (fate : StreamFate) : RedChannelClient Parsed :=
  match fate with
  | .kept => rcc
  | .shutdown => { rcc with stream := rcc.stream.map (fun stream => { stream with shutdown := true }) }
  | .freed => { rcc with stream := none }

/-- The third part of a round: the complete message. -/
def handleMsg (type size : Nat) : Except (RedChannelClient Parsed) (RedChannelClient Parsed) :=
  match cb.deliver rcc.trace type ((rcc.incoming.msg.getD []).take size) with
  | none => .error (rcc.ask [.release type size]).onError
  | some (event, handled) =>
      let rcc := (rcc.ask [event]).meet handled.stream
      let rcc := { rcc.ask [.release type size] with
        incoming := { rcc.incoming with msgPos := 0, msg := none, headerPos := 0 } }
      if handled.ret then .ok rcc else .error rcc.onError

/-- One round of `red_peer_handle_incoming`. -/
def incomingRound : Except (RedChannelClient Parsed) (RedChannelClient Parsed) := do
  let rcc <- rcc.readHeader header
  let size := header.getMsgSize rcc.incoming.headerBuf
  let type := header.getMsgType rcc.incoming.headerBuf
  let rcc <- rcc.readMsg cb type size
  rcc.handleMsg cb type size

/-- The rounds of `red_peer_handle_incoming`. -/
def incomingLoop : Nat -> RedChannelClient Parsed -> Option (RedChannelClient Parsed)
  | 0, _ => none
  | rounds + 1, rcc =>
      match rcc.incomingRound header cb with
      | .error rcc => some rcc
      | .ok rcc => incomingLoop rounds rcc

end RedChannelClient

/-- How many bytes the reads bring. -/
def byteCount : List Read -> Nat
  | [] => 0
  | .chunk _ tail :: rest => tail.length + 1 + byteCount rest
  | _ :: rest => byteCount rest

namespace RedChannelClient

variable (header : DataHeader) (cb : IncomingHandlerInterface Parsed)

/-- `red_peer_handle_incoming`.  Every round but the last reads at least one
byte, which bounds the rounds. -/
def redPeerHandleIncoming (rcc : RedChannelClient Parsed) : Option (RedChannelClient Parsed) :=
  match rcc.stream with
  | none => some rcc
  | some stream => incomingLoop header cb (byteCount stream.reads + 1) rcc

/-- The socket is reported readable a number of times. -/
def receives : Nat -> RedChannelClient Parsed -> Option (RedChannelClient Parsed)
  | 0, rcc => some rcc
  | calls + 1, rcc => (rcc.redPeerHandleIncoming header cb).bind (receives calls)

/-- A new client; the header buffer is not initialised. -/
def create (headerBuf : List UInt8) (reads : List Read) : RedChannelClient Parsed where
  stream := some { shutdown := false, reads := reads }
  incoming := { headerBuf := headerBuf, headerPos := 0, msg := none, msgPos := 0 }
  trace := []
  dangling := false

end RedChannelClient

/-- How a stream of bytes ends: more bytes are needed, the client was
disconnected, or the stream was freed under the reader. -/
inductive Ending
  | waiting
  | stopped
  | dangling
  deriving DecidableEq, Repr

section Whole

variable (header : DataHeader) (cb : IncomingHandlerInterface Parsed) (closed : Bool)

/-- The bytes do not suffice; if the stream is closed this is an error. -/
def starve (trace cleanup : List (Event Parsed)) : List (Event Parsed) × Ending :=
  if closed then (trace ++ cleanup ++ [.error], .stopped) else (trace, .waiting)

/-- A complete message, and then the rest of the stream. -/
def parseMessage (rest : List (Event Parsed) -> List (Event Parsed) × Ending) (trace : List (Event Parsed)) (type : Nat)
    (payload : List UInt8) : List (Event Parsed) × Ending :=
  match cb.deliver trace type payload with
  | none => (trace ++ [.release type payload.length, .error], .stopped)
  | some (event, handled) =>
      let trace := trace ++ [event, .release type payload.length]
      if handled.ret then
        match handled.stream with
        | .kept => rest trace
        | .shutdown => (trace ++ [.error], .stopped)
        | .freed => (trace, .dangling)
      else (trace ++ [.error], .stopped)

/-- A message: header, buffer, bytes. -/
def parseOne (rest : List (Event Parsed) -> List UInt8 -> List (Event Parsed) × Ending) (trace : List (Event Parsed))
    (bytes : List UInt8) : List (Event Parsed) × Ending :=
  if bytes.length < header.headerSize then starve closed trace []
  else
    let type := header.getMsgType bytes
    let size := header.getMsgSize bytes
    let body := bytes.drop header.headerSize
    if size = 0 then parseMessage cb (fun trace => rest trace body) trace type []
    else
      match cb.allocMsgBuf trace type size with
      | none => (trace ++ [.alloc type size, .error], .stopped)
      | some _ =>
          let trace := trace ++ [.alloc type size]
          if body.length < size then starve closed trace [.release type size]
          else parseMessage cb (fun trace => rest trace (body.drop size)) trace type (body.take size)

/-- Messages one after the other; each has at least one byte. -/
def parseLoop : Nat -> List (Event Parsed) -> List UInt8 -> List (Event Parsed) × Ending
  | 0, trace, _ => starve closed trace []
  | messages + 1, trace, bytes => parseOne header cb closed (parseLoop messages) trace bytes

/-- The calls that the whole stream of bytes amounts to, parsed at once. -/
def parseStream (trace : List (Event Parsed)) (bytes : List UInt8) : List (Event Parsed) × Ending :=
  parseLoop header cb closed bytes.length trace bytes

end Whole

def streamBytes : List Read -> List UInt8
  | [] => []
  | .chunk head tail :: rest => head :: (tail ++ streamBytes rest)
  | .again :: rest => streamBytes rest
  | .intr :: rest => streamBytes rest
  | .eof :: _ => []
  | .failed :: _ => []

/-- The stream ends behind its bytes. -/
def streamCloses : List Read -> Bool
  | [] => false
  | .chunk _ _ :: rest => streamCloses rest
  | .again :: rest => streamCloses rest
  | .intr :: rest => streamCloses rest
  | .eof :: _ => true
  | .failed :: _ => true

end Channel
end Spice
