import Spice.Lib.Bytes
import Spice.Lib.Run
import Mathlib.Logic.Function.Basic

namespace Spice
namespace Dispatcher

open Lib

/-!
# The dispatcher

Threads hand messages to a receiver over a socket pair.  A message is its type
and, behind it, as many bytes as were registered for that type; nothing on the
wire separates two messages, or tells whose acknowledgement comes back.  A lock
is held while one message is sent and, where the type asks for it, until the
acknowledgement was read.

The model has a step for every system call.  A `write` or a `read` moves any
part of what was asked for.  A call that is interrupted is repeated and moves
nothing, so it is not a step; a blocking call that cannot move anything yet is a
step that is not possible yet.
-/

/-- `DISPATCHER_NONE`, `DISPATCHER_ACK`, `DISPATCHER_ASYNC`. -/
inductive AckMode
  | none
  | ack
  | async
  deriving DecidableEq, Repr

/-- `DispatcherMessage`, without the handler. -/
structure DispatcherMessage where
  size : Nat
  ack : AckMode
  deriving DecidableEq, Repr

/-- The registered messages.  A type is a `uint32_t`. -/
structure Registry where
  messages : Nat -> Option DispatcherMessage
  typeFits : forall type msg, messages type = some msg -> type < 2 ^ 32

/-- A call of `dispatcher_send_message` that passes its assertions, with the
bytes that the payload points to. -/
structure Message (registry : Registry) where
  type : Nat
  payload : List UInt8
  msg : DispatcherMessage
  registered : registry.messages type = some msg
  length : payload.length = msg.size

/-- `ACK` as it lies in memory. -/
def ackBytes : List UInt8 := toLittleEndian 4 0xffffffff

variable {registry : Registry}

namespace Message

def typeBytes (m : Message registry) : List UInt8 := toLittleEndian 4 m.type

/-- All that is sent. -/
def wire (m : Message registry) : List UInt8 := m.typeBytes ++ m.payload

/-- The sender waits for an acknowledgement. -/
def acks (m : Message registry) : Bool := m.msg.ack == .ack

/-- What the handler is given. -/
def seen (m : Message registry) : Nat × List UInt8 := (m.type, m.payload)

end Message

/-- Where a thread is in `dispatcher_send_message`, with the bytes that
`write_safe` still has to write or that `read_safe` has read. -/
inductive Sender (registry : Registry)
  | idle
  | lock (m : Message registry)
  | writeType (left : List UInt8) (m : Message registry)
  | writePayload (left : List UInt8) (m : Message registry)
  | readAck (got : List UInt8) (m : Message registry)
  | unlock (m : Message registry)

/-- Where the receiver is in `dispatcher_handle_single_read`. -/
inductive Receiver
  | readType (got : List UInt8)
  | readPayload (type : Nat) (msg : DispatcherMessage) (got : List UInt8)
  | handling (type : Nat) (msg : DispatcherMessage) (payload : List UInt8)
  | writeAck (left : List UInt8)

/-- The two directions of the socket pair, the threads and the receiver.  The
record of messages by the order in which they acquired the lock, and of the
handlers that were started and that completed. -/
structure State (registry : Registry) where
  lock : Option Nat
  senders : Nat -> Sender registry
  receiver : Receiver
  toReceiver : List UInt8
  toSender : List UInt8
  acquired : List (Message registry)
  handled : List (Nat × List UInt8)
  completed : List (Nat × List UInt8)

/-- One step: a thread calls `dispatcher_send_message` or acquires the lock; one
`write` or `read` of so many bytes by a thread or by the receiver; the receiver
starts a handler, or the handler returns; a thread releases the lock. -/
inductive Op (registry : Registry)
  | call (thread : Nat) (m : Message registry)
  | lock (thread : Nat)
  | write (thread count : Nat)
  | readAck (thread count : Nat)
  | unlock (thread : Nat)
  | read (count : Nat)
  | handle
  | handled
  | writeAck (count : Nat)

namespace State

variable (s : State registry)

/-- A thread goes on. -/
def setSender (thread : Nat) (sender : Sender registry) : State registry :=
  { s with senders := Function.update s.senders thread sender }

/-- Behind `write_safe` of the payload. -/
def afterPayload (m : Message registry) : Sender registry :=
  if m.msg.ack = .ack then .readAck [] m else .unlock m

/-- The payload, or what is left of it; `write_safe` of nothing returns at once. -/
def payloadFrom (left : List UInt8) (m : Message registry) : Sender registry :=
  if left = [] then afterPayload m else .writePayload left m

/-- `write` inside `write_safe` of a thread. -/
def write (thread count : Nat) : Option (State registry) :=
  match s.senders thread with
  | .writeType left m =>
      if 0 < count ∧ count ≤ left.length then
        some { s.setSender thread (if left.drop count = [] then payloadFrom m.payload m
          else .writeType (left.drop count) m) with
          toReceiver := s.toReceiver ++ left.take count }
      else none
  | .writePayload left m =>
      if 0 < count ∧ count ≤ left.length then
        some { s.setSender thread (payloadFrom (left.drop count) m) with
          toReceiver := s.toReceiver ++ left.take count }
      else none
  | _ => none

/-- `read` inside `read_safe` of a thread that waits for the acknowledgement. -/
def readAck (thread count : Nat) : Option (State registry) :=
  match s.senders thread with
  | .readAck got m =>
      if 0 < count ∧ count ≤ s.toSender.length ∧ count ≤ 4 - got.length then
        let got := got ++ s.toSender.take count
        some { s.setSender thread (if got.length = 4 then .unlock m else .readAck got m) with
          toSender := s.toSender.drop count }
      else none
  | _ => none

/-- `read` inside `read_safe` of the receiver.  Once the type is known,
`messages[type]` tells the size of the payload. -/
def read (count : Nat) : Option (State registry) :=
  match s.receiver with
  | .readType got =>
      if 0 < count ∧ count ≤ s.toReceiver.length ∧ count ≤ 4 - got.length then
        let got := got ++ s.toReceiver.take count
        let rest := { s with toReceiver := s.toReceiver.drop count }
        if got.length = 4 then
          (registry.messages (littleEndian got)).map fun msg =>
            { rest with receiver := .readPayload (littleEndian got) msg [] }
        else some { rest with receiver := .readType got }
      else none
  | .readPayload type msg got =>
      if 0 < count ∧ count ≤ s.toReceiver.length ∧ count ≤ msg.size - got.length then
        some { s with
          receiver := .readPayload type msg (got ++ s.toReceiver.take count)
          toReceiver := s.toReceiver.drop count }
      else none
  | _ => none

def step (s : State registry) : Op registry -> Option (State registry)
  | .call thread m =>
      match s.senders thread with
      | .idle => some (s.setSender thread (.lock m))
      | _ => none
  | .lock thread =>
      match s.senders thread, s.lock with
      | .lock m, none =>
          some { s.setSender thread (.writeType m.typeBytes m) with
            lock := some thread
            acquired := s.acquired ++ [m] }
      | _, _ => none
  | .write thread count => s.write thread count
  | .readAck thread count => s.readAck thread count
  | .unlock thread =>
      match s.senders thread with
      | .unlock _ => some { s.setSender thread .idle with lock := none }
      | _ => none
  | .read count => s.read count
  | .handle =>
      match s.receiver with
      | .readPayload type msg got =>
          if got.length = msg.size then
            some { s with receiver := .handling type msg got, handled := s.handled ++ [(type, got)] }
          else none
      | _ => none
  | .handled =>
      match s.receiver with
      | .handling type msg payload =>
          some { s with
            receiver := if msg.ack = .ack then .writeAck ackBytes else .readType []
            completed := s.completed ++ [(type, payload)] }
      | _ => none
  | .writeAck count =>
      match s.receiver with
      | .writeAck left =>
          if 0 < count ∧ count ≤ left.length then
            some { s with
              receiver := if left.drop count = [] then .readType [] else .writeAck (left.drop count)
              toSender := s.toSender ++ left.take count }
          else none
      | _ => none

def init (registry : Registry) : State registry where
  lock := none
  senders := fun _ => .idle
  receiver := .readType []
  toReceiver := []
  toSender := []
  acquired := []
  handled := []
  completed := []

end State

end Dispatcher
end Spice
