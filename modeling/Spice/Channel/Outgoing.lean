import Spice.Channel.Incoming
import Spice.Lib.Run

namespace Spice
namespace Outgoing

open Lib
open Channel (DataHeader)

/-!
# Outgoing messages

A channel client sends one message at a time.  `red_channel_client_send_item` lets
the channel fill a marshaller, and `red_channel_client_begin_send_message` hands it
to the socket, which may take any part of it; the rest is written when the socket
is ready again.  A message may need another one before it: the display channel
then switches to a second marshaller, and the first message is begun when the
urgent one has been written.

A marshaller is modelled by its header fields and its body; the vectors that
`spice_marshaller_fill_iovec` makes of it cover a prefix of what is left, which a
`writev` that accepts only a part does not distinguish from all that is left.  The
size of a message has 32 bits, and how much of it was written is an `int`: a position
from 2^31 on is negative, and behind a negative position nothing is left to write.
-/

/-- What `writev` answers: the number of bytes it took, `EAGAIN`, `EINTR`, or another
error. -/
inductive Write
  | accept (count : Nat)
  | again
  | intr
  | failed
  deriving DecidableEq, Repr

structure Marshaller where
  msgType : Nat
  msgSize : Nat
  subList : Nat
  serial : Nat
  body : List UInt8
  deriving DecidableEq, Repr

namespace Marshaller

/-- An empty marshaller. -/
def reset : Marshaller where
  msgType := 0
  msgSize := 0
  subList := 0
  serial := 0
  body := []

def headerBytes (header : DataHeader) (marshaller : Marshaller) : List UInt8 :=
  match header with
  | .full =>
      toLittleEndian 8 marshaller.serial ++ toLittleEndian 2 marshaller.msgType ++
        toLittleEndian 4 marshaller.msgSize ++ toLittleEndian 4 marshaller.subList
  | .mini => toLittleEndian 2 marshaller.msgType ++ toLittleEndian 4 marshaller.msgSize

/-- Everything that is to be sent. -/
def bytes (header : DataHeader) (marshaller : Marshaller) : List UInt8 :=
  marshaller.headerBytes header ++ marshaller.body

def totalSize (header : DataHeader) (marshaller : Marshaller) : Nat := header.headerSize + marshaller.body.length

end Marshaller

/-- A message type; `red_channel_client_init_send_data` asserts that it is not 0. -/
abbrev MsgType := { value : Nat // value ≠ 0 }

/-- What a channel makes of a pipe item: nothing to send, a message, or a message of
the display channel with images to release.  The images are listed in a message of
their own, or with a full header in a sub-list behind the body. -/
inductive PipeItem
  | silent
  | message (msgType : MsgType) (body : List UInt8)
  | releasing (msgType : MsgType) (body : List UInt8) (listType : MsgType) (list legacy : List UInt8) (subList : Nat)

/-- Every message of the item is smaller than an `int` can say, whatever its header. -/
def PipeItem.Small : PipeItem -> Prop
  | .silent => True
  | .message _ body => 18 + body.length < 2 ^ 31
  | .releasing _ body _ list legacy _ => 18 + (body ++ legacy).length < 2 ^ 31 ∧ 18 + list.length < 2 ^ 31

instance : (item : PipeItem) -> Decidable item.Small
  | .silent => inferInstanceAs (Decidable True)
  | .message _ _ => inferInstanceAs (Decidable (_ < _))
  | .releasing _ _ _ _ _ _ => inferInstanceAs (Decidable (_ ∧ _))

/-- The sending side of `RedChannelClient`, and its `OutgoingHandler`: `pos` and
`handlerSize` are the bits of an `int`.  `written` are the bytes the socket took; `begun`
are the messages that were begun, each with the number of bytes written before. -/
structure RedChannelClient where
  header : DataHeader
  main : Marshaller
  urgent : Marshaller
  urgentActive : Bool
  headerData : Bool
  mainHeaderData : Bool
  size : Nat
  blocked : Bool
  serial : Nat
  lastSentSerial : Nat
  pos : Nat
  handlerSize : Nat
  connected : Bool
  handleAcks : Bool
  messagesWindow : Nat
  clientWindow : Nat
  pipe : List PipeItem
  written : List UInt8
  begun : List (Nat × List UInt8)

namespace RedChannelClient

variable (client : RedChannelClient)

/-- `send_data.marshaller`. -/
def marshaller : Marshaller := if client.urgentActive then client.urgent else client.main

def setMarshaller (marshaller : Marshaller) : RedChannelClient :=
  { client with
    main := if client.urgentActive then client.main else marshaller
    urgent := if client.urgentActive then marshaller else client.urgent }

/-- The message that is being sent. -/
def current : List UInt8 := client.marshaller.bytes client.header

/-- The serial of the next message: the last one is used again if no message was sent
with it. -/
def nextSerial : Nat :=
  if client.lastSentSerial ≠ client.serial ∧ !client.urgentActive then client.lastSentSerial + 1
  else client.serial + 1

/-- The active marshaller is emptied, and holds only a header. -/
def emptied (serial : Nat) : RedChannelClient :=
  { client.setMarshaller { Marshaller.reset with serial := serial } with headerData := true, serial := serial }

/-- `red_channel_client_reset_send_data`; nothing if an assertion fails. -/
def resetSendData : Option RedChannelClient :=
  if client.lastSentSerial ≠ client.serial ∧ client.serial - client.lastSentSerial ≠ 1 then none
  else if client.header = .full ∧ client.urgentActive then none
  else some (client.emptied client.nextSerial)

def initSendData (msgType : MsgType) : Option RedChannelClient :=
  if client.size ≠ 0 then none
  else some (client.setMarshaller { client.marshaller with msgType := msgType.val })

/-- The channel marshalls the body, and the place of a sub-list. -/
def fill (body : List UInt8) (subList : Nat) : RedChannelClient :=
  client.setMarshaller { client.marshaller with body := body, subList := subList }

/-- `red_channel_client_disconnect`, as far as sending is concerned. -/
def disconnect : RedChannelClient := { client with connected := false, pipe := [], blocked := false, size := 0 }

def onBlock : RedChannelClient := { client with blocked := true }

/-- `red_channel_client_begin_send_message` up to the send. -/
def startMessage : RedChannelClient :=
  let client := client.setMarshaller { client.marshaller with msgSize := client.marshaller.body.length }
  { client with
    size := client.marshaller.totalSize client.header % 2 ^ 32
    messagesWindow := (client.messagesWindow + 1) % 2 ^ 32
    lastSentSerial := client.serial
    headerData := false
    begun := client.begun ++ [(client.written.length, client.current)] }

def restoreMainSender : RedChannelClient :=
  { client with
    urgent := Marshaller.reset
    urgentActive := false
    headerData := client.mainHeaderData
    main := if client.header = .full then { client.main with serial := client.serial } else client.main }

/-- The message was sent, and the socket is no longer watched for writing. -/
def messageSent : RedChannelClient := { client with size := 0, blocked := false }

/-- `red_channel_peer_on_out_msg_done` up to the send: whether the main message is now
to be sent. -/
def onOutMsgDone : Option (RedChannelClient × Bool) :=
  if client.urgentActive then
    if !client.messageSent.restoreMainSender.headerData then none
    else if client.messageSent.restoreMainSender.marshaller.msgType = 0 then
      some (client.messageSent.restoreMainSender, false)
    else some (client.messageSent.restoreMainSender.startMessage, true)
  else some (client.messageSent, false)

/-- `red_peer_handle_outgoing` takes a new message. -/
def openHandler : RedChannelClient :=
  if client.handlerSize = 0 then { client with handlerSize := client.size } else client

/-- What `prepare` finds behind the position. -/
def left : List UInt8 := if client.pos < 2 ^ 31 then client.current.drop client.pos else []

/-- The socket took some bytes. -/
def output (count : Nat) : RedChannelClient :=
  let bytes := client.left.take count
  { client with written := client.written ++ bytes, pos := (client.pos + bytes.length) % 2 ^ 32 }

/-- The loop of `red_peer_handle_outgoing`.  Behind the listed answers the socket takes
nothing more.  With nothing to write, `writev` returns 0 for ever. -/
def writeLoop (writes : List Write) (client : RedChannelClient) : Option (RedChannelClient × List Write) :=
  if client.left = [] then none
  else
    match writes with
    | [] => some (client.onBlock, [])
    | .again :: rest => some (client.onBlock, rest)
    | .intr :: rest => writeLoop rest client
    | .failed :: rest => some (client.disconnect, rest)
    | .accept count :: rest =>
        let client := client.output count
        if client.pos = client.handlerSize then
          match { client with pos := 0, handlerSize := 0 }.onOutMsgDone with
          | none => none
          | some (client, false) => some (client, rest)
          | some (client, true) =>
              let client := client.openHandler
              if client.handlerSize = 0 then some (client, rest) else writeLoop rest client
        else writeLoop rest client

def handleOutgoing (writes : List Write) : Option (RedChannelClient × List Write) :=
  if !client.connected then some (client, writes)
  else
    let client := client.openHandler
    if client.handlerSize = 0 then some (client, writes) else writeLoop writes client

def beginSendMessage (writes : List Write) : Option (RedChannelClient × List Write) :=
  if client.marshaller.msgType = 0 then some (client, writes) else client.startMessage.handleOutgoing writes

def switchToUrgentSender : Option RedChannelClient :=
  if client.size ≠ 0 then none
  else if !client.headerData then none
  else { client with mainHeaderData := client.headerData, urgentActive := true }.resetSendData

/-- `display_channel_send_free_list`: an urgent message lists the released images. -/
def sendFreeList (writes : List Write) (listType : MsgType) (list : List UInt8) :
    Option (RedChannelClient × List Write) := do
  let client <- client.switchToUrgentSender
  let client <- client.initSendData listType
  (client.fill list 0).beginSendMessage writes

/-- The channel's `send_item`, with `display_begin_send_message` for released images. -/
def channelSendItem (writes : List Write) : PipeItem -> Option (RedChannelClient × List Write)
  | .silent => some (client, writes)
  | .message msgType body => do
      let client <- client.initSendData msgType
      (client.fill body 0).beginSendMessage writes
  | .releasing msgType body listType list legacy subList => do
      let client <- client.initSendData msgType
      match client.header with
      | .full => (client.fill (body ++ legacy) subList).beginSendMessage writes
      | .mini => (client.fill body 0).sendFreeList writes listType list

def sendItem (writes : List Write) (item : PipeItem) : Option (RedChannelClient × List Write) :=
  if client.size ≠ 0 then none
  else do
    let client <- client.resetSendData
    client.channelSendItem writes item

def waitingForAck : Bool := client.handleAcks && decide (client.clientWindow * 2 % 2 ^ 32 < client.messagesWindow)

def pipeItemGet : Option (PipeItem × RedChannelClient) :=
  if client.blocked || client.waitingForAck then none
  else
    match client.pipe with
    | [] => none
    | item :: rest => some (item, { client with pipe := rest })

/-- The loop of `red_channel_client_push`. -/
def pushLoop : Nat -> List Write -> RedChannelClient -> Option RedChannelClient
  | 0, _, _ => none
  | rounds + 1, writes, client =>
      match client.pipeItemGet with
      | none => some client
      | some (item, client) =>
          match client.sendItem writes item with
          | none => none
          | some (client, writes) => pushLoop rounds writes client

/-- A message the socket did not take is continued, `red_channel_client_send`. -/
def resume (writes : List Write) : Option (RedChannelClient × List Write) :=
  if client.blocked then client.handleOutgoing writes else some (client, writes)

def push (writes : List Write) : Option RedChannelClient := do
  let (client, writes) <- client.resume writes
  let client := if client.size ≠ 0 && !client.blocked then { client with blocked := true } else client
  pushLoop (client.pipe.length + 1) writes client

end RedChannelClient

/-- What happens to a channel client: an item is put somewhere into the pipe, the pipe
is pushed while the socket gives some answers, or the client acknowledges. -/
inductive Op
  | pipeAdd (position : Nat) (item : PipeItem)
  | push (writes : List Write)
  | ack
  | ackZero

/-- An item that is put into the pipe has only small messages. -/
def Op.Small : Op -> Prop
  | .pipeAdd _ item => item.Small
  | _ => True

instance : (op : Op) -> Decidable op.Small
  | .pipeAdd _ item => inferInstanceAs (Decidable item.Small)
  | .push _ => inferInstanceAs (Decidable True)
  | .ack => inferInstanceAs (Decidable True)
  | .ackZero => inferInstanceAs (Decidable True)

namespace RedChannelClient

def step (client : RedChannelClient) : Op -> Option RedChannelClient
  | .pipeAdd position item =>
      if client.connected then
        some { client with pipe := client.pipe.take position ++ item :: client.pipe.drop position }
      else some client
  | .push writes => client.push writes
  | .ack => some { client with messagesWindow := (client.messagesWindow + 2 ^ 32 - client.clientWindow) % 2 ^ 32 }
  | .ackZero => some { client with messagesWindow := 0 }

def create (header : DataHeader) (handleAcks : Bool) (clientWindow : Nat) : RedChannelClient where
  header := header
  main := Marshaller.reset
  urgent := Marshaller.reset
  urgentActive := false
  headerData := false
  mainHeaderData := false
  size := 0
  blocked := false
  serial := 0
  lastSentSerial := 0
  pos := 0
  handlerSize := 0
  connected := true
  handleAcks := handleAcks
  messagesWindow := 2 ^ 32 - 1
  clientWindow := clientWindow
  pipe := []
  written := []
  begun := []

end RedChannelClient

end Outgoing
end Spice
