import Spice.Channel.Outgoing

namespace Spice
namespace Outgoing

open Lib
open Channel (DataHeader)

/-!
# The stream of outgoing messages

As long as all messages are small, and whatever the socket answers, the bytes written
are the messages in the order they were begun, one after the other, the last one
perhaps in part; and no message is begun before the one before it was written
completely.
-/

/-- Each message was begun when all before it were written. -/
def Sequential (begun : List (Nat × List UInt8)) : Prop :=
  forall before entry after, begun = before ++ entry :: after -> entry.1 = (before.map Prod.snd).flatten.length

/-- The messages begun are these, and of the last one so much is written. -/
structure Written (begun : List (Nat × List UInt8)) (written : List UInt8) (finished : List (List UInt8))
    (last : List UInt8) (count : Nat) : Prop where
  messages : begun.map Prod.snd = finished ++ [last]
  bytes : written = finished.flatten ++ last.take count

structure Writing (client : RedChannelClient) : Prop where
  connected : client.connected = true
  sized : client.size = client.current.length
  small : client.size < 2 ^ 31
  handler : client.handlerSize = client.size
  inside : client.pos < client.size
  stream : Exists fun finished => Written client.begun client.written finished client.current client.pos
  sequential : Sequential client.begun
  serials : client.lastSentSerial = client.serial
  waiting : client.urgentActive = true ->
    client.mainHeaderData = true ∧ client.main.msgType ≠ 0 ∧ client.main.totalSize client.header < 2 ^ 31

/-- Nothing is being written. -/
structure Idle (client : RedChannelClient) : Prop where
  connected : client.connected = true
  size : client.size = 0
  pos : client.pos = 0
  handler : client.handlerSize = 0
  unblocked : client.blocked = false
  mainActive : client.urgentActive = false
  bytes : client.written = (client.begun.map Prod.snd).flatten
  sequential : Sequential client.begun
  serials : client.serial = client.lastSentSerial ∨ client.serial = client.lastSentSerial + 1

/-- The socket failed while a message was being written. -/
structure Gone (client : RedChannelClient) : Prop where
  disconnected : client.connected = false
  size : client.size = 0
  unblocked : client.blocked = false
  pipe : client.pipe = []
  stream : Exists fun finished => Exists fun last => Exists fun count =>
    count < last.length ∧ Written client.begun client.written finished last count
  sequential : Sequential client.begun

/-- The state between two calls. -/
inductive Settled (client : RedChannelClient) : Prop
  | idle (idle : Idle client)
  | blocked (writing : Writing client) (blocked : client.blocked = true)
  | gone (gone : Gone client)

theorem Sequential.nil : Sequential [] := by
  intro before entry after split
  have length := congrArg List.length split
  simp at length

/-- The next message starts where the last one ended. -/
theorem Sequential.append {begun : List (Nat × List UInt8)} (sequential : Sequential begun) (bytes : List UInt8) :
    Sequential (begun ++ [((begun.map Prod.snd).flatten.length, bytes)]) := by
  intro before entry after split
  rcases List.append_eq_append_iff.mp split with ⟨extra, isBefore, isRest⟩ | ⟨extra, isBegun, isRest⟩
  · cases extra with
    | nil =>
        rw [List.append_nil] at isBefore
        rw [List.nil_append] at isRest
        cases isRest
        rw [isBefore]
    | cons head tail =>
        have length := congrArg List.length isRest
        simp at length
  · cases extra with
    | nil =>
        rw [List.append_nil] at isBegun
        rw [List.nil_append] at isRest
        cases isRest
        rw [isBegun]
    | cons head tail =>
        rw [List.cons_append] at isRest
        cases isRest
        exact sequential before entry tail isBegun

namespace Marshaller

theorem length_bytes (header : DataHeader) (marshaller : Marshaller) :
    (marshaller.bytes header).length = marshaller.totalSize header := by
  cases header with
  | full =>
      simp only [bytes, headerBytes, totalSize, DataHeader.headerSize, List.length_append, length_toLittleEndian]
  | mini =>
      simp only [bytes, headerBytes, totalSize, DataHeader.headerSize, List.length_append, length_toLittleEndian]

theorem totalSize_small (header : DataHeader) {marshaller : Marshaller} (small : 18 + marshaller.body.length < 2 ^ 31) :
    marshaller.totalSize header < 2 ^ 31 := by
  cases header with
  | full => exact small
  | mini => exact Nat.lt_of_le_of_lt (Nat.add_le_add_right (by decide) _) small

theorem totalSize_pos (header : DataHeader) (marshaller : Marshaller) : 0 < marshaller.totalSize header := by
  cases header with
  | full => exact Nat.lt_of_lt_of_le (by decide) (Nat.le_add_right 18 _)
  | mini => exact Nat.lt_of_lt_of_le (by decide) (Nat.le_add_right 6 _)

end Marshaller

@[simp] theorem marshaller_setMarshaller (client : RedChannelClient) (marshaller : Marshaller) :
    (client.setMarshaller marshaller).marshaller = marshaller := by
  unfold RedChannelClient.setMarshaller RedChannelClient.marshaller
  cases active : client.urgentActive <;> simp

/-- Everything is written, and the marshaller that is active holds a small message. -/
structure Filled (client : RedChannelClient) : Prop where
  small : client.marshaller.totalSize client.header < 2 ^ 31
  connected : client.connected = true
  pos : client.pos = 0
  handler : client.handlerSize = 0
  bytes : client.written = (client.begun.map Prod.snd).flatten
  sequential : Sequential client.begun
  waiting : client.urgentActive = true ->
    client.mainHeaderData = true ∧ client.main.msgType ≠ 0 ∧ client.main.totalSize client.header < 2 ^ 31

variable {client : RedChannelClient}

theorem Filled.opened (filled : Filled client) :
    client.startMessage.openHandler = { client.startMessage with handlerSize := client.startMessage.size } := by
  unfold RedChannelClient.openHandler
  rw [if_pos (show client.startMessage.handlerSize = 0 from filled.handler)]

/-- Beginning a message puts it behind what was written. -/
theorem Filled.start (filled : Filled client) : Writing client.startMessage.openHandler := by
  have length := Marshaller.length_bytes client.header
    { client.marshaller with msgSize := client.marshaller.body.length }
  have positive := Marshaller.totalSize_pos client.header
    { client.marshaller with msgSize := client.marshaller.body.length }
  have current : client.startMessage.current =
      Marshaller.bytes client.header { client.marshaller with msgSize := client.marshaller.body.length } := by
    show ((client.setMarshaller _).marshaller).bytes client.header = _
    rw [marshaller_setMarshaller]
  have small : Marshaller.totalSize client.header
      { client.marshaller with msgSize := client.marshaller.body.length } < 2 ^ 31 := filled.small
  have size : client.startMessage.size =
      Marshaller.totalSize client.header { client.marshaller with msgSize := client.marshaller.body.length } := by
    show ((client.setMarshaller _).marshaller).totalSize client.header % 2 ^ 32 = _
    rw [marshaller_setMarshaller]
    exact Nat.mod_eq_of_lt (by omega)
  rw [filled.opened]
  refine ⟨filled.connected, ?_, ?_, rfl, ?_, ?_, ?_, rfl, ?_⟩
  · show client.startMessage.size = client.startMessage.current.length
    rw [size, current, length]
  · show client.startMessage.size < 2 ^ 31
    rw [size]
    exact small
  · show client.pos < client.startMessage.size
    rw [filled.pos, size]
    exact positive
  · refine ⟨client.begun.map Prod.snd, ?_, ?_⟩
    · show (client.begun ++ [(client.written.length, client.startMessage.current)]).map Prod.snd = _
      rw [List.map_append]
      rfl
    · show client.written = _ ++ client.startMessage.current.take client.pos
      rw [filled.pos, List.take_zero, List.append_nil]
      exact filled.bytes
  · show Sequential (client.begun ++ [(client.written.length, client.startMessage.current)])
    rw [filled.bytes]
    exact filled.sequential.append _
  · intro active
    have active : client.urgentActive = true := active
    have main : client.startMessage.main = client.main := by
      show (if client.urgentActive = true then client.main else _) = client.main
      rw [if_pos active]
    have waiting := filled.waiting active
    show client.mainHeaderData = true ∧ client.startMessage.main.msgType ≠ 0 ∧
      client.startMessage.main.totalSize client.header < 2 ^ 31
    rw [main]
    exact waiting

theorem onOutMsgDone_main (active : client.urgentActive = false) :
    client.onOutMsgDone = some (client.messageSent, false) := by
  rw [RedChannelClient.onOutMsgDone, active, if_neg (by decide)]

theorem onOutMsgDone_urgent (active : client.urgentActive = true)
    (data : client.mainHeaderData = true) (typed : client.main.msgType ≠ 0) :
    client.onOutMsgDone = some (client.messageSent.restoreMainSender.startMessage, true) := by
  have sameType : client.messageSent.restoreMainSender.marshaller.msgType = client.main.msgType := by
    show (if client.header = .full then { client.main with serial := client.serial } else client.main).msgType = _
    split <;> rfl
  have isData : client.messageSent.restoreMainSender.headerData = true := data
  rw [RedChannelClient.onOutMsgDone, if_pos active, isData, sameType, if_neg typed, if_neg (by decide)]

namespace Writing

variable {client : RedChannelClient}

theorem left_eq (writing : Writing client) : client.left = client.current.drop client.pos := by
  have inside := writing.inside
  have small := writing.small
  exact if_pos (by omega)

theorem left_ne_nil (writing : Writing client) : client.left ≠ [] := by
  rw [writing.left_eq, ne_eq, List.drop_eq_nil_iff, <- writing.sized]
  exact Nat.not_le_of_lt writing.inside

/-- Bytes that are written are those of the message. -/
theorem output (writing : Writing client) (count : Nat) : (client.output count).pos ≤ client.size ∧
      Exists fun finished => Written client.begun (client.output count).written finished client.current
        (client.output count).pos := by
  rcases writing.stream with ⟨finished, begun, bytes⟩
  have sized := writing.sized
  have inside := writing.inside
  have small := writing.small
  have length : ((client.current.drop client.pos).take count).length =
      min count (client.current.length - client.pos) := by
    rw [List.length_take, List.length_drop]
  have pos : (client.output count).pos = client.pos + ((client.current.drop client.pos).take count).length := by
    show (client.pos + (client.left.take count).length) % 2 ^ 32 = _
    rw [writing.left_eq]
    exact Nat.mod_eq_of_lt (by omega)
  refine ⟨by rw [pos, length]; omega, finished, begun, ?_⟩
  show client.written ++ client.left.take count = _
  rw [pos, bytes, List.append_assoc, writing.left_eq]
  congr 1
  rw [List.take_add, <- List.prefix_iff_eq_take.mp (List.take_prefix count (client.current.drop client.pos))]

theorem done (writing : Writing client) (count : Nat) (all : (client.output count).pos = client.handlerSize) :
    (client.output count).written = (client.begun.map Prod.snd).flatten := by
  rcases (writing.output count).2 with ⟨finished, begun, bytes⟩
  rw [bytes, all, writing.handler, writing.sized, List.take_length, begun]
  simp

theorem more (writing : Writing client) (count : Nat) (some : (client.output count).pos ≠ client.handlerSize) :
    Writing (client.output count) := by
  have output := writing.output count
  have handler := writing.handler
  exact ⟨writing.connected, writing.sized, writing.small, writing.handler, by show _ < client.size; omega, output.2,
    writing.sequential, writing.serials, writing.waiting⟩

theorem onBlock (writing : Writing client) : Writing client.onBlock :=
  ⟨writing.connected, writing.sized, writing.small, writing.handler, writing.inside, writing.stream, writing.sequential,
    writing.serials, writing.waiting⟩

theorem disconnect (writing : Writing client) : Gone client.disconnect := by
  rcases writing.stream with ⟨finished, begun, bytes⟩
  have inside := writing.inside
  rw [writing.sized] at inside
  exact ⟨rfl, rfl, rfl, rfl, ⟨finished, client.current, client.pos, inside, begun, bytes⟩, writing.sequential⟩

/-- The loop ends between two messages or in the middle of one, whatever the socket
answers. -/
theorem writeLoop (writes : List Write) (writing : Writing client) :
    Exists fun next => Exists fun rest => RedChannelClient.writeLoop writes client = some (next, rest) ∧
      Settled next ∧ (next.pipe = client.pipe ∨ next.pipe = []) := by
  induction writes generalizing client with
  | nil =>
      rw [RedChannelClient.writeLoop.eq_def, if_neg writing.left_ne_nil]
      exact ⟨client.onBlock, [], rfl, .blocked writing.onBlock rfl, Or.inl rfl⟩
  | cons write rest ih =>
      rw [RedChannelClient.writeLoop.eq_def, if_neg writing.left_ne_nil]
      cases write with
      | again => exact ⟨client.onBlock, rest, rfl, .blocked writing.onBlock rfl, Or.inl rfl⟩
      | intr => exact ih writing
      | failed => exact ⟨client.disconnect, rest, rfl, .gone writing.disconnect, Or.inr rfl⟩
      | accept count =>
          by_cases all : (client.output count).pos = client.handlerSize
          · have bytes := writing.done count all
            have all : (client.output count).pos = (client.output count).handlerSize := all
            simp only [if_pos all]
            cases active : client.urgentActive with
            | false =>
                have active : ({ client.output count with pos := 0, handlerSize := 0 } :
                    RedChannelClient).urgentActive =
                  false := active
                rw [onOutMsgDone_main active]
                refine ⟨_, rest, rfl, .idle ?_, Or.inl rfl⟩
                exact ⟨writing.connected, rfl, rfl, rfl, rfl, active, bytes, writing.sequential,
                  Or.inl writing.serials.symm⟩
            | true =>
                have waiting := writing.waiting active
                have active : ({ client.output count with pos := 0, handlerSize := 0 } :
                    RedChannelClient).urgentActive =
                  true := active
                rw [onOutMsgDone_urgent active waiting.1 waiting.2.1]
                generalize isNext : RedChannelClient.restoreMainSender
                  (RedChannelClient.messageSent { client.output count with
                  pos := 0, handlerSize := 0 }) = next
                have filled : Filled next := by
                  rw [<- isNext]
                  refine ⟨?_, writing.connected, rfl, rfl, bytes, writing.sequential, fun wrong => by cases wrong⟩
                  show (if client.header = .full then { client.main with serial := client.serial }
                    else client.main).totalSize
                    client.header < 2 ^ 31
                  split
                  · exact waiting.2.2
                  · exact waiting.2.2
                have pipe : next.startMessage.openHandler.pipe = client.pipe := by
                  rw [filled.opened, <- isNext]
                  rfl
                have started := filled.start
                have positive : next.startMessage.openHandler.handlerSize ≠ 0 := by
                  have inside := started.inside
                  have handler := started.handler
                  omega
                simp only [if_neg positive]
                rcases ih started with ⟨last, others, looped, settled, samePipe⟩
                refine ⟨last, others, looped, settled, ?_⟩
                rw [<- pipe]
                exact samePipe
          · have some : (client.output count).pos ≠ (client.output count).handlerSize := all
            simp only [if_neg some]
            exact ih (writing.more count all)

end Writing

namespace Filled

variable {client : RedChannelClient}

/-- A message is written, in part or whole. -/
theorem beginSendMessage (filled : Filled client) (typed : client.marshaller.msgType ≠ 0) (writes : List Write) :
    Exists fun next => Exists fun rest => client.beginSendMessage writes = some (next, rest) ∧
      Settled next ∧ (next.pipe = client.pipe ∨ next.pipe = []) := by
  have started := filled.start
  have positive : client.startMessage.openHandler.handlerSize ≠ 0 := by
    have inside := started.inside
    have handler := started.handler
    omega
  have connected : client.startMessage.connected = true := filled.connected
  have pipe : client.startMessage.openHandler.pipe = client.pipe := by
    rw [filled.opened]
    rfl
  rcases started.writeLoop writes with ⟨next, rest, looped, settled, samePipe⟩
  refine ⟨next, rest, ?_, settled, by rw [<- pipe]; exact samePipe⟩
  rw [RedChannelClient.beginSendMessage, if_neg typed, RedChannelClient.handleOutgoing, connected]
  simp only [Bool.not_true, Bool.false_eq_true, if_false, if_neg positive]
  exact looped

theorem fill (filled : Filled client) {body : List UInt8} (small : 18 + body.length < 2 ^ 31) (subList : Nat) :
    Filled (client.fill body subList) where
  small := by
    show (client.setMarshaller _).marshaller.totalSize client.header < 2 ^ 31
    rw [marshaller_setMarshaller]
    exact Marshaller.totalSize_small client.header small
  connected := filled.connected
  pos := filled.pos
  handler := filled.handler
  bytes := filled.bytes
  sequential := filled.sequential
  waiting := by
    intro active
    have active : client.urgentActive = true := active
    have main : (client.fill body subList).main = client.main := by
      show (if client.urgentActive = true then client.main else _) = client.main
      rw [if_pos active]
    rw [main]
    exact filled.waiting active

theorem fill_typed (client : RedChannelClient) (body : List UInt8) (subList : Nat) :
    (client.fill body subList).marshaller.msgType = client.marshaller.msgType := by
  rw [RedChannelClient.fill, marshaller_setMarshaller]

end Filled

namespace Idle

variable {client : RedChannelClient}

theorem fill (idle : Idle client) {body : List UInt8} (small : 18 + body.length < 2 ^ 31) (subList : Nat) :
    Filled (client.fill body subList) where
  small := by
    show (client.setMarshaller _).marshaller.totalSize client.header < 2 ^ 31
    rw [marshaller_setMarshaller]
    exact Marshaller.totalSize_small client.header small
  connected := idle.connected
  pos := idle.pos
  handler := idle.handler
  bytes := idle.bytes
  sequential := idle.sequential
  waiting := by
    intro active
    have active : client.urgentActive = true := active
    rw [idle.mainActive] at active
    cases active

/-- An idle client starts with an empty message. -/
theorem resetSendData (idle : Idle client) :
    client.resetSendData = some (client.emptied (client.lastSentSerial + 1)) := by
  have active := idle.mainActive
  have passes : Not (client.lastSentSerial ≠ client.serial ∧ client.serial - client.lastSentSerial ≠ 1) := by
    rintro ⟨different, notOne⟩
    rcases idle.serials with same | one
    · exact different same.symm
    · exact notOne (by omega)
  have inactive : Not (client.header = .full ∧ client.urgentActive = true) := by
    rintro ⟨-, isActive⟩
    rw [active] at isActive
    cases isActive
  have serial : client.nextSerial = client.lastSentSerial + 1 := by
    unfold RedChannelClient.nextSerial
    rw [active]
    split
    · rfl
    · next same =>
        have same : client.lastSentSerial = client.serial := by
          by_contra different
          exact same ⟨different, rfl⟩
        rw [same]
  rw [RedChannelClient.resetSendData, if_neg passes, if_neg inactive, serial]

theorem emptied (idle : Idle client) : Idle (client.emptied (client.lastSentSerial + 1)) :=
  ⟨idle.connected, idle.size, idle.pos, idle.handler, idle.unblocked, idle.mainActive, idle.bytes, idle.sequential,
    Or.inr rfl⟩

theorem setMarshaller (idle : Idle client) (marshaller : Marshaller) : Idle (client.setMarshaller marshaller) :=
  ⟨idle.connected, idle.size, idle.pos, idle.handler, idle.unblocked, idle.mainActive, idle.bytes, idle.sequential,
    idle.serials⟩

theorem initSendData (idle : Idle client) (msgType : MsgType) : client.initSendData msgType =
      some (client.setMarshaller { client.marshaller with msgType := msgType.val }) := by
  rw [RedChannelClient.initSendData, if_neg (fun wrong => wrong idle.size)]

/-- The urgent message takes the place of the other one. -/
theorem switchToUrgentSender (idle : Idle client) (mini : client.header = .mini) (data : client.headerData = true)
    (serial : client.serial = client.lastSentSerial + 1) (typed : client.main.msgType ≠ 0)
    (small : client.main.totalSize client.header < 2 ^ 31) :
    Exists fun next => client.switchToUrgentSender = some next ∧ Filled next ∧ next.size = 0 ∧
      next.pipe = client.pipe := by
  let urgent : RedChannelClient := { client with mainHeaderData := client.headerData, urgentActive := true }
  have passes : Not (urgent.lastSentSerial ≠ urgent.serial ∧ urgent.serial - urgent.lastSentSerial ≠ 1) := by
    rintro ⟨-, notOne⟩
    exact notOne (by show client.serial - client.lastSentSerial = 1; omega)
  have isMini : Not (urgent.header = .full ∧ urgent.urgentActive = true) := by
    rintro ⟨full, -⟩
    have full : client.header = .full := full
    rw [mini] at full
    cases full
  have main : (urgent.emptied urgent.nextSerial).main = client.main := rfl
  refine ⟨urgent.emptied urgent.nextSerial, ?_, ?_, idle.size, rfl⟩
  · rw [RedChannelClient.switchToUrgentSender, if_neg (fun wrong => wrong idle.size),
      if_neg (by rw [data]; decide)]
    show urgent.resetSendData = _
    rw [RedChannelClient.resetSendData, if_neg passes, if_neg isMini]
  · have isEmpty : 18 + (urgent.emptied urgent.nextSerial).marshaller.body.length < 2 ^ 31 := by
      show 18 + 0 < 2 ^ 31
      decide
    exact ⟨Marshaller.totalSize_small client.header isEmpty, idle.connected, idle.pos, idle.handler, idle.bytes,
      idle.sequential, fun _ => ⟨data, typed, small⟩⟩

/-- The free list goes out in front of the message. -/
theorem sendFreeList (idle : Idle client) (mini : client.header = .mini) (data : client.headerData = true)
    (serial : client.serial = client.lastSentSerial + 1) (typed : client.main.msgType ≠ 0)
    (small : client.main.totalSize client.header < 2 ^ 31) (writes : List Write) (listType : MsgType)
    {list : List UInt8}
    (smallList : 18 + list.length < 2 ^ 31) :
    Exists fun next => Exists fun rest => client.sendFreeList writes listType list = some (next, rest) ∧
      Settled next ∧ (next.pipe = client.pipe ∨ next.pipe = []) := by
  rcases idle.switchToUrgentSender mini data serial typed small with ⟨urgent, switched, filled, size, pipe⟩
  let typedUrgent := urgent.setMarshaller { urgent.marshaller with msgType := listType.val }
  have isTyped : urgent.initSendData listType = some typedUrgent := by
    rw [RedChannelClient.initSendData, if_neg (fun wrong => wrong size)]
  have filledUrgent : Filled typedUrgent := by
    refine ⟨?_, filled.connected, filled.pos, filled.handler, filled.bytes, filled.sequential, ?_⟩
    · show (urgent.setMarshaller _).marshaller.totalSize urgent.header < 2 ^ 31
      rw [marshaller_setMarshaller]
      exact filled.small
    intro active
    have active : urgent.urgentActive = true := active
    have main : typedUrgent.main = urgent.main := by
      show (if urgent.urgentActive = true then urgent.main else _) = urgent.main
      rw [if_pos active]
    rw [main]
    exact filled.waiting active
  have hasType : (typedUrgent.fill list 0).marshaller.msgType ≠ 0 := by
    rw [Filled.fill_typed, marshaller_setMarshaller]
    exact listType.property
  rcases (filledUrgent.fill smallList 0).beginSendMessage hasType writes with ⟨next, rest, begun, settled, samePipe⟩
  refine ⟨next, rest, ?_, settled, by rw [<- pipe]; exact samePipe⟩
  simp only [RedChannelClient.sendFreeList, switched, isTyped, Option.bind_eq_bind, Option.bind_some]
  exact begun

/-- A channel sends nothing, a message, or a list of released images and then a
message. -/
theorem channelSendItem (idle : Idle client) (data : client.headerData = true)
    (serial : client.serial = client.lastSentSerial + 1) (writes : List Write) {item : PipeItem} (small : item.Small) :
    Exists fun next => Exists fun rest => client.channelSendItem writes item = some (next, rest) ∧
      Settled next ∧ (next.pipe = client.pipe ∨ next.pipe = []) := by
  cases item with
  | silent => exact ⟨client, writes, rfl, .idle idle, Or.inl rfl⟩
  | message msgType body =>
      simp only [RedChannelClient.channelSendItem, idle.initSendData, Option.bind_eq_bind, Option.bind_some]
      apply Filled.beginSendMessage ((idle.setMarshaller _).fill small 0)
      rw [Filled.fill_typed, marshaller_setMarshaller]
      exact msgType.property
  | releasing msgType body listType list legacy subList =>
      let typed := client.setMarshaller { client.marshaller with msgType := msgType.val }
      have isTyped : client.initSendData msgType = some typed := idle.initSendData msgType
      have typedIdle : Idle typed := idle.setMarshaller _
      simp only [RedChannelClient.channelSendItem, isTyped, Option.bind_eq_bind, Option.bind_some]
      cases isHeader : client.header with
      | full =>
          have isHeader : typed.header = .full := isHeader
          simp only [isHeader]
          apply Filled.beginSendMessage (typedIdle.fill small.1 subList)
          rw [Filled.fill_typed, marshaller_setMarshaller]
          exact msgType.property
      | mini =>
          have isHeader : typed.header = .mini := isHeader
          have filledIdle : Idle (typed.fill body 0) := typedIdle.setMarshaller _
          have isMain : (typed.fill body 0).marshaller = (typed.fill body 0).main := by
            rw [RedChannelClient.marshaller, filledIdle.mainActive]
            rfl
          have mainSmall : (typed.fill body 0).main.totalSize (typed.fill body 0).header < 2 ^ 31 := by
            have shorter := small.1
            rw [List.length_append] at shorter
            rw [<- isMain]
            exact (typedIdle.fill (by omega) 0).small
          have mainTyped : (typed.fill body 0).main.msgType ≠ 0 := by
            rw [<- isMain, Filled.fill_typed, marshaller_setMarshaller]
            exact msgType.property
          simp only [isHeader]
          exact filledIdle.sendFreeList isHeader data serial mainTyped mainSmall writes listType small.2

theorem sendItem (idle : Idle client) (writes : List Write) {item : PipeItem} (small : item.Small) :
    Exists fun next => Exists fun rest => client.sendItem writes item = some (next, rest) ∧
      Settled next ∧ (next.pipe = client.pipe ∨ next.pipe = []) := by
  rw [RedChannelClient.sendItem, if_neg (fun wrong => wrong idle.size), idle.resetSendData]
  exact idle.emptied.channelSendItem rfl rfl writes small

end Idle

namespace Settled

variable {client : RedChannelClient}

theorem small_of_pipe {next : RedChannelClient} (pipe : next.pipe = client.pipe ∨ next.pipe = [])
    (small : forall item, item ∈ client.pipe -> item.Small) : forall item, item ∈ next.pipe -> item.Small := by
  rcases pipe with same | isEmpty
  · rw [same]
    exact small
  · rw [isEmpty]
    exact fun _ member => absurd member List.not_mem_nil

/-- The next item is taken only when nothing is half sent. -/
theorem pipeItemGet (settled : Settled client) {item : PipeItem} {next : RedChannelClient}
    (taken : client.pipeItemGet = some (item, next)) : Idle next ∧ client.pipe = item :: next.pipe := by
  unfold RedChannelClient.pipeItemGet at taken
  split at taken
  · cases taken
  · next free =>
      have unblocked : client.blocked = false := by
        cases isBlocked : client.blocked with
        | false => rfl
        | true =>
            rw [isBlocked] at free
            exact absurd rfl free
      cases isPipe : client.pipe with
      | nil =>
          rw [isPipe] at taken
          cases taken
      | cons head rest =>
          rw [isPipe] at taken
          cases taken
          refine ⟨?_, rfl⟩
          cases settled with
          | idle idle =>
              exact ⟨idle.connected, idle.size, idle.pos, idle.handler, idle.unblocked, idle.mainActive, idle.bytes,
                idle.sequential, idle.serials⟩
          | blocked _ isBlocked =>
              rw [unblocked] at isBlocked
              cases isBlocked
          | gone gone =>
              rw [gone.pipe] at isPipe
              cases isPipe

/-- The items are sent one after the other, until the pipe is empty or the socket is
full. -/
theorem pushLoop (rounds : Nat) (writes : List Write) (settled : Settled client)
    (small : forall item, item ∈ client.pipe -> item.Small) (enough : client.pipe.length < rounds) :
    Exists fun next => RedChannelClient.pushLoop rounds writes client = some next ∧ Settled next ∧
      forall item, item ∈ next.pipe -> item.Small := by
  induction rounds generalizing client writes with
  | zero => exact absurd enough (Nat.not_lt_zero _)
  | succ rounds ih =>
      rw [RedChannelClient.pushLoop]
      cases taken : client.pipeItemGet with
      | none => exact ⟨client, rfl, settled, small⟩
      | some pair =>
          rcases pair with ⟨item, middle⟩
          rcases settled.pipeItemGet taken with ⟨idle, isPipe⟩
          rw [isPipe] at small enough
          rcases idle.sendItem writes (small item List.mem_cons_self) with ⟨next, rest, sent, nextSettled, pipe⟩
          have smallRest : forall item, item ∈ next.pipe -> item.Small :=
            small_of_pipe pipe (fun item member => small item (List.mem_cons_of_mem _ member))
          have few : next.pipe.length < rounds := by
            rw [List.length_cons] at enough
            rcases pipe with same | isEmpty
            · rw [same]
              omega
            · rw [isEmpty, List.length_nil]
              omega
          simp only [sent]
          exact ih rest nextSettled smallRest few

/-- What was blocked goes on. -/
theorem handleOutgoing (settled : Settled client) (blocked : client.blocked = true) (writes : List Write) :
    Exists fun next => Exists fun rest => client.handleOutgoing writes = some (next, rest) ∧ Settled next ∧
      (next.pipe = client.pipe ∨ next.pipe = []) := by
  cases settled with
  | idle idle =>
      rw [idle.unblocked] at blocked
      cases blocked
  | gone gone =>
      rw [gone.unblocked] at blocked
      cases blocked
  | blocked writing _ =>
      have positive : client.handlerSize ≠ 0 := by
        have inside := writing.inside
        have handler := writing.handler
        omega
      have opened : client.openHandler = client := by
        rw [RedChannelClient.openHandler, if_neg positive]
      rcases writing.writeLoop writes with ⟨next, rest, looped, settled, pipe⟩
      refine ⟨next, rest, ?_, settled, pipe⟩
      rw [RedChannelClient.handleOutgoing, writing.connected]
      simp only [Bool.not_true, Bool.false_eq_true, if_false, opened, if_neg positive]
      exact looped

theorem size_or_blocked (settled : Settled client) : (client.size ≠ 0 && !client.blocked) = false := by
  cases settled with
  | idle idle => rw [idle.size]; rfl
  | gone gone => rw [gone.size]; rfl
  | blocked _ isBlocked => rw [isBlocked]; exact Bool.and_false _

theorem resume (settled : Settled client) (writes : List Write) :
    Exists fun next => Exists fun rest => client.resume writes = some (next, rest) ∧ Settled next ∧
      (next.pipe = client.pipe ∨ next.pipe = []) := by
  unfold RedChannelClient.resume
  cases blocked : client.blocked with
  | true => exact settled.handleOutgoing blocked writes
  | false => exact ⟨client, writes, rfl, settled, Or.inl rfl⟩

theorem push (settled : Settled client) (small : forall item, item ∈ client.pipe -> item.Small) (writes : List Write) :
    Exists fun next => client.push writes = some next ∧ Settled next ∧ forall item, item ∈ next.pipe -> item.Small := by
  rcases settled.resume writes with ⟨middle, rest, resumed, middleSettled, pipe⟩
  rcases middleSettled.pushLoop (middle.pipe.length + 1) rest (small_of_pipe pipe small) (Nat.lt_succ_self _) with
    ⟨next, pushed, kept⟩
  refine ⟨next, ?_, kept⟩
  have sent := middleSettled.size_or_blocked
  rw [RedChannelClient.push, resumed]
  simp only [Option.bind_eq_bind, Option.bind_some, sent, Bool.false_eq_true, if_false]
  exact pushed

theorem queue (settled : Settled client) (connected : client.connected = true) (pipe : List PipeItem) :
    Settled { client with pipe := pipe } := by
  cases settled with
  | idle idle =>
      exact .idle ⟨idle.connected, idle.size, idle.pos, idle.handler, idle.unblocked, idle.mainActive, idle.bytes,
        idle.sequential, idle.serials⟩
  | blocked writing isBlocked =>
      exact .blocked ⟨writing.connected, writing.sized, writing.small, writing.handler, writing.inside, writing.stream,
        writing.sequential, writing.serials, writing.waiting⟩ isBlocked
  | gone gone =>
      rw [gone.disconnected] at connected
      cases connected

theorem window (settled : Settled client) (messagesWindow : Nat) :
    Settled { client with messagesWindow := messagesWindow } := by
  cases settled with
  | idle idle =>
      exact .idle ⟨idle.connected, idle.size, idle.pos, idle.handler, idle.unblocked, idle.mainActive, idle.bytes,
        idle.sequential, idle.serials⟩
  | blocked writing isBlocked =>
      exact .blocked ⟨writing.connected, writing.sized, writing.small, writing.handler, writing.inside, writing.stream,
        writing.sequential, writing.serials, writing.waiting⟩ isBlocked
  | gone gone =>
      exact .gone ⟨gone.disconnected, gone.size, gone.unblocked, gone.pipe, gone.stream, gone.sequential⟩

/-- Every step leaves the client idle or in the middle of one message. -/
theorem step (settled : Settled client) (small : forall item, item ∈ client.pipe -> item.Small) {op : Op}
    (smallOp : op.Small) : Exists fun next => client.step op = some next ∧ Settled next ∧
      forall item, item ∈ next.pipe -> item.Small := by
  cases op with
  | pipeAdd position item =>
      cases connected : client.connected with
      | true =>
          refine ⟨_, ?_, settled.queue connected (client.pipe.take position ++ item :: client.pipe.drop position), ?_⟩
          · rw [RedChannelClient.step, if_pos connected]
          · intro other member
            rcases List.mem_append.mp member with before | behind
            · exact small other (List.mem_of_mem_take before)
            · rcases List.mem_cons.mp behind with rfl | after
              · exact smallOp
              · exact small other (List.mem_of_mem_drop after)
      | false =>
          refine ⟨client, ?_, settled, small⟩
          rw [RedChannelClient.step, connected, if_neg (by decide)]
  | push writes => exact settled.push small writes
  | ack => exact ⟨_, rfl, settled.window _, small⟩
  | ackZero => exact ⟨_, rfl, settled.window _, small⟩

theorem create (header : DataHeader) (handleAcks : Bool) (clientWindow : Nat) :
    Settled (RedChannelClient.create header handleAcks clientWindow) :=
  .idle ⟨rfl, rfl, rfl, rfl, rfl, rfl, rfl, Sequential.nil, Or.inl rfl⟩

end Settled

/-- The bytes written are the messages in the order they were begun, all of them
complete but perhaps the last; each was begun when everything before it had been
written; and a connected client has nothing left to send exactly when all are
complete. -/
structure Streamed (client : RedChannelClient) : Prop where
  messages : Exists fun finished => Exists fun unfinished => Exists fun count =>
    client.begun.map Prod.snd = finished ++ unfinished ∧
      client.written = finished.flatten ++ unfinished.flatten.take count ∧
      (unfinished = [] ∨ Exists fun last => unfinished = [last] ∧ count < last.length) ∧
      (client.connected = true -> (unfinished = [] <-> client.size = 0))
  sequential : Sequential client.begun

/-- What was written is a beginning of what was begun. -/
theorem Settled.streamed (settled : Settled client) : Streamed client := by
  cases settled with
  | idle idle =>
      refine ⟨⟨client.begun.map Prod.snd, [], 0, (List.append_nil _).symm, ?_, Or.inl rfl, fun _ => ?_⟩,
        idle.sequential⟩
      · rw [idle.bytes]
        exact (List.append_nil _).symm
      · exact ⟨fun _ => idle.size, fun _ => rfl⟩
  | blocked writing _ =>
      rcases writing.stream with ⟨finished, messages, bytes⟩
      have inside := writing.inside
      refine ⟨⟨finished, [client.current], client.pos, messages, ?_, Or.inr ⟨client.current, rfl, ?_⟩, fun _ => ?_⟩,
        writing.sequential⟩
      · rw [bytes, List.flatten_singleton]
      · rw [<- writing.sized]
        exact inside
      · constructor
        · intro wrong
          cases wrong
        · intro wrong
          omega
  | gone gone =>
      rcases gone.stream with ⟨finished, last, count, inside, messages, bytes⟩
      refine ⟨⟨finished, [last], count, messages, ?_, Or.inr ⟨last, rfl, inside⟩, fun connected => ?_⟩, gone.sequential⟩
      · rw [bytes, List.flatten_singleton]
      · rw [gone.disconnected] at connected
        cases connected

/-- For every sequence of items in the pipe with small messages, of pushes and of
answers of the socket, no assertion fails and the messages are streamed. -/
theorem outgoing_stream (header : DataHeader) (handleAcks : Bool) (clientWindow : Nat) (ops : List Op)
    (small : forall op, op ∈ ops -> op.Small) :
    AllStates RedChannelClient.step (fun _ client => Streamed client) []
      (RedChannelClient.create header handleAcks clientWindow) ops := by
  let Inv : List Op -> RedChannelClient -> Prop :=
    fun _ client => Settled client ∧ forall item, item ∈ client.pipe -> item.Small
  have keep : forall (past : List Op) (client : RedChannelClient) (op : Op), Inv past client -> op.Small ->
      Exists fun next => client.step op = some next ∧ Inv (past ++ [op]) next :=
    fun _ _ _ inv smallOp => inv.1.step inv.2 smallOp
  have meets : Meets RedChannelClient.step (fun _ _ op => op.Small) []
      (RedChannelClient.create header handleAcks clientWindow) ops :=
        Meets.of_mem (fun _ _ op member => small op member)
  have safe : forall (past : List Op) (client : RedChannelClient), Inv past client -> Streamed client :=
    fun _ _ inv => inv.1.streamed
  exact allStates_of_meets safe keep ⟨Settled.create header handleAcks clientWindow,
    fun _ member => absurd member List.not_mem_nil⟩ meets

/-- A message, of which the socket takes a part first, and then one with released images. -/
def urgentRun : List Op :=
  [.pipeAdd 0 (.message ⟨103, by decide⟩ [7]), .push [.accept 4], .push [.accept 100],
    .pipeAdd 0 (.releasing ⟨304, by decide⟩ [8, 9] ⟨105, by decide⟩ [5] [] 0), .push [.accept 3, .again],
      .push [.accept 4, .accept 100]]

theorem outgoing_stream_urgent : (run RedChannelClient.step (RedChannelClient.create .mini false 20) urgentRun).map
        (fun client => client.written) =
          some [103, 0, 1, 0, 0, 0, 7, 105, 0, 1, 0, 0, 0, 5, 48, 1, 2, 0, 0, 0, 8, 9] ∧
      AllStates RedChannelClient.step (fun _ client => Streamed client) []
        (RedChannelClient.create .mini false 20) urgentRun :=
  ⟨by decide +kernel, outgoing_stream .mini false 20 urgentRun (by decide)⟩

def twoMessages (body : List UInt8) : List Op :=
  [.pipeAdd 0 (.message ⟨103, by decide⟩ body), .pipeAdd 1 (.message ⟨103, by decide⟩ [7]), .push [.accept 100]]

/-- If the size of the first message is 0 with 32 bits, nothing of it is written, and the second one is begun. -/
theorem run_twoMessages {body : List UInt8} (full : (6 + body.length) % 2 ^ 32 = 0) :
    Exists fun client => run RedChannelClient.step (RedChannelClient.create .mini false 20) (twoMessages body) =
      some client ∧
      client.written = [103, 0, 1, 0, 0, 0, 7] ∧
        client.begun.map (fun entry => (entry.1, entry.2.length)) = [(0, 6 + body.length), (0, 7)] := by
  have full : (6 + body.length) % 4294967296 = 0 := full
  simp [twoMessages, run, RedChannelClient.step, RedChannelClient.create, RedChannelClient.push,
    RedChannelClient.resume,
    RedChannelClient.pushLoop, RedChannelClient.pipeItemGet, RedChannelClient.waitingForAck, RedChannelClient.sendItem,
    RedChannelClient.resetSendData, RedChannelClient.emptied, RedChannelClient.setMarshaller,
      RedChannelClient.nextSerial,
    RedChannelClient.channelSendItem, RedChannelClient.initSendData, RedChannelClient.fill,
    RedChannelClient.beginSendMessage, RedChannelClient.startMessage, RedChannelClient.handleOutgoing, full,
    RedChannelClient.openHandler, RedChannelClient.marshaller, Marshaller.totalSize, DataHeader.headerSize]
  simp [RedChannelClient.writeLoop.eq_def, RedChannelClient.left, RedChannelClient.current, RedChannelClient.marshaller,
    RedChannelClient.output, RedChannelClient.onOutMsgDone, RedChannelClient.messageSent, Marshaller.bytes,
    Marshaller.headerBytes, toLittleEndian, Marshaller.reset]
  omega

theorem twoMessages_not_streamed {body : List UInt8} (full : (6 + body.length) % 2 ^ 32 = 0) :
    Not (AllStates RedChannelClient.step (fun _ client => Streamed client) []
      (RedChannelClient.create .mini false 20) (twoMessages body)) := by
  intro all
  rcases all _ List.prefix_rfl with ⟨client, ran, streamed⟩
  rcases run_twoMessages full with ⟨other, otherRan, -, begun⟩
  have same : client = other := Option.some.inj (ran.symm.trans otherRan)
  rw [<- same] at begun
  rcases List.map_eq_cons_iff.mp begun with ⟨first, rest, isBegun, isFirst, isRest⟩
  rcases List.map_eq_cons_iff.mp isRest with ⟨second, _, isTail, isSecond, -⟩
  have behind := streamed.sequential [first] second _ (by rw [isBegun, isTail]; rfl)
  have start : second.1 = 0 := congrArg Prod.fst isSecond
  have length : first.2.length = 6 + body.length := congrArg Prod.snd isFirst
  rw [start, List.map_singleton, List.flatten_singleton, length] at behind
  omega

/-- The first message has 2^32 bytes with its header. -/
theorem huge_message_not_written : Not (AllStates RedChannelClient.step (fun _ client => Streamed client) []
    (RedChannelClient.create .mini false 20) (twoMessages (List.replicate (2 ^ 32 - 6) 0))) := by
  apply twoMessages_not_streamed
  rw [List.length_replicate]
  decide

end Outgoing
end Spice
