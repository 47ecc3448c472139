import Spice.Lib.Run

namespace Spice
namespace Serials

open Lib

/-!
# The serials of a channel without serials on the wire

With the mini header a message has no serial; the server and the client count the
messages alike.  The server takes a serial when it starts to fill a marshaller, gives
it back if nothing is sent, and takes one more for an urgent message that goes before
the main one.  The client counts a message when it is done with it; a `MIGRATE` is done
only after the `MIGRATE_DATA` that the client receives while it handles it.

In a migration the client sends the data on to the target, which goes on with the
serial in it.
-/

/-- What a message is, as far as the counts are concerned.  `MIGRATE` has
`SPICE_MIGRATE_NEED_DATA_TRANSFER` set, and `MIGRATE_DATA` has `message_serial` in it. -/
inductive Kind
  | message
  | urgent
  | migrate
  | migrateData (messageSerial : BitVec 64)
  deriving DecidableEq, Repr

/-- A message that was begun, with `last_sent_serial` at that moment. -/
structure Sent where
  kind : Kind
  serial : BitVec 64
  deriving DecidableEq, Repr

/-- The serial by which a message is counted.  The serial that the server holds for an urgent
message is already that of the main one. -/
def Sent.counted (sent : Sent) : BitVec 64 :=
  match sent.kind with
  | .urgent => sent.serial - 1
  | _ => sent.serial

/-- How the client received a message: by itself, or as `MIGRATE` with another message
received in its handler, or as that other message. -/
inductive Role
  | alone
  | outer
  | inner
  deriving DecidableEq, Repr

/-- A message that the client is done with: the value of `in_serial` with which it was
processed, and what was then published as `last_message_serial`. -/
structure Handled where
  sent : Sent
  role : Role
  inSerial : BitVec 64
  published : BitVec 64
  deriving DecidableEq, Repr

/-- What is being written: an urgent message is followed by the main one. -/
inductive Writing
  | nothing
  | main
  | urgent
  deriving DecidableEq, Repr

/-- `send_data` of the server, the link, and the counts of the client.  `asserted` says that
an assertion failed, `handling` is a `MIGRATE` that waits for the next message, `target` is
the serial that the client has sent on to the target; `received` and `handled` are a
history. -/
structure SerialChannel where
  serial : BitVec 64
  lastSentSerial : BitVec 64
  writing : Writing
  asserted : Bool
  toClient : List Sent
  target : Option (BitVec 64)
  inSerial : BitVec 64
  lastMessageSerial : BitVec 64
  handling : Option Sent
  received : List Sent
  handled : List Handled
  deriving DecidableEq, Repr

namespace SerialChannel

variable (channel : SerialChannel)

/-- The serial that `red_channel_client_reset_send_data` leaves; nothing if its assertion
fails. -/
def resetSerial (urgentActive : Bool) : Option (BitVec 64) :=
  if channel.lastSentSerial ≠ channel.serial then
    if channel.serial - channel.lastSentSerial = 1 then
      some ((if urgentActive then channel.serial else channel.lastSentSerial) + 1)
    else none
  else some (channel.serial + 1)

def resetSendData (urgentActive : Bool) : SerialChannel :=
  match channel.resetSerial urgentActive with
  | none => { channel with asserted := true }
  | some serial => { channel with serial := serial }

def beginSendMessage (kind : Kind) : SerialChannel :=
  { channel with
    lastSentSerial := channel.serial
    toClient := channel.toClient ++ [{ kind := kind, serial := channel.serial }] }

/-- The messages that a pipe item may need. -/
inductive Item
  | message
  | withUrgent
  | migrate
  | migrateData
  deriving DecidableEq, Repr

/-- `red_channel_client_send_item`; with `red_channel_client_switch_to_urgent_sender` for a
message that needs another before it. -/
def sendItem (item : Item) : SerialChannel :=
  let channel := channel.resetSendData false
  match item with
  | .message => { channel.beginSendMessage .message with writing := .main }
  | .withUrgent => { (channel.resetSendData true).beginSendMessage .urgent with writing := .urgent }
  | .migrate => { channel.beginSendMessage .migrate with writing := .main }
  | .migrateData => { channel.beginSendMessage (.migrateData channel.serial) with writing := .main }

def onOutMsgDone : Option SerialChannel :=
  match channel.writing with
  | .nothing => none
  | .main => some { channel with writing := .nothing }
  -- `red_channel_client_restore_main_sender`
  | .urgent => some { channel.beginSendMessage .message with writing := .main }

/-- The end of `spice_channel_recv_msg`. -/
def done (sent : Sent) (role : Role) (inSerial : BitVec 64) : SerialChannel :=
  { channel with
    lastMessageSerial := channel.inSerial
    inSerial := channel.inSerial + 1
    handled :=
      channel.handled ++ [{ sent := sent, role := role, inSerial := inSerial, published := channel.inSerial }] }

/-- `spice_session_channel_migrate` in a seamless migration: the messages of the source are no
longer read, and the counts stay. -/
def swap (messageSerial : BitVec 64) : SerialChannel :=
  { channel with toClient := [], target := some messageSerial }

/-- The rest of `spice_channel_handle_migrate` after the next message was received. -/
def handleMigrate (data : Sent) : SerialChannel :=
  match data.kind with
  | .migrateData messageSerial => channel.swap messageSerial
  | _ => channel

/-- `spice_channel_recv_msg`, at the top or in `spice_channel_handle_migrate`. -/
def recvMsg : Option SerialChannel :=
  match channel.toClient with
  | [] => none
  | sent :: rest =>
      let next := { channel with toClient := rest, received := channel.received ++ [sent] }
      match channel.handling with
      | some outer =>
          some (({ next.done sent .inner channel.inSerial with handling := none }.handleMigrate sent).done outer .outer
            channel.inSerial)
      | none =>
          match sent.kind with
          | .migrate => some { next with handling := some sent }
          | _ => some (next.done sent .alone channel.inSerial)

/-- `red_channel_client_set_message_serial` of the target, when it is sent the data. -/
def handleMigrateData : Option SerialChannel :=
  match channel.target with
  | none => none
  | some messageSerial =>
      some { channel with
        serial := messageSerial
        lastSentSerial := messageSerial
        writing := .nothing
        target := none }

/-- A new channel. -/
def create : SerialChannel where
  serial := 0
  lastSentSerial := 0
  writing := .nothing
  asserted := false
  toClient := []
  target := none
  inSerial := 1
  lastMessageSerial := 0
  handling := none
  received := []
  handled := []

end SerialChannel

/-- What happens to a channel. -/
inductive SerialOp
  | resetSendData
  | sendItem (item : SerialChannel.Item)
  | outMsgDone
  | recvMsg
  | handleMigrateData
  deriving DecidableEq, Repr

/-- The server fills a marshaller when nothing is being written; a target waits for its data
first. -/
def SerialChannel.step (channel : SerialChannel) : SerialOp -> Option SerialChannel
  | .resetSendData =>
      if channel.writing = .nothing ∧ channel.target = none then some (channel.resetSendData false) else none
  | .sendItem item =>
      if channel.writing = .nothing ∧ channel.target = none then some (channel.sendItem item) else none
  | .outMsgDone => if channel.target = none then channel.onOutMsgDone else none
  | .recvMsg => channel.recvMsg
  | .handleMigrateData => channel.handleMigrateData

/-- The serials of a message at both ends. -/
def Handled.Agrees (handled : Handled) : Prop :=
  match handled.role with
  | .alone => handled.inSerial = handled.sent.counted ∧ handled.published = handled.sent.counted
  | .outer => handled.inSerial = handled.sent.counted ∧ handled.published = handled.sent.counted + 1
  | .inner => handled.inSerial + 1 = handled.sent.counted ∧ handled.published + 1 = handled.sent.counted

/-- Both ends count alike: no assertion fails, the messages that the client receives are
counted one after the other, each is processed with the serial by which it is counted,
but one that is received in the handler of another with the serial of that one, and when
nothing is being handled the serial of the last one is published. -/
structure SerialsAgree (channel : SerialChannel) : Prop where
  asserted : channel.asserted = false
  handled : forall handled, handled ∈ channel.handled -> handled.Agrees
  consecutive : forall before one other rest, channel.received = before ++ one :: other :: rest ->
    other.counted = one.counted + 1
  published : channel.handling = none -> forall before last, channel.received = before ++ [last] ->
    channel.lastMessageSerial = last.counted ∧ channel.inSerial = last.counted + 1

/-- Every message is processed and published with `last_sent_serial` as it was when the
message was begun, and these follow each other by one. -/
structure SerialsEqual (channel : SerialChannel) : Prop where
  asserted : channel.asserted = false
  handled : forall handled, handled ∈ channel.handled ->
    handled.inSerial = handled.sent.serial ∧ handled.published = handled.sent.serial
  consecutive : forall before one other rest, channel.received = before ++ one :: other :: rest ->
    other.serial = one.serial + 1

/-!
## What is on the link
-/

/-- Messages that are counted one after the other. -/
def Chain : BitVec 64 -> List Sent -> BitVec 64 -> Prop
  | first, [], next => first = next
  | first, sent :: rest, next => sent.counted = first ∧ Chain (first + 1) rest next

theorem Chain.snoc {first next : BitVec 64} {sents : List Sent} {sent : Sent} (chain : Chain first sents next)
    (counted : sent.counted = next) : Chain first (sents ++ [sent]) (next + 1) := by
  induction sents generalizing first with
  | nil =>
      cases chain
      exact ⟨counted, rfl⟩
  | cons head rest ih => exact ⟨chain.1, ih chain.2⟩

theorem Chain.last {first next : BitVec 64} {before : List Sent} {last : Sent}
    (chain : Chain first (before ++ [last]) next) : next = last.counted + 1 := by
  induction before generalizing first with
  | nil =>
      rw [chain.1]
      exact chain.2.symm
  | cons head rest ih => exact ih chain.2

theorem Chain.consecutive {first next : BitVec 64} {before rest : List Sent} {one other : Sent}
    (chain : Chain first (before ++ one :: other :: rest) next) : other.counted = one.counted + 1 := by
  induction before generalizing first with
  | nil =>
      rw [chain.1]
      exact chain.2.1
  | cons head others ih => exact ih chain.2

namespace SerialChannel

variable (channel : SerialChannel)

/-- How the next message that the client receives is counted. -/
def expected : BitVec 64 := if channel.handling = none then channel.inSerial else channel.inSerial + 1

/-- How the next message that the server begins is counted. -/
def following : BitVec 64 :=
  if channel.writing = .urgent then channel.lastSentSerial else channel.lastSentSerial + 1

end SerialChannel

/-- What holds between the two counts. -/
structure Agrees (channel : SerialChannel) : Prop where
  asserted : channel.asserted = false
  idle : channel.writing = .nothing -> channel.serial = channel.lastSentSerial ∨
    channel.serial = channel.lastSentSerial + 1
  busy : channel.writing ≠ .nothing -> channel.serial = channel.lastSentSerial
  link : channel.target = none -> Chain channel.expected channel.toClient channel.following
  migrated : forall messageSerial, channel.target = some messageSerial ->
    channel.toClient = [] ∧ channel.handling = none ∧ channel.inSerial = messageSerial + 1
  history : Chain 1 channel.received channel.expected
  published : channel.handling = none -> channel.inSerial = channel.lastMessageSerial + 1
  handled : forall handled, handled ∈ channel.handled -> handled.Agrees
  outer : forall outer, channel.handling = some outer -> outer.counted = channel.inSerial
  data : forall sent, sent ∈ channel.toClient -> forall messageSerial, sent.kind = .migrateData messageSerial ->
    messageSerial = sent.serial

namespace Agrees

variable {channel : SerialChannel}

theorem create : Agrees SerialChannel.create where
  asserted := rfl
  idle := fun _ => Or.inl rfl
  busy := fun busy => absurd rfl busy
  link := fun _ => rfl
  migrated := by rintro _ ⟨⟩
  history := rfl
  published := fun _ => rfl
  handled := fun _ member => absurd member List.not_mem_nil
  outer := by rintro _ ⟨⟩
  data := fun _ member => absurd member List.not_mem_nil

theorem resetSerial_main (inv : Agrees channel) (idle : channel.writing = .nothing) :
    channel.resetSerial false = some (channel.lastSentSerial + 1) := by
  unfold SerialChannel.resetSerial
  rcases inv.idle idle with same | next
  · rw [if_neg (fun different => different same.symm), same]
  · by_cases same : channel.lastSentSerial = channel.serial
    · rw [if_neg (fun different => different same), <- same]
    · rw [if_pos same, if_pos (by rw [next]; bv_omega)]
      rfl

theorem resetSendData_main (inv : Agrees channel) (idle : channel.writing = .nothing) :
    channel.resetSendData false = { channel with serial := channel.lastSentSerial + 1 } := by
  unfold SerialChannel.resetSendData
  rw [inv.resetSerial_main idle]

theorem resetSendData_urgent (channel : SerialChannel) :
    { channel with serial := channel.lastSentSerial + 1 }.resetSendData true =
      { channel with serial := channel.lastSentSerial + 2 } := by
  have differ : channel.lastSentSerial ≠ channel.lastSentSerial + 1 := by bv_omega
  have isNext : channel.lastSentSerial + 1 - channel.lastSentSerial = 1 := by bv_omega
  have two : channel.lastSentSerial + 1 + 1 = channel.lastSentSerial + 2 := by bv_omega
  unfold SerialChannel.resetSendData SerialChannel.resetSerial
  dsimp only
  rw [if_pos differ, if_pos isNext, if_pos rfl, two]

theorem resetSendData (inv : Agrees channel) (idle : channel.writing = .nothing) :
    Agrees (channel.resetSendData false) := by
  rw [inv.resetSendData_main idle]
  exact ⟨inv.asserted, fun _ => Or.inr rfl, fun busy => absurd idle busy, inv.link, inv.migrated, inv.history,
    inv.published, inv.handled, inv.outer, inv.data⟩

/-- A message that is begun gets the serial that follows. -/
theorem beginSendMessage (inv : Agrees channel) (here : channel.target = none) (writing : Writing) (kind : Kind)
    (serial : BitVec 64) (isNext : Sent.counted ⟨kind, serial⟩ = channel.following)
    (busy : writing = .nothing -> False)
    (follows : (if writing = .urgent then serial else serial + 1) = channel.following + 1)
    (data : forall messageSerial, kind = .migrateData messageSerial -> messageSerial = serial) :
    Agrees { { channel with serial := serial }.beginSendMessage kind with writing := writing } := by
  refine ⟨inv.asserted, fun idle => absurd idle busy, fun _ => rfl, fun _ => ?_, ?_, inv.history, inv.published,
    inv.handled, inv.outer, ?_⟩
  · have chain := (inv.link here).snoc isNext
    rw [<- follows] at chain
    exact chain
  · intro messageSerial isTarget
    rw [here] at isTarget
    cases isTarget
  · intro sent member messageSerial isData
    rcases List.mem_append.mp member with old | new
    · exact inv.data sent old messageSerial isData
    · rw [List.mem_singleton.mp new] at isData ⊢
      exact data messageSerial isData

/-- An item is begun, and an urgent one before it. -/
theorem sendItem (inv : Agrees channel) (idle : channel.writing = .nothing) (here : channel.target = none)
    (item : SerialChannel.Item) : Agrees (channel.sendItem item) := by
  have following : channel.following = channel.lastSentSerial + 1 := by
    unfold SerialChannel.following
    rw [idle]
    rfl
  unfold SerialChannel.sendItem
  rw [inv.resetSendData_main idle]
  cases item with
  | message =>
      refine inv.beginSendMessage here .main .message _ following.symm (by rintro ⟨⟩) ?_ (by rintro _ ⟨⟩)
      rw [following]
      rfl
  | withUrgent =>
      dsimp only
      rw [resetSendData_urgent]
      refine inv.beginSendMessage here .urgent .urgent _ ?_ (by rintro ⟨⟩) ?_ (by rintro _ ⟨⟩)
      · rw [following]
        show channel.lastSentSerial + 2 - 1 = channel.lastSentSerial + 1
        bv_omega
      · rw [following]
        show channel.lastSentSerial + 2 = channel.lastSentSerial + 1 + 1
        bv_omega
  | migrate =>
      refine inv.beginSendMessage here .main .migrate _ following.symm (by rintro ⟨⟩) ?_ (by rintro _ ⟨⟩)
      rw [following]
      rfl
  | migrateData =>
      refine inv.beginSendMessage here .main (.migrateData _) _ following.symm (by rintro ⟨⟩) ?_ (by rintro _ ⟨⟩; rfl)
      rw [following]
      rfl

/-- After an urgent message the main one is begun. -/
theorem onOutMsgDone (inv : Agrees channel) (here : channel.target = none) {next : SerialChannel}
    (stepped : channel.onOutMsgDone = some next) : Agrees next := by
  unfold SerialChannel.onOutMsgDone at stepped
  split at stepped
  · cases stepped
  · next isMain =>
    cases stepped
    have same := inv.busy (by rw [isMain]; decide)
    refine ⟨inv.asserted, fun _ => Or.inl same, fun busy => absurd rfl busy, fun _ => ?_, inv.migrated, inv.history,
      inv.published, inv.handled, inv.outer, inv.data⟩
    have chain := inv.link here
    unfold SerialChannel.following at chain
    rw [isMain] at chain
    exact chain
  · next isUrgent =>
    cases stepped
    have same := inv.busy (by rw [isUrgent]; decide)
    have following : channel.following = channel.serial := by
      unfold SerialChannel.following
      rw [isUrgent, same]
      rfl
    refine inv.beginSendMessage here .main .message channel.serial following.symm (by rintro ⟨⟩) ?_ (by rintro _ ⟨⟩)
    rw [following]
    rfl

theorem next (inv : Agrees channel) {sent : Sent} {rest : List Sent} (isNext : channel.toClient = sent :: rest) :
    channel.target = none ∧ sent.counted = channel.expected ∧ Chain (channel.expected + 1) rest channel.following := by
  have here : channel.target = none := by
    cases isTarget : channel.target with
    | none => rfl
    | some messageSerial =>
        have nothing := (inv.migrated messageSerial isTarget).1
        rw [isNext] at nothing
        cases nothing
  have chain := inv.link here
  rw [isNext] at chain
  exact ⟨here, chain.1, chain.2⟩

/-- A message is received by itself. -/
theorem recvAlone (inv : Agrees channel) {sent : Sent} {rest : List Sent} (isNext : channel.toClient = sent :: rest)
    (notHandling : channel.handling = none) :
    Agrees ({ channel with
      toClient := rest
      received := channel.received ++ [sent] }.done sent .alone channel.inSerial) := by
  rcases inv.next isNext with ⟨here, counted, chain⟩
  have expected : channel.expected = channel.inSerial := if_pos notHandling
  have nextExpected : ({ channel with toClient := rest, received := channel.received ++ [sent] }.done sent .alone
      channel.inSerial).expected = channel.inSerial + 1 := if_pos notHandling
  rw [expected] at counted chain
  refine ⟨inv.asserted, inv.idle, inv.busy, fun _ => ?_, ?_, ?_, fun _ => rfl, ?_, ?_, ?_⟩
  · rw [nextExpected]
    exact chain
  · intro messageSerial isTarget
    rw [show _ = none from here] at isTarget
    cases isTarget
  · have history := inv.history
    rw [expected] at history
    rw [nextExpected]
    exact history.snoc counted
  · intro handled member
    rcases List.mem_append.mp member with old | new
    · exact inv.handled handled old
    · rw [List.mem_singleton.mp new]
      exact ⟨counted.symm, counted.symm⟩
  · intro outer isOuter
    rw [show _ = none from notHandling] at isOuter
    cases isOuter
  · intro other member
    refine inv.data other ?_
    rw [isNext]
    exact List.mem_cons_of_mem _ member

/-- A MIGRATE is received, and its handler receives the data. -/
theorem recvMigrate (inv : Agrees channel) {sent : Sent} {rest : List Sent} (isNext : channel.toClient = sent :: rest)
    (notHandling : channel.handling = none) :
    Agrees { channel with toClient := rest, received := channel.received ++ [sent], handling := some sent } := by
  rcases inv.next isNext with ⟨here, counted, chain⟩
  have expected : channel.expected = channel.inSerial := if_pos notHandling
  rw [expected] at counted chain
  refine ⟨inv.asserted, inv.idle, inv.busy, fun _ => chain, ?_, ?_, by rintro ⟨⟩, inv.handled, ?_, ?_⟩
  · intro messageSerial isTarget
    rw [show _ = none from here] at isTarget
    cases isTarget
  · have history := inv.history
    rw [expected] at history
    exact history.snoc counted
  · rintro outer ⟨⟩
    exact counted
  · intro other member
    refine inv.data other ?_
    rw [isNext]
    exact List.mem_cons_of_mem _ member

/-- What is left after the message that `MIGRATE` waits for. -/
def afterData (channel : SerialChannel) (sent outer : Sent) (toClient : List Sent) (target : Option (BitVec 64)) :
    SerialChannel :=
  { channel with
    toClient := toClient
    target := target
    received := channel.received ++ [sent]
    handling := none
    lastMessageSerial := channel.inSerial + 1
    inSerial := channel.inSerial + 1 + 1
    handled := channel.handled ++ [⟨sent, .inner, channel.inSerial, channel.inSerial⟩] ++
      [⟨outer, .outer, channel.inSerial, channel.inSerial + 1⟩] }

/-- The message that `MIGRATE` waits for is received, and both are done with. -/
theorem recvInner (inv : Agrees channel) {sent outer : Sent} {rest : List Sent}
    (isNext : channel.toClient = sent :: rest)
    (handling : channel.handling = some outer) {toClient : List Sent} {target : Option (BitVec 64)}
    (left : (toClient = rest ∧ target = none) ∨
      (toClient = [] ∧ Exists fun messageSerial => sent.kind = .migrateData messageSerial ∧
        target = some messageSerial)) :
    Agrees (afterData channel sent outer toClient target) := by
  rcases inv.next isNext with ⟨here, counted, chain⟩
  have isOuter := inv.outer outer handling
  have expected : channel.expected = channel.inSerial + 1 := by
    unfold SerialChannel.expected
    rw [handling]
    rfl
  rw [expected] at counted chain
  refine ⟨inv.asserted, inv.idle, inv.busy, ?_, ?_, ?_, fun _ => rfl, ?_, by rintro _ ⟨⟩, ?_⟩
  · rintro isHere
    rcases left with ⟨rfl, -⟩ | ⟨-, messageSerial, -, isTarget⟩
    · exact chain
    · rw [show target = none from isHere] at isTarget
      cases isTarget
  · intro messageSerial isTarget
    rcases left with ⟨-, isNone⟩ | ⟨rfl, found, isData, isSome⟩
    · rw [show target = some messageSerial from isTarget] at isNone
      cases isNone
    · rw [show target = some messageSerial from isTarget] at isSome
      cases isSome
      refine ⟨rfl, rfl, ?_⟩
      have isSerial := inv.data sent (by rw [isNext]; exact List.mem_cons_self) messageSerial isData
      have sameCount : sent.counted = sent.serial := by
        unfold Sent.counted
        rw [isData]
      show channel.inSerial + 1 + 1 = messageSerial + 1
      rw [isSerial, <- sameCount, counted]
  · have history := inv.history
    rw [expected] at history
    exact history.snoc counted
  · intro handled member
    rcases List.mem_append.mp member with before | isLast
    · rcases List.mem_append.mp before with old | new
      · exact inv.handled handled old
      · rw [List.mem_singleton.mp new]
        exact ⟨counted.symm, counted.symm⟩
    · rw [List.mem_singleton.mp isLast]
      refine ⟨isOuter.symm, ?_⟩
      show channel.inSerial + 1 = outer.counted + 1
      rw [isOuter]
  · intro other member
    refine inv.data other ?_
    rw [isNext]
    rcases left with ⟨rfl, -⟩ | ⟨rfl, -⟩
    · exact List.mem_cons_of_mem _ member
    · cases member

/-- Any message is received. -/
theorem recvMsg (inv : Agrees channel) {next : SerialChannel} (stepped : channel.recvMsg = some next) :
    Agrees next := by
  unfold SerialChannel.recvMsg at stepped
  split at stepped
  · cases stepped
  · next sent rest isNext =>
    dsimp only at stepped
    split at stepped
    · next outer handling =>
      cases stepped
      have here := (inv.next isNext).1
      unfold SerialChannel.handleMigrate
      split
      · next messageSerial isData =>
        exact inv.recvInner isNext handling (Or.inr ⟨rfl, messageSerial, isData, rfl⟩)
      · have received := inv.recvInner isNext handling (Or.inl ⟨rfl, rfl⟩)
        unfold afterData at received
        rw [<- here] at received
        exact received
    · next notHandling =>
      split at stepped
      · cases stepped
        exact inv.recvMigrate isNext notHandling
      · cases stepped
        exact inv.recvAlone isNext notHandling

theorem handleMigrateData (inv : Agrees channel) {next : SerialChannel}
    (stepped : channel.handleMigrateData = some next) : Agrees next := by
  unfold SerialChannel.handleMigrateData at stepped
  split at stepped
  · cases stepped
  · next messageSerial isTarget =>
    cases stepped
    rcases inv.migrated messageSerial isTarget with ⟨nothing, notHandling, isSerial⟩
    refine ⟨inv.asserted, fun _ => Or.inl rfl, fun busy => absurd rfl busy, fun _ => ?_, by rintro _ ⟨⟩, inv.history,
      inv.published, inv.handled, inv.outer, inv.data⟩
    show Chain channel.expected channel.toClient (messageSerial + 1)
    rw [nothing, <- isSerial]
    exact if_pos notHandling

/-- Every step keeps both ends at the same count. -/
theorem step (inv : Agrees channel) {op : SerialOp} {next : SerialChannel} (stepped : channel.step op = some next) :
    Agrees next := by
  cases op with
  | resetSendData =>
      simp only [SerialChannel.step] at stepped
      split at stepped
      · next allowed =>
        cases stepped
        exact inv.resetSendData allowed.1
      · cases stepped
  | sendItem item =>
      simp only [SerialChannel.step] at stepped
      split at stepped
      · next allowed =>
        cases stepped
        exact inv.sendItem allowed.1 allowed.2 item
      · cases stepped
  | outMsgDone =>
      simp only [SerialChannel.step] at stepped
      split at stepped
      · next here => exact inv.onOutMsgDone here stepped
      · cases stepped
  | recvMsg => exact inv.recvMsg stepped
  | handleMigrateData => exact inv.handleMigrateData stepped

/-- What both ends count is the same. -/
theorem serials (inv : Agrees channel) : SerialsAgree channel where
  asserted := inv.asserted
  handled := inv.handled
  consecutive := by
    intro before one other rest isReceived
    have history := inv.history
    rw [isReceived] at history
    exact history.consecutive
  published := by
    intro notHandling before last isReceived
    have history := inv.history
    rw [isReceived, show channel.expected = channel.inSerial from if_pos notHandling] at history
    have isLast := history.last
    have published := inv.published notHandling
    refine ⟨?_, isLast⟩
    have both : channel.lastMessageSerial + 1 = last.counted + 1 := published.symm.trans isLast
    bv_omega

end Agrees

/-- The server and the client count alike in every run, across urgent messages, serials that are
given back, and a migration. -/
theorem serials_agree (ops : List SerialOp) (channel : SerialChannel)
    (ran : run SerialChannel.step SerialChannel.create ops = some channel) : SerialsAgree channel := by
  have keep : forall (_ : List SerialOp) (channel : SerialChannel) (op : SerialOp) (next : SerialChannel),
      Agrees channel -> channel.step op = some next -> Agrees next :=
    fun _ _ _ _ inv stepped => inv.step stepped
  exact (run_invariant keep ops [] SerialChannel.create channel Agrees.create ran).serials

/-- A serial that is given back, an urgent message, and a migration after which the target sends
a message. -/
def migration : List SerialOp :=
  [.resetSendData, .sendItem .withUrgent, .outMsgDone, .outMsgDone, .recvMsg, .recvMsg,
   .sendItem .migrate, .outMsgDone, .recvMsg, .sendItem .migrateData, .outMsgDone, .recvMsg,
   .handleMigrateData, .sendItem .message, .outMsgDone, .recvMsg]

theorem serials_agree_migration :
    Exists fun channel => run SerialChannel.step SerialChannel.create migration = some channel ∧
      channel.lastMessageSerial = 5 ∧ SerialsAgree channel :=
  ⟨_, rfl, by decide, serials_agree migration _ rfl⟩

/-- An urgent message is begun with the serial of the main one. -/
theorem urgent_serial_ahead : Not (forall (ops : List SerialOp) (channel : SerialChannel),
      run SerialChannel.step SerialChannel.create ops = some channel -> SerialsEqual channel) := by
  intro equal
  have processed := (equal [.sendItem .withUrgent, .outMsgDone, .outMsgDone, .recvMsg] _ rfl).handled
    ⟨⟨.urgent, 2⟩, .alone, 1, 1⟩ (by decide)
  exact absurd processed.1 (by decide)

end Serials
end Spice
