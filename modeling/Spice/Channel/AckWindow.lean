import Spice.Lib.Run

namespace Spice
namespace AckWindow

open Lib

/-!
# Acknowledgements between a channel and its client

The server counts the messages that it begins and stops when there are more than two
windows of them.  `SET_ACK` starts a new count: it tells the client the window and the
generation of the count.  The client answers with `ACK_SYNC` and from then on sends an
`ACK` after every window of messages, each of which takes a window off the server's
count, if the generation it belongs to is still the one that the server counts for.

Both links keep the order of what is sent on them; nothing else is known about when it
arrives.  A message is on the link from when it is begun.
-/

/-- What the server sends: `SPICE_MSG_SET_ACK`, or any other message. -/
inductive Sent
  | setAck (generation window : Nat)
  | message
  deriving DecidableEq, Repr

/-- What the client answers: `SPICE_MSGC_ACK_SYNC` and `SPICE_MSGC_ACK`.  To which `SET_ACK`
of the channel an `ACK` belongs is only for the proofs. -/
inductive Reply
  | ackSync (generation : Nat)
  | ack (belongs : Nat)
  deriving DecidableEq, Repr

/-- What is being written: an urgent message is followed by the main one. -/
inductive Writing
  | nothing
  | main
  | urgent
  deriving DecidableEq, Repr

/-- A pipe item: `PIPE_ITEM_TYPE_SET_ACK`, one with a message, and one of the display channel
whose message needs an urgent one before it. -/
inductive PipeItem
  | setAck
  | message
  | withUrgent
  deriving DecidableEq, Repr

/-- `ack_data` of the server, the two links, and the client's counters; then a history: the
`SET_ACK`s that were begun, and of the last of them the messages begun after it and the
`ACK`s honoured; both since the first `SET_ACK`; the `SET_ACK`s that the client has handled
with the messages received after the last of them, and those whose answer the server has. -/
structure AckChannel where
  clientWindow : Nat
  generation : Nat
  clientGeneration : Nat
  messagesWindow : Nat
  writing : Writing
  toClient : List Sent
  toServer : List Reply
  messageAckWindow : Nat
  messageAckCount : Nat
  setAcks : Nat
  begun : Nat
  honoured : Nat
  allBegun : Nat
  allHonoured : Nat
  handled : Nat
  received : Nat
  answered : Nat
  deriving DecidableEq, Repr

namespace AckChannel

variable (channel : AckChannel)

/-- `red_channel_client_waiting_for_ack`, with `handle_acks`. -/
def waitingForAck : Bool := decide (channel.messagesWindow > channel.clientWindow * 2 % 2 ^ 32)

def beginSendMessage (sent : Sent) : AckChannel :=
  { channel with
    messagesWindow := (channel.messagesWindow + 1) % 2 ^ 32
    toClient := channel.toClient ++ [sent]
    allBegun := if channel.setAcks = 0 then 0 else channel.allBegun + 1 }

def sendSetAck : AckChannel :=
  let generation := (channel.generation + 1) % 2 ^ 32
  { channel with
    generation := generation
    messagesWindow := 0
    setAcks := channel.setAcks + 1
    begun := 0
    honoured := 0 }.beginSendMessage (.setAck generation channel.clientWindow)

def sendMessage : AckChannel :=
  { channel with begun := channel.begun + 1 }.beginSendMessage .message

/-- `red_channel_client_push` with the next pipe item. -/
def push (item : PipeItem) : Option AckChannel :=
  if channel.writing = .nothing ∧ channel.waitingForAck = false then
    match item with
    | .setAck => some { channel.sendSetAck with writing := .main }
    | .message => some { channel.sendMessage with writing := .main }
    | .withUrgent => some { channel.sendMessage with writing := .urgent }
  else none

/-- `red_channel_peer_on_out_msg_done`: the main message is begun after the urgent one. -/
def onOutMsgDone : Option AckChannel :=
  match channel.writing with
  | .nothing => none
  | .main => some { channel with writing := .nothing }
  | .urgent => some { channel.sendMessage with writing := .main }

/-- The count of `spice_channel_recv_msg`. -/
def ackMessage : AckChannel :=
  if channel.messageAckCount ≠ 0 then
    if channel.messageAckCount - 1 = 0 then
      { channel with
        toServer := channel.toServer ++ [.ack channel.handled]
        messageAckCount := channel.messageAckWindow }
    else { channel with messageAckCount := channel.messageAckCount - 1 }
  else channel

def handleSetAck (generation window : Nat) : AckChannel :=
  { channel with
    messageAckWindow := window
    messageAckCount := window
    toServer := channel.toServer ++ [.ackSync generation]
    handled := channel.handled + 1
    received := 0 }

def recvMsg : Option AckChannel :=
  match channel.toClient with
  | [] => none
  | .message :: rest => some { { channel with toClient := rest }.ackMessage with received := channel.received + 1 }
  | .setAck generation window :: rest =>
      some ({ channel with toClient := rest }.ackMessage.handleSetAck generation window)

def handleMessage : Option AckChannel :=
  match channel.toServer with
  | [] => none
  | .ackSync generation :: rest =>
      some { channel with toServer := rest, clientGeneration := generation, answered := channel.answered + 1 }
  | .ack _ :: rest =>
      if channel.clientGeneration = channel.generation then
        some { channel with
          toServer := rest
          messagesWindow := (channel.messagesWindow + (2 ^ 32 - channel.clientWindow % 2 ^ 32)) % 2 ^ 32
          honoured := channel.honoured + 1
          allHonoured := channel.allHonoured + 1 }
      else some { channel with toServer := rest }

/-- A new channel client, after `red_channel_client_ack_zero_messages_window`. -/
def create (clientWindow : Nat) : AckChannel where
  clientWindow := clientWindow
  generation := 0
  clientGeneration := 2 ^ 32 - 1
  messagesWindow := 0
  writing := .nothing
  toClient := []
  toServer := []
  messageAckWindow := 0
  messageAckCount := 0
  setAcks := 0
  begun := 0
  honoured := 0
  allBegun := 0
  allHonoured := 0
  handled := 0
  received := 0
  answered := 0

end AckChannel

/-- What the server, the client and the links do. -/
inductive AckOp
  | push (item : PipeItem)
  | outMsgDone
  | recvMsg
  | handleMessage
  deriving DecidableEq, Repr

def AckChannel.step (channel : AckChannel) : AckOp -> Option AckChannel
  | .push item => channel.push item
  | .outMsgDone => channel.onOutMsgDone
  | .recvMsg => channel.recvMsg
  | .handleMessage => channel.handleMessage

/-- The flow control.  After the first `SET_ACK` the server's count is 1 and the messages begun
since the last one, less a window for every `ACK` honoured; it does not go below zero, and
an `ACK` of an older `SET_ACK` does not change it.  It is at most two windows and 2, and
when nothing is in flight the server does not wait. -/
structure AckFlow (channel : AckChannel) : Prop where
  window : 0 < channel.setAcks ->
    channel.messagesWindow + channel.clientWindow * channel.honoured = 1 + channel.begun
  older : forall belongs rest next, channel.toServer = .ack belongs :: rest -> belongs ≠ channel.setAcks ->
    channel.handleMessage = some next -> next.messagesWindow = channel.messagesWindow
  bounded : 0 < channel.setAcks -> channel.messagesWindow ≤ 2 * channel.clientWindow + 2
  progress : 0 < channel.setAcks -> channel.toClient = [] -> channel.toServer = [] -> channel.waitingForAck = false

/-- Of all messages begun since the first `SET_ACK`, all but two windows and 2 are acknowledged. -/
def AllAcknowledged (channel : AckChannel) : Prop :=
  channel.allBegun ≤ channel.clientWindow * channel.allHonoured + (2 * channel.clientWindow + 2)

instance (channel : AckChannel) : Decidable (AllAcknowledged channel) :=
  inferInstanceAs (Decidable (channel.allBegun ≤ channel.clientWindow * channel.allHonoured +
    (2 * channel.clientWindow + 2)))

/-- Fewer than `2 ^ 32` `SET_ACK`s are without an answer. -/
def FewUnanswered (channel : AckChannel) : AckOp -> Prop
  | .push .setAck => channel.setAcks + 1 < channel.answered + 2 ^ 32
  | _ => True

instance (channel : AckChannel) : (op : AckOp) -> Decidable (FewUnanswered channel op)
  | .push .setAck => inferInstanceAs (Decidable (channel.setAcks + 1 < channel.answered + 2 ^ 32))
  | .push .message | .push .withUrgent | .outMsgDone | .recvMsg | .handleMessage => inferInstanceAs (Decidable True)

/-!
## What is on the links
-/

/-- The `SET_ACK`s on the link to the client, after those that it has handled. -/
def Carries (window : Nat) : Nat -> List Sent -> Nat -> Prop
  | handled, [], setAcks => handled = setAcks
  | handled, .message :: rest, setAcks => Carries window handled rest setAcks
  | handled, .setAck generation size :: rest, setAcks =>
      generation = (handled + 1) % 2 ^ 32 ∧ size = window ∧ Carries window (handled + 1) rest setAcks

/-- The messages on the link to the client that come after a given `SET_ACK`. -/
def after (setAcks : Nat) : Nat -> List Sent -> Nat
  | _, [] => 0
  | handled, .message :: rest => (if handled = setAcks then 1 else 0) + after setAcks handled rest
  | handled, .setAck _ _ :: rest => after setAcks (handled + 1) rest

/-- The answers on the link to the server: every `ACK` comes after its `ACK_SYNC`. -/
def Answers : Nat -> List Reply -> Nat -> Prop
  | answered, [], handled => answered = handled
  | answered, .ackSync generation :: rest, handled =>
      generation = (answered + 1) % 2 ^ 32 ∧ Answers (answered + 1) rest handled
  | answered, .ack belongs :: rest, handled => belongs = answered ∧ 0 < answered ∧ Answers answered rest handled

/-- The `ACK`s on the link to the server that belong to a given `SET_ACK`. -/
def acks (setAcks : Nat) (replies : List Reply) : Nat := replies.count (.ack setAcks)

section Links

variable {window setAcks handled answered : Nat} {sent : List Sent} {replies : List Reply}

theorem Carries.le (carries : Carries window handled sent setAcks) : handled ≤ setAcks := by
  induction sent generalizing handled with
  | nil => exact Nat.le_of_eq carries
  | cons first rest ih =>
      cases first with
      | message => exact ih carries
      | setAck generation size => exact Nat.le_of_succ_le (ih carries.2.2)

theorem Carries.message (carries : Carries window handled sent setAcks) :
    Carries window handled (sent ++ [.message]) setAcks := by
  induction sent generalizing handled with
  | nil => exact carries
  | cons first rest ih =>
      cases first with
      | message => exact ih carries
      | setAck generation size => exact ⟨carries.1, carries.2.1, ih carries.2.2⟩

theorem Carries.setAck (carries : Carries window handled sent setAcks) :
    Carries window handled (sent ++ [.setAck ((setAcks + 1) % 2 ^ 32) window]) (setAcks + 1) := by
  induction sent generalizing handled with
  | nil =>
      cases carries
      exact ⟨rfl, rfl, rfl⟩
  | cons first rest ih =>
      cases first with
      | message => exact ih carries
      | setAck generation size => exact ⟨carries.1, carries.2.1, ih carries.2.2⟩

theorem after_message (carries : Carries window handled sent setAcks) :
    after setAcks handled (sent ++ [.message]) = after setAcks handled sent + 1 := by
  induction sent generalizing handled with
  | nil =>
      cases carries
      simp only [List.nil_append, after, if_pos]
  | cons first rest ih =>
      cases first with
      | message =>
          rw [List.cons_append, after, after, ih carries]
          omega
      | setAck generation size =>
          rw [List.cons_append, after, after, ih carries.2.2]

theorem after_setAck {generation size : Nat} (carries : Carries window handled sent setAcks) :
    after (setAcks + 1) handled (sent ++ [.setAck generation size]) = 0 := by
  induction sent generalizing handled with
  | nil => rfl
  | cons first rest ih =>
      cases first with
      | message =>
          have bounded := Carries.le carries
          rw [List.cons_append, after, ih carries, if_neg (by omega)]
      | setAck _ _ =>
          rw [List.cons_append, after, ih carries.2.2]

theorem Answers.le (answers : Answers answered replies handled) : answered ≤ handled := by
  induction replies generalizing answered with
  | nil => exact Nat.le_of_eq answers
  | cons first rest ih =>
      cases first with
      | ackSync generation => exact Nat.le_of_succ_le (ih answers.2)
      | ack belongs => exact ih answers.2.2

theorem Answers.ackSync (answers : Answers answered replies handled) :
    Answers answered (replies ++ [.ackSync ((handled + 1) % 2 ^ 32)]) (handled + 1) := by
  induction replies generalizing answered with
  | nil =>
      cases answers
      exact ⟨rfl, rfl⟩
  | cons first rest ih =>
      cases first with
      | ackSync generation => exact ⟨answers.1, ih answers.2⟩
      | ack belongs => exact ⟨answers.1, answers.2.1, ih answers.2.2⟩

theorem Answers.ack (answers : Answers answered replies handled) (some : 0 < handled) :
    Answers answered (replies ++ [.ack handled]) handled := by
  induction replies generalizing answered with
  | nil =>
      cases answers
      exact ⟨rfl, some, rfl⟩
  | cons first rest ih =>
      cases first with
      | ackSync generation => exact ⟨answers.1, ih answers.2⟩
      | ack belongs => exact ⟨answers.1, answers.2.1, ih answers.2.2⟩

theorem acks_ack (belongs : Nat) :
    acks setAcks (replies ++ [.ack belongs]) = acks setAcks replies + if belongs = setAcks then 1 else 0 := by
  unfold acks
  rw [List.count_append]
  by_cases same : belongs = setAcks
  · rw [if_pos same, same, List.count_singleton_self]
  · rw [if_neg same, List.count_singleton, if_neg]
    intro isSame
    exact same (Reply.ack.inj (beq_iff_eq.mp isSame))

theorem acks_ackSync (generation : Nat) : acks setAcks (replies ++ [.ackSync generation]) = acks setAcks replies := by
  unfold acks
  rw [List.count_append, List.count_singleton, if_neg, Nat.add_zero]
  intro same
  cases beq_iff_eq.mp same

theorem acks_eq_zero (answers : Answers answered replies handled) (later : handled < setAcks) :
    acks setAcks replies = 0 := by
  induction replies generalizing answered with
  | nil => rfl
  | cons first rest ih =>
      unfold acks
      cases first with
      | ackSync generation =>
          rw [List.count_cons_of_ne (by rintro ⟨⟩)]
          exact ih answers.2
      | ack belongs =>
          have bounded := Answers.le answers.2.2
          have other : Reply.ack belongs ≠ .ack setAcks := by
            rintro ⟨⟩
            have same := answers.1
            omega
          rw [List.count_cons_of_ne other]
          exact ih answers.2.2

end Links

/-- What holds between the server's count, the links and the client's count. -/
structure Accounts (channel : AckChannel) : Prop where
  positive : 0 < channel.clientWindow
  small : 2 * channel.clientWindow + 2 < 2 ^ 32
  carries : Carries channel.clientWindow channel.handled channel.toClient channel.setAcks
  answers : Answers channel.answered channel.toServer channel.handled
  generation : channel.generation = channel.setAcks % 2 ^ 32
  clientGeneration : 0 < channel.answered -> channel.clientGeneration = channel.answered % 2 ^ 32
  few : channel.setAcks < channel.answered + 2 ^ 32
  bounded : channel.messagesWindow ≤ 2 * channel.clientWindow + 2
  urgent : channel.writing = .urgent -> channel.messagesWindow ≤ 2 * channel.clientWindow + 1
  window : 0 < channel.setAcks ->
    channel.messagesWindow + channel.clientWindow * channel.honoured = 1 + channel.begun
  sinceLast : after channel.setAcks channel.handled channel.toClient +
    (if channel.handled = channel.setAcks then channel.received else 0) = channel.begun
  acked : 0 < channel.setAcks -> acks channel.setAcks channel.toServer + channel.honoured =
    if channel.handled = channel.setAcks then channel.received / channel.clientWindow else 0
  count : if channel.handled = 0 then channel.messageAckCount = 0
    else channel.messageAckWindow = channel.clientWindow ∧
      channel.messageAckCount = channel.clientWindow - channel.received % channel.clientWindow

namespace Accounts

variable {channel : AckChannel}

theorem succ_received {window received : Nat} (positive : 0 < window) :
    (received % window + 1 = window ∧ (received + 1) % window = 0 ∧ (received + 1) / window = received / window + 1) ∨
    (received % window + 1 < window ∧ (received + 1) % window = received % window + 1 ∧
      (received + 1) / window = received / window) := by
  have split : received + 1 = window * (received / window) + (received % window + 1) := by
    rw [<- Nat.add_assoc, Nat.div_add_mod]
  rcases Nat.lt_or_eq_of_le (Nat.mod_lt received positive) with partly | whole
  · refine Or.inr ⟨partly, ?_, ?_⟩
    · rw [split, Nat.mul_add_mod, Nat.mod_eq_of_lt partly]
    · rw [split, Nat.mul_add_div positive, Nat.div_eq_of_lt partly, Nat.add_zero]
  · have whole : received % window + 1 = window := whole
    refine Or.inl ⟨whole, ?_, ?_⟩
    · rw [split, Nat.mul_add_mod, whole, Nat.mod_self]
    · rw [split, Nat.mul_add_div positive, whole, Nat.div_self positive]

/-- A new channel owes nothing. -/
theorem create {window : Nat} (positive : 0 < window) (small : 2 * window + 2 < 2 ^ 32) :
    Accounts (AckChannel.create window) where
  positive := positive
  small := small
  carries := rfl
  answers := rfl
  generation := rfl
  clientGeneration := fun impossible => absurd impossible (Nat.lt_irrefl 0)
  few := by
    show 0 < 0 + 2 ^ 32
    decide
  bounded := Nat.zero_le _
  urgent := fun _ => Nat.zero_le _
  window := fun impossible => absurd impossible (Nat.lt_irrefl 0)
  sinceLast := rfl
  acked := fun impossible => absurd impossible (Nat.lt_irrefl 0)
  count := rfl

/-- A message is counted when it is sent. -/
theorem sendMessage (inv : Accounts channel) (room : channel.messagesWindow ≤ 2 * channel.clientWindow + 1)
    (writing : Writing) (urgent : writing = .urgent -> channel.messagesWindow ≤ 2 * channel.clientWindow) :
    Accounts { channel.sendMessage with writing := writing } := by
  have small := inv.small
  have noWrap : (channel.messagesWindow + 1) % 2 ^ 32 = channel.messagesWindow + 1 := Nat.mod_eq_of_lt (by omega)
  refine ⟨inv.positive, inv.small, inv.carries.message, inv.answers, inv.generation, inv.clientGeneration, inv.few,
    ?_, ?_, ?_, ?_, inv.acked, inv.count⟩
  · show (channel.messagesWindow + 1) % 2 ^ 32 ≤ _
    rw [noWrap]
    exact Nat.succ_le_succ room
  · intro isUrgent
    show (channel.messagesWindow + 1) % 2 ^ 32 ≤ _
    rw [noWrap]
    exact Nat.succ_le_succ (urgent isUrgent)
  · intro some
    have window := inv.window some
    show (channel.messagesWindow + 1) % 2 ^ 32 + channel.clientWindow * channel.honoured = 1 + (channel.begun + 1)
    rw [noWrap]
    omega
  · have sinceLast := inv.sinceLast
    show after channel.setAcks channel.handled (channel.toClient ++ [.message]) + _ = channel.begun + 1
    rw [after_message inv.carries]
    show after channel.setAcks channel.handled channel.toClient + 1 +
      (if channel.handled = channel.setAcks then channel.received else 0) = channel.begun + 1
    omega

/-- A new window starts a new count. -/
theorem sendSetAck (inv : Accounts channel) (few : channel.setAcks + 1 < channel.answered + 2 ^ 32) :
    Accounts { channel.sendSetAck with writing := .main } := by
  have small := inv.small
  have nextGeneration : (channel.generation + 1) % 2 ^ 32 = (channel.setAcks + 1) % 2 ^ 32 := by
    rw [inv.generation, Nat.mod_add_mod]
  have later : channel.handled < channel.setAcks + 1 := Nat.lt_succ_of_le inv.carries.le
  refine ⟨inv.positive, inv.small, ?_, inv.answers, nextGeneration, inv.clientGeneration, few, ?_, ?_, ?_, ?_,
    ?_, inv.count⟩
  · show Carries _ _ (channel.toClient ++ [.setAck ((channel.generation + 1) % 2 ^ 32) channel.clientWindow]) _
    rw [nextGeneration]
    exact inv.carries.setAck
  · show (0 + 1) % 2 ^ 32 ≤ _
    omega
  · rintro ⟨⟩
  · intro _
    show (0 + 1) % 2 ^ 32 + channel.clientWindow * 0 = 1 + 0
    omega
  · show after (channel.setAcks + 1) channel.handled (channel.toClient ++ _) + _ = 0
    rw [after_setAck inv.carries]
    show 0 + (if channel.handled = channel.setAcks + 1 then channel.received else 0) = 0
    rw [if_neg (Nat.ne_of_lt later)]
  · intro _
    show acks (channel.setAcks + 1) channel.toServer + 0 =
      if channel.handled = channel.setAcks + 1 then channel.received / channel.clientWindow else 0
    rw [acks_eq_zero inv.answers later, if_neg (Nat.ne_of_lt later)]

/-- The next item of the pipe is sent. -/
theorem push (inv : Accounts channel) {item : PipeItem} {next : AckChannel}
    (few : FewUnanswered channel (.push item)) (stepped : channel.push item = some next) : Accounts next := by
  unfold AckChannel.push at stepped
  split at stepped
  · next allowed =>
    have small := inv.small
    have room : channel.messagesWindow ≤ 2 * channel.clientWindow := by
      have notWaiting := of_decide_eq_false allowed.2
      rw [Nat.mod_eq_of_lt (by omega)] at notWaiting
      omega
    cases item with
    | setAck =>
        cases stepped
        exact inv.sendSetAck few
    | message =>
        cases stepped
        exact inv.sendMessage (Nat.le_succ_of_le room) .main (by rintro ⟨⟩)
    | withUrgent =>
        cases stepped
        exact inv.sendMessage (Nat.le_succ_of_le room) .urgent (fun _ => room)
  · cases stepped

theorem onOutMsgDone (inv : Accounts channel) {next : AckChannel} (stepped : channel.onOutMsgDone = some next) :
    Accounts next := by
  unfold AckChannel.onOutMsgDone at stepped
  split at stepped
  · cases stepped
  · cases stepped
    exact ⟨inv.positive, inv.small, inv.carries, inv.answers, inv.generation, inv.clientGeneration, inv.few,
      inv.bounded,
      by rintro ⟨⟩, inv.window, inv.sinceLast, inv.acked, inv.count⟩
  · next isUrgent =>
    cases stepped
    exact inv.sendMessage (inv.urgent isUrgent) .main (by rintro ⟨⟩)

/-- What the client does for a message of any kind: nothing before the first `SET_ACK`, an
`ACK` at the end of a window. -/
theorem ackMessage_cases (inv : Accounts channel) (rest : List Sent) :
    (channel.handled = 0 ∧ { channel with toClient := rest }.ackMessage = { channel with toClient := rest }) ∨
    (0 < channel.handled ∧ channel.received % channel.clientWindow + 1 = channel.clientWindow ∧
      { channel with toClient := rest }.ackMessage = { channel with
        toClient := rest
        toServer := channel.toServer ++ [.ack channel.handled]
        messageAckCount := channel.clientWindow }) ∨
    (0 < channel.handled ∧ channel.received % channel.clientWindow + 1 < channel.clientWindow ∧
      { channel with toClient := rest }.ackMessage = { channel with
        toClient := rest
        messageAckCount := channel.clientWindow - (channel.received % channel.clientWindow + 1) }) := by
  have count := inv.count
  have below := Nat.mod_lt channel.received inv.positive
  unfold AckChannel.ackMessage
  dsimp only
  by_cases none : channel.handled = 0
  · rw [if_pos none] at count
    rw [if_neg (fun nonzero => nonzero count)]
    exact Or.inl ⟨none, rfl⟩
  · rw [if_neg none] at count
    rw [if_pos (by omega : channel.messageAckCount ≠ 0)]
    rcases Nat.lt_or_eq_of_le below with partly | whole
    · have partly : channel.received % channel.clientWindow + 1 < channel.clientWindow := partly
      rw [if_neg (by omega)]
      refine Or.inr (Or.inr ⟨Nat.pos_of_ne_zero none, partly, ?_⟩)
      rw [count.2, Nat.sub_sub]
    · have whole : channel.received % channel.clientWindow + 1 = channel.clientWindow := whole
      rw [if_pos (by omega), count.1]
      exact Or.inr (Or.inl ⟨Nat.pos_of_ne_zero none, whole, rfl⟩)

/-- The client receives a message of the count. -/
theorem recvMessage (inv : Accounts channel) {rest : List Sent} (isNext : channel.toClient = .message :: rest) :
    Accounts { { channel with toClient := rest }.ackMessage with received := channel.received + 1 } := by
  have carries : Carries channel.clientWindow channel.handled rest channel.setAcks := by
    have carries := inv.carries
    rw [isNext] at carries
    exact carries
  have sinceLast : after channel.setAcks channel.handled rest +
      (if channel.handled = channel.setAcks then channel.received + 1 else 0) = channel.begun := by
    have sinceLast := inv.sinceLast
    rw [isNext, after] at sinceLast
    by_cases current : channel.handled = channel.setAcks
    · rw [if_pos current, if_pos current] at sinceLast
      rw [if_pos current]
      omega
    · rw [if_neg current, if_neg current] at sinceLast
      rw [if_neg current]
      omega
  rcases inv.ackMessage_cases rest with ⟨none, isSame⟩ | ⟨some, whole, isSame⟩ | ⟨some, partly, isSame⟩
  · rw [isSame]
    refine ⟨inv.positive, inv.small, carries, inv.answers, inv.generation, inv.clientGeneration, inv.few, inv.bounded,
      inv.urgent, inv.window, sinceLast, ?_, ?_⟩
    · intro started
      have acked := inv.acked started
      have other : channel.handled ≠ channel.setAcks := by
        rw [none]
        exact Nat.ne_of_lt started
      rw [if_neg other] at acked
      exact acked.trans (if_neg other).symm
    · have count := inv.count
      rw [if_pos none] at count
      exact (if_pos none).mpr count
  · rw [isSame]
    rcases succ_received inv.positive with ⟨-, remainder, quotient⟩ | ⟨partly, -⟩
    · refine ⟨inv.positive, inv.small, carries, inv.answers.ack some, inv.generation, inv.clientGeneration, inv.few,
        inv.bounded, inv.urgent, inv.window, sinceLast, ?_, ?_⟩
      · intro started
        have acked := inv.acked started
        show acks channel.setAcks (channel.toServer ++ [.ack channel.handled]) + channel.honoured =
          if channel.handled = channel.setAcks then (channel.received + 1) / channel.clientWindow else 0
        rw [acks_ack]
        by_cases current : channel.handled = channel.setAcks
        · rw [if_pos current] at acked
          rw [if_pos current, if_pos current, quotient]
          omega
        · rw [if_neg current] at acked
          rw [if_neg current, if_neg current]
          exact acked
      · have count := inv.count
        rw [if_neg (Nat.ne_of_gt some)] at count
        refine (if_neg (Nat.ne_of_gt some)).mpr ⟨count.1, ?_⟩
        show channel.clientWindow = channel.clientWindow - (channel.received + 1) % channel.clientWindow
        rw [remainder, Nat.sub_zero]
    · exact absurd whole (Nat.ne_of_lt partly)
  · rw [isSame]
    rcases succ_received inv.positive with ⟨whole, -⟩ | ⟨-, remainder, quotient⟩
    · exact absurd whole (Nat.ne_of_lt partly)
    · refine ⟨inv.positive, inv.small, carries, inv.answers, inv.generation, inv.clientGeneration, inv.few,
        inv.bounded, inv.urgent, inv.window, sinceLast, ?_, ?_⟩
      · intro started
        have acked := inv.acked started
        show acks channel.setAcks channel.toServer + channel.honoured =
          if channel.handled = channel.setAcks then (channel.received + 1) / channel.clientWindow else 0
        rw [quotient]
        exact acked
      · have count := inv.count
        rw [if_neg (Nat.ne_of_gt some)] at count
        refine (if_neg (Nat.ne_of_gt some)).mpr ⟨count.1, ?_⟩
        show channel.clientWindow - (channel.received % channel.clientWindow + 1) =
          channel.clientWindow - (channel.received + 1) % channel.clientWindow
        rw [remainder]

/-- The client starts the count that a `SET_ACK` asks for. -/
theorem recvSetAck (inv : Accounts channel) {generation window : Nat} {rest : List Sent}
    (isNext : channel.toClient = .setAck generation window :: rest) :
    Accounts ({ channel with toClient := rest }.ackMessage.handleSetAck generation window) := by
  have carries := inv.carries
  have sinceLast := inv.sinceLast
  rw [isNext] at carries sinceLast
  rcases carries with ⟨isGeneration, isWindow, carries⟩
  have notLast : channel.handled ≠ channel.setAcks := Nat.ne_of_lt carries.le
  have started : 0 < channel.setAcks := Nat.lt_of_lt_of_le (Nat.succ_pos _) carries.le
  have acked := inv.acked started
  rw [if_neg notLast] at acked sinceLast
  have noneReceived : (if channel.handled + 1 = channel.setAcks then 0 / channel.clientWindow else 0) = 0 := by
    rw [Nat.zero_div]
    exact ite_self 0
  have noneSince : (if channel.handled + 1 = channel.setAcks then 0 else 0) = 0 := ite_self 0
  have counts : window = channel.clientWindow ∧ window = channel.clientWindow - 0 % channel.clientWindow := by
    rw [Nat.zero_mod, Nat.sub_zero]
    exact ⟨isWindow, isWindow⟩
  -- the `ACK` that the message may complete belongs to the count before
  have answers : forall replies, Answers channel.answered replies channel.handled ->
      acks channel.setAcks replies = acks channel.setAcks channel.toServer ->
      Accounts ({ channel with toClient := rest, toServer := replies }.handleSetAck generation window) := by
    intro replies answers same
    refine ⟨inv.positive, inv.small, carries, ?_, inv.generation, inv.clientGeneration, inv.few,
      inv.bounded, inv.urgent,
      inv.window, ?_, ?_, ?_⟩
    · show Answers _ (replies ++ [.ackSync generation]) _
      rw [isGeneration]
      exact answers.ackSync
    · show after channel.setAcks (channel.handled + 1) rest +
        (if channel.handled + 1 = channel.setAcks then 0 else 0) = _
      rw [noneSince]
      exact sinceLast
    · intro _
      show acks channel.setAcks (replies ++ [.ackSync generation]) + channel.honoured =
        if channel.handled + 1 = channel.setAcks then 0 / channel.clientWindow else 0
      rw [acks_ackSync, same, noneReceived]
      exact acked
    · exact (if_neg (Nat.succ_ne_zero _)).mpr counts
  rcases inv.ackMessage_cases rest with ⟨-, isSame⟩ | ⟨some, -, isSame⟩ | ⟨-, -, isSame⟩
  · rw [isSame]
    exact answers channel.toServer inv.answers rfl
  · rw [isSame]
    refine answers _ (inv.answers.ack some) ?_
    rw [acks_ack, if_neg notLast, Nat.add_zero]
  · rw [isSame]
    exact answers channel.toServer inv.answers rfl

theorem recvMsg (inv : Accounts channel) {next : AckChannel} (stepped : channel.recvMsg = some next) :
    Accounts next := by
  unfold AckChannel.recvMsg at stepped
  split at stepped
  · cases stepped
  · next rest isNext =>
    cases stepped
    exact inv.recvMessage isNext
  · next generation window rest isNext =>
    cases stepped
    exact inv.recvSetAck isNext

/-- The generation of the server is the client's only if the server has the answer to its
last `SET_ACK`. -/
theorem current_iff (inv : Accounts channel) (some : 0 < channel.answered) :
    channel.clientGeneration = channel.generation <-> channel.answered = channel.setAcks := by
  rw [inv.clientGeneration some, inv.generation]
  have few := inv.few
  have notLater : channel.answered ≤ channel.setAcks := Nat.le_trans inv.answers.le inv.carries.le
  constructor
  · intro same
    omega
  · rintro same
    rw [same]

theorem window_le (inv : Accounts channel) {rest : List Reply}
    (isNext : channel.toServer = .ack channel.setAcks :: rest)
    (last : channel.handled = channel.setAcks) (started : 0 < channel.setAcks) :
    channel.clientWindow + 1 ≤ channel.messagesWindow := by
  have acked := inv.acked started
  have sinceLast := inv.sinceLast
  have window := inv.window started
  rw [if_pos last] at acked sinceLast
  rw [isNext, acks, List.count_cons_self] at acked
  have more : channel.honoured + 1 ≤ channel.received / channel.clientWindow := by omega
  have enough : channel.clientWindow * (channel.honoured + 1) ≤ channel.received :=
    Nat.le_trans (Nat.mul_le_mul_left _ more) (Nat.mul_div_le _ _)
  rw [Nat.mul_add, Nat.mul_one] at enough
  omega

/-- The client counts what it handles and acknowledges. -/
theorem handleMessage (inv : Accounts channel) {next : AckChannel} (stepped : channel.handleMessage = some next) :
    Accounts next := by
  have answers := inv.answers
  unfold AckChannel.handleMessage at stepped
  split at stepped
  · cases stepped
  · next generation rest isNext =>
    cases stepped
    rw [isNext] at answers
    refine ⟨inv.positive, inv.small, inv.carries, answers.2, inv.generation, fun _ => answers.1, ?_, inv.bounded,
      inv.urgent, inv.window, inv.sinceLast, ?_, inv.count⟩
    · have few := inv.few
      show channel.setAcks < channel.answered + 1 + 2 ^ 32
      omega
    · intro started
      have acked := inv.acked started
      rw [isNext, acks, List.count_cons_of_ne (by rintro ⟨⟩)] at acked
      exact acked
  · next belongs rest isNext =>
    rw [isNext] at answers
    rcases answers with ⟨rfl, some, answers⟩
    have notLater : channel.handled ≤ channel.setAcks := inv.carries.le
    have isLast := inv.current_iff some
    split at stepped
    · next honours =>
      cases stepped
      have current := isLast.mp honours
      have last : channel.handled = channel.setAcks := Nat.le_antisymm notLater (current ▸ answers.le)
      have started : 0 < channel.setAcks := current ▸ some
      have window := inv.window started
      have acked := inv.acked started
      have bounded := inv.bounded
      have small := inv.small
      rw [isNext, current, acks, List.count_cons_self] at acked
      rw [current] at isNext
      have enough := inv.window_le isNext last started
      have taken : (channel.messagesWindow + (2 ^ 32 - channel.clientWindow % 2 ^ 32)) % 2 ^ 32 =
          channel.messagesWindow - channel.clientWindow := by
        rw [Nat.mod_eq_of_lt (by omega : channel.clientWindow < 2 ^ 32)]
        omega
      refine ⟨inv.positive, inv.small, inv.carries, answers, inv.generation, inv.clientGeneration, inv.few, ?_, ?_, ?_,
        inv.sinceLast, ?_, inv.count⟩
      · show (channel.messagesWindow + (2 ^ 32 - channel.clientWindow % 2 ^ 32)) % 2 ^ 32 ≤ _
        rw [taken]
        exact Nat.le_trans (Nat.sub_le _ _) bounded
      · intro isUrgent
        show (channel.messagesWindow + (2 ^ 32 - channel.clientWindow % 2 ^ 32)) % 2 ^ 32 ≤ _
        rw [taken]
        exact Nat.le_trans (Nat.sub_le _ _) (inv.urgent isUrgent)
      · intro _
        show (channel.messagesWindow + (2 ^ 32 - channel.clientWindow % 2 ^ 32)) % 2 ^ 32 +
          channel.clientWindow * (channel.honoured + 1) = 1 + channel.begun
        rw [taken, Nat.mul_add, Nat.mul_one]
        omega
      · intro _
        show acks channel.setAcks rest + (channel.honoured + 1) =
          if channel.handled = channel.setAcks then channel.received / channel.clientWindow else 0
        rw [<- acked, Nat.add_comm channel.honoured, <- Nat.add_assoc]
        rfl
    · next ignored =>
      cases stepped
      have older : channel.answered ≠ channel.setAcks := fun current => ignored (isLast.mpr current)
      refine ⟨inv.positive, inv.small, inv.carries, answers, inv.generation, inv.clientGeneration, inv.few, inv.bounded,
        inv.urgent, inv.window, inv.sinceLast, ?_, inv.count⟩
      intro started
      have acked := inv.acked started
      rw [isNext, acks, List.count_cons_of_ne (fun same => older (Reply.ack.inj same))] at acked
      exact acked

theorem step (inv : Accounts channel) {op : AckOp} {next : AckChannel} (few : FewUnanswered channel op)
    (stepped : channel.step op = some next) : Accounts next := by
  cases op with
  | push item => exact inv.push few stepped
  | outMsgDone => exact inv.onOutMsgDone stepped
  | recvMsg => exact inv.recvMsg stepped
  | handleMessage => exact inv.handleMessage stepped

/-- What the accounts say about the flow. -/
theorem flow (inv : Accounts channel) : AckFlow channel where
  window := inv.window
  older := by
    intro belongs rest next isNext older handled
    have answers := inv.answers
    rw [isNext] at answers
    rcases answers with ⟨rfl, some, -⟩
    have ignored : channel.clientGeneration ≠ channel.generation :=
      fun honours => older ((inv.current_iff some).mp honours)
    unfold AckChannel.handleMessage at handled
    rw [isNext] at handled
    dsimp only at handled
    rw [if_neg ignored] at handled
    cases handled
    rfl
  bounded := fun _ => inv.bounded
  progress := by
    intro started noneToClient noneToServer
    have carries := inv.carries
    have sinceLast := inv.sinceLast
    have acked := inv.acked started
    have window := inv.window started
    have small := inv.small
    have below := Nat.mod_lt channel.received inv.positive
    have split := Nat.div_add_mod channel.received channel.clientWindow
    rw [noneToClient] at carries sinceLast
    have last : channel.handled = channel.setAcks := carries
    rw [if_pos last, after] at sinceLast
    rw [if_pos last, noneToServer, acks, List.count_nil, Nat.zero_add] at acked
    rw [acked] at window
    refine decide_eq_false ?_
    rw [Nat.mod_eq_of_lt (by omega)]
    omega

end Accounts

/-- The flow control of a channel, while the counters have room for two windows and fewer than
`2 ^ 32` `SET_ACK`s are without an answer. -/
theorem ack_flow_control (clientWindow : Nat) (positive : 0 < clientWindow) (small : 2 * clientWindow + 2 < 2 ^ 32)
    (ops : List AckOp) (channel : AckChannel)
    (few : Meets AckChannel.step (fun _ channel op => FewUnanswered channel op) [] (AckChannel.create clientWindow) ops)
    (ran : run AckChannel.step (AckChannel.create clientWindow) ops = some channel) : AckFlow channel := by
  have keep : forall (_ : List AckOp) (channel : AckChannel) (op : AckOp) (next : AckChannel),
      Accounts channel -> FewUnanswered channel op -> channel.step op = some next -> Accounts next :=
    fun _ _ _ _ inv few stepped => inv.step few stepped
  have kept := run_invariant_of_meets keep ops [] (AckChannel.create clientWindow) channel
    (Accounts.create positive small) few ran
  exact kept.flow

/-- Two counts of a window of two, with an urgent message; the `ACK`s of the first arrive after
the second was begun. -/
def crossing : List AckOp :=
  [.push .setAck, .outMsgDone, .push .message, .outMsgDone, .push .withUrgent, .outMsgDone, .outMsgDone,
   .recvMsg, .recvMsg, .recvMsg, .handleMessage, .push .setAck, .outMsgDone, .recvMsg, .recvMsg]

theorem ack_flow_control_crossing :
    Exists fun channel => run AckChannel.step (AckChannel.create 2) crossing = some channel ∧
      channel.toServer = [.ack 1, .ack 1, .ackSync 2] ∧ AckFlow channel := by
  have checked : checkRun AckChannel.step (fun channel op => decide (FewUnanswered channel op)) (AckChannel.create 2)
      crossing = true := by
    decide
  have sound : forall (_ : List AckOp) (channel : AckChannel) (op : AckOp), decide (FewUnanswered channel op) = true ->
      FewUnanswered channel op :=
    fun _ _ _ isTrue => of_decide_eq_true isTrue
  have few := Meets.of_check sound crossing [] (AckChannel.create 2) checked
  exact ⟨_, rfl, rfl, ack_flow_control 2 (by decide) (by decide) crossing _ few rfl⟩

/-- Every `SET_ACK` starts a new count before the messages of the one before are acknowledged. -/
def restarts : List AckOp :=
  [.push .setAck, .outMsgDone, .push .message, .outMsgDone, .push .setAck, .outMsgDone, .push .message, .outMsgDone,
   .push .setAck, .outMsgDone]

/-- With more than one `SET_ACK` there is no bound on the messages that are not acknowledged. -/
theorem restarted_count_not_acknowledged :
    Not (forall (clientWindow : Nat), 0 < clientWindow -> forall (ops : List AckOp) (channel : AckChannel),
      run AckChannel.step (AckChannel.create clientWindow) ops = some channel -> AckFlow channel ∧
        AllAcknowledged channel) := by
  intro holds
  have acknowledged := (holds 1 (by decide) restarts _ rfl).2
  exact absurd acknowledged (by decide)

end AckWindow
end Spice
