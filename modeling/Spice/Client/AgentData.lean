import Spice.Agent.Filter
import Spice.Lib.Run
import Spice.Lib.Int32
import Spice.Lib.Ring

namespace Spice
namespace Client
namespace AgentData

open Lib Agent

/-!
# Messages of the agent

The server passes on what the agent writes in pieces that need not end where its messages do.
The client keeps the header and the data of the message that it is in, and hands on a piece that
is one message as it is.  The sizes are the guest's, and the handlers read the payload by the
type of the message.

A step fails where a byte outside of what was received or allocated is read or written.
-/

/-! ## The handlers -/

/-- The number of words of `VDAgentAnnounceCapabilities` that are looked at: it is an `int`. -/
def capsSize (size : Nat) : Int := min (int32 (((size + 2 ^ 64 - 4) % 2 ^ 64 / 4 : Nat) : Int)) 1

/-- What `main_agent_handle_msg` reads of a payload, or gives to those who read it, by the type and the size in the
header: offsets and lengths. -/
def agentReads (selection debug isTask : Bool) (type size : Nat) : List (Nat × Nat) :=
  let before := if selection then [(0, 1)] else []
  let start := if selection then 4 else 0
  let size' := if selection then (size + 2 ^ 32 - 4) % 2 ^ 32 else size
  if type = 4 then before ++ [(start, 4), (start + 4, (size' + 2 ^ 64 - 4) % 2 ^ 64 % 2 ^ 32)]
  else if type = 7 then before ++ [(start, 4 * (size' / 4))]
  else if type = 8 then before ++ [(start, 4)]
  else if type = 9 then before
  else if type = 6 then (if 1 ≤ capsSize size then [(4, 4)] else []) ++ [(0, 4)]
  else if type = 3 then if debug then [(0, 4), (4, 4)] else []
  else if type = 11 then (0, 4) :: if isTask then [(4, 4)] else []
  else []

/-- What is read lies in the payload. -/
def Inside (payload : List UInt8) (read : Nat × Nat) : Prop := read.2 = 0 ∨ read.1 + read.2 ≤ payload.length

instance (payload : List UInt8) (read : Nat × Nat) : Decidable (Inside payload read) :=
  inferInstanceAs (Decidable (_ ∨ _))

/-- Whether the agent has `VD_AGENT_CAP_CLIPBOARD_SELECTION`, once it announced its capabilities. -/
def hasSelection (caps : Option Nat) : Bool := (caps.getD 0).testBit 6

/-- The capabilities after a message. -/
def announced (caps : Option Nat) (head payload : List UInt8) : Option Nat :=
  if messageField 0 4 head = 1 ∧ messageField 4 4 head = 6 then
    some (if 1 ≤ capsSize (messageField 16 4 head) then messageField 4 4 payload else 0)
  else caps

/-- Whether debug messages are on, and whether a file transfer has an id once these messages were handled. -/
structure Setup where
  debug : Bool
  isTask : List (List UInt8 × List UInt8) -> Nat -> Bool

/-- What the channel has of the message that it is in, the capabilities of the agent, and the messages that
`main_agent_handle_msg` was called with. -/
structure MainChannel where
  agentMsg : List UInt8
  agentMsgData : Option (List UInt8)
  agentMsgPos : Nat
  agentCaps : Option Nat
  handled : List (List UInt8 × List UInt8)
deriving DecidableEq, Repr

namespace MainChannel

variable (setup : Setup) (channel : MainChannel)

/-- `main_agent_handle_msg`.  The size that it reduces is that of a header which is done with. -/
def agentHandleMsg (head payload : List UInt8) : Option MainChannel :=
  let called := { channel with
    handled := channel.handled ++ [(head, payload)]
    agentCaps := announced channel.agentCaps head payload }
  if messageField 0 4 head ≠ 1 then some called
  else if forall read, read ∈ agentReads (hasSelection channel.agentCaps) setup.debug
      (setup.isTask channel.handled (messageField 0 4 payload)) (messageField 4 4 head) (messageField 16 4 head) ->
        Inside payload read then some called
  else none

/-! ## The pieces -/

def size : Nat := messageField 16 4 channel.agentMsg

def malloc (size : Nat) : Option (List UInt8) := if size = 0 then none else some (List.replicate size 0)

/-- The message is complete. -/
def finish (bytes : List UInt8) : Option (MainChannel × List UInt8) :=
  if channel.agentMsgPos = agentMessageSize + channel.size then
    (channel.agentHandleMsg setup channel.agentMsg (channel.agentMsgData.getD [])).map fun next =>
      ({ next with agentMsgData := none, agentMsgPos := 0 }, bytes)
  else some (channel, bytes)

def takeData (bytes : List UInt8) : Option (MainChannel × List UInt8) :=
  if agentMessageSize ≤ channel.agentMsgPos then
    let count := min ((agentMessageSize + channel.size + 2 ^ 64 - channel.agentMsgPos) % 2 ^ 64) bytes.length
    (copyInto (channel.agentMsgData.getD []) (channel.agentMsgPos - agentMessageSize) bytes 0 count).bind fun data =>
      finish setup
        { channel with
          agentMsgData := channel.agentMsgData.map fun _ => data
          agentMsgPos := (channel.agentMsgPos + count) % 2 ^ 32 }
        (bytes.drop count)
  else channel.finish setup bytes

/-- `main_handle_agent_data_msg`, with the bytes that are left.  When there is data already behind a new header it
returns with a warning. -/
def handleAgentDataMsg (bytes : List UInt8) : Option (MainChannel × List UInt8) :=
  if channel.agentMsgPos < agentMessageSize then
    let count := min (agentMessageSize - channel.agentMsgPos) bytes.length
    (copyInto channel.agentMsg channel.agentMsgPos bytes 0 count).bind fun head =>
      let taken := { channel with agentMsg := head, agentMsgPos := (channel.agentMsgPos + count) % 2 ^ 32 }
      if taken.agentMsgPos = agentMessageSize then
        if taken.agentMsgData ≠ none then some (taken, bytes.drop count)
        else takeData setup { taken with agentMsgData := malloc taken.size } (bytes.drop count)
      else taken.takeData setup (bytes.drop count)
  else channel.takeData setup bytes

/-- The loop of `main_handle_agent_data`; `none` also when it goes on for ever. -/
def dataLoop : Nat -> MainChannel -> List UInt8 -> Option MainChannel
  | _, channel, [] => some channel
  | 0, _, _ :: _ => none
  | rounds + 1, channel, byte :: bytes =>
      (channel.handleAgentDataMsg setup (byte :: bytes)).bind fun next => dataLoop rounds next.1 next.2

def handleAgentData (bytes : List UInt8) : Option MainChannel :=
  if channel.agentMsgPos = 0 then
    if bytes.length < agentMessageSize then none
    else if messageField 16 4 bytes + agentMessageSize = bytes.length then
      channel.agentHandleMsg setup (bytes.take agentMessageSize) (bytes.drop agentMessageSize)
    else dataLoop setup bytes.length channel bytes
  else dataLoop setup bytes.length channel bytes

end MainChannel

/-- The data of an `AGENT_DATA` message: its size is an `int`. -/
structure Piece where
  bytes : List UInt8
  small : bytes.length < 2 ^ 31

namespace MainChannel

def step (setup : Setup) (channel : MainChannel) (piece : Piece) : Option MainChannel :=
  channel.handleAgentData setup piece.bytes

/-- The channel before the agent wrote anything. -/
def start (caps : Option Nat) : MainChannel := ⟨List.replicate agentMessageSize 0, none, 0, caps, []⟩

end MainChannel

/-! ## The messages of the stream -/

/-- The messages so far and the bytes of the one that is not whole. -/
structure Stream where
  messages : List (List UInt8)
  rest : List UInt8
deriving DecidableEq, Repr

/-- The bytes are a header and the data whose size it gives. -/
def Whole (bytes : List UInt8) : Prop := agentMessageSize ≤ bytes.length ∧
  bytes.length = agentMessageSize + messageField 16 4 bytes

instance (bytes : List UInt8) : Decidable (Whole bytes) := inferInstanceAs (Decidable (_ ∧ _))

def Stream.feed (stream : Stream) (byte : UInt8) : Stream :=
  if Whole (stream.rest ++ [byte]) then ⟨stream.messages ++ [stream.rest ++ [byte]], []⟩
  else ⟨stream.messages, stream.rest ++ [byte]⟩

def stream (pieces : List Piece) : Stream := (pieces.flatMap Piece.bytes).foldl Stream.feed ⟨[], []⟩

/-- A message as its header and its payload. -/
def parts (message : List UInt8) : List UInt8 × List UInt8 :=
  (message.take agentMessageSize, message.drop agentMessageSize)

/-- The capabilities that the messages announce. -/
def capsAfter (caps : Option Nat) (messages : List (List UInt8)) : Option Nat :=
  messages.foldl (fun caps message =>
    announced caps (message.take agentMessageSize) (message.drop agentMessageSize)) caps

/-- The payload is as long as what is read of a message of its type. -/
def LongEnough (selection debug isTask : Bool) (type length : Nat) : Prop :=
  if type = 4 then (if selection then 8 else 4) ≤ length
  else if type = 7 then selection = true -> 4 ≤ length
  else if type = 8 then (if selection then 8 else 4) ≤ length
  else if type = 9 then selection = true -> 1 ≤ length
  else if type = 6 then 4 ≤ length
  else if type = 3 then debug = true -> 8 ≤ length
  else if type = 11 then (if isTask then 8 else 4) ≤ length
  else True

instance (selection debug isTask : Bool) (type length : Nat) :
    Decidable (LongEnough selection debug isTask type length) := by
  unfold LongEnough
  infer_instance

/-- A message is of less than `2 ^ 32` bytes, and its payload is long enough for its type. -/
def Fits (setup : Setup) (caps : Option Nat) (before : List (List UInt8)) (message : List UInt8) : Prop :=
  message.length < 2 ^ 32 ∧ (messageField 0 4 message = 1 ->
    LongEnough (hasSelection (capsAfter caps before)) setup.debug
      (setup.isTask (before.map parts) (messageField 20 4 message)) (messageField 4 4 message)
      (message.length - agentMessageSize))

instance (setup : Setup) (caps : Option Nat) (before : List (List UInt8)) (message : List UInt8) :
    Decidable (Fits setup caps before message) := inferInstanceAs (Decidable (_ ∧ (_ -> _)))

/-- Each message is handed on once it is whole, once and in order. -/
def Handed (past : List Piece) (channel : MainChannel) : Prop := channel.handled = (stream past).messages.map parts

/-- The messages fit, and what there is of one that is not whole has less than `2 ^ 32` bytes. -/
def AllFit (setup : Setup) (caps : Option Nat) (state : Stream) : Prop :=
  state.rest.length < 2 ^ 32 ∧ forall index, index < state.messages.length ->
    Fits setup caps (state.messages.take index) (state.messages.getD index [])

instance (setup : Setup) (caps : Option Nat) (state : Stream) : Decidable (AllFit setup caps state) :=
  inferInstanceAs (Decidable (_ ∧ forall index, index < state.messages.length -> _))

/-- A piece that begins between messages has a header, and the messages up to its end fit. -/
structure Sound (setup : Setup) (caps : Option Nat) (past : List Piece) (piece : Piece) : Prop where
  header : (stream past).rest = [] -> agentMessageSize ≤ piece.bytes.length
  fits : AllFit setup caps (stream (past ++ [piece]))

/-! ## What is read of a payload -/

theorem capsSize_long {size : Nat} (small : size < 2 ^ 32) (some : 1 ≤ capsSize size) : 8 ≤ size := by
  by_cases short : size < 4
  · have wrapped : (size + 2 ^ 64 - 4) % 2 ^ 64 / 4 = 4611686018427387903 := by omega
    unfold capsSize at some
    rw [wrapped] at some
    exact absurd some (by decide)
  · have count : (size + 2 ^ 64 - 4) % 2 ^ 64 / 4 = (size - 4) / 4 := by omega
    unfold capsSize at some
    rw [count, int32_of_lt (by omega)] at some
    omega

/-- A payload that is long enough holds what its handler reads. -/
theorem inside_of_longEnough {selection debug isTask : Bool} {type : Nat} {payload : List UInt8}
    (small : payload.length < 2 ^ 32) (long : LongEnough selection debug isTask type payload.length) :
    forall read, read ∈ agentReads selection debug isTask type payload.length -> Inside payload read := by
  have one : forall offset length : Nat, offset + length ≤ payload.length -> Inside payload (offset, length) :=
    fun _ _ fits => .inr fits
  unfold agentReads
  dsimp only
  split
  · -- the data of the clipboard go to the end of the payload
    rename_i isType
    subst isType
    intro read member
    cases selection with
    | false =>
        have length : 4 ≤ payload.length := long
        rw [if_neg nofun, if_neg nofun, if_neg nofun, List.nil_append, List.mem_cons, List.mem_singleton] at member
        rcases member with rfl | rfl <;> exact one _ _ (by omega)
    | true =>
        have length : 8 ≤ payload.length := long
        rw [if_pos rfl, if_pos rfl, if_pos rfl, List.mem_append, List.mem_singleton, List.mem_cons,
          List.mem_singleton] at member
        rcases member with rfl | rfl | rfl <;> exact one _ _ (by omega)
  split
  · rename_i isType
    subst isType
    intro read member
    cases selection with
    | false =>
        rw [if_neg nofun, if_neg nofun, if_neg nofun, List.nil_append, List.mem_singleton] at member
        rw [member]
        exact one _ _ (by omega)
    | true =>
        have length : 4 ≤ payload.length := long rfl
        rw [if_pos rfl, if_pos rfl, if_pos rfl, List.mem_append, List.mem_singleton, List.mem_singleton] at member
        rcases member with rfl | rfl <;> exact one _ _ (by omega)
  split
  · rename_i isType
    subst isType
    intro read member
    cases selection with
    | false =>
        have length : 4 ≤ payload.length := long
        rw [if_neg nofun, if_neg nofun, List.nil_append, List.mem_singleton] at member
        rw [member]
        exact one _ _ (by omega)
    | true =>
        have length : 8 ≤ payload.length := long
        rw [if_pos rfl, if_pos rfl, List.mem_append, List.mem_singleton, List.mem_singleton] at member
        rcases member with rfl | rfl <;> exact one _ _ (by omega)
  split
  · rename_i isType
    subst isType
    intro read member
    cases selection with
    | false => cases member
    | true =>
        have length : 1 ≤ payload.length := long rfl
        rw [if_pos rfl, List.mem_singleton] at member
        rw [member]
        exact one _ _ (by omega)
  split
  · rename_i isType
    subst isType
    intro read member
    have length : 4 ≤ payload.length := long
    rcases List.mem_append.mp member with member | member
    · split at member
      · rename_i some
        have enough := capsSize_long small some
        rw [List.mem_singleton.mp member]
        exact one _ _ (by omega)
      · cases member
    · rw [List.mem_singleton.mp member]
      exact one _ _ (by omega)
  split
  · rename_i isType
    subst isType
    intro read member
    cases debug with
    | false => cases member
    | true =>
        have length : 8 ≤ payload.length := long rfl
        rw [if_pos rfl, List.mem_cons, List.mem_singleton] at member
        rcases member with rfl | rfl <;> exact one _ _ (by omega)
  split
  · rename_i isType
    subst isType
    intro read member
    cases isTask with
    | false =>
        have length : 4 ≤ payload.length := long
        rw [if_neg nofun, List.mem_singleton] at member
        rw [member]
        exact one _ _ (by omega)
    | true =>
        have length : 8 ≤ payload.length := long
        rw [if_pos rfl, List.mem_cons, List.mem_singleton] at member
        rcases member with rfl | rfl <;> exact one _ _ (by omega)
  · exact fun _ member => (nomatch member)

/-! ## The stream byte by byte -/

/-- A message that is not whole. -/
def Partly (bytes : List UInt8) : Prop :=
  bytes.length < agentMessageSize ∨ bytes.length < agentMessageSize + messageField 16 4 bytes

theorem partly_nil : Partly [] := .inl (by decide)

theorem size_append {bytes : List UInt8} (more : List UInt8) (header : agentMessageSize ≤ bytes.length) :
    messageField 16 4 (bytes ++ more) = messageField 16 4 bytes := by
  unfold agentMessageSize at header
  unfold messageField
  rw [List.drop_append_of_le_length (by omega), List.take_append_of_le_length (by rw [List.length_drop]; omega)]

theorem size_lt (bytes : List UInt8) : messageField 16 4 bytes < 2 ^ 32 := by
  unfold messageField
  refine Nat.lt_of_lt_of_le (littleEndian_lt _)
    (Nat.le_trans (Nat.pow_le_pow_right (by decide) (List.length_take_le 4 _)) ?_)
  decide

theorem Partly.beginning {bytes more : List UInt8} (partly : Partly (bytes ++ more)) : Partly bytes := by
  by_cases header : agentMessageSize ≤ bytes.length
  · rcases partly with short | short
    · rw [List.length_append] at short
      exact .inl (by omega)
    · rw [size_append _ header, List.length_append] at short
      exact .inr (by omega)
  · exact .inl (by omega)

theorem Partly.not_whole {bytes : List UInt8} (partly : Partly bytes) : ¬ Whole bytes := by
  rintro ⟨header, same⟩
  rcases partly with short | short <;> omega

section Feeding

variable {state : Stream} {bytes : List UInt8}

theorem feed_partly (bytes : List UInt8) : forall state : Stream, Partly (state.rest ++ bytes) ->
    bytes.foldl Stream.feed state = ⟨state.messages, state.rest ++ bytes⟩ := by
  induction bytes with
  | nil =>
      intro state _
      rw [List.foldl_nil, List.append_nil]
  | cons byte bytes ih =>
      intro state partly
      rw [show state.rest ++ byte :: bytes = (state.rest ++ [byte]) ++ bytes by simp] at partly ⊢
      have isNext : state.feed byte = ⟨state.messages, state.rest ++ [byte]⟩ := if_neg partly.beginning.not_whole
      rw [List.foldl_cons, isNext, ih _ partly]

/-- The bytes that complete a message. -/
theorem feed_whole (partly : Partly state.rest) (whole : Whole (state.rest ++ bytes)) :
    bytes.foldl Stream.feed state = ⟨state.messages ++ [state.rest ++ bytes], []⟩ := by
  rcases List.eq_nil_or_concat bytes with none | ⟨front, last, isLast⟩
  · rw [none, List.append_nil] at whole
    exact absurd whole partly.not_whole
  · rw [List.concat_eq_append] at isLast
    rw [isLast, <- List.append_assoc] at whole ⊢
    have frontPartly : Partly (state.rest ++ front) := by
      obtain ⟨header, same⟩ := whole
      rw [List.length_append, List.length_singleton] at header same
      by_cases full : agentMessageSize ≤ (state.rest ++ front).length
      · rw [size_append _ full] at same
        exact .inr (by omega)
      · exact .inl (by omega)
    rw [List.foldl_append, feed_partly front state frontPartly, List.foldl_cons, List.foldl_nil]
    exact if_pos whole

theorem feed_messages (bytes : List UInt8) : forall state : Stream,
    state.messages <+: (bytes.foldl Stream.feed state).messages := by
  induction bytes with
  | nil => exact fun state => List.prefix_refl _
  | cons byte bytes ih =>
      intro state
      refine List.IsPrefix.trans ?_ (ih (state.feed byte))
      unfold Stream.feed
      split
      · exact List.prefix_append _ _
      · exact List.prefix_refl _

/-- The bytes end in the message, or it ends in them. -/
theorem partly_or_whole (bytes : List UInt8) (partly : Partly state.rest) : Partly (state.rest ++ bytes) ∨
    Exists fun first => Exists fun others => bytes = first ++ others ∧ Whole (state.rest ++ first) := by
  by_cases ends : Partly (state.rest ++ bytes)
  · exact .inl ends
  · unfold Partly at ends
    rw [not_or, Nat.not_lt, Nat.not_lt, List.length_append] at ends
    have isLess : state.rest.length < agentMessageSize + messageField 16 4 (state.rest ++ bytes) := by
      by_cases header : agentMessageSize ≤ state.rest.length
      · rw [size_append _ header]
        exact partly.resolve_left (by omega)
      · omega
    obtain ⟨count, isCount⟩ : Exists fun count => state.rest.length + count =
        agentMessageSize + messageField 16 4 (state.rest ++ bytes) := ⟨_, Nat.add_sub_of_le (Nat.le_of_lt isLess)⟩
    have length : (state.rest ++ bytes.take count).length = agentMessageSize +
        messageField 16 4 (state.rest ++ bytes) := by
      rw [List.length_append, List.length_take]
      omega
    have same : messageField 16 4 (state.rest ++ bytes) = messageField 16 4 (state.rest ++ bytes.take count) := by
      have cut : state.rest ++ bytes = (state.rest ++ bytes.take count) ++ bytes.drop count := by
        rw [List.append_assoc, List.take_append_drop]
      rw [cut]
      exact size_append _ (by omega)
    exact .inr ⟨bytes.take count, bytes.drop count, (List.take_append_drop _ _).symm,
      by omega, length.trans (congrArg _ same)⟩

end Feeding

/-! ## The buffers hold the message -/

/-- The header and the data hold what there is of the message. -/
structure Holds (message : List UInt8) (channel : MainChannel) : Prop where
  pos : channel.agentMsgPos = message.length
  headLength : channel.agentMsg.length = agentMessageSize
  head : channel.agentMsg.take message.length = message.take agentMessageSize
  idle : message.length < agentMessageSize -> channel.agentMsgData = none
  data : agentMessageSize ≤ message.length -> (channel.agentMsgData.getD []).length = messageField 16 4 message ∧
    (channel.agentMsgData.getD []).take (message.length - agentMessageSize) = message.drop agentMessageSize

/-- The messages so far were handled, and what there is of the next is held. -/
structure Inv (caps : Option Nat) (state : Stream) (channel : MainChannel) : Prop where
  partly : Partly state.rest
  small : state.rest.length < 2 ^ 32
  holds : Holds state.rest channel
  handled : channel.handled = state.messages.map parts
  announced : channel.agentCaps = capsAfter caps state.messages

/-- Nothing was handled. -/
structure Same (channel next : MainChannel) : Prop where
  handled : next.handled = channel.handled
  caps : next.agentCaps = channel.agentCaps

/-- The bytes are those of the message up to its end, or up to theirs. -/
def Ends (message others : List UInt8) : Prop := (Partly message ∧ others = []) ∨ Whole message

/-- A copy that goes on where what was copied ends. -/
theorem copyInto_next (array source : List UInt8) {place count : Nat} (fits : place + count ≤ array.length)
    (isSource : count ≤ source.length) : Exists fun written => copyInto array place source 0 count = some written ∧
      written.length = array.length ∧ written.take (place + count) = array.take place ++ source.take count := by
  refine ⟨_, if_pos ⟨fits, by omega⟩, length_copyInto (if_pos ⟨fits, by omega⟩), ?_⟩
  rw [List.drop_zero]
  exact List.take_left' (by rw [List.length_append, List.length_take, List.length_take]; omega)

section Pieces

variable {setup : Setup} {message first others : List UInt8} {channel : MainChannel}

theorem Holds.agentMsg (holds : Holds message channel) (header : agentMessageSize ≤ message.length) :
    channel.agentMsg = message.take agentMessageSize := by
  have isHead := holds.head
  rwa [List.take_of_length_le (by rw [holds.headLength]; exact header)] at isHead

theorem Holds.size (holds : Holds message channel) (header : agentMessageSize ≤ message.length) :
    channel.size = messageField 16 4 message := by
  unfold MainChannel.size
  rw [holds.agentMsg header]
  conv_rhs => rw [<- List.take_append_drop agentMessageSize message]
  exact (size_append _ (by rw [List.length_take]; omega)).symm

/-- Data behind the header are taken up to the end of the message. -/
theorem Holds.takeData (setup : Setup) (holds : Holds message channel) (header : agentMessageSize ≤ message.length)
    (small : (message ++ first).length < 2 ^ 32) (ends : Ends (message ++ first) others) :
    Exists fun next => Holds (message ++ first) next ∧ Same channel next ∧
      channel.takeData setup (first ++ others) = next.finish setup others := by
  obtain ⟨dataLength, isData⟩ := holds.data header
  have bound := size_lt message
  have isSize := size_append first header
  rw [List.length_append] at small
  have count : min ((agentMessageSize + channel.size + 2 ^ 64 - channel.agentMsgPos) % 2 ^ 64)
      (first ++ others).length =
      first.length := by
    rw [holds.size header, holds.pos, List.length_append]
    unfold agentMessageSize at header ⊢
    rcases ends with ⟨short, none⟩ | ⟨_, whole⟩
    · rw [none, List.length_nil]
      unfold Partly agentMessageSize at short
      rw [List.length_append, isSize] at short
      omega
    · rw [List.length_append, isSize, agentMessageSize] at whole
      omega
  have fits : message.length - agentMessageSize + first.length ≤ (channel.agentMsgData.getD []).length := by
    rw [dataLength]
    unfold agentMessageSize at header ⊢
    rcases ends with ⟨short, _⟩ | ⟨_, whole⟩
    · unfold Partly agentMessageSize at short
      rw [List.length_append, isSize] at short
      omega
    · rw [List.length_append, isSize, agentMessageSize] at whole
      omega
  obtain ⟨data, copied, length, isTake⟩ := copyInto_next _ (first ++ others) fits (by rw [List.length_append]; omega)
  unfold MainChannel.takeData
  dsimp only
  rw [if_pos (by rw [holds.pos]; exact header), count, holds.pos, copied, Option.bind_some,
    List.drop_left, Nat.mod_eq_of_lt (by omega)]
  refine ⟨_, ?_, ?_, rfl⟩
  rotate_left
  · exact ⟨rfl, rfl⟩
  refine ⟨?_, holds.headLength, ?_, ?_, ?_⟩
  · exact List.length_append.symm
  · dsimp only
    rw [List.take_append_of_le_length header,
      List.take_of_length_le (by rw [holds.headLength, List.length_append]; omega)]
    exact holds.agentMsg header
  · intro short
    rw [List.length_append] at short
    omega
  · intro _
    have kept : (channel.agentMsgData.map fun _ => data).getD [] = data := by
      cases isSome : channel.agentMsgData with
      | some old => rfl
      | none =>
          rw [isSome, Option.getD_none, List.length_nil] at length
          exact (List.length_eq_zero_iff.mp length).symm
    dsimp only
    rw [kept, length, dataLength, isSize, List.length_append, Nat.sub_add_comm header, isTake, isData, List.take_left,
      List.drop_append_of_le_length header]
    exact ⟨rfl, rfl⟩

/-- A piece is taken up to the end of the message. -/
theorem Holds.handleAgentDataMsg (setup : Setup) (holds : Holds message channel)
    (small : (message ++ first).length < 2 ^ 32) (ends : Ends (message ++ first) others) :
    Exists fun next => Holds (message ++ first) next ∧ Same channel next ∧
      channel.handleAgentDataMsg setup (first ++ others) = next.finish setup others := by
  unfold MainChannel.handleAgentDataMsg
  by_cases header : agentMessageSize ≤ message.length
  · rw [if_neg (by rw [holds.pos]; omega)]
    exact holds.takeData setup header small ends
  rw [if_pos (by rw [holds.pos]; omega)]
  have idle := holds.idle (by omega)
  have isHead := holds.head
  rw [List.take_of_length_le (by omega : message.length ≤ agentMessageSize)] at isHead
  have headLength := holds.headLength
  dsimp only
  by_cases short : (message ++ first).length < agentMessageSize
  · -- the header is not whole
    have none : others = [] := by
      rcases ends with ⟨_, none⟩ | ⟨long, _⟩
      · exact none
      · omega
    rw [List.length_append] at short small
    rw [none, List.append_nil, holds.pos, Nat.min_eq_right (by omega)]
    obtain ⟨head, copied, length, isTake⟩ := copyInto_next channel.agentMsg first
      (show message.length + first.length ≤ channel.agentMsg.length by omega) (Nat.le_refl _)
    rw [copied, Option.bind_some]
    unfold MainChannel.takeData
    dsimp only
    rw [Nat.mod_eq_of_lt (by omega), if_neg (by omega), if_neg (by omega), List.drop_length]
    refine ⟨_, ?_, ?_, rfl⟩
    rotate_left
    · exact ⟨rfl, rfl⟩
    refine ⟨List.length_append.symm, length.trans headLength, ?_, fun _ => idle, ?_⟩
    · dsimp only
      rw [List.length_append, isTake, isHead, List.take_length,
        List.take_of_length_le (by rw [List.length_append]; omega : (message ++ first).length ≤ agentMessageSize)]
    · intro long
      rw [List.length_append] at long
      omega
  · -- the header is whole, and the data follow
    rw [List.length_append] at short
    obtain ⟨front, back, isFirst, frontLength⟩ : Exists fun front => Exists fun back => first = front ++ back ∧
        front.length = agentMessageSize - message.length :=
      ⟨first.take (agentMessageSize - message.length), first.drop _, (List.take_append_drop _ _).symm, by
        rw [List.length_take]
        omega⟩
    subst isFirst
    rw [holds.pos, Nat.min_eq_left (by simp only [List.length_append] at short ⊢; omega), List.append_assoc]
    obtain ⟨head, copied, length, isTake⟩ := copyInto_next channel.agentMsg (front ++ (back ++ others))
      (show message.length + (agentMessageSize - message.length) ≤ channel.agentMsg.length by omega)
      (by rw [List.length_append]; omega)
    rw [copied, Option.bind_some, idle]
    rw [<- frontLength, List.take_left, isHead, frontLength] at isTake
    rw [Nat.add_sub_of_le (by omega)] at isTake ⊢
    rw [Nat.mod_eq_of_lt (by decide), if_pos rfl, if_neg (not_not_intro rfl), <- frontLength, List.drop_left]
    rw [List.take_of_length_le (by omega)] at isTake
    have whole : (message ++ front).length = agentMessageSize := by
      rw [List.length_append]
      omega
    have begun : Holds (message ++ front) { channel with
        agentMsg := head
        agentMsgPos := agentMessageSize
        agentMsgData := MainChannel.malloc (messageField 16 4 head) } := by
      refine ⟨whole.symm, length.trans headLength, ?_, fun less => by omega, fun _ => ?_⟩
      · dsimp only
        rw [isTake, List.take_of_length_le (by omega), List.take_of_length_le (by omega)]
      · rw [whole, Nat.sub_self, List.take_zero, List.drop_of_length_le (by omega)]
        refine ⟨?_, rfl⟩
        rw [isTake]
        unfold MainChannel.malloc
        split
        · rename_i zero
          exact zero.symm
        · exact List.length_replicate
    rw [<- List.append_assoc] at small ends ⊢
    obtain ⟨next, nextHolds, same, taken⟩ := begun.takeData setup (Nat.le_of_eq whole.symm) small ends
    exact ⟨next, nextHolds, ⟨same.handled, same.caps⟩, taken⟩

theorem field_take {offset width : Nat} (inside : offset + width ≤ agentMessageSize) :
    messageField offset width (message.take agentMessageSize) = messageField offset width message := by
  unfold messageField
  rw [List.drop_take, List.take_take, Nat.min_eq_left (by omega)]

/-- A message that fits is handled without a read outside of it. -/
theorem agentHandleMsg_of_fits {caps : Option Nat} {before : List (List UInt8)} (whole : Whole message)
    (fits : Fits setup caps before message) (handled : channel.handled = before.map parts)
    (announced : channel.agentCaps = capsAfter caps before) :
    channel.agentHandleMsg setup (message.take agentMessageSize) (message.drop agentMessageSize) = some { channel with
      handled := (before ++ [message]).map parts
      agentCaps := capsAfter caps (before ++ [message]) } := by
  obtain ⟨header, length⟩ := whole
  obtain ⟨small, long⟩ := fits
  have isCaps : AgentData.announced channel.agentCaps (message.take agentMessageSize) (message.drop agentMessageSize) =
      capsAfter caps (before ++ [message]) := by
    unfold capsAfter
    rw [List.foldl_append, List.foldl_cons, List.foldl_nil, announced]
    rfl
  have isHandled : channel.handled ++ [(message.take agentMessageSize, message.drop agentMessageSize)] =
      (before ++ [message]).map parts := by
    rw [List.map_append, List.map_singleton, handled]
    rfl
  have dataLength : (message.drop agentMessageSize).length = messageField 16 4 message := by
    rw [List.length_drop]
    omega
  unfold MainChannel.agentHandleMsg
  rw [field_take (by decide), field_take (by decide), field_take (by decide), isCaps, isHandled]
  dsimp only
  split
  · rfl
  · rename_i protocol
    refine if_pos ?_
    rw [announced, handled, <- dataLength]
    refine inside_of_longEnough (by rw [List.length_drop]; omega) ?_
    rw [List.length_drop]
    exact long (not_not.mp protocol)

theorem Holds.finish_partly (holds : Holds message channel) (partly : Partly message) :
    channel.finish setup others = some (channel, others) := by
  refine if_neg ?_
  rw [holds.pos]
  by_cases header : agentMessageSize ≤ message.length
  · rw [holds.size header]
    rcases partly with short | short <;> omega
  · omega

theorem holds_nil (length : channel.agentMsg.length = agentMessageSize) :
    Holds [] { channel with agentMsgData := none, agentMsgPos := 0 } :=
  ⟨rfl, length, rfl, fun _ => rfl, fun header => (nomatch header)⟩

/-- A whole message is handled and nothing is held. -/
theorem Holds.finish_whole {caps : Option Nat} {before : List (List UInt8)} (holds : Holds message channel)
    (others : List UInt8) (whole : Whole message) (fits : Fits setup caps before message)
    (handled : channel.handled = before.map parts)
    (announced : channel.agentCaps = capsAfter caps before) : Exists fun next =>
      channel.finish setup others = some (next, others) ∧ Inv caps ⟨before ++ [message], []⟩ next := by
  obtain ⟨header, length⟩ := whole
  obtain ⟨dataLength, isData⟩ := holds.data header
  rw [List.take_of_length_le (by omega)] at isData
  unfold MainChannel.finish
  rw [if_pos (by rw [holds.pos, holds.size header]; exact length), holds.agentMsg header, isData,
    agentHandleMsg_of_fits ⟨header, length⟩ fits handled announced]
  exact ⟨_, rfl, partly_nil, Nat.two_pow_pos 32, holds_nil holds.headLength, rfl, rfl⟩

end Pieces

/-! ## Whole pieces -/

section Runs

variable {setup : Setup} {caps : Option Nat} {state : Stream} {channel : MainChannel}

/-- The message behind those so far fits. -/
theorem fits_next (state : Stream) {message : List UInt8} {final : Stream} (fits : AllFit setup caps final)
    (isNext : state.messages ++ [message] <+: final.messages) : Fits setup caps state.messages message := by
  obtain ⟨more, isFinal⟩ := isNext
  have fitsAt := fits.2 state.messages.length
      (by rw [<- isFinal, List.length_append, List.length_append, List.length_singleton]; omega)
  rw [<- isFinal, List.append_assoc, List.take_left, List.getD_eq_getElem?_getD,
    List.getElem?_append_right (Nat.le_refl _),
    Nat.sub_self] at fitsAt
  exact fitsAt

/-- The loop takes whole messages, and keeps what is left over. -/
theorem Inv.dataLoop (rounds : Nat) : forall {bytes : List UInt8} {state : Stream} {channel : MainChannel},
    bytes.length ≤ rounds -> Inv caps state channel -> AllFit setup caps (bytes.foldl Stream.feed state) ->
      Exists fun next => MainChannel.dataLoop setup rounds channel bytes = some next ∧
        Inv caps (bytes.foldl Stream.feed state) next := by
  induction rounds with
  | zero =>
      intro bytes state channel enough inv _
      cases List.length_eq_zero_iff.mp (Nat.le_zero.mp enough)
      exact ⟨channel, rfl, inv⟩
  | succ rounds ih =>
      intro bytes state channel enough inv fits
      cases bytes with
      | nil => exact ⟨channel, rfl, inv⟩
      | cons byte bytes =>
          rw [MainChannel.dataLoop]
          rcases partly_or_whole (byte :: bytes) inv.partly with partly | ⟨first, others, isBytes, whole⟩
          · have isFinal := feed_partly _ state partly
            have small := fits.1
            rw [isFinal] at small ⊢
            obtain ⟨next, holds, same, taken⟩ := inv.holds.handleAgentDataMsg setup small (.inl ⟨partly, rfl⟩)
            rw [List.append_nil] at taken
            rw [taken, holds.finish_partly partly, Option.bind_some]
            refine ⟨next, ?_, partly, small, holds, same.handled.trans inv.handled, same.caps.trans inv.announced⟩
            cases rounds <;> rfl
          · rw [isBytes, List.foldl_append, feed_whole inv.partly whole] at fits ⊢
            have fitsFirst := fits_next state fits
              (feed_messages others ⟨state.messages ++ [state.rest ++ first], []⟩)
            obtain ⟨held, holds, same, taken⟩ := inv.holds.handleAgentDataMsg setup fitsFirst.1 (.inr whole)
            obtain ⟨next, finished, nextInv⟩ := holds.finish_whole others whole fitsFirst
              (same.handled.trans inv.handled) (same.caps.trans inv.announced)
            rw [taken, finished, Option.bind_some]
            have progress : first ≠ [] := by
              intro none
              rw [none, List.append_nil] at whole
              exact inv.partly.not_whole whole
            have positive := List.length_pos_iff.mpr progress
            have lengths := congrArg List.length isBytes
            rw [List.length_append] at lengths
            exact ih (show others.length ≤ rounds by omega) nextInv fits

/-- Data is handled, by the shortcut or by the loop. -/
theorem Inv.handleAgentData {bytes : List UInt8} (inv : Inv caps state channel)
    (header : state.rest = [] -> agentMessageSize ≤ bytes.length)
    (fits : AllFit setup caps (bytes.foldl Stream.feed state)) :
    Exists fun next => channel.handleAgentData setup bytes = some next ∧
      Inv caps (bytes.foldl Stream.feed state) next := by
  unfold MainChannel.handleAgentData
  split
  · rename_i idle
    rw [inv.holds.pos] at idle
    have none := List.length_eq_zero_iff.mp idle
    have long := header none
    rw [if_neg (by omega)]
    split
    · -- the piece is one message
      rename_i same
      have whole : Whole (state.rest ++ bytes) := by
        rw [none]
        exact ⟨long, by rw [List.nil_append]; omega⟩
      have isFinal := feed_whole inv.partly whole
      rw [isFinal] at fits ⊢
      have fitsOne := fits_next _ fits (List.prefix_refl _)
      rw [none, List.nil_append] at whole fitsOne ⊢
      have holds := inv.holds
      have isNone := holds.idle (by rw [none]; decide)
      rw [agentHandleMsg_of_fits whole fitsOne inv.handled inv.announced]
      refine ⟨_, rfl, partly_nil, Nat.two_pow_pos 32, ?_, rfl, rfl⟩
      exact ⟨holds.pos.trans idle, holds.headLength, rfl, fun _ => isNone, fun more => (nomatch more)⟩
    · exact inv.dataLoop _ (Nat.le_refl _) fits
  · exact inv.dataLoop _ (Nat.le_refl _) fits

theorem stream_snoc (past : List Piece) (piece : Piece) :
    stream (past ++ [piece]) = piece.bytes.foldl Stream.feed (stream past) := by
  unfold stream
  rw [List.flatMap_append, List.flatMap_singleton, List.foldl_append]

end Runs

theorem inv_start (caps : Option Nat) : Inv caps (stream []) (.start caps) :=
  ⟨partly_nil, Nat.two_pow_pos 32,
    ⟨rfl, List.length_replicate, rfl, fun _ => rfl, fun more => (nomatch more)⟩, rfl, rfl⟩

/-- For every way the stream is cut, each message is handed on once, when it is whole, with its header and its payload,
nothing else is touched and the loop ends, when the pieces between messages have a header and the messages fit. -/
theorem agent_data (setup : Setup) (caps : Option Nat) (pieces : List Piece)
    (meets : Meets (MainChannel.step setup) (fun past _ => Sound setup caps past) [] (.start caps) pieces) :
    AllStates (MainChannel.step setup) Handed [] (.start caps) pieces := by
  have handled : forall (past : List Piece) (channel : MainChannel), Inv caps (stream past) channel ->
      Handed past channel :=
    fun _ _ inv => inv.handled
  refine allStates_of_meets handled ?_ (inv_start caps) meets
  intro past channel piece inv sound
  have fits := sound.fits
  rw [stream_snoc] at fits ⊢
  exact inv.handleAgentData sound.header fits

/-- A message of the agent. -/
def sampleBytes (type : UInt8) (payload : List UInt8) : List UInt8 :=
  [1, 0, 0, 0, type, 0, 0, 0] ++ List.replicate 8 0 ++ [UInt8.ofNat payload.length, 0, 0, 0] ++ payload

/-- A clipboard message in two pieces, the second with a message without data behind it, and one that is a piece. -/
theorem agent_data_cut : AllStates (MainChannel.step ⟨true, fun _ _ => false⟩) Handed [] (.start none)
    [⟨(sampleBytes 4 [1, 0, 0, 0, 7]).take 22, by decide⟩,
      ⟨(sampleBytes 4 [1, 0, 0, 0, 7]).drop 22 ++ sampleBytes 9 [], by decide⟩,
      ⟨sampleBytes 3 [1, 0, 0, 0, 1, 0, 0, 0], by decide⟩] := by
  refine agent_data _ _ _ ⟨⟨?_, ?_⟩, fun _ _ => ⟨⟨?_, ?_⟩, fun _ _ => ⟨⟨?_, ?_⟩, fun _ _ => trivial⟩⟩⟩
    <;> decide +kernel

/-- Data shorter than a header are looked at as one. -/
theorem agent_data_short : Not (forall (setup : Setup) (caps : Option Nat) (pieces : List Piece),
    AllStates (MainChannel.step setup) Handed [] (.start caps) pieces) := by
  intro always
  obtain ⟨next, ran, _⟩ := always ⟨false, fun _ _ => false⟩ none [⟨List.replicate 10 0, by decide⟩] _
    (List.prefix_refl _)
  have fails :
      (run (MainChannel.step ⟨false, fun _ _ => false⟩) (.start none) [⟨List.replicate 10 0, by decide⟩]).isNone =
      true := by decide +kernel
  rw [ran] at fails
  cases fails

end AgentData
end Client
end Spice
