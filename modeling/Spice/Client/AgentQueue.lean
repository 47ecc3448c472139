import Spice.Agent.MessageFilter
import Spice.Lib.Int32
import Mathlib.Data.List.Forall2

namespace Spice
namespace Client
namespace AgentQueue

open Lib Agent

/-!
# Messages to the agent

The client cuts a message to the agent into payloads that the server accepts, and sends one
for each token that the server granted.  The message is the header and the pieces that the
caller names; the loops over the pieces and over the payloads end where they will.
-/

/-! ## The payloads of a message -/

/-- `VDAgentMessage` as `agent_msg_queue_many` fills it.  The size becomes a `uint32_t`. -/
def messageHeader (type : UInt32) (size : Nat) : List UInt8 :=
  toLittleEndian 4 1 ++ (toLittleEndian 4 type.toNat ++ (List.replicate 8 0 ++ toLittleEndian 4 size))

/-- The variables of `agent_msg_queue_many`: the payloads it pushed, what was written to `out`, and how much is still to
be written to it and in all. -/
structure Filling where
  pushed : List (List UInt8)
  out : Option (List UInt8)
  paysize : Nat
  size : Nat
deriving DecidableEq, Repr

namespace Filling

variable (filling : Filling)

/-- A payload is taken when there is none. -/
def opened : Filling :=
  match filling.out with
  | none => { filling with out := some [], paysize := min maxDataSize filling.size }
  | some _ => filling

/-- The payload is pushed when nothing more fits. -/
def closed : Filling :=
  if filling.paysize = 0 then { filling with pushed := filling.pushed ++ filling.out.toList, out := none } else filling

/-- Bytes are copied to the payload. -/
def written (bytes : List UInt8) : Filling :=
  { filling with
    out := filling.out.map (· ++ bytes)
    paysize := filling.paysize - bytes.length
    size := (filling.size + 2 ^ 64 - bytes.length) % 2 ^ 64 }

/-- A pass of the inner loop, with what is left of the piece. -/
def copy (piece : List UInt8) : Filling × List UInt8 :=
  let mins := min filling.opened.paysize piece.length
  ((filling.opened.written (piece.take mins)).closed, piece.drop mins)

/-- The inner loop; `none` when it goes on for ever. -/
def copyPiece : Nat -> List UInt8 -> Filling -> Option Filling
  | _, [], filling => some filling
  | 0, _ :: _, _ => none
  | passes + 1, byte :: piece, filling =>
      copyPiece passes (filling.copy (byte :: piece)).2 (filling.copy (byte :: piece)).1

/-- The outer loop; `none` when it reads past the arguments. -/
def copyPieces : List (List UInt8) -> Filling -> Option Filling
  | [], filling => if filling.size = 0 then some filling else none
  | piece :: pieces, filling =>
      if filling.size = 0 then some filling
      else (copyPiece piece.length piece filling).bind fun next => copyPieces pieces next

/-- The header is written; `none` when there is no room for it. -/
def begin (type : UInt32) (size : Nat) : Option Filling :=
  let paysize := min maxDataSize ((size + agentMessageSize) % 2 ^ 64)
  if paysize < agentMessageSize then none
  else some (closed ⟨[], some (messageHeader type size), paysize - agentMessageSize, size⟩)

end Filling

/-- `agent_msg_queue_many`, with the pieces before the null pointer. -/
def agentMsgQueueMany (type : UInt32) (pieces : List (List UInt8)) : Option Filling :=
  (Filling.begin type (pieces.flatten.length % 2 ^ 64)).bind fun filling => filling.copyPieces pieces

/-! ## The channel -/

/-- What the channel has of the queue, and the payloads that were sent.  `warned` says that a payload was left over. -/
structure MainChannel where
  agentTokens : Int
  agentMsgQueue : List (List UInt8)
  sent : List (List UInt8)
  warned : Bool
deriving DecidableEq, Repr

inductive Op
  | queue (type : UInt32) (pieces : List (List UInt8))
  | tokens (count : UInt32)
  | send
deriving DecidableEq, Repr

/-- The loop of `agent_send_msg_queue`: the tokens, the payloads sent and those that stay. -/
def sendQueue : Int -> List (List UInt8) -> Int × List (List UInt8) × List (List UInt8)
  | tokens, [] => (tokens, [], [])
  | tokens, out :: queue =>
      if 0 < tokens then
        let result := sendQueue (tokens - 1) queue
        (result.1, out :: result.2.1, result.2.2)
      else (tokens, [], out :: queue)

namespace MainChannel

variable (channel : MainChannel)

def agentSendMsgQueue : MainChannel :=
  let result := sendQueue channel.agentTokens channel.agentMsgQueue
  { channel with agentTokens := result.1, sent := channel.sent ++ result.2.1, agentMsgQueue := result.2.2 }

def step : Op -> Option MainChannel
  | .queue type pieces =>
      (agentMsgQueueMany type pieces).map fun filling =>
        { channel with
          agentMsgQueue := channel.agentMsgQueue ++ filling.pushed
          warned := channel.warned || filling.out.isSome }
  | .tokens count =>
      some { channel with agentTokens := int32 (channel.agentTokens + count.toNat) }.agentSendMsgQueue
  | .send => some channel.agentSendMsgQueue

/-- The channel when the server told the tokens in its first message. -/
def start (tokens : UInt32) : MainChannel := ⟨int32 tokens.toNat, [], [], false⟩

end MainChannel

/-! ## What is sent -/

/-- The message that is queued, as its type and its data. -/
def Op.request : Op -> Option (UInt32 × List UInt8)
  | .queue type pieces => some (type, pieces.flatten)
  | _ => none

def requests (past : List Op) : List (UInt32 × List UInt8) := past.filterMap Op.request

def Op.granted : Op -> Nat
  | .tokens count => count.toNat
  | _ => 0

def granted (initial : UInt32) (past : List Op) : Nat := initial.toNat + (past.map Op.granted).sum

/-- The payloads are the header and the data in pieces of the right size, the first with the header in it. -/
structure Fragmented (request : UInt32 × List UInt8) (payloads : List (List UInt8)) : Prop where
  bytes : payloads.flatten = messageHeader request.1 request.2.length ++ request.2
  size : messageField 16 4 payloads.flatten = request.2.length
  sizes : forall payload, payload ∈ payloads -> 1 ≤ payload.length ∧ payload.length ≤ maxDataSize
  header : Exists fun first => payloads.head? = some first ∧ agentMessageSize ≤ first.length

/-- The filter of the server takes the payloads and sees the messages. -/
def SeenAs (config : AgentMsgFilter) (messages : List (UInt32 × List UInt8)) (payloads : List (List UInt8)) : Prop :=
  Exists fun seen : List AgentMessage => Exists fun final =>
    seen.map (fun message => (message.type, message.body)) = messages ∧
      run Filtering.step (Filtering.start config) payloads = some final ∧ ChunkInvariant config seen final

/-- The payloads are those of the messages, in order, nothing is left over, no payload is sent without a token, and
every filter sees the messages. -/
structure Faithful (initial : UInt32) (past : List Op) (channel : MainChannel) : Prop where
  fragments : Exists fun parts => List.Forall₂ Fragmented (requests past) parts ∧
    parts.flatten = channel.sent ++ channel.agentMsgQueue
  whole : channel.warned = false
  paid : channel.sent.length ≤ granted initial past
  seen : forall config, SeenAs config (requests past) channel.sent

/-- The size of the message fits the header. -/
def Op.Small : Op -> Prop
  | .queue _ pieces => pieces.flatten.length < 2 ^ 32
  | _ => True

instance (op : Op) : Decidable op.Small :=
  match op with
  | .queue _ pieces => inferInstanceAs (Decidable (pieces.flatten.length < 2 ^ 32))
  | .tokens _ => isTrue trivial
  | .send => isTrue trivial

/-! ## The loops -/

theorem length_messageHeader (type : UInt32) (size : Nat) : (messageHeader type size).length = agentMessageSize := by
  simp only [messageHeader, List.length_append, length_toLittleEndian, List.length_replicate, agentMessageSize]

/-- What is written so far and what is still to be copied are the message; `out` has room and the first payload the
header. -/
structure Fills (whole left : List UInt8) (filling : Filling) : Prop where
  bytes : filling.pushed.flatten ++ filling.out.getD [] ++ left = whole
  size : filling.size = left.length
  small : left.length < 2 ^ 64
  sizes : forall payload, payload ∈ filling.pushed -> 1 ≤ payload.length ∧ payload.length ≤ maxDataSize
  room : forall out, filling.out = some out ->
    0 < filling.paysize ∧ filling.paysize ≤ left.length ∧ out.length + filling.paysize ≤ maxDataSize
  header : Exists fun first => Exists fun rest => filling.pushed ++ filling.out.toList = first :: rest ∧
    agentMessageSize ≤ first.length

section Loops

variable {whole left piece : List UInt8} {filling : Filling}

/-- A payload is opened for what is left. -/
theorem Fills.opened (fills : Fills whole left filling) (more : left ≠ []) :
    Fills whole left filling.opened ∧ Exists fun out => filling.opened.out = some out := by
  unfold Filling.opened
  cases isOut : filling.out with
  | some out => exact ⟨fills, out, isOut⟩
  | none =>
      have positive := List.length_pos_iff.mpr more
      have size := fills.size
      refine ⟨⟨?_, size, fills.small, fills.sizes, ?_, ?_⟩, [], rfl⟩
      · have bytes := fills.bytes
        rw [isOut] at bytes
        exact bytes
      · rintro out same
        cases same
        show 0 < min maxDataSize filling.size ∧ min maxDataSize filling.size ≤ left.length ∧
          0 + min maxDataSize filling.size ≤ maxDataSize
        unfold maxDataSize
        omega
      · obtain ⟨first, rest, isFirst, long⟩ := fills.header
        rw [isOut, Option.toList_none, List.append_nil] at isFirst
        exact ⟨first, rest ++ [[]], by rw [isFirst]; rfl, long⟩

/-- Bytes that fit are written behind the others. -/
theorem Fills.written {bytes out : List UInt8} (fills : Fills whole (bytes ++ left) filling)
    (isOut : filling.out = some out)
    (fits : bytes.length ≤ filling.paysize) : Fills whole left (filling.written bytes).closed := by
  have size := fills.size
  have small := fills.small
  obtain ⟨positive, most, bounded⟩ := fills.room out isOut
  obtain ⟨first, rest, isFirst, long⟩ := fills.header
  have isBytes := fills.bytes
  rw [isOut, Option.toList_some] at isFirst
  rw [isOut, Option.getD_some] at isBytes
  rw [List.length_append] at size small most
  have header : Exists fun first => Exists fun rest => filling.pushed ++ [out ++ bytes] = first :: rest ∧
      agentMessageSize ≤ first.length := by
    cases isPushed : filling.pushed with
    | nil =>
        rw [isPushed] at isFirst
        cases isFirst
        exact ⟨out ++ bytes, [], rfl, by rw [List.length_append]; omega⟩
    | cons other others =>
        rw [isPushed] at isFirst
        cases isFirst
        exact ⟨first, others ++ [out ++ bytes], rfl, long⟩
  have isSize : (filling.size + 2 ^ 64 - bytes.length) % 2 ^ 64 = left.length := by omega
  unfold Filling.written Filling.closed
  rw [isOut]
  dsimp only [Option.map_some, Option.toList_some]
  split
  · rename_i full
    refine ⟨?_, isSize, by omega, ?_, fun _ other => (nomatch other), ?_⟩
    · show (filling.pushed ++ [out ++ bytes]).flatten ++ [] ++ left = whole
      rw [List.flatten_append, List.flatten_singleton, List.append_nil, <- isBytes]
      simp only [List.append_assoc]
    · intro payload member
      rcases List.mem_append.mp member with member | member
      · exact fills.sizes payload member
      · rw [List.mem_singleton.mp member, List.length_append]
        omega
    · show Exists fun first => Exists fun rest => (filling.pushed ++ [out ++ bytes]) ++ [] = first :: rest ∧ _
      rw [List.append_nil]
      exact header
  · rename_i notFull
    refine ⟨?_, isSize, by omega, fills.sizes, ?_, header⟩
    · show filling.pushed.flatten ++ (out ++ bytes) ++ left = whole
      rw [<- isBytes]
      simp only [List.append_assoc]
    · rintro other same
      cases same
      show 0 < filling.paysize - bytes.length ∧ filling.paysize - bytes.length ≤ left.length ∧
        (out ++ bytes).length + (filling.paysize - bytes.length) ≤ maxDataSize
      rw [List.length_append]
      omega

/-- A part of a piece is copied. -/
theorem Fills.copy (fills : Fills whole (piece ++ left) filling) (more : piece ≠ []) :
    Fills whole ((filling.copy piece).2 ++ left) (filling.copy piece).1 ∧
      (filling.copy piece).2.length < piece.length := by
  have positive := List.length_pos_iff.mpr more
  obtain ⟨opened, out, isOut⟩ := fills.opened (by simp [more])
  have room := (opened.room out isOut).1
  have split : piece ++ left = piece.take (min filling.opened.paysize piece.length) ++
      (piece.drop (min filling.opened.paysize piece.length) ++ left) := by
    rw [<- List.append_assoc, List.take_append_drop]
  rw [split] at opened
  refine ⟨opened.written isOut ?_, ?_⟩
  · rw [List.length_take]
    omega
  · show (piece.drop _).length < _
    rw [List.length_drop]
    omega

/-- A piece is copied in some parts. -/
theorem Fills.copyPiece {passes : Nat} : forall {piece : List UInt8} {filling : Filling}, piece.length ≤ passes ->
    Fills whole (piece ++ left) filling ->
    Exists fun next => Filling.copyPiece passes piece filling = some next ∧ Fills whole left next := by
  induction passes with
  | zero =>
      intro piece filling enough fills
      cases List.length_eq_zero_iff.mp (Nat.le_zero.mp enough)
      exact ⟨filling, rfl, fills⟩
  | succ passes ih =>
      intro piece filling enough fills
      cases piece with
      | nil => exact ⟨filling, rfl, fills⟩
      | cons byte piece =>
          obtain ⟨copied, shorter⟩ := fills.copy (List.cons_ne_nil byte piece)
          exact ih (by omega) copied

/-- All pieces are copied. -/
theorem Fills.copyPieces {pieces : List (List UInt8)} :
    forall {filling : Filling}, Fills whole pieces.flatten filling ->
    Exists fun next => filling.copyPieces pieces = some next ∧ Fills whole [] next := by
  induction pieces with
  | nil =>
      intro filling fills
      exact ⟨filling, if_pos fills.size, fills⟩
  | cons piece pieces ih =>
      intro filling fills
      rw [Filling.copyPieces]
      by_cases done : filling.size = 0
      · rw [if_pos done]
        have empty := List.length_eq_zero_iff.mp (fills.size.symm.trans done)
        rw [empty] at fills
        exact ⟨filling, rfl, fills⟩
      · rw [if_neg done]
        rw [List.flatten_cons] at fills
        obtain ⟨next, copied, nextFills⟩ := fills.copyPiece (Nat.le_refl _)
        rw [copied]
        exact ih nextFills

/-- The whole message is pushed, and nothing is left over. -/
theorem Fills.done (fills : Fills whole [] filling) : filling.out = none ∧ filling.pushed.flatten = whole := by
  have isNone : filling.out = none := by
    cases isOut : filling.out with
    | none => rfl
    | some out =>
        obtain ⟨positive, most, _⟩ := fills.room out isOut
        rw [List.length_nil] at most
        omega
  have bytes := fills.bytes
  rw [isNone, Option.getD_none, List.append_nil, List.append_nil] at bytes
  exact ⟨isNone, bytes⟩

end Loops

/-- The first payload starts with the header. -/
theorem fills_begin (type : UInt32) {body : List UInt8} (small : body.length < 2 ^ 32) :
    Exists fun filling => Filling.begin type body.length = some filling ∧
      Fills (messageHeader type body.length ++ body) body filling := by
  have header := length_messageHeader type body.length
  unfold Filling.begin
  rw [agentMessageSize] at header ⊢
  have room : min maxDataSize ((body.length + 20) % 2 ^ 64) = min 2048 (body.length + 20) := by
    rw [Nat.mod_eq_of_lt (by omega), maxDataSize]
  rw [room]
  dsimp only
  rw [if_neg (by omega)]
  refine ⟨_, rfl, ?_⟩
  unfold Filling.closed
  dsimp only
  split
  · rename_i empty
    have isEmpty : body = [] := List.length_eq_zero_iff.mp (by omega)
    subst isEmpty
    refine ⟨by simp, rfl, by decide, ?_, fun _ other => (by cases other), _, [], rfl,
      Nat.le_of_eq (length_messageHeader type 0).symm⟩
    intro payload member
    rw [List.nil_append, Option.toList_some, List.mem_singleton] at member
    rw [member, header, maxDataSize]
    decide
  · rename_i notEmpty
    refine ⟨rfl, rfl,
      by omega, fun _ member => (by cases member), ?_, _, [], rfl, Nat.le_of_eq (length_messageHeader type _).symm⟩
    rintro out same
    cases same
    rw [header, maxDataSize]
    dsimp only
    omega

theorem field_size {type : UInt32} {body : List UInt8} (small : body.length < 2 ^ 32) :
    messageField 16 4 (messageHeader type body.length ++ body) = body.length :=
  (sampleMessage type body small).field_size body

/-- A message that fits is cut into payloads and nothing is left over. -/
theorem agentMsgQueueMany_spec (type : UInt32) {pieces : List (List UInt8)} (small : pieces.flatten.length < 2 ^ 32) :
    Exists fun filling => agentMsgQueueMany type pieces = some filling ∧ filling.out = none ∧
      Fragmented (type, pieces.flatten) filling.pushed := by
  unfold agentMsgQueueMany
  rw [Nat.mod_eq_of_lt (by omega)]
  obtain ⟨begun, isBegun, fills⟩ := fills_begin type small
  obtain ⟨filling, isFilling, filled⟩ := fills.copyPieces
  rw [isBegun, Option.bind_some, isFilling]
  obtain ⟨noOut, bytes⟩ := filled.done
  obtain ⟨first, rest, isFirst, long⟩ := filled.header
  rw [noOut, Option.toList_none, List.append_nil] at isFirst
  refine ⟨filling, rfl, noOut, bytes, ?_, filled.sizes, first, by rw [isFirst]; rfl, long⟩
  rw [bytes]
  exact field_size small

/-! ## The filter of the server -/

/-- The filter takes the payloads, each message with its own, and is between two messages at the end. -/
def Accepted (state : Filtering) (payloads : List (List UInt8)) : Prop :=
  Exists fun final => run Filtering.step state payloads = some final ∧ final.filter.msgDataToRead = 0 ∧
    forall past, Meets Filtering.step (fun _ => EndsWithHeader) past state payloads

section Filters

variable {state : Filtering} {payload : List UInt8} {payloads : List (List UInt8)}

theorem Accepted.cons {next : Filtering} (stepped : state.step payload = some next)
    (ends : EndsWithHeader state payload)
    (rest : Accepted next payloads) : Accepted state (payload :: payloads) := by
  obtain ⟨final, ran, done, meets⟩ := rest
  refine ⟨final, ?_, done, fun past => ⟨ends, fun other same => ?_⟩⟩
  · rw [run_cons_of_some _ _ stepped, ran]
  · cases stepped.symm.trans same
    exact meets _

theorem Accepted.append {others : List (List UInt8)} (one : Accepted state payloads)
    (two : forall next : Filtering, next.filter.msgDataToRead = 0 -> Accepted next others) :
    Accepted state (payloads ++ others) := by
  obtain ⟨middle, ran, done, meets⟩ := one
  obtain ⟨final, ranOthers, doneOthers, meetsOthers⟩ := two middle done
  refine ⟨final, ?_, doneOthers, fun past => (meets past).append fun other same => ?_⟩
  · rw [run_append, ran, Option.bind_some, ranOthers]
  · cases ran.symm.trans same
    exact meetsOthers _

theorem typeResult_ne (config : AgentMsgFilter) (type : Nat) : config.typeResult type ≠ .protoError := by
  unfold AgentMsgFilter.typeResult
  repeat' split
  all_goals exact nofun

theorem step_of_result {filter : AgentMsgFilter} {verdict : Verdict}
    (isResult : state.filter.processData payload = (filter, verdict)) (passed : verdict ≠ .protoError) :
    state.step payload = some ⟨filter, state.log ++ [(payload, verdict)]⟩ := by
  unfold Filtering.step
  rw [isResult]
  exact if_neg passed

theorem step_more (result : state.filter.result ≠ .protoError) (large : payload.length ≤ maxDataSize)
    (busy : state.filter.msgDataToRead ≠ 0) (fits : payload.length ≤ state.filter.msgDataToRead) :
    Exists fun next => state.step payload = some next ∧ next.filter.result ≠ .protoError ∧
      next.filter.msgDataToRead = state.filter.msgDataToRead - payload.length := by
  have isResult : state.filter.processData payload =
      ({ state.filter with msgDataToRead := state.filter.msgDataToRead - payload.length }, state.filter.result) := by
    unfold AgentMsgFilter.processData AgentMsgFilter.dataToRead
    rw [if_neg (by omega), if_pos busy, if_neg (by omega)]
  exact ⟨_, step_of_result isResult result, result, rfl⟩

/-- The filter accepts the payloads behind the first one. -/
theorem accepted_rest (payloads : List (List UInt8)) : forall state : Filtering, state.filter.result ≠ .protoError ->
    (forall payload, payload ∈ payloads -> 1 ≤ payload.length ∧ payload.length ≤ maxDataSize) ->
    payloads.flatten.length = state.filter.msgDataToRead -> Accepted state payloads := by
  induction payloads with
  | nil =>
      intro state _ _ left
      exact ⟨state, rfl, left.symm, fun _ => trivial⟩
  | cons payload payloads ih =>
      intro state result sizes left
      rw [List.flatten_cons, List.length_append] at left
      have size := sizes payload List.mem_cons_self
      have busy : state.filter.msgDataToRead ≠ 0 := by omega
      obtain ⟨next, stepped, nextResult, nextLeft⟩ := step_more result size.2 busy (by omega)
      refine Accepted.cons stepped (fun done => absurd done busy) (ih next nextResult ?_ (by omega))
      exact fun other member => sizes other (List.mem_cons_of_mem _ member)

/-- The filter accepts the first one. -/
theorem step_begin {message : AgentMessage} {got : List UInt8} (protocol : message.protocol = 1)
    (idle : state.filter.msgDataToRead = 0) (large : (message.head ++ got).length ≤ maxDataSize)
    (fits : got.length ≤ message.body.length) :
    Exists fun next => state.step (message.head ++ got) = some next ∧ next.filter.result ≠ .protoError ∧
      next.filter.msgDataToRead = message.body.length - got.length := by
  have length : (message.head ++ got).length = agentMessageSize + got.length := by
    rw [List.length_append, message.length_head]
  have first : messageField 0 4 (message.head ++ got) = 1 := by
    unfold messageField AgentMessage.head
    rw [List.drop_zero, List.append_assoc, List.take_left' (length_toLittleEndian _ _), protocol]
    exact littleEndian_toLittleEndian 4 1 (by decide)
  have isResult : state.filter.processData (message.head ++ got) =
      ({ state.filter with
          result := state.filter.typeResult message.type.toNat
          msgDataToRead := message.body.length - got.length }, state.filter.typeResult message.type.toNat) := by
    unfold AgentMsgFilter.processData AgentMsgFilter.dataToRead
    rw [if_neg (by omega), if_neg (not_not_intro idle), if_neg (by omega), if_neg (not_not_intro first),
      message.field_type, message.field_size, length, Nat.add_sub_cancel_left]
    dsimp only
    by_cases empty : message.body.length = 0
    · rw [if_neg (not_not_intro empty), empty, Nat.zero_sub]
    · rw [if_pos empty, if_neg (by omega)]
  exact ⟨_, step_of_result isResult (typeResult_ne _ _), typeResult_ne _ _, rfl⟩

theorem seen_of_fragmented {request : UInt32 × List UInt8} (fragmented : Fragmented request payloads) :
    Exists fun message : AgentMessage => (message.type, message.body) = request ∧ message.protocol = 1 ∧
      payloads.flatten = message.encode := by
  have small : request.2.length < 2 ^ 32 := by
    have bound := littleEndian_lt ((payloads.flatten.drop 16).take 4)
    rw [<- fragmented.size]
    refine Nat.lt_of_lt_of_le bound (Nat.le_trans (Nat.pow_le_pow_right (by decide) (List.length_take_le 4 _)) ?_)
    decide
  exact ⟨sampleMessage request.1 request.2 small, rfl, rfl, fragmented.bytes⟩

/-- The filter accepts the fragments of a message. -/
theorem accepted_fragmented {request : UInt32 × List UInt8} (fragmented : Fragmented request payloads)
    (idle : state.filter.msgDataToRead = 0) : Accepted state payloads := by
  obtain ⟨message, _, protocol, bytes⟩ := seen_of_fragmented fragmented
  obtain ⟨first, isFirst, long⟩ := fragmented.header
  have sizes := fragmented.sizes
  cases payloads with
  | nil => cases isFirst
  | cons other payloads =>
      cases isFirst
      have headLength := message.length_head
      rw [List.flatten_cons, AgentMessage.encode] at bytes
      have isHead : message.head <+: first :=
        List.prefix_of_prefix_length_le ⟨_, bytes.symm⟩ (List.prefix_append _ _) (by omega)
      rcases isHead with ⟨got, rfl⟩
      rw [List.append_assoc, List.append_cancel_left_eq] at bytes
      have lengths := congrArg List.length bytes
      rw [List.length_append] at lengths
      have size := sizes _ List.mem_cons_self
      obtain ⟨next, stepped, result, left⟩ := step_begin protocol idle size.2 (by omega)
      refine Accepted.cons stepped ?_ (accepted_rest payloads next result ?_ (by omega))
      · intro _ empty
        rw [message.field_size] at empty
        rw [List.length_append]
        omega
      · exact fun payload member => sizes payload (List.mem_cons_of_mem _ member)

theorem accepted_all {messages : List (UInt32 × List UInt8)} {parts : List (List (List UInt8))}
    (fragments : List.Forall₂ Fragmented messages parts) :
    forall state : Filtering, state.filter.msgDataToRead = 0 -> Accepted state parts.flatten := by
  induction fragments with
  | nil => exact fun state idle => ⟨state, rfl, idle, fun _ => trivial⟩
  | cons fragmented _ ih => exact fun state idle => (accepted_fragmented fragmented idle).append ih

theorem seen_all {messages : List (UInt32 × List UInt8)} {parts : List (List (List UInt8))}
    (fragments : List.Forall₂ Fragmented messages parts) : Exists fun seen : List AgentMessage =>
      seen.map (fun message => (message.type, message.body)) = messages ∧
        parts.flatten.flatten = seen.flatMap AgentMessage.encode := by
  induction fragments with
  | nil => exact ⟨[], rfl, rfl⟩
  | cons fragmented _ ih =>
      obtain ⟨message, isRequest, _, bytes⟩ := seen_of_fragmented fragmented
      obtain ⟨seen, isMessages, isBytes⟩ := ih
      refine ⟨message :: seen, ?_, ?_⟩
      · rw [List.map_cons, isRequest, isMessages]
      · rw [List.flatten_cons, List.flatten_append, bytes, isBytes, List.flatMap_cons]

/-- What was sent so far is seen as the messages. -/
theorem seenAs_of_fragments {messages : List (UInt32 × List UInt8)} {parts : List (List (List UInt8))}
    {sent queue : List (List UInt8)} (fragments : List.Forall₂ Fragmented messages parts)
    (inOrder : parts.flatten = sent ++ queue) (config : AgentMsgFilter) : SeenAs config messages sent := by
  obtain ⟨seen, isMessages, bytes⟩ := seen_all fragments
  obtain ⟨_, ran, _, meets⟩ := accepted_all fragments (Filtering.start config) rfl
  rw [inOrder] at ran bytes meets
  rw [run_append] at ran
  obtain ⟨final, ranSent, _⟩ := Option.bind_eq_some_iff.mp ran
  rw [List.flatten_append] at bytes
  exact ⟨seen, final, isMessages, ranSent, (follows_run ⟨_, bytes⟩ (meets []).of_append ranSent).invariant⟩

end Filters

/-! ## The tokens -/

/-- As many payloads are sent as there are tokens. -/
theorem sendQueue_spec (queue : List (List UInt8)) : forall tokens : Int,
    (sendQueue tokens queue).2.1 ++ (sendQueue tokens queue).2.2 = queue ∧
      (sendQueue tokens queue).1 = tokens - (sendQueue tokens queue).2.1.length ∧
      ((sendQueue tokens queue).2.1 = [] ∨ 0 ≤ (sendQueue tokens queue).1) := by
  induction queue with
  | nil => exact fun tokens => ⟨rfl, (Int.sub_zero tokens).symm, .inl rfl⟩
  | cons out queue ih =>
      intro tokens
      rw [sendQueue]
      split
      · rename_i positive
        obtain ⟨inOrder, isTokens, enough⟩ := ih (tokens - 1)
        refine ⟨?_, ?_, .inr ?_⟩
        · exact congrArg (out :: ·) inOrder
        · rw [isTokens, List.length_cons]
          omega
        · rcases enough with none | enough
          · rw [isTokens, none, List.length_nil]
            omega
          · exact enough
      · exact ⟨rfl, (Int.sub_zero tokens).symm, .inl rfl⟩

/-- A number of tokens that was not negative wraps to at most itself. -/
theorem int32_le {value : Int} (positive : 0 ≤ value) : int32 value ≤ value := by
  unfold int32
  rw [Int.bmod_def]
  split <;> omega

/-- The payloads are those of the messages, and the tokens those that were granted and not spent. -/
structure Inv (initial : UInt32) (past : List Op) (channel : MainChannel) : Prop where
  fragments : Exists fun parts => List.Forall₂ Fragmented (requests past) parts ∧
    parts.flatten = channel.sent ++ channel.agentMsgQueue
  whole : channel.warned = false
  paid : channel.sent.length ≤ granted initial past
  tokens : channel.agentTokens = int32 (granted initial past - channel.sent.length)

section Sending

variable {initial : UInt32} {past : List Op} {channel : MainChannel}

/-- Payloads move from the queue to what was sent. -/
theorem Inv.agentSendMsgQueue (inv : Inv initial past channel) : Inv initial past channel.agentSendMsgQueue := by
  obtain ⟨inOrder, isTokens, enough⟩ := sendQueue_spec channel.agentMsgQueue channel.agentTokens
  have paid := inv.paid
  have least : channel.agentTokens ≤ granted initial past - channel.sent.length := by
    rw [inv.tokens]
    exact int32_le (by omega)
  unfold MainChannel.agentSendMsgQueue
  generalize sendQueue channel.agentTokens channel.agentMsgQueue = result at inOrder isTokens enough
  have isLeft : result.1 = int32 (granted initial past - (channel.sent ++ result.2.1).length) := by
    have isInt := isInt32_int32 (granted initial past - channel.sent.length)
    rw [<- inv.tokens] at isInt
    rw [isTokens, List.length_append, Nat.cast_add, <- Int.sub_sub, <- int32_int32_sub, <- inv.tokens]
    rcases enough with none | enough
    · rw [none, List.length_nil, Nat.cast_zero, Int.sub_zero, int32_of_isInt32 isInt]
    · rw [isTokens] at enough
      unfold IsInt32 at isInt
      exact (int32_of_isInt32 ⟨by omega, by omega⟩).symm
  refine ⟨?_, inv.whole, ?_, isLeft⟩
  · obtain ⟨parts, fragments, isParts⟩ := inv.fragments
    refine ⟨parts, fragments, ?_⟩
    rw [isParts]
    show channel.sent ++ channel.agentMsgQueue = (channel.sent ++ result.2.1) ++ result.2.2
    rw [List.append_assoc, inOrder]
  · show (channel.sent ++ result.2.1).length ≤ granted initial past
    rw [List.length_append]
    rcases enough with none | enough
    · rw [none]
      exact paid
    · omega

theorem requests_snoc (op : Op) : requests (past ++ [op]) = requests past ++ op.request.toList := by
  unfold requests
  rw [List.filterMap_append]
  cases op <;> rfl

theorem granted_snoc (op : Op) : granted initial (past ++ [op]) = granted initial past + op.granted := by
  unfold granted
  rw [List.map_append, List.sum_append, List.map_singleton, List.sum_singleton, Nat.add_assoc]

/-- A message is cut and queued. -/
theorem Inv.queue {type : UInt32} {pieces : List (List UInt8)} (inv : Inv initial past channel)
    (small : pieces.flatten.length < 2 ^ 32) : Exists fun next => channel.step (.queue type pieces) = some next ∧
      Inv initial (past ++ [.queue type pieces]) next := by
  obtain ⟨filling, isFilling, noOut, fragmented⟩ := agentMsgQueueMany_spec type small
  obtain ⟨parts, fragments, inOrder⟩ := inv.fragments
  have isGranted : granted initial (past ++ [.queue type pieces]) = granted initial past := granted_snoc _
  refine ⟨_, congrArg (Option.map _) isFilling, ⟨parts ++ [filling.pushed], ?_, ?_⟩, ?_, ?_, ?_⟩
  · rw [requests_snoc]
    exact List.rel_append fragments (.cons fragmented .nil)
  · rw [List.flatten_append, List.flatten_singleton, inOrder, List.append_assoc]
  · dsimp only
    rw [inv.whole, noOut]
    rfl
  · rw [isGranted]
    exact inv.paid
  · rw [isGranted]
    exact inv.tokens

theorem Inv.grant {count : UInt32} (inv : Inv initial past channel) : Inv initial (past ++ [.tokens count])
    { channel with agentTokens := int32 (channel.agentTokens + count.toNat) } := by
  have paid := inv.paid
  refine ⟨?_, inv.whole, ?_, ?_⟩
  · rw [requests_snoc, show (Op.tokens count).request.toList = [] from rfl, List.append_nil]
    exact inv.fragments
  · rw [granted_snoc]
    exact Nat.le_add_right_of_le paid
  · rw [granted_snoc, inv.tokens, int32_int32_add, show (Op.tokens count).granted = count.toNat from rfl]
    exact congrArg int32 (by push_cast; omega)

/-- Every operation with small messages keeps the invariant. -/
theorem Inv.step {op : Op} (inv : Inv initial past channel) (small : op.Small) :
    Exists fun next => channel.step op = some next ∧ Inv initial (past ++ [op]) next := by
  cases op with
  | queue type pieces => exact inv.queue small
  | tokens count => exact ⟨_, rfl, inv.grant.agentSendMsgQueue⟩
  | send =>
      have same : Inv initial (past ++ [.send]) channel := by
        have isGranted : granted initial (past ++ [.send]) = granted initial past := granted_snoc _
        have isRequests : requests (past ++ [.send]) = requests past := (requests_snoc _).trans (List.append_nil _)
        refine ⟨?_, inv.whole, ?_, ?_⟩
        · rw [isRequests]
          exact inv.fragments
        · rw [isGranted]
          exact inv.paid
        · rw [isGranted]
          exact inv.tokens
      exact ⟨_, rfl, same.agentSendMsgQueue⟩

theorem Inv.faithful (inv : Inv initial past channel) : Faithful initial past channel where
  fragments := inv.fragments
  whole := inv.whole
  paid := inv.paid
  seen := by
    obtain ⟨parts, fragments, inOrder⟩ := inv.fragments
    exact seenAs_of_fragments fragments inOrder

/-- The header holds the size of every message that was queued. -/
theorem Faithful.small {op : Op} (faithful : Faithful initial (past ++ [op]) channel) : op.Small := by
  obtain ⟨parts, fragments, _⟩ := faithful.fragments
  cases op with
  | tokens count => trivial
  | send => trivial
  | queue type pieces =>
      obtain ⟨seen, isMessages, _⟩ := seen_all fragments
      have member : (type, pieces.flatten) ∈ requests (past ++ [.queue type pieces]) := by
        rw [requests_snoc]
        exact List.mem_append_right _ List.mem_cons_self
      rw [<- isMessages] at member
      obtain ⟨message, _, isMessage⟩ := List.mem_map.mp member
      have small := message.small
      rw [(Prod.mk.inj isMessage).2] at small
      exact small

end Sending

theorem inv_start (initial : UInt32) : Inv initial [] (MainChannel.start initial) where
  fragments := ⟨[], .nil, rfl⟩
  whole := rfl
  paid := Nat.zero_le _
  tokens := by
    unfold MainChannel.start granted
    simp

/-- In every interleaving of queueing, grants and sending, the payloads are those of the messages, in order and paid
for, in every state exactly if the size of each message fits its header. -/
theorem agent_queue (initial : UInt32) (ops : List Op) :
    AllStates MainChannel.step (Faithful initial) [] (MainChannel.start initial) ops <->
      Meets MainChannel.step (fun _ _ op => op.Small) [] (MainChannel.start initial) ops :=
  allStates_iff_meets (fun _ _ inv => inv.faithful) (fun _ _ _ inv (_ : True) small => inv.step small)
    (fun _ _ _ _ _ _ _ faithful => faithful.small) ops [] _ (inv_start initial) (fun _ _ _ _ => trivial)

/-- The size of 4 GiB of clipboard data does not fit the header. -/
theorem agent_queue_large : Not (forall (initial : UInt32) (ops : List Op),
    AllStates MainChannel.step (Faithful initial) [] (MainChannel.start initial) ops) := by
  intro always
  rcases always 0 [.queue 4 [List.replicate (2 ^ 32) 0]] _ (List.prefix_refl _) with ⟨final, _, faithful⟩
  have small : ([List.replicate (2 ^ 32) 0] : List (List UInt8)).flatten.length < 2 ^ 32 :=
    (faithful : Faithful 0 ([] ++ [_]) final).small
  rw [List.flatten_singleton, List.length_replicate] at small
  exact absurd small (Nat.lt_irrefl _)

end AgentQueue
end Client
end Spice
