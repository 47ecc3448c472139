import Spice.Agent.Filter
import Spice.Lib.Run

namespace Spice
namespace Agent

open Lib

/-!
# The filter and the messages

A message of the agent is a header and the data whose size it gives, and the stream of
messages may be cut anywhere into the chunks that the filter is given.  The filter keeps
only how much of a message is still to come and the verdict on it.  Here the chunks are
held against the messages: the bytes so far end between two messages, or inside the data
of one, and then the filter knows how much of it is missing.
-/

/-! ## Messages and chunks -/

/-- A `VDAgentMessage` with its data. -/
structure AgentMessage where
  protocol : UInt32
  type : UInt32
  opaqueBytes : List UInt8
  opaqueLength : opaqueBytes.length = 8
  body : List UInt8
  small : body.length < 2 ^ 32

namespace AgentMessage

variable (message : AgentMessage)

def head : List UInt8 :=
  toLittleEndian 4 message.protocol.toNat ++ (toLittleEndian 4 message.type.toNat ++
    (message.opaqueBytes ++ toLittleEndian 4 message.body.length))

def encode : List UInt8 := message.head ++ message.body

theorem length_head : message.head.length = agentMessageSize := by
  simp only [head, List.length_append, length_toLittleEndian, message.opaqueLength, agentMessageSize]

theorem field_type (rest : List UInt8) : messageField 4 4 (message.head ++ rest) = message.type.toNat := by
  unfold messageField head
  rw [List.append_assoc, List.drop_left' (length_toLittleEndian _ _), List.append_assoc,
    List.take_left' (length_toLittleEndian _ _)]
  exact littleEndian_toLittleEndian 4 _ message.type.toNat_lt

theorem field_size (rest : List UInt8) : messageField 16 4 (message.head ++ rest) = message.body.length := by
  have front :
      (toLittleEndian 4 message.protocol.toNat ++ (toLittleEndian 4 message.type.toNat ++ message.opaqueBytes)).length =
      16 := by
    simp only [List.length_append, length_toLittleEndian, message.opaqueLength]
  have cut : message.head ++ rest =
      (toLittleEndian 4 message.protocol.toNat ++ (toLittleEndian 4 message.type.toNat ++ message.opaqueBytes)) ++
        (toLittleEndian 4 message.body.length ++ rest) := by
    simp only [head, List.append_assoc]
  unfold messageField
  rw [cut, List.drop_left' front, List.take_left' (length_toLittleEndian _ _)]
  exact littleEndian_toLittleEndian 4 _ message.small

end AgentMessage

/-- A filter, and the chunks it was given with their verdicts. -/
structure Filtering where
  filter : AgentMsgFilter
  log : List (List UInt8 × Verdict)

namespace Filtering

variable (state : Filtering)

def given : List UInt8 := (state.log.map Prod.fst).flatten

/-- A chunk is given to the filter; a protocol error ends the stream. -/
def step (chunk : List UInt8) : Option Filtering :=
  let result := state.filter.processData chunk
  if result.2 = .protoError then none else some { filter := result.1, log := state.log ++ [(chunk, result.2)] }

/-- A filter between messages, with any configuration. -/
def start (config : AgentMsgFilter) : Filtering where
  filter := { config with msgDataToRead := 0 }
  log := []

end Filtering

/-! ## What the verdicts have to be -/

/-- A chunk with this verdict has a byte of this message. -/
def GivenFor (messages : List AgentMessage) (state : Filtering) (verdict : Verdict) (message : AgentMessage) : Prop :=
  Exists fun before => Exists fun chunk => Exists fun after => Exists fun earlier => Exists fun later =>
    state.log = before ++ (chunk, verdict) :: after ∧ messages = earlier ++ message :: later ∧
    (before.map Prod.fst).flatten.length < (earlier.flatMap AgentMessage.encode).length + message.encode.length ∧
    (earlier.flatMap AgentMessage.encode).length < (before.map Prod.fst).flatten.length + chunk.length

/-- Every chunk has the verdict on the messages it has bytes of; the filter is done with a message exactly at its end;
and nothing of a clipboard or file transfer message is passed when these are disabled. -/
structure ChunkInvariant (config : AgentMsgFilter) (messages : List AgentMessage) (state : Filtering) : Prop where
  verdicts : forall verdict message, GivenFor messages state verdict message ->
    verdict = config.typeResult message.type.toNat
  ends : state.filter.msgDataToRead = 0 <-> Exists fun earlier => earlier <+: messages ∧
    state.given = earlier.flatMap AgentMessage.encode
  clipboard : config.copyPasteEnabled = false -> forall verdict message, GivenFor messages state verdict message ->
    message.type.toNat = 4 ∨ message.type.toNat = 7 ∨ message.type.toNat = 8 ∨ message.type.toNat = 9 -> verdict ≠ .ok
  fileXfer : config.fileXferEnabled = false -> forall verdict message, GivenFor messages state verdict message ->
    message.type.toNat = 10 ∨ message.type.toNat = 11 ∨ message.type.toNat = 12 -> verdict ≠ .ok

/-- A chunk that starts with a message without data ends with it. -/
def EndsWithHeader (state : Filtering) (chunk : List UInt8) : Prop :=
  state.filter.msgDataToRead = 0 -> messageField 16 4 chunk = 0 -> chunk.length ≤ agentMessageSize

instance (state : Filtering) (chunk : List UInt8) : Decidable (EndsWithHeader state chunk) :=
  inferInstanceAs (Decidable (_ -> _ -> _))

/-! ## Where the stream is -/

/-- The bytes so far end between two messages. -/
structure Between (messages earlier later : List AgentMessage) (state : Filtering) : Prop where
  split : messages = earlier ++ later
  given : state.given = earlier.flatMap AgentMessage.encode
  done : state.filter.msgDataToRead = 0

/-- The bytes so far end inside of the data of a message, of which `left` is missing. -/
structure Inside (config : AgentMsgFilter) (messages earlier : List AgentMessage) (message : AgentMessage)
    (later : List AgentMessage) (got left : List UInt8) (state : Filtering) : Prop where
  split : messages = earlier ++ message :: later
  body : message.body = got ++ left
  missing : left ≠ []
  given : state.given = earlier.flatMap AgentMessage.encode ++ message.head ++ got
  toRead : state.filter.msgDataToRead = left.length
  result : state.filter.result = config.typeResult message.type.toNat

inductive Place (config : AgentMsgFilter) (messages : List AgentMessage) (state : Filtering) : Prop
  | between (earlier later : List AgentMessage) (place : Between messages earlier later state)
  | inside (earlier : List AgentMessage) (message : AgentMessage) (later : List AgentMessage) (got left : List UInt8)
      (place : Inside config messages earlier message later got left state)

/-- The filter goes on with the configuration it was given. -/
structure Follows (config : AgentMsgFilter) (messages : List AgentMessage) (state : Filtering) : Prop where
  place : Place config messages state
  types : forall type, state.filter.typeResult type = config.typeResult type
  judged : forall verdict message, GivenFor messages state verdict message ->
    verdict = config.typeResult message.type.toNat

section Streams

variable {messages earlier later : List AgentMessage} {message : AgentMessage}

theorem length_encode : message.encode.length = agentMessageSize + message.body.length := by
  rw [AgentMessage.encode, List.length_append, message.length_head]

/-- The filter counts into one message only. -/
theorem same_message {others behind : List AgentMessage} {other : AgentMessage} {start length : Nat}
    (split : messages = earlier ++ message :: later) (splitOther : messages = others ++ other :: behind)
    (begins : (earlier.flatMap AgentMessage.encode).length ≤ start)
    (upTo : start + length ≤ (earlier.flatMap AgentMessage.encode).length + message.encode.length)
    (before : start < (others.flatMap AgentMessage.encode).length + other.encode.length)
    (after : (others.flatMap AgentMessage.encode).length < start + length) : other = message := by
  have equal := split.symm.trans splitOther
  rcases List.append_eq_append_iff.mp equal with ⟨middle, isOthers, rest⟩ | ⟨middle, isEarlier, rest⟩
  · cases middle with
    | nil =>
        rw [List.nil_append] at rest
        exact (List.cons.inj rest).1.symm
    | cons first middle =>
        have isFirst := (List.cons.inj rest).1
        rw [isOthers, List.flatMap_append, List.flatMap_cons, <- isFirst, List.length_append,
          List.length_append] at after
        omega
  · cases middle with
    | nil =>
        rw [List.nil_append] at rest
        exact (List.cons.inj rest).1
    | cons first middle =>
        have isFirst := (List.cons.inj rest).1
        rw [isEarlier, List.flatMap_append, List.flatMap_cons, <- isFirst, List.length_append,
          List.length_append] at begins
        omega

/-- A chunk that starts a message begins with its header. -/
theorem head_of_next {chunk : List UInt8} {given : List UInt8} (long : agentMessageSize ≤ chunk.length)
    (started : given = earlier.flatMap AgentMessage.encode)
    (cut : given ++ chunk <+: (earlier ++ later).flatMap AgentMessage.encode) :
    Exists fun message => Exists fun behind => Exists fun rest => later = message :: behind ∧
      chunk = message.head ++ rest ∧
        rest <+: message.body ++ behind.flatMap AgentMessage.encode := by
  rw [started, List.flatMap_append, List.prefix_append_right_inj] at cut
  cases later with
  | nil =>
      have empty := List.prefix_nil.mp cut
      rw [empty] at long
      cases long
  | cons message behind =>
      rw [List.flatMap_cons, AgentMessage.encode, List.append_assoc] at cut
      have headLength := message.length_head
      have isHead : message.head <+: chunk := by
        refine List.prefix_of_prefix_length_le (List.prefix_append _ _) cut ?_
        rw [headLength]
        exact long
      rcases isHead with ⟨rest, isChunk⟩
      rw [<- isChunk, List.prefix_append_right_inj] at cut
      exact ⟨message, behind, rest, rfl, isChunk.symm, cut⟩

end Streams

/-! ## One chunk -/

section Steps

variable {config : AgentMsgFilter} {messages : List AgentMessage} {state next : Filtering} {chunk : List UInt8}

theorem given_snoc {verdict : Verdict} (logged : next.log = state.log ++ [(chunk, verdict)]) :
    next.given = state.given ++ chunk := by
  unfold Filtering.given
  rw [logged, List.map_append, List.flatten_append, List.map_singleton, List.flatten_singleton]

theorem judged_snoc {verdict : Verdict} {earlier later : List AgentMessage} {message : AgentMessage}
    (judged : forall verdict message, GivenFor messages state verdict message ->
      verdict = config.typeResult message.type.toNat)
    (logged : next.log = state.log ++ [(chunk, verdict)]) (split : messages = earlier ++ message :: later)
    (begins : (earlier.flatMap AgentMessage.encode).length ≤ state.given.length)
    (upTo : state.given.length + chunk.length ≤ (earlier.flatMap AgentMessage.encode).length + message.encode.length)
    (right : verdict = config.typeResult message.type.toNat) :
    forall verdict message, GivenFor messages next verdict message ->
      verdict = config.typeResult message.type.toNat := by
  rintro other found ⟨before, piece, after, others, behind, isLog, splitOther, starts, stops⟩
  rcases List.eq_nil_or_concat after with last | ⟨front, final, isAfter⟩
  · rw [last, logged] at isLog
    obtain ⟨isBefore, isPiece⟩ := List.append_inj' isLog rfl
    cases isPiece
    rw [<- isBefore] at starts stops
    rw [same_message split splitOther begins upTo starts stops]
    exact right
  · refine judged other found ⟨before, piece, front, others, behind, ?_, splitOther, starts, stops⟩
    rw [isAfter, logged, List.concat_eq_append, <- List.cons_append, <- List.append_assoc] at isLog
    exact (List.append_inj' isLog rfl).1

theorem dataToRead_cases (filter : AgentMsgFilter) (length : Nat) :
    (filter.dataToRead length).2 = .protoError ∨ (length ≤ filter.msgDataToRead ∧
      filter.dataToRead length = ({ filter with msgDataToRead := filter.msgDataToRead - length }, filter.result)) := by
  unfold AgentMsgFilter.dataToRead
  by_cases exceeds : filter.msgDataToRead < length
  · rw [if_pos exceeds]
    exact .inl rfl
  · rw [if_neg exceeds]
    exact .inr ⟨Nat.le_of_not_lt exceeds, rfl⟩

/-- A chunk that is accepted goes on with a message or starts one. -/
theorem processData_cases (filter : AgentMsgFilter) (chunk : List UInt8)
    (accepted : (filter.processData chunk).2 ≠ .protoError) :
    (filter.msgDataToRead ≠ 0 ∧ chunk.length ≤ filter.msgDataToRead ∧ filter.processData chunk =
      ({ filter with msgDataToRead := filter.msgDataToRead - chunk.length }, filter.result)) ∨
    (filter.msgDataToRead = 0 ∧ agentMessageSize ≤ chunk.length ∧
      (messageField 16 4 chunk = 0 ∨ chunk.length - agentMessageSize ≤ messageField 16 4 chunk) ∧
      filter.processData chunk =
        ({ filter with
            result := filter.typeResult (messageField 4 4 chunk)
            msgDataToRead := messageField 16 4 chunk - (chunk.length - agentMessageSize) },
          filter.typeResult (messageField 4 4 chunk))) := by
  unfold AgentMsgFilter.processData at accepted ⊢
  by_cases large : maxDataSize < chunk.length
  · rw [if_pos large] at accepted
    exact absurd rfl accepted
  rw [if_neg large] at accepted ⊢
  by_cases more : filter.msgDataToRead ≠ 0
  · rw [if_pos more] at accepted ⊢
    rcases dataToRead_cases filter chunk.length with failed | ⟨fits, result⟩
    · exact absurd failed accepted
    · exact .inl ⟨more, fits, result⟩
  rw [if_neg more] at accepted ⊢
  by_cases short : chunk.length < agentMessageSize
  · rw [if_pos short] at accepted
    exact absurd rfl accepted
  rw [if_neg short] at accepted ⊢
  by_cases foreign : messageField 0 4 chunk ≠ 1
  · rw [if_pos foreign] at accepted
    exact absurd rfl accepted
  rw [if_neg foreign] at accepted ⊢
  dsimp only at accepted ⊢
  have idle : filter.msgDataToRead = 0 := not_not.mp more
  by_cases empty : messageField 16 4 chunk = 0
  · rw [if_neg (not_not_intro empty)]
    refine .inr ⟨idle, Nat.le_of_not_lt short, .inl empty, ?_⟩
    rw [empty, Nat.zero_sub]
  · rw [if_pos empty] at accepted ⊢
    rcases dataToRead_cases _ (chunk.length - agentMessageSize) with failed | ⟨fits, result⟩
    · exact absurd failed accepted
    · exact .inr ⟨idle, Nat.le_of_not_lt short, .inr fits, result⟩

theorem Place.advance {earlier later : List AgentMessage} {message : AgentMessage} {got left : List UInt8}
    (split : messages = earlier ++ message :: later) (body : message.body = got ++ left)
    (given : next.given = earlier.flatMap AgentMessage.encode ++ message.head ++ got)
    (toRead : next.filter.msgDataToRead = left.length)
    (result : next.filter.result = config.typeResult message.type.toNat) : Place config messages next := by
  by_cases complete : left = []
  · refine .between (earlier ++ [message]) later ⟨?_, ?_, ?_⟩
    · rw [split, List.append_assoc, List.singleton_append]
    · rw [complete, List.append_nil] at body
      rw [given, List.flatMap_append, List.flatMap_singleton, AgentMessage.encode, body, List.append_assoc]
    · rw [toRead, complete, List.length_nil]
  · exact .inside earlier message later got left ⟨split, body, complete, given, toRead, result⟩

/-- The chunk belongs to the message that is under way. -/
theorem Follows.more (follows : Follows config messages state)
    (cut : state.given ++ chunk <+: messages.flatMap AgentMessage.encode)
    (busy : state.filter.msgDataToRead ≠ 0) (fits : chunk.length ≤ state.filter.msgDataToRead)
    (isFilter : next.filter = { state.filter with msgDataToRead := state.filter.msgDataToRead - chunk.length })
    (logged : next.log = state.log ++ [(chunk, state.filter.result)]) : Follows config messages next := by
  cases follows.place with
  | between earlier later place => exact absurd place.done busy
  | inside earlier message later got left place =>
      have toRead := place.toRead
      -- the chunk is the start of what is missing
      have started : chunk <+: left := by
        rw [place.given, place.split, List.flatMap_append, List.flatMap_cons, AgentMessage.encode, place.body] at cut
        simp only [List.append_assoc, List.prefix_append_right_inj] at cut
        exact List.prefix_of_prefix_length_le cut (List.prefix_append _ _) (by omega)
      rcases started with ⟨rest, isLeft⟩
      have lengths : left.length = chunk.length + rest.length := by rw [<- isLeft, List.length_append]
      have bodyLength : message.body.length = got.length + left.length := by rw [place.body, List.length_append]
      have givenLength : state.given.length =
          (earlier.flatMap AgentMessage.encode).length + agentMessageSize + got.length := by
        rw [place.given, List.length_append, List.length_append, message.length_head]
      refine ⟨?_, ?_, ?_⟩
      · refine Place.advance place.split (show message.body = got ++ chunk ++ rest from ?_) ?_ ?_ ?_
        · rw [place.body, <- isLeft, List.append_assoc]
        · rw [given_snoc logged, place.given, List.append_assoc _ got]
        · rw [isFilter]
          show state.filter.msgDataToRead - chunk.length = rest.length
          omega
        · rw [isFilter]
          exact place.result
      · intro type
        rw [isFilter]
        exact follows.types type
      · refine judged_snoc follows.judged logged place.split ?_ ?_ place.result
        · omega
        · rw [length_encode]
          omega

/-- The chunk starts the next message. -/
theorem Follows.begin (follows : Follows config messages state)
    (cut : state.given ++ chunk <+: messages.flatMap AgentMessage.encode) (ends : EndsWithHeader state chunk)
    (idle : state.filter.msgDataToRead = 0) (long : agentMessageSize ≤ chunk.length)
    (fits : messageField 16 4 chunk = 0 ∨ chunk.length - agentMessageSize ≤ messageField 16 4 chunk)
    (isFilter : next.filter = { state.filter with
      result := state.filter.typeResult (messageField 4 4 chunk)
      msgDataToRead := messageField 16 4 chunk - (chunk.length - agentMessageSize) })
    (logged : next.log = state.log ++ [(chunk, state.filter.typeResult (messageField 4 4 chunk))]) :
    Follows config messages next := by
  have types := follows.types
  cases follows.place with
  | inside earlier message later got left place =>
      rw [place.toRead] at idle
      exact absurd (List.length_eq_zero_iff.mp idle) place.missing
  | between earlier later place =>
      rw [place.split] at cut
      rcases head_of_next long place.given cut with ⟨message, behind, got, isLater, isChunk, inBody⟩
      have size : messageField 16 4 chunk = message.body.length := by rw [isChunk, message.field_size]
      have type : messageField 4 4 chunk = message.type.toNat := by rw [isChunk, message.field_type]
      have chunkLength : chunk.length = agentMessageSize + got.length := by
        rw [isChunk, List.length_append, message.length_head]
      have bounded : got.length ≤ message.body.length := by
        rcases fits with empty | fits
        · have whole := ends idle empty
          omega
        · omega
      rcases List.prefix_of_prefix_length_le inBody (List.prefix_append _ _) bounded with ⟨left, body⟩
      have bodyLength : message.body.length = got.length + left.length := by rw [<- body, List.length_append]
      have split : messages = earlier ++ message :: behind := by rw [place.split, isLater]
      refine ⟨?_, ?_, ?_⟩
      · refine Place.advance split body.symm ?_ ?_ ?_
        · rw [given_snoc logged, place.given, isChunk, List.append_assoc]
        · rw [isFilter]
          show messageField 16 4 chunk - (chunk.length - agentMessageSize) = left.length
          omega
        · rw [isFilter]
          show state.filter.typeResult (messageField 4 4 chunk) = _
          rw [types, type]
      · intro other
        rw [isFilter]
        exact types other
      · refine judged_snoc follows.judged logged split ?_ ?_ ?_
        · exact Nat.le_of_eq (congrArg List.length place.given).symm
        · rw [place.given, length_encode]
          omega
        · rw [types, type]

theorem Follows.step (follows : Follows config messages state)
    (cut : state.given ++ chunk <+: messages.flatMap AgentMessage.encode) (ends : EndsWithHeader state chunk)
    (stepped : state.step chunk = some next) : Follows config messages next ∧ next.given = state.given ++ chunk := by
  unfold Filtering.step at stepped
  dsimp only at stepped
  split at stepped
  · cases stepped
  · rename_i accepted
    cases stepped
    refine ⟨?_, given_snoc rfl⟩
    rcases processData_cases state.filter chunk accepted with ⟨busy, fits, result⟩ | ⟨idle, long, fits, result⟩
    · exact follows.more cut busy fits (congrArg Prod.fst result) (by rw [result])
    · exact follows.begin cut ends idle long fits (congrArg Prod.fst result) (by rw [result])

/-- Inside the data of a message no message ends. -/
theorem Inside.not_end {earlier later : List AgentMessage} {message : AgentMessage} {got left : List UInt8}
    (place : Inside config messages earlier message later got left state) (others : List AgentMessage)
    (isStart : others <+: messages) : state.given ≠ others.flatMap AgentMessage.encode := by
  intro same
  have lengths := congrArg List.length same
  have missing := List.length_pos_iff.mpr place.missing
  have bodyLength : message.body.length = got.length + left.length := by rw [place.body, List.length_append]
  rw [place.given, List.length_append, List.length_append, message.length_head, agentMessageSize] at lengths
  rcases isStart with ⟨behind, isMessages⟩
  rcases List.append_eq_append_iff.mp (isMessages.trans place.split)
    with ⟨middle, isEarlier, _⟩ | ⟨middle, isOthers, rest⟩
  · rw [isEarlier, List.flatMap_append, List.length_append] at lengths
    omega
  · cases middle with
    | nil =>
        rw [isOthers, List.append_nil] at lengths
        omega
    | cons first middle =>
        have isFirst := (List.cons.inj rest).1
        rw [isOthers, List.flatMap_append, List.flatMap_cons, <- isFirst, List.length_append, List.length_append,
          length_encode, agentMessageSize] at lengths
        omega

theorem Follows.invariant (follows : Follows config messages state) : ChunkInvariant config messages state where
  verdicts := follows.judged
  ends := by
    cases follows.place with
    | between earlier later place =>
        exact ⟨fun _ => ⟨earlier, ⟨later, place.split.symm⟩, place.given⟩, fun _ => place.done⟩
    | inside earlier message later got left place =>
        constructor
        · intro done
          rw [place.toRead] at done
          exact absurd (List.length_eq_zero_iff.mp done) place.missing
        · rintro ⟨others, isStart, same⟩
          exact absurd same (place.not_end others isStart)
  clipboard := by
    intro disabled verdict message given clipboard passed
    have discarded := follows.judged verdict message given
    rw [passed] at discarded
    unfold AgentMsgFilter.typeResult at discarded
    rw [disabled, if_pos clipboard] at discarded
    split at discarded <;> cases discarded
  fileXfer := by
    intro disabled verdict message given fileXfer passed
    have notClipboard : ¬ (message.type.toNat = 4 ∨ message.type.toNat = 7 ∨ message.type.toNat = 8 ∨
        message.type.toNat = 9) := by omega
    have discarded := follows.judged verdict message given
    rw [passed] at discarded
    unfold AgentMsgFilter.typeResult at discarded
    rw [disabled, if_neg notClipboard, if_pos fileXfer] at discarded
    split at discarded <;> cases discarded

theorem Follows.start (config : AgentMsgFilter) (messages : List AgentMessage) :
    Follows config messages (Filtering.start config) where
  place := .between [] messages ⟨rfl, rfl, rfl⟩
  types := fun _ => rfl
  judged := by
    rintro verdict message ⟨before, chunk, after, earlier, later, isLog, _⟩
    exact absurd isLog.symm (by simp [Filtering.start])

end Steps

/-- The induction over the chunks of a run. -/
theorem follows_run {config : AgentMsgFilter} {messages : List AgentMessage} {chunks : List (List UInt8)}
    {final : Filtering}
    (cut : chunks.flatten <+: messages.flatMap AgentMessage.encode)
    (meets : Meets Filtering.step (fun _ => EndsWithHeader) [] (Filtering.start config) chunks)
    (ran : run Filtering.step (Filtering.start config) chunks = some final) : Follows config messages final := by
  -- the chunks so far are a start of the stream as long as all of them are
  have keep : forall (past : List (List UInt8)) (state : Filtering) (chunk : List UInt8) (next : Filtering),
      (past.flatten <+: messages.flatMap AgentMessage.encode ->
        Follows config messages state ∧ state.given = past.flatten) ->
      EndsWithHeader state chunk -> state.step chunk = some next ->
      ((past ++ [chunk]).flatten <+: messages.flatMap AgentMessage.encode ->
        Follows config messages next ∧ next.given = (past ++ [chunk]).flatten) := by
    intro past state chunk next inv ends stepped isStart
    rw [List.flatten_append, List.flatten_singleton] at isStart ⊢
    obtain ⟨follows, given⟩ := inv ((List.prefix_append _ _).trans isStart)
    rw [<- given] at isStart ⊢
    exact follows.step isStart ends stepped
  have init : ([] : List (List UInt8)).flatten <+: messages.flatMap AgentMessage.encode ->
      Follows config messages (Filtering.start config) ∧
        (Filtering.start config).given = ([] : List (List UInt8)).flatten :=
    fun _ => ⟨.start config messages, rfl⟩
  exact ((run_invariant_of_meets keep chunks [] (Filtering.start config) final init meets ran) cut).1

/-- For every configuration, every stream of messages and every way to cut it into chunks that gives no protocol error,
the verdicts depend on the messages alone if every chunk that starts with a message without data ends with it. -/
theorem filter_chunk_invariant (config : AgentMsgFilter) (messages : List AgentMessage) (chunks : List (List UInt8))
    (final : Filtering) (cut : chunks.flatten <+: messages.flatMap AgentMessage.encode)
    (meets : Meets Filtering.step (fun _ => EndsWithHeader) [] (Filtering.start config) chunks)
    (ran : run Filtering.step (Filtering.start config) chunks = some final) : ChunkInvariant config messages final :=
  (follows_run cut meets ran).invariant

/-- A message of the type with this data. -/
def sampleMessage (type : UInt32) (body : List UInt8) (small : body.length < 2 ^ 32) : AgentMessage :=
  ⟨1, type, List.replicate 8 0, by decide, body, small⟩

/-- A clipboard message in three chunks and one without data, when copy and paste are disabled. -/
theorem filter_chunk_invariant_clipboard :
    Exists fun final => run Filtering.step (Filtering.start (.init false true false false))
      [(sampleMessage 4 [1, 2, 3] (by decide)).head ++ [1], [2], [3], (sampleMessage 6 [] (by decide)).head] =
        some final ∧
      final.log.map Prod.snd = [.discard, .discard, .discard, .ok] ∧ ChunkInvariant (.init false true false false)
        [sampleMessage 4 [1, 2, 3] (by decide), sampleMessage 6 [] (by decide)] final := by
  have checked : checkRun Filtering.step (fun state chunk => decide (EndsWithHeader state chunk))
      (Filtering.start (.init false true false false))
      [(sampleMessage 4 [1, 2, 3] (by decide)).head ++ [1], [2], [3], (sampleMessage 6 [] (by decide)).head] =
        true := by
    decide +kernel
  have ran : (run Filtering.step (Filtering.start (.init false true false false))
      [(sampleMessage 4 [1, 2, 3] (by decide)).head ++ [1], [2], [3], (sampleMessage 6 [] (by decide)).head]).map
        (fun final => final.log.map Prod.snd) = some [.discard, .discard, .discard, .ok] := by decide +kernel
  have sound : forall (_ : List (List UInt8)) (state : Filtering) (chunk : List UInt8),
      decide (EndsWithHeader state chunk) = true -> EndsWithHeader state chunk :=
        fun _ _ _ isTrue => of_decide_eq_true isTrue
  rcases Option.map_eq_some_iff.mp ran with ⟨final, isFinal, verdicts⟩
  have whole : ([(sampleMessage 4 [1, 2, 3] (by decide)).head ++ [1], [2], [3], (sampleMessage 6 [] (by decide)).head] :
      List (List UInt8)).flatten = [sampleMessage 4 [1, 2, 3] (by decide), sampleMessage 6 [] (by decide)].flatMap
        AgentMessage.encode := by decide +kernel
  exact ⟨final, isFinal, verdicts, filter_chunk_invariant _ _ _ final ⟨[], (List.append_nil _).trans whole⟩
    (Meets.of_check sound _ [] _ checked) isFinal⟩

/-- A message without data takes a clipboard message with it, although copy and paste are disabled. -/
theorem empty_message_hides_clipboard : Not (forall (config : AgentMsgFilter) (messages : List AgentMessage)
    (chunks : List (List UInt8)) (final : Filtering), chunks.flatten <+: messages.flatMap AgentMessage.encode ->
      run Filtering.step (Filtering.start config) chunks = some final -> ChunkInvariant config messages final) := by
  intro always
  have ran : (run Filtering.step (Filtering.start (.init false true false false))
      [(sampleMessage 6 [] (by decide)).encode ++ (sampleMessage 4 [1] (by decide)).encode]).map
        (fun final => final.log) =
        some [((sampleMessage 6 [] (by decide)).encode ++ (sampleMessage 4 [1] (by decide)).encode, .ok)] :=
          by decide +kernel
  rcases Option.map_eq_some_iff.mp ran with ⟨final, isFinal, log⟩
  have invariant := always (.init false true false false) [sampleMessage 6 [] (by decide),
      sampleMessage 4 [1] (by decide)] _ final
    (by simp) isFinal
  refine invariant.clipboard rfl .ok (sampleMessage 4 [1] (by decide)) ?_ (.inl rfl) rfl
  exact ⟨[], _, [], [sampleMessage 6 [] (by decide)], [], log, rfl, by decide +kernel, by decide +kernel⟩

end Agent
end Spice
