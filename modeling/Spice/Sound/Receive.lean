import Spice.Lib.Run
import Spice.Channel.Incoming

namespace Spice
namespace Sound
namespace Receive

open Lib Channel

/-!
# What a sound channel receives

The sound worker reads into one buffer behind what it has, and parses every message that is
there in its place.  The beginning of the next message moves on with each of them; it goes
back to the start of the buffer when everything is parsed, or when the end is reached.

A step fails where the parser is given bytes outside of the buffer, where `memcpy` is given
overlapping parts of it, and where the channel is used after it was disconnected.  To copy
a part onto itself changes nothing.
-/

def sndReceiveBufSize : Nat := 16 * 1024 * 2

/-- A message as it is handed to the parser and then, parsed, to `handle_message`. -/
structure Message where
  type : Nat
  payload : List UInt8
deriving DecidableEq

/-- The header of the channel, whether a message parses, and whether it is handled, given those before it. -/
structure Setup where
  header : DataHeader
  parses : Message -> Bool
  handles : List Message -> Message -> Bool

/-- Why the channel was disconnected: by the end of the connection or an error, a message that does not parse or is not
handled, or a read into a buffer without room, which looks like the end of the connection. -/
inductive Closing
  | peer
  | parser
  | handler
  | full
deriving DecidableEq

/-- `SndChannel`, with the bytes that are yet to be read.  `end` is that of the buffer. -/
structure SndChannel where
  stream : List UInt8
  buf : List UInt8
  messageStart : Nat
  now : Nat
  handed : List Message
  closed : Option Closing

def sndChannel (stream : List UInt8) : SndChannel := ⟨stream, List.replicate sndReceiveBufSize 0, 0, 0, [], none⟩

section Channel

variable (setup : Setup)

namespace SndChannel

variable (channel : SndChannel)

def disconnect (closing : Closing) : SndChannel :=
  { channel with
    closed := some closing }

/-- The messages that are complete, from `message_start` on. -/
def parseLoop : Nat -> SndChannel -> Option SndChannel
  | 0, _ => none
  | rounds + 1, channel =>
      let bytes := channel.buf.drop channel.messageStart
      let n := channel.now - channel.messageStart
      -- the sum is one of 32 bits
      if n < setup.header.headerSize ∨
        n < (setup.header.headerSize + setup.header.getMsgSize bytes) % 2 ^ 32 then some channel
      else if channel.messageStart + setup.header.headerSize +
        setup.header.getMsgSize bytes > channel.buf.length then none
      else
        let message :=
          ⟨setup.header.getMsgType bytes, (bytes.drop setup.header.headerSize).take (setup.header.getMsgSize bytes)⟩
        if setup.parses message = false then some (channel.disconnect .parser)
        else
          let handed := channel.handed ++ [message]
          if setup.handles channel.handed message = false then some ({ channel with
            handed := handed }.disconnect .handler)
          else
            parseLoop rounds { channel with
              handed := handed
              messageStart := channel.messageStart + setup.header.headerSize + setup.header.getMsgSize bytes }

/-- The end of a round of `snd_receive`. -/
def compact : Option SndChannel :=
  if channel.closed.isSome then some channel
  else if channel.now = channel.messageStart then some { channel with
    now := 0
    messageStart := 0 }
  else if channel.now = channel.buf.length then
    let n := channel.now - channel.messageStart
    if channel.messageStart = 0 then some channel
    else if n ≤ channel.messageStart then
      some { channel with
        buf := (channel.buf.drop channel.messageStart).take n ++ channel.buf.drop n
        now := n
        messageStart := 0 }
    else none
  else some channel

/-- The bytes that a read brings when it has some. -/
def given (count : Nat) : List UInt8 := channel.stream.take (min (count + 1) (channel.buf.length - channel.now))

/-- The channel with the bytes of a read behind those it had. -/
def filled (bytes : List UInt8) : SndChannel :=
  { channel with
    stream := channel.stream.drop bytes.length
    buf := channel.buf.take channel.now ++ bytes ++ channel.buf.drop (channel.now + bytes.length)
    now := channel.now + bytes.length }

end SndChannel

/-- What `reds_stream_read` meets. -/
inductive Read
  | bytes (count : Nat)
  | intr
  | eof
  | failed

/-- A round of `snd_receive`. -/
def receive (channel : SndChannel) : Read -> Option SndChannel
  | .intr => some channel
  | .eof => some (channel.disconnect .peer)
  | .failed => some (channel.disconnect .peer)
  | .bytes count =>
      if channel.now = channel.buf.length then some (channel.disconnect .full)
      else if channel.given count = [] then some channel
      else (SndChannel.parseLoop setup (channel.buf.length + 1) (channel.filled (channel.given count))).bind
        SndChannel.compact

/-- A round of `snd_receive` in an event that may also be one for writing, and the sending of messages. -/
inductive Op
  | read (result : Read) (write : Bool)
  | send (sent : Bool)

/-- `snd_event` in its parts: after the reading it sends messages if it can be written to.  There are no events for a
channel that was disconnected. -/
def step (channel : SndChannel) : Op -> Option SndChannel
  | .read result write =>
      if channel.closed.isSome then some channel
      else
        (receive setup channel result).bind fun next =>
          if next.closed.isSome ∧ write = true then none else some next
  | .send sent => if channel.closed.isSome ∨ sent = true then some channel else some (channel.disconnect .peer)

end Channel

/-! ## What should be handed over -/

section Spec

variable (setup : Setup)

/-- The size of a message with its header. -/
def total (bytes : List UInt8) : Nat := setup.header.headerSize + setup.header.getMsgSize bytes

/-- A message with its header. -/
def Whole (raw : List UInt8) : Prop := setup.header.headerSize ≤ raw.length ∧ raw.length = total setup raw

def Incomplete (bytes : List UInt8) : Prop := setup.header.headerSize ≤ bytes.length -> bytes.length < total setup bytes

instance (bytes : List UInt8) : Decidable (Incomplete setup bytes) := inferInstanceAs (Decidable (_ -> _))

def messageOf (raw : List UInt8) : Message :=
  ⟨setup.header.getMsgType raw, (raw.drop setup.header.headerSize).take (setup.header.getMsgSize raw)⟩

/-- The messages at the front of some bytes, up to one that is not accepted: those that are handed over, what is left,
and why the channel is then disconnected. -/
def cut : Nat -> List Message -> List UInt8 -> List Message × List UInt8 × Option Closing
  | 0, handed, bytes => (handed, bytes, none)
  | rounds + 1, handed, bytes =>
      if Incomplete setup bytes then (handed, bytes, none)
      else if setup.parses (messageOf setup bytes) = false then (handed, bytes, some .parser)
      else if setup.handles handed (messageOf setup bytes) = false then
        (handed ++ [messageOf setup bytes], bytes.drop (total setup bytes), some .handler)
      else cut rounds (handed ++ [messageOf setup bytes]) (bytes.drop (total setup bytes))

end Spec

namespace SndChannel

/-- What was read and not yet parsed. -/
def held (channel : SndChannel) : List UInt8 := (channel.buf.take channel.now).drop channel.messageStart

/-- What is left of the stream behind the messages that were handed over. -/
def Left (setup : Setup) (channel : SndChannel) (rest : List UInt8) : Prop :=
  match channel.closed with
  | none => rest = channel.held ++ channel.stream ∧ Incomplete setup channel.held ∧
      (channel.now = channel.buf.length -> channel.messageStart = 0)
  | some .peer => True
  | some .parser => Exists fun raw => Exists fun left =>
      rest = raw ++ left ∧ Whole setup raw ∧ setup.parses (messageOf setup raw) = false
  | some .handler => Exists fun before => Exists fun last =>
      channel.handed = before ++ [last] ∧ setup.handles before last = false
  | some .full => sndReceiveBufSize ≤ rest.length ∧ sndReceiveBufSize < total setup rest

/-- The cursors are in order, and the messages of the stream were handed over: all that are complete, or all up to one
that is not accepted, or that is larger than the buffer, or up to the end of the connection. -/
structure Follows (setup : Setup) (stream : List UInt8) (channel : SndChannel) : Prop where
  ordered : channel.messageStart ≤ channel.now ∧ channel.now ≤ channel.buf.length
  messages : Exists fun raws : List (List UInt8) => Exists fun rest => (forall raw, raw ∈ raws -> Whole setup raw) ∧
    stream = raws.flatten ++ rest ∧ channel.handed = raws.map (messageOf setup) ∧ channel.Left setup rest

/-- The messages in what is held with the bytes of a read. -/
def cutRead (setup : Setup) (channel : SndChannel) (count : Nat) : List Message × List UInt8 × Option Closing :=
  cut setup channel.buf.length channel.handed (channel.held ++ channel.given count)

/-- The part of a message at the end of the buffer can be moved to its start. -/
def Movable (channel : SndChannel) (bytes rest : List UInt8) : Prop :=
  channel.now + bytes.length = channel.buf.length -> rest.length = channel.buf.length ∨
    2 * rest.length ≤ channel.buf.length

/-- The size of a message does not wrap around with its header, the part of a message is not moved onto itself, and the
channel is not disconnected in an event for writing. -/
def Kept (setup : Setup) (channel : SndChannel) : Op -> Prop
  | .read (.bytes count) write =>
      channel.closed = none ->
        if channel.now = channel.buf.length then write = false
        else
          let after := channel.cutRead setup count
          channel.given count ≠ [] ->
            (after.2.2 = none -> (setup.header.headerSize ≤ after.2.1.length -> total setup after.2.1 < 2 ^ 32) ∧
              channel.Movable (channel.given count) after.2.1) ∧
            (after.2.2 ≠ none -> write = false)
  | .read .intr _ => True
  | .read _ write => channel.closed = none -> write = false
  | .send _ => True

end SndChannel

/-! ## Headers -/

/-- The size and the type are in the header. -/
theorem getMsgSize_take {header : DataHeader} {bytes : List UInt8} {count : Nat} (inside : header.headerSize ≤ count) :
    header.getMsgSize (bytes.take count) = header.getMsgSize bytes := by
  cases header with
  | full =>
      have long : 18 ≤ count := inside
      simp only [DataHeader.getMsgSize, List.drop_take, List.take_take]
      rw [Nat.min_eq_left (by omega)]
  | mini =>
      have long : 6 ≤ count := inside
      simp only [DataHeader.getMsgSize, List.drop_take, List.take_take]
      rw [Nat.min_eq_left (by omega)]

theorem getMsgType_take {header : DataHeader} {bytes : List UInt8} {count : Nat} (inside : header.headerSize ≤ count) :
    header.getMsgType (bytes.take count) = header.getMsgType bytes := by
  cases header with
  | full =>
      have long : 18 ≤ count := inside
      simp only [DataHeader.getMsgType, List.drop_take, List.take_take]
      rw [Nat.min_eq_left (by omega)]
  | mini =>
      have long : 6 ≤ count := inside
      simp only [DataHeader.getMsgType, List.take_take]
      rw [Nat.min_eq_left (by omega)]

section Messages

variable {setup : Setup}

theorem total_take {bytes : List UInt8} {count : Nat} (inside : setup.header.headerSize ≤ count) :
    total setup (bytes.take count) = total setup bytes := congrArg (_ + ·) (getMsgSize_take inside)

theorem messageOf_take {bytes : List UInt8} {count : Nat} (inside : total setup bytes ≤ count) :
    messageOf setup (bytes.take count) = messageOf setup bytes := by
  have header : setup.header.headerSize ≤ count := Nat.le_trans (Nat.le_add_right _ _) inside
  unfold messageOf
  unfold total at inside
  rw [getMsgType_take header, getMsgSize_take header, List.drop_take, List.take_take,
    Nat.min_eq_left (Nat.le_sub_of_add_le' inside)]

theorem whole_take {bytes : List UInt8} (complete : total setup bytes ≤ bytes.length) :
    Whole setup (bytes.take (total setup bytes)) := by
  have header : setup.header.headerSize ≤ total setup bytes := Nat.le_add_right _ _
  unfold Whole
  rw [List.length_take, Nat.min_eq_left complete, total_take header]
  exact ⟨header, rfl⟩

theorem not_incomplete {bytes : List UInt8} (complete : ¬ Incomplete setup bytes) :
    setup.header.headerSize ≤ bytes.length ∧ total setup bytes ≤ bytes.length := by
  unfold Incomplete at complete
  rw [Classical.not_imp] at complete
  exact ⟨complete.1, Nat.le_of_not_lt complete.2⟩

/-- What the messages at the front of some bytes are. -/
theorem cut_spec (rounds : Nat) : forall (handed : List Message) (bytes : List UInt8), bytes.length ≤ rounds ->
    Exists fun raws : List (List UInt8) => (forall raw, raw ∈ raws -> Whole setup raw) ∧
      bytes = raws.flatten ++ (cut setup rounds handed bytes).2.1 ∧
      (cut setup rounds handed bytes).1 = handed ++ raws.map (messageOf setup) ∧
      ((cut setup rounds handed bytes).2.2 = none ∧ Incomplete setup (cut setup rounds handed bytes).2.1 ∨
        (cut setup rounds handed bytes).2.2 = some .parser ∧ (Exists fun raw => Exists fun left =>
          (cut setup rounds handed bytes).2.1 = raw ++ left ∧ Whole setup raw ∧
            setup.parses (messageOf setup raw) = false) ∨
        (cut setup rounds handed bytes).2.2 = some .handler ∧ (Exists fun before => Exists fun last =>
          (cut setup rounds handed bytes).1 = before ++ [last] ∧ setup.handles before last = false)) := by
  induction rounds with
  | zero =>
      intro handed bytes short
      have none_ : bytes = [] := List.eq_nil_of_length_eq_zero (Nat.le_zero.mp short)
      subst none_
      refine ⟨[], fun _ member => absurd member List.not_mem_nil, rfl, (List.append_nil _).symm,
        .inl ⟨rfl, fun header => ?_⟩⟩
      exact absurd (setup.header.headerSize_pos) (Nat.not_lt_of_le header)
  | succ rounds ih =>
      intro handed bytes short
      unfold cut
      split
      next incomplete => exact ⟨[], fun _ member => absurd member List.not_mem_nil, rfl, (List.append_nil _).symm,
        .inl ⟨rfl, incomplete⟩⟩
      next complete =>
        rcases not_incomplete complete with ⟨header, fits⟩
        have positive := setup.header.headerSize_pos
        have same : messageOf setup (bytes.take (total setup bytes)) = messageOf setup bytes := messageOf_take le_rfl
        split
        next refused =>
          refine ⟨[], fun _ member => absurd member List.not_mem_nil, rfl, (List.append_nil _).symm,
            .inr (.inl ⟨rfl, ?_⟩)⟩
          exact ⟨_, _, (List.take_append_drop (total setup bytes) bytes).symm, whole_take fits, same ▸ refused⟩
        next =>
          have first : forall raw, raw ∈ [bytes.take (total setup bytes)] -> Whole setup raw := fun raw member =>
            List.mem_singleton.mp member ▸ whole_take fits
          split
          next refused =>
            refine ⟨[bytes.take (total setup bytes)], first, ?_, ?_, .inr (.inr ⟨rfl, handed, _, rfl, refused⟩)⟩
            · rw [List.flatten_singleton]
              exact (List.take_append_drop _ _).symm
            · rw [List.map_singleton, same]
          next =>
            rcases ih (handed ++ [messageOf setup bytes]) (bytes.drop (total setup bytes)) (by
              rw [List.length_drop]
              unfold total
              omega) with ⟨raws, whole, split, handedOver, ending⟩
            refine ⟨bytes.take (total setup bytes) :: raws, fun raw member => ?_, ?_, ?_, ending⟩
            · rcases List.mem_cons.mp member with rfl | member
              · exact whole_take fits
              · exact whole raw member
            · rw [List.flatten_cons, List.append_assoc, <- split]
              exact (List.take_append_drop _ _).symm
            · rw [handedOver, List.append_assoc, List.map_cons, same]
              rfl

end Messages

/-! ## A round of reading -/

namespace SndChannel

variable {setup : Setup} {channel : SndChannel}

theorem length_held (ordered : channel.now ≤ channel.buf.length) :
    channel.held.length = channel.now - channel.messageStart := by
  unfold held
  rw [List.length_drop, List.length_take, Nat.min_eq_left ordered]

theorem held_eq_take (channel : SndChannel) :
    channel.held = (channel.buf.drop channel.messageStart).take (channel.now - channel.messageStart) := by
  unfold held
  rw [List.drop_take]

/-- The loop hands over the messages at the front of what is held, if no size wraps around. -/
theorem parseLoop_cut (rounds : Nat) : forall channel : SndChannel, channel.messageStart ≤ channel.now ->
    channel.now ≤ channel.buf.length ->
    channel.buf.length < 2 ^ 31 -> channel.held.length ≤ rounds ->
      ((cut setup rounds channel.handed channel.held).2.2 = none ->
        (setup.header.headerSize ≤ (cut setup rounds channel.handed channel.held).2.1.length ->
          total setup (cut setup rounds channel.handed channel.held).2.1 < 2 ^ 32) ->
        parseLoop setup (rounds + 1) channel = some { channel with
          handed := (cut setup rounds channel.handed channel.held).1
          messageStart := channel.now - (cut setup rounds channel.handed channel.held).2.1.length }) ∧
      ((cut setup rounds channel.handed channel.held).2.2 = none ->
        setup.header.headerSize ≤ (cut setup rounds channel.handed channel.held).2.1.length ->
        2 ^ 32 ≤ total setup (cut setup rounds channel.handed channel.held).2.1 ->
          parseLoop setup (rounds + 1) channel = none) ∧
      forall closing, (cut setup rounds channel.handed channel.held).2.2 = some closing ->
        Exists fun start => start ≤ channel.now ∧
        parseLoop setup (rounds + 1) channel = some (disconnect { channel with
          handed := (cut setup rounds channel.handed channel.held).1
          messageStart := start } closing) := by
  induction rounds with
  | zero =>
      intro channel ordered inside small short
      have length := length_held inside
      have positive := setup.header.headerSize_pos
      have none_ : channel.held = [] := List.eq_nil_of_length_eq_zero (Nat.le_zero.mp short)
      have empty : channel.now - channel.messageStart = 0 := by omega
      refine ⟨fun _ _ => ?_, fun _ header => ?_, fun _ isSome => ?_⟩
      · rw [none_]
        unfold parseLoop
        rw [if_pos (.inl (by omega))]
        have start : channel.now - (cut setup 0 channel.handed []).2.1.length = channel.messageStart := by
          change channel.now - 0 = channel.messageStart
          omega
        rw [start]
        rfl
      · rw [none_] at header
        exact absurd positive (Nat.not_lt_of_le header)
      · exact absurd isSome (Option.some_ne_none _).symm
  | succ rounds ih =>
      intro channel ordered inside small short
      have length := length_held inside
      have positive := setup.header.headerSize_pos
      have limit := setup.header.headerSize_le
      have sizeLimit := setup.header.getMsgSize_lt (channel.buf.drop channel.messageStart)
      have sizes : setup.header.headerSize ≤ channel.held.length -> total setup channel.held =
          setup.header.headerSize + setup.header.getMsgSize (channel.buf.drop channel.messageStart) := by
        intro header
        rw [held_eq_take]
        exact total_take (length ▸ header)
      unfold parseLoop
      by_cases incomplete : Incomplete setup channel.held
      · have isCut : cut setup (rounds + 1) channel.handed channel.held = (channel.handed, channel.held, none) := by
          unfold cut
          exact if_pos incomplete
        rw [isCut]
        refine ⟨fun _ fits => ?_, fun _ header large => ?_, fun _ isSome => absurd isSome (Option.some_ne_none _).symm⟩
        · have stops : channel.now - channel.messageStart < setup.header.headerSize ∨
              channel.now - channel.messageStart <
              (setup.header.headerSize + setup.header.getMsgSize (channel.buf.drop channel.messageStart)) % 2 ^ 32 := by
            by_cases header : setup.header.headerSize ≤ channel.held.length
            · right
              have fits := fits header
              have short := incomplete header
              dsimp only at fits
              rw [sizes header] at fits short
              rw [Nat.mod_eq_of_lt fits]
              omega
            · left
              omega
          rw [if_pos stops]
          have start : channel.now - channel.held.length = channel.messageStart := by omega
          dsimp only
          rw [start]
        · dsimp only at header large
          rw [sizes header] at large
          rw [if_neg (by omega), if_pos (by omega)]
      · rcases not_incomplete incomplete with ⟨header, fits⟩
        have isTotal := sizes header
        have message : (⟨setup.header.getMsgType (channel.buf.drop channel.messageStart),
            ((channel.buf.drop channel.messageStart).drop
            setup.header.headerSize).take (setup.header.getMsgSize (channel.buf.drop channel.messageStart))⟩ :
              Message) =
              messageOf setup channel.held := by
          rw [held_eq_take]
          refine (messageOf_take ?_).symm
          change setup.header.headerSize + setup.header.getMsgSize (channel.buf.drop channel.messageStart) ≤ _
          omega
        rw [if_neg (by rw [Nat.mod_eq_of_lt (by omega)]; omega), if_neg (by omega), message]
        by_cases refused : setup.parses (messageOf setup channel.held) = false
        · have isCut : cut setup (rounds + 1) channel.handed channel.held =
              (channel.handed, channel.held, some .parser) := by
            unfold cut
            rw [if_neg incomplete, if_pos refused]
          rw [isCut]
          refine ⟨fun isNone => absurd isNone (Option.some_ne_none _),
            fun isNone => absurd isNone (Option.some_ne_none _), fun closing isClosing => ?_⟩
          cases isClosing
          exact ⟨channel.messageStart, ordered, if_pos refused⟩
        · dsimp only
          rw [if_neg refused]
          by_cases unhandled : setup.handles channel.handed (messageOf setup channel.held) = false
          · have isCut : cut setup (rounds + 1) channel.handed channel.held =
                (channel.handed ++ [messageOf setup channel.held], channel.held.drop (total setup channel.held),
                  some .handler) := by
              unfold cut
              rw [if_neg incomplete, if_neg refused, if_pos unhandled]
            rw [isCut]
            refine ⟨fun isNone => absurd isNone (Option.some_ne_none _),
              fun isNone => absurd isNone (Option.some_ne_none _), fun closing isClosing => ?_⟩
            cases isClosing
            exact ⟨channel.messageStart, ordered, if_pos unhandled⟩
          · have isCut : cut setup (rounds + 1) channel.handed channel.held =
                cut setup rounds (channel.handed ++ [messageOf setup channel.held])
                  (channel.held.drop (total setup channel.held)) := by
              conv => lhs; unfold cut
              rw [if_neg incomplete, if_neg refused, if_neg unhandled]
            have next : held { channel with
                handed := channel.handed ++ [messageOf setup channel.held]
                messageStart := channel.messageStart + setup.header.headerSize +
                  setup.header.getMsgSize (channel.buf.drop channel.messageStart) } =
                  channel.held.drop (total setup channel.held) := by
              rw [isTotal]
              unfold held
              rw [List.drop_drop, Nat.add_assoc]
            rw [if_neg unhandled, isCut, <- next]
            refine ih { channel with
              handed := channel.handed ++ [messageOf setup channel.held]
              messageStart := channel.messageStart + setup.header.headerSize +
                setup.header.getMsgSize (channel.buf.drop channel.messageStart) }
              ?_ inside small ?_
            · dsimp only
              omega
            · rw [next, List.length_drop]
              omega

/-- What is left of a message stays, or goes to the start of the buffer if it can be moved there. -/
theorem compact_of_movable (connected : channel.closed = none) (ordered : channel.messageStart ≤ channel.now)
    (inside : channel.now ≤ channel.buf.length)
    (movable : channel.now = channel.buf.length -> channel.messageStart = 0 ∨
      channel.now - channel.messageStart ≤ channel.messageStart) :
    Exists fun next => channel.compact = some next ∧ next.held = channel.held ∧ next.stream = channel.stream ∧
      next.handed = channel.handed ∧ next.closed = none ∧ next.messageStart ≤ next.now ∧ next.now ≤ next.buf.length ∧
      next.buf.length = channel.buf.length ∧ (next.now = next.buf.length -> next.messageStart = 0) := by
  have length := length_held inside
  unfold compact
  rw [connected, if_neg (by decide)]
  split
  next parsed =>
    have none_ : channel.held = [] := List.eq_nil_of_length_eq_zero (by omega)
    exact ⟨_, rfl, none_.symm, rfl, rfl, rfl, le_rfl, Nat.zero_le _, rfl, fun _ => rfl⟩
  next =>
    split
    next isEnd =>
      dsimp only
      by_cases start : channel.messageStart = 0
      · rw [if_pos start]
        exact ⟨channel, rfl, rfl, rfl, rfl, connected, ordered, inside, rfl, fun _ => start⟩
      · have small := (movable isEnd).resolve_left start
        rw [if_neg start, if_pos small]
        have moved : ((channel.buf.drop channel.messageStart).take (channel.now - channel.messageStart)).length =
            channel.now - channel.messageStart := by
          rw [List.length_take, List.length_drop]
          omega
        refine ⟨_, rfl, ?_, rfl, rfl, rfl, Nat.zero_le _, ?_, ?_, fun _ => rfl⟩
        · rw [held_eq_take, held_eq_take]
          dsimp only
          rw [List.drop_zero, Nat.sub_zero]
          exact List.take_left' moved
        · dsimp only
          rw [List.length_append, moved, List.length_drop]
          omega
        · dsimp only
          rw [List.length_append, moved, List.length_drop]
          omega
    next notEnd => exact ⟨channel, rfl, rfl, rfl, rfl, connected, ordered, inside, rfl,
      fun isEnd => absurd isEnd notEnd⟩

/-- What was moved could be moved. -/
theorem movable_of_compact {next : SndChannel} (connected : channel.closed = none)
    (compacted : channel.compact = some next)
    (isEnd : channel.now = channel.buf.length) :
    channel.messageStart = 0 ∨ channel.now - channel.messageStart ≤ channel.messageStart := by
  unfold compact at compacted
  rw [connected, if_neg (by decide)] at compacted
  split at compacted
  next parsed => exact .inr (by omega)
  next =>
    dsimp only at compacted
    split at compacted
    next start => exact .inl start
    next =>
      split at compacted
      next small => exact .inr small
      next => contradiction

theorem compact_of_closed {closing : Closing} (closed : channel.closed = some closing) :
    channel.compact = some channel := by
  unfold compact
  rw [closed]
  rfl

theorem given_length_le (channel : SndChannel) (count : Nat) :
    (channel.given count).length ≤ channel.buf.length - channel.now :=
  (List.length_take_le _ _).trans (Nat.min_le_right _ _)

theorem given_append (channel : SndChannel) (count : Nat) :
    channel.given count ++ channel.stream.drop (channel.given count).length = channel.stream :=
  List.prefix_iff_eq_append.mp (List.take_prefix _ _)

/-! ## The channel follows the stream -/

/-- What holds of a channel, which is connected or not. -/
structure Inv (setup : Setup) (stream : List UInt8) (channel : SndChannel) : Prop where
  follows : channel.Follows setup stream
  size : channel.buf.length = sndReceiveBufSize

namespace Inv

variable {stream : List UInt8} (inv : channel.Inv setup stream)

include inv

theorem given_fits (count : Nat) : channel.now + (channel.given count).length ≤ channel.buf.length := by
  have given := channel.given_length_le count
  have inside := inv.follows.ordered.2
  omega

theorem length_filled (count : Nat) : (channel.filled (channel.given count)).buf.length = channel.buf.length := by
  have fits := inv.given_fits count
  unfold filled
  dsimp only
  rw [List.length_append, List.length_append, List.length_take, List.length_drop, Nat.min_eq_left (by omega)]
  omega

theorem held_filled (count : Nat) :
    (channel.filled (channel.given count)).held = channel.held ++ channel.given count := by
  have ordered := inv.follows.ordered
  have first : (channel.buf.take channel.now ++ channel.given count ++
      channel.buf.drop (channel.now + (channel.given count).length)).take
      (channel.now + (channel.given count).length) = channel.buf.take channel.now ++ channel.given count := by
    refine List.take_left' ?_
    rw [List.length_append, List.length_take, Nat.min_eq_left ordered.2]
  unfold held filled
  dsimp only
  rw [first, List.drop_append_of_le_length (by rw [List.length_take]; omega)]

/-- A disconnect for a reason that holds. -/
theorem disconnect {closing : Closing}
    (left : forall rest, channel.Left setup rest -> Left setup (channel.disconnect closing) rest) :
    Inv setup stream (channel.disconnect closing) := by
  rcases inv.follows.messages with ⟨raws, rest, whole, split, handed, isLeft⟩
  exact ⟨⟨inv.follows.ordered, ⟨raws, rest, whole, split, handed, left rest isLeft⟩⟩, inv.size⟩

theorem disconnect_peer : Inv setup stream (channel.disconnect .peer) := inv.disconnect fun _ _ => trivial

/-- A buffer without room holds the beginning of a message that is larger. -/
theorem held_larger (connected : channel.closed = none) (isEnd : channel.now = channel.buf.length) :
    channel.held.length = sndReceiveBufSize ∧ setup.header.headerSize ≤ channel.held.length ∧
      channel.held.length < total setup channel.held := by
  rcases inv.follows.messages with ⟨_, rest, _, _, _, left⟩
  unfold Left at left
  rw [connected] at left
  rcases left with ⟨-, incomplete, start⟩
  have length := length_held inv.follows.ordered.2
  rw [start isEnd, isEnd, inv.size] at length
  have header : setup.header.headerSize ≤ channel.held.length := by
    rw [length]
    exact Nat.le_trans setup.header.headerSize_le (by decide)
  exact ⟨length, header, incomplete header⟩

theorem disconnect_full (connected : channel.closed = none) (isEnd : channel.now = channel.buf.length) :
    Inv setup stream (channel.disconnect .full) := by
  rcases inv.held_larger connected isEnd with ⟨length, header, larger⟩
  refine inv.disconnect fun rest left => ?_
  unfold Left at left
  rw [connected] at left
  rcases left with ⟨rfl, -, -⟩
  have same : total setup (channel.held ++ channel.stream) = total setup channel.held := by
    rw [<- @total_take setup (channel.held ++ channel.stream) channel.held.length header, List.take_left]
  unfold Left SndChannel.disconnect
  dsimp only
  rw [List.length_append, same]
  omega

theorem held_length_le (count : Nat) : (channel.held ++ channel.given count).length ≤ channel.buf.length := by
  have length := length_held inv.follows.ordered.2
  have fits := inv.given_fits count
  rw [List.length_append, length]
  omega

theorem cutRead_spec (count : Nat) :
    Exists fun raws : List (List UInt8) => (forall raw, raw ∈ raws -> Whole setup raw) ∧
    channel.held ++ channel.given count = raws.flatten ++ (channel.cutRead setup count).2.1 ∧
    (channel.cutRead setup count).1 = channel.handed ++ raws.map (messageOf setup) ∧
    ((channel.cutRead setup count).2.2 = none ∧ Incomplete setup (channel.cutRead setup count).2.1 ∨
      (channel.cutRead setup count).2.2 = some .parser ∧ (Exists fun raw => Exists fun left =>
        (channel.cutRead setup count).2.1 = raw ++ left ∧ Whole setup raw ∧
          setup.parses (messageOf setup raw) = false) ∨
      (channel.cutRead setup count).2.2 = some .handler ∧ (Exists fun before => Exists fun last =>
        (channel.cutRead setup count).1 = before ++ [last] ∧ setup.handles before last = false)) :=
  cut_spec channel.buf.length channel.handed _ (inv.held_length_le count)

/-- What a read brings, cut into messages behind those of before. -/
theorem read_messages (connected : channel.closed = none) (count : Nat) : Exists fun raws : List (List UInt8) =>
    (forall raw, raw ∈ raws -> Whole setup raw) ∧ stream = raws.flatten ++ ((channel.cutRead setup count).2.1 ++
        channel.stream.drop (channel.given count).length) ∧
          (channel.cutRead setup count).1 = raws.map (messageOf setup) := by
  rcases inv.follows.messages with ⟨raws, rest, whole, split, handed, left⟩
  unfold Left at left
  rw [connected] at left
  rcases left with ⟨rfl, _, _⟩
  rcases inv.cutRead_spec count with ⟨more, isWhole, moreSplit, moreHanded, _⟩
  refine ⟨raws ++ more, fun raw member => ?_, ?_, ?_⟩
  · rcases List.mem_append.mp member with old | new
    · exact whole raw old
    · exact isWhole raw new
  · rw [List.flatten_append, List.append_assoc, <- List.append_assoc more.flatten, <- moreSplit, List.append_assoc,
      channel.given_append count]
    exact split
  · rw [moreHanded, handed, List.map_append]

/-- What the loop makes of the bytes that are there. -/
theorem parsed (count : Nat) :
    ((channel.cutRead setup count).2.2 = none ->
      (setup.header.headerSize ≤ (channel.cutRead setup count).2.1.length ->
        total setup (channel.cutRead setup count).2.1 < 2 ^ 32) ->
      parseLoop setup (channel.buf.length + 1) (channel.filled (channel.given count)) =
        some { channel.filled (channel.given count) with
        handed := (channel.cutRead setup count).1
        messageStart := channel.now + (channel.given count).length -
          (channel.cutRead setup count).2.1.length }) ∧
    ((channel.cutRead setup count).2.2 = none ->
      setup.header.headerSize ≤ (channel.cutRead setup count).2.1.length ->
      2 ^ 32 ≤ total setup (channel.cutRead setup count).2.1 ->
      parseLoop setup (channel.buf.length + 1) (channel.filled (channel.given count)) = none) ∧
    forall closing, (channel.cutRead setup count).2.2 = some closing ->
      Exists fun start => start ≤ channel.now + (channel.given count).length ∧
        parseLoop setup (channel.buf.length + 1) (channel.filled (channel.given count)) =
          some (SndChannel.disconnect { channel.filled (channel.given count) with
            handed := (channel.cutRead setup count).1
            messageStart := start } closing) := by
  have held := inv.held_filled count
  have ordered := inv.follows.ordered
  have fits := inv.given_fits count
  have size := inv.size
  have block := inv.length_filled count
  have loop := @parseLoop_cut setup channel.buf.length (channel.filled (channel.given count))
      (Nat.le_trans ordered.1 (Nat.le_add_right _ _))
    (by rw [block]; exact fits) (by rw [block, size]; decide) (by
      rw [length_held (by rw [block]; exact fits)]
      exact Nat.le_trans (Nat.sub_le _ _) fits)
  rw [held] at loop
  exact loop

/-- The end of what is held, behind the messages that were parsed. -/
theorem held_parsed (count : Nat) {parsed rest : List UInt8} {handed : List Message}
    (split : channel.held ++ channel.given count = parsed ++ rest) :
    held { channel.filled (channel.given count) with
      handed := handed
      messageStart := channel.now + (channel.given count).length - rest.length } = rest := by
  have ordered := inv.follows.ordered
  have all : ((channel.filled (channel.given count)).buf.take (channel.now + (channel.given count).length)).drop
      channel.messageStart =
      parsed ++ rest := (inv.held_filled count).trans split
  have block := inv.length_filled count
  have fits := inv.given_fits count
  have length : ((channel.filled (channel.given count)).buf.take (channel.now + (channel.given count).length)).length =
      channel.now + (channel.given count).length := by
    rw [List.length_take, block, Nat.min_eq_left fits]
  have lengths := congrArg List.length all
  rw [List.length_drop, length, List.length_append] at lengths
  have start : channel.now + (channel.given count).length - rest.length = channel.messageStart + parsed.length :=
    by omega
  change ((channel.filled (channel.given count)).buf.take (channel.now + (channel.given count).length)).drop
    (channel.now + (channel.given count).length - rest.length) = rest
  rw [start, <- List.drop_drop, all, List.drop_left]

/-- A read of some bytes after which the channel stays. -/
theorem read_stays (connected : channel.closed = none) {count : Nat} (isNone : (channel.cutRead setup count).2.2 = none)
    (fits : setup.header.headerSize ≤ (channel.cutRead setup count).2.1.length ->
      total setup (channel.cutRead setup count).2.1 < 2 ^ 32)
    (movable : channel.Movable (channel.given count) (channel.cutRead setup count).2.1) :
    Exists fun next => (parseLoop setup (channel.buf.length + 1) (channel.filled (channel.given count))).bind compact =
      some next ∧
      next.closed = none ∧ next.Inv setup stream := by
  have inside := inv.given_fits count
  have block := inv.length_filled count
  rcases inv.cutRead_spec count with ⟨_, _, split, _, ending⟩
  have incomplete := ending.resolve_right fun isSome => by
    rcases isSome with ⟨isSome, _⟩ | ⟨isSome, _⟩ <;> exact Option.some_ne_none _ (isSome.symm.trans isNone)
  have held := @held_parsed setup channel stream inv count _ _
    (channel.cutRead setup count).1 split
  rcases inv.read_messages connected count with ⟨raws, whole, messages, handed⟩
  have parsed := (inv.parsed count).1 isNone fits
  generalize channel.cutRead setup count = after at *
  have short : after.2.1.length ≤ channel.now + (channel.given count).length := by
    have lengths := congrArg List.length split
    have length := length_held inv.follows.ordered.2
    rw [List.length_append, List.length_append, length] at lengths
    omega
  rw [parsed, Option.bind_some]
  rcases @compact_of_movable { channel.filled (channel.given count) with
      handed := after.1
      messageStart := channel.now + (channel.given count).length - after.2.1.length } connected (Nat.sub_le _ _)
    (Nat.le_trans inside (Nat.le_of_eq block.symm)) (fun isEnd => by
      have isEnd : channel.now + (channel.given count).length = channel.buf.length := isEnd.trans block
      change channel.now + (channel.given count).length - after.2.1.length = 0 ∨
        channel.now + (channel.given count).length - (channel.now + (channel.given count).length - after.2.1.length) ≤
          channel.now + (channel.given count).length - after.2.1.length
      have moves := movable isEnd
      omega) with ⟨next, compacted, nextHeld, nextStream, nextHanded, nextClosed, ordered, nextInside, nextBlock, start⟩
  refine ⟨next, compacted, nextClosed, ⟨⟨ordered, nextInside⟩, ⟨raws, _, whole, messages, nextHanded.trans handed, ?_⟩⟩,
    nextBlock.trans (block.trans inv.size)⟩
  unfold Left
  rw [nextClosed, nextHeld, nextStream, held]
  exact ⟨rfl, incomplete.2, start⟩

/-- A read after which the channel is disconnected. -/
theorem read_closes (connected : channel.closed = none) {count : Nat} {closing : Closing}
    (isSome : (channel.cutRead setup count).2.2 = some closing) :
    Exists fun next => (parseLoop setup (channel.buf.length + 1) (channel.filled (channel.given count))).bind compact =
      some next ∧
      next.closed = some closing ∧ next.Inv setup stream := by
  have inside := inv.given_fits count
  have block := inv.length_filled count
  rcases inv.cutRead_spec count with ⟨_, _, _, _, ending⟩
  rcases inv.read_messages connected count with ⟨raws, whole, messages, handed⟩
  rcases (inv.parsed count).2.2 closing isSome with ⟨start, before, parsed⟩
  rw [parsed, Option.bind_some, compact_of_closed rfl]
  refine ⟨_, rfl, rfl, ⟨⟨before, Nat.le_trans inside (Nat.le_of_eq block.symm)⟩,
    ⟨raws, _, whole, messages, handed, ?_⟩⟩, block.trans inv.size⟩
  rcases ending with ⟨isNone, _⟩ | ⟨isParser, refused⟩ | ⟨isHandler, refused⟩
  · exact absurd (isSome.symm.trans isNone) (Option.some_ne_none _)
  · cases isSome.symm.trans isParser
    rcases refused with ⟨raw, left, split, isWhole, refused⟩
    refine ⟨raw, left ++ channel.stream.drop (channel.given count).length, ?_, isWhole, refused⟩
    rw [<- List.append_assoc, <- split]
  · cases isSome.symm.trans isHandler
    exact refused

/-- A round of reading. -/
theorem receive (connected : channel.closed = none) {result : Read} {write : Bool}
    (kept : channel.Kept setup (.read result write)) :
    Exists fun next => Receive.receive setup channel result = some next ∧ (next.closed = none ∨ write = false) ∧
      next.Inv setup stream := by
  cases result with
  | intr => exact ⟨channel, rfl, .inl connected, inv⟩
  | eof => exact ⟨_, rfl, .inr (kept connected), inv.disconnect_peer⟩
  | failed => exact ⟨_, rfl, .inr (kept connected), inv.disconnect_peer⟩
  | bytes count =>
      have kept := kept connected
      unfold Receive.receive
      dsimp only
      by_cases isEnd : channel.now = channel.buf.length
      · rw [if_pos isEnd] at kept
        rw [if_pos isEnd]
        exact ⟨_, rfl, .inr kept, inv.disconnect_full connected isEnd⟩
      · rw [if_neg isEnd] at kept
        rw [if_neg isEnd]
        by_cases again : channel.given count = []
        · rw [if_pos again]
          exact ⟨channel, rfl, .inl connected, inv⟩
        · rw [if_neg again]
          rcases kept again with ⟨stays, closes⟩
          cases ending : (channel.cutRead setup count).2.2 with
          | none =>
              rcases stays ending with ⟨fits, movable⟩
              rcases inv.read_stays connected ending fits movable with ⟨next, received, open_, nextInv⟩
              exact ⟨next, received, .inl open_, nextInv⟩
          | some closing =>
              rcases inv.read_closes connected ending with ⟨next, received, _, nextInv⟩
              exact ⟨next, received, .inr (closes (by rw [ending]; exact Option.some_ne_none _)), nextInv⟩

/-- Every step under the condition keeps the invariant. -/
theorem step {op : Op} (kept : channel.Kept setup op) : Exists fun next => Receive.step setup channel op = some next ∧
    next.Inv setup stream := by
  unfold Receive.step
  cases closed : channel.closed with
  | some closing =>
      refine ⟨channel, ?_, inv⟩
      cases op with
      | read => rfl
      | send => rfl
  | none =>
      cases op with
      | read result write =>
          rcases inv.receive closed kept with ⟨next, received, unused, nextInv⟩
          refine ⟨next, ?_, nextInv⟩
          dsimp only
          rw [if_neg (by decide), received, Option.bind_some, if_neg]
          rintro ⟨isSome, isWrite⟩
          rcases unused with open_ | notWrite
          · rw [open_] at isSome
            contradiction
          · exact Bool.false_ne_true (notWrite.symm.trans isWrite)
      | send sent =>
          dsimp only
          split
          next => exact ⟨channel, rfl, inv⟩
          next => exact ⟨_, rfl, inv.disconnect_peer⟩

/-- A message that is larger than the buffer, of which the buffer is full, disconnects the channel with the next read.
-/
theorem full_disconnects (connected : channel.closed = none) (isEnd : channel.now = channel.buf.length) (count : Nat) :
    sndReceiveBufSize < total setup channel.held ∧
      Receive.step setup channel (.read (.bytes count) false) = some (channel.disconnect .full) := by
  rcases inv.held_larger connected isEnd with ⟨length, -, larger⟩
  refine ⟨by omega, ?_⟩
  unfold Receive.step Receive.receive
  dsimp only
  rw [connected, if_neg (by decide), if_pos isEnd, Option.bind_some, if_neg (fun both => Bool.false_ne_true both.2)]

/-- A step into a state that follows the stream has met its condition. -/
theorem kept {op : Op} {next : SndChannel} (stepped : Receive.step setup channel op = some next) :
    channel.Kept setup op := by
  cases op with
  | send => trivial
  | read result write =>
      have used : channel.closed = none -> forall after, Receive.receive setup channel result = some after ->
          after.closed ≠ none -> write = false := by
        intro connected after received closed
        unfold Receive.step at stepped
        dsimp only at stepped
        rw [connected, if_neg (by decide), received, Option.bind_some] at stepped
        refine eq_false_of_ne_true fun isWrite => ?_
        rw [if_pos ⟨Option.isSome_iff_ne_none.mpr closed, isWrite⟩] at stepped
        contradiction
      cases result with
      | intr => trivial
      | eof => exact fun connected => used connected _ rfl (Option.some_ne_none _)
      | failed => exact fun connected => used connected _ rfl (Option.some_ne_none _)
      | bytes count =>
          intro connected
          by_cases isEnd : channel.now = channel.buf.length
          · rw [if_pos isEnd]
            exact used connected _ (if_pos isEnd) (Option.some_ne_none _)
          · rw [if_neg isEnd]
            intro after again
            have received : Receive.receive setup channel (.bytes count) =
                (parseLoop setup (channel.buf.length + 1) (channel.filled (channel.given count))).bind compact :=
              (if_neg isEnd).trans (if_neg again)
            have defined_ : Receive.receive setup channel (.bytes count) ≠ none := by
              intro none_
              unfold Receive.step at stepped
              dsimp only at stepped
              rw [connected, if_neg (by decide), none_] at stepped
              contradiction
            refine ⟨fun ending => ?_, fun ending => ?_⟩
            · have fits : setup.header.headerSize ≤ (channel.cutRead setup count).2.1.length ->
                  total setup (channel.cutRead setup count).2.1 < 2 ^ 32 := by
                intro header
                refine Nat.lt_of_not_le fun large => defined_ ?_
                rw [received, (inv.parsed count).2.1 ending header large]
                rfl
              refine ⟨fits, fun reached => ?_⟩
              rw [received, (inv.parsed count).1 ending fits, Option.bind_some] at defined_
              rcases Option.ne_none_iff_exists'.mp defined_ with ⟨final, compacted⟩
              have block := inv.length_filled count
              have moves := movable_of_compact (by exact connected) compacted (reached.trans block.symm)
              dsimp only at moves
              have now : (channel.filled (channel.given count)).now = channel.now + (channel.given count).length := rfl
              rw [now] at moves
              have short : (channel.cutRead setup count).2.1.length ≤ channel.buf.length := by
                rcases inv.cutRead_spec count with ⟨_, _, split, _⟩
                have lengths := congrArg List.length split
                have limit := inv.held_length_le count
                rw [List.length_append] at lengths
                rw [List.length_append] at limit lengths
                omega
              change (channel.cutRead setup count).2.1.length = _ ∨ 2 * (channel.cutRead setup count).2.1.length ≤ _
              omega
            · rcases Option.ne_none_iff_exists'.mp ending with ⟨closing, isSome⟩
              rcases inv.read_closes connected isSome with ⟨final, isFinal, closed, _⟩
              exact used connected final (received.trans isFinal) (by rw [closed]; exact Option.some_ne_none _)

end Inv

end SndChannel

theorem sndChannel_inv (setup : Setup) (stream : List UInt8) : (sndChannel stream).Inv setup stream where
  follows := ⟨⟨le_rfl, Nat.zero_le _⟩, ⟨[], stream, fun _ member => absurd member List.not_mem_nil, rfl, rfl, rfl,
    fun header => absurd setup.header.headerSize_pos (Nat.not_lt_of_le header), fun _ => rfl⟩⟩
  size := List.length_replicate

/-- What the client sends is received as it should be exactly if no size wraps around with its header, no part of a
message has to be moved onto itself, and no event in which the channel is disconnected is one for writing. -/
theorem receive_iff (setup : Setup) (stream : List UInt8) (ops : List Op) :
    AllStates (step setup) (fun _ channel => channel.Follows setup stream) [] (sndChannel stream) ops <->
      Meets (step setup) (fun _ channel op => channel.Kept setup op) [] (sndChannel stream) ops :=
  @allStates_iff_meets _ _ (step setup) (fun _ channel op => channel.Kept setup op)
    (fun _ channel => channel.Inv setup stream)
    (fun _ channel => channel.Follows setup stream) (fun _ _ => True) (fun _ _ inv => inv.follows)
      (fun _ _ _ inv _ kept => inv.step kept)
    (fun _ _ _ _ inv _ stepped _ => inv.kept stepped) ops [] (sndChannel stream) (sndChannel_inv setup stream)
      fun _ _ _ _ => trivial

/-- A mini header whose size is `2 ^ 32 - 1`. -/
theorem large_size_parsed_outside : ¬ AllStates (step ⟨.mini, fun _ => true, fun _ _ => true⟩)
    (fun _ channel => channel.Follows ⟨.mini, fun _ => true, fun _ _ => true⟩ [1, 0, 255, 255, 255, 255]) []
    (sndChannel [1, 0, 255, 255, 255, 255]) [.read (.bytes 5) false] := by
  intro follows
  rcases follows _ (List.prefix_refl _) with ⟨final, ran, _⟩
  rcases (run_cons_eq_some (step _)).mp ran with ⟨next, stepped, _⟩
  have inv := sndChannel_inv ⟨.mini, fun _ => true, fun _ _ => true⟩ [1, 0, 255, 255, 255, 255]
  have given : (sndChannel [1, 0, 255, 255, 255, 255]).given 5 = [1, 0, 255, 255, 255, 255] := by
    unfold SndChannel.given
    rw [inv.size]
    decide
  have held : (sndChannel [1, 0, 255, 255, 255, 255]).held = [] := by
    unfold SndChannel.held sndChannel
    dsimp only
    rw [List.take_zero, List.drop_nil]
  have isCut : (sndChannel [1, 0, 255, 255, 255, 255]).cutRead ⟨.mini, fun _ => true, fun _ _ => true⟩ 5 =
      ([], [1, 0, 255, 255, 255, 255], none) := by
    have rounds : sndReceiveBufSize = 32767 + 1 := rfl
    unfold SndChannel.cutRead
    rw [inv.size, given, held, rounds]
    unfold cut
    exact if_pos (by decide)
  have connected : (sndChannel [1, 0, 255, 255, 255, 255]).closed = none := rfl
  have start : (sndChannel [1, 0, 255, 255, 255, 255]).now = 0 := rfl
  -- from here on the buffer is not looked into
  generalize sndChannel [1, 0, 255, 255, 255, 255] = channel at *
  have notEnd : channel.now ≠ channel.buf.length := by
    rw [start, inv.size]
    decide
  have kept : ite _ _ _ := inv.kept stepped connected
  rw [if_neg notEnd] at kept
  have fits := ((kept (by rw [given]; exact List.cons_ne_nil _ _)).1 (by rw [isCut])).1
  rw [isCut] at fits
  exact absurd (fits (by decide)) (by decide)

end Receive
end Sound
end Spice
