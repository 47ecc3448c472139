import Spice.Lib.Bytes
import Mathlib.Data.List.Range

namespace Spice
namespace Client
namespace LinkFraming

open Lib

/-!
# What the client reads of a link reply and of a message

The reply to a link and the body of a message are received into memory of the size that
their header gives.  The reply holds words of capabilities at an offset; a message may hold
a list of sub-messages, whose places are offsets too, and each of them is handed to the
parser of the channel.  Nothing compares the offsets and the counts with the size.

The reads are kept as a list.  Of the messages it is counted who holds them.
-/

structure Read where
  offset : Nat
  width : Nat
deriving DecidableEq

/-- Memory of some size; what is behind the size may be anything. -/
structure Received where
  size : Nat
  memory : Nat -> UInt8

namespace Received

variable (received : Received)

def field (offset width : Nat) : Nat :=
  littleEndian ((List.range width).map fun place => received.memory (offset + place))

def Inside (read : Read) : Prop := read.width = 0 ∨ read.offset + read.width ≤ received.size

instance (read : Read) : Decidable (received.Inside read) := inferInstanceAs (Decidable (_ ∨ _))

end Received

/-! ## The link reply -/

section Link

variable (reply : Received)

/-- The words of the capabilities, of which there are `count` from `offset` on. -/
def capsReads (offset count : Nat) : List Read := (List.range count).map fun index => ⟨offset + 4 * index, 4⟩

def numCommonCaps : Nat := reply.field 166 4

def numChannelCaps : Nat := reply.field 170 4

def capsOffset : Nat := reply.field 174 4

/-- `spice_channel_recv_link_msg`, after `spice_channel_recv_link_hdr` took the memory, which it does not for no size at
all.  A reply that is not complete fails, and one with an error is not read further. -/
def recvLinkMsg (complete : Bool) : List Read :=
  if reply.size = 0 ∨ complete = false then []
  else if reply.field 0 4 ≠ 0 then [⟨0, 4⟩]
  else
    [⟨0, 4⟩, ⟨170, 4⟩, ⟨166, 4⟩, ⟨174, 4⟩] ++ capsReads (capsOffset reply) (numCommonCaps reply) ++
      capsReads (capsOffset reply + 4 * numCommonCaps reply) (numChannelCaps reply)

/-- The fixed fields that are read are there, and the words of the capabilities, if there are any. -/
def ReplyFits (complete : Bool) : Prop :=
  reply.size = 0 ∨ complete = false ∨
    (4 ≤ reply.size ∧ (reply.field 0 4 = 0 -> 178 ≤ reply.size ∧
      (numCommonCaps reply + numChannelCaps reply = 0 ∨
        capsOffset reply + 4 * (numCommonCaps reply + numChannelCaps reply) ≤ reply.size)))

end Link

/-! ## Messages -/

/-- The reads of a message, who holds it and its sub-messages, and whether a sub-message failed to parse. -/
structure Walk where
  reads : List Read
  inRefs : Int
  subRefs : Nat
  failed : Bool

section Message

variable (data : Received) (parses : Nat -> Nat -> Nat -> Bool)

/-- The size of a sub-message as an `int`, as far as its bytes are handed to the parser. -/
def subLength (at_ : Nat) : Nat :=
  let size := data.field (at_ + 2) 4
  if size < 2 ^ 31 then size else 0

/-- `spice_msg_in_sub_new`, the parser, the handler and the release of a sub-message, which is in `sub_messages[i]`.
`parses` says of a type and of bytes whether the parser accepts them. -/
def subMessage (list index : Nat) (walk : Walk) : Walk :=
  let at_ := data.field (list + 2 + 4 * index) 4
  let reads := walk.reads ++ [⟨list + 2 + 4 * index, 4⟩, ⟨at_, 6⟩, ⟨at_ + 6, subLength data at_⟩]
  if parses (data.field at_ 2) (at_ + 6) (subLength data at_) then ⟨reads, walk.inRefs, walk.subRefs, false⟩
  else ⟨reads, walk.inRefs + 1, walk.subRefs + 1, true⟩

/-- The loop over the list, `count` messages from `index` on. -/
def subMessages (list : Nat) : Nat -> Nat -> Walk -> Walk
  | 0, _, walk => walk
  | count + 1, index, walk =>
      let walk := subMessage data parses list index walk
      if walk.failed then walk else subMessages list count (index + 1) walk

end Message

/-- What came of a message. -/
inductive Outcome
  | aborted
  | done (walk : Walk)

def msgList : Nat := 8

/-- The list of sub-messages, if there is one. -/
def walkList (data : Received) (parses : Nat -> Nat -> Nat -> Bool) (msgType subList : Nat) : Walk :=
  if msgType = msgList ∨ subList ≠
    0 then subMessages data parses subList (data.field subList 2) 0 ⟨[⟨subList, 2⟩], 1, 0, false⟩
  else ⟨[], 1, 0, false⟩

def parseMessage (data : Received) (msgType : Nat) (walk : Walk) : Walk :=
  if walk.failed = true ∨ msgType = msgList then walk
  else
    { walk with
      reads := walk.reads ++ [⟨0, data.size⟩] }

def release (walk : Walk) : Walk :=
  { walk with
    inRefs := walk.inRefs - 1 }

/-- `spice_channel_recv_msg` with the header it has received.  Memory of a negative size is not given, which ends the
program; a body that does not come fails the connection. -/
def recvMsg (data : Received) (parses : Nat -> Nat -> Nat -> Bool) (msgType subList : Nat)
    (complete : Bool) : Outcome :=
  if 2 ^ 31 ≤ data.size then .aborted
  else if complete = false then .done (release ⟨[], 1, 0, false⟩)
  else .done (release (parseMessage data msgType (walkList data parses msgType subList)))

/-- The reads are inside of the data, and the message and its sub-messages are released. -/
def Outcome.Sound (data : Received) : Outcome -> Prop
  | .aborted => False
  | .done walk => (forall read, read ∈ walk.reads -> data.Inside read) ∧ walk.inRefs = 0 ∧ walk.subRefs = 0

/-- An entry of the list, the header it leads to and the bytes of the sub-message are inside, and it parses. -/
structure SubFits (data : Received) (parses : Nat -> Nat -> Nat -> Bool) (list index : Nat) : Prop where
  entry : list + 2 + 4 * index + 4 ≤ data.size
  header : data.field (list + 2 + 4 * index) 4 + 6 ≤ data.size
  body : subLength data (data.field (list + 2 + 4 * index) 4) = 0 ∨
    data.field (list + 2 + 4 * index) 4 + 6 + subLength data (data.field (list + 2 + 4 * index) 4) ≤ data.size
  parsed : parses (data.field (data.field (list + 2 + 4 * index) 4) 2) (data.field (list + 2 + 4 * index) 4 + 6)
    (subLength data (data.field (list + 2 + 4 * index) 4)) = true

def MessageFits (data : Received) (parses : Nat -> Nat -> Nat -> Bool) (msgType subList : Nat)
    (complete : Bool) : Prop :=
  data.size < 2 ^ 31 ∧ (complete = true -> msgType = msgList ∨ subList ≠ 0 ->
    subList + 2 ≤ data.size ∧ forall index, index < data.field subList 2 -> SubFits data parses subList index)

/-! ## Both are read inside exactly if they fit -/

/-- The capabilities are read inside of the reply if they end there. -/
theorem capsReads_inside (reply : Received) (offset count : Nat) :
    (forall read, read ∈ capsReads offset count -> reply.Inside read) <-> count = 0 ∨
      offset + 4 * count ≤ reply.size := by
  unfold capsReads
  constructor
  · intro inside
    cases count with
    | zero => exact .inl rfl
    | succ count =>
        have last := inside ⟨offset + 4 * count, 4⟩
            (List.mem_map.mpr ⟨count, List.mem_range.mpr (Nat.lt_succ_self _), rfl⟩)
        rcases last with none | last
        · contradiction
        · exact .inr (by dsimp only at last; omega)
  · intro fits read member
    rcases List.mem_map.mp member with ⟨index, less, rfl⟩
    have less := List.mem_range.mp less
    refine .inr ?_
    dsimp only
    omega

/-- The whole reply is. -/
theorem recvLinkMsg_inside (reply : Received) (complete : Bool) :
    (forall read, read ∈ recvLinkMsg reply complete -> reply.Inside read) <-> ReplyFits reply complete := by
  unfold recvLinkMsg ReplyFits
  by_cases none : reply.size = 0 ∨ complete = false
  · rw [if_pos none]
    refine iff_of_true (fun _ member => absurd member List.not_mem_nil) ?_
    exact none.elim .inl fun incomplete => .inr (.inl incomplete)
  · rw [if_neg none]
    rw [not_or] at none
    rw [or_iff_right none.1, or_iff_right none.2]
    by_cases isError : reply.field 0 4 = 0
    · rw [if_neg (not_not.mpr isError), imp_iff_right isError]
      rw [List.forall_mem_append, List.forall_mem_append, capsReads_inside, capsReads_inside]
      constructor
      · rintro ⟨⟨fixed, commonWords⟩, channelWords⟩
        have last : reply.Inside ⟨174, 4⟩ := fixed _ (by decide)
        have last := last.resolve_left (by decide)
        dsimp only at last
        exact ⟨by omega, last, by omega⟩
      · rintro ⟨_, fixed, words⟩
        refine ⟨⟨fun read member => .inr ?_, by omega⟩, by omega⟩
        simp only [List.mem_cons, List.not_mem_nil, or_false] at member
        rcases member with rfl | rfl | rfl | rfl <;> dsimp only <;> omega
    · rw [if_pos isError, List.forall_mem_singleton]
      refine ⟨fun inside => ⟨inside.resolve_left (by decide), fun isOk => absurd isOk isError⟩, fun fits => .inr fits.1⟩

section Message

variable (data : Received) (parses : Nat -> Nat -> Nat -> Bool) (list : Nat)

/-- A walk that is inside so far, with the message held once. -/
def Walk.Fine (walk : Walk) : Prop :=
  (forall read, read ∈ walk.reads -> data.Inside read) ∧ walk.inRefs = 1 ∧ walk.subRefs = 0

theorem subMessage_failed {index : Nat} {walk : Walk}
    (failed : (subMessage data parses list index walk).failed = true) :
    ¬ (subMessage data parses list index walk).Fine data := by
  unfold subMessage at failed ⊢
  dsimp only at failed ⊢
  split at failed
  · contradiction
  · next refused =>
    rw [if_neg refused]
    exact fun fine => Nat.succ_ne_zero _ fine.2.2

/-- A message of the list is handed over as it should be. -/
theorem subMessage_fine (index : Nat) (walk : Walk) :
    (subMessage data parses list index walk).Fine data <-> walk.Fine data ∧ SubFits data parses list index := by
  unfold subMessage
  dsimp only
  split
  · next parsed =>
    unfold Walk.Fine
    dsimp only
    rw [List.forall_mem_append]
    constructor
    · rintro ⟨⟨before, now⟩, refs⟩
      have entry := (now _ List.mem_cons_self).resolve_left (Nat.succ_ne_zero _)
      have header := (now _ (List.mem_cons_of_mem _ List.mem_cons_self)).resolve_left (Nat.succ_ne_zero _)
      have body := now _ (List.mem_cons_of_mem _ (List.mem_cons_of_mem _ List.mem_cons_self))
      unfold Received.Inside at body
      dsimp only at body
      exact ⟨⟨before, refs⟩, entry, header, body, parsed⟩
    · rintro ⟨⟨before, refs⟩, fits⟩
      refine ⟨⟨before, fun read member => ?_⟩, refs⟩
      simp only [List.mem_cons, List.not_mem_nil, or_false] at member
      rcases member with rfl | rfl | rfl
      · exact .inr fits.entry
      · exact .inr fits.header
      · unfold Received.Inside
        dsimp only
        exact fits.body
  · next refused =>
    exact iff_of_false (fun fine => Nat.succ_ne_zero _ fine.2.2) fun both => absurd both.2.parsed refused

/-- The loop ends fine exactly if every sub-message from where it starts on fits. -/
theorem subMessages_fine (count : Nat) : forall (index : Nat) (walk : Walk), walk.failed = false ->
    ((subMessages data parses list count index walk).Fine data <->
      walk.Fine data ∧ forall later, later < count -> SubFits data parses list (index + later)) := by
  induction count with
  | zero => exact fun index walk _ =>
      ⟨fun fine => ⟨fine, fun _ less => absurd less (Nat.not_lt_zero _)⟩, fun both => both.1⟩
  | succ count ih =>
      intro index walk _
      have split : (forall later, later < count + 1 -> SubFits data parses list (index + later)) <->
          SubFits data parses list index ∧ forall later, later < count ->
            SubFits data parses list (index + 1 + later) := by
        constructor
        · exact fun all => ⟨all 0 (Nat.succ_pos _), fun later less => by
            rw [Nat.add_assoc, Nat.add_comm 1]
            exact all (later + 1) (Nat.succ_lt_succ less)⟩
        · rintro ⟨first, others⟩ later less
          cases later with
          | zero => exact first
          | succ later =>
              rw [Nat.add_comm later, <- Nat.add_assoc]
              exact others later (Nat.lt_of_succ_lt_succ less)
      rw [split, <- and_assoc, <- subMessage_fine data parses list index walk]
      unfold subMessages
      dsimp only
      cases failed : (subMessage data parses list index walk).failed with
      | true =>
          have notFine := subMessage_failed data parses list failed
          exact iff_of_false notFine fun both => notFine both.1
      | false => exact ih (index + 1) _ failed

end Message

theorem parseMessage_fine (data : Received) (msgType : Nat) (walk : Walk) :
    (parseMessage data msgType walk).Fine data <-> walk.Fine data := by
  unfold parseMessage
  split
  · exact Iff.rfl
  · unfold Walk.Fine
    rw [List.forall_mem_append, List.forall_mem_singleton]
    exact and_congr_left fun _ => and_iff_left (.inr (Nat.zero_add _).le)

theorem release_sound (data : Received) (walk : Walk) :
    Outcome.Sound data (.done (release walk)) <-> walk.Fine data := by
  unfold Outcome.Sound Walk.Fine release
  dsimp only
  rw [sub_eq_zero]

theorem walkList_fine (data : Received) (parses : Nat -> Nat -> Nat -> Bool) (msgType subList : Nat) :
    (walkList data parses msgType subList).Fine data <-> (msgType = msgList ∨ subList ≠ 0 ->
      subList + 2 ≤ data.size ∧ forall index, index < data.field subList 2 -> SubFits data parses subList index) := by
  unfold walkList
  split
  · next listed =>
    rw [imp_iff_right listed, subMessages_fine data parses subList _ 0 _ rfl]
    simp only [Nat.zero_add, Walk.Fine, List.forall_mem_singleton, and_self, and_true]
    exact and_congr_left fun _ => or_iff_right (Nat.succ_ne_zero 1)
  · next single =>
    exact iff_of_true ⟨fun _ member => absurd member List.not_mem_nil, rfl, rfl⟩ fun listed => absurd listed single

/-- A link reply and a message are read inside of what was received, and messages are released, exactly if both fit. -/
theorem framing_contained_iff (reply data : Received) (parses : Nat -> Nat -> Nat -> Bool) (msgType subList : Nat)
    (completeReply complete : Bool) :
    ((forall read, read ∈ recvLinkMsg reply completeReply -> reply.Inside read) <-> ReplyFits reply completeReply) ∧
      ((recvMsg data parses msgType subList complete).Sound data <->
        MessageFits data parses msgType subList complete) := by
  refine ⟨recvLinkMsg_inside reply completeReply, ?_⟩
  unfold recvMsg MessageFits
  split
  · next large => exact iff_of_false id fun fits => absurd fits.1 (Nat.not_lt_of_le large)
  · next small =>
    rw [and_iff_right (Nat.lt_of_not_le small)]
    cases complete with
    | false =>
        rw [if_pos rfl, release_sound]
        exact iff_of_true ⟨fun _ member => absurd member List.not_mem_nil, rfl, rfl⟩ fun isComplete => by contradiction
    | true =>
        rw [if_neg (by decide), release_sound, parseMessage_fine, walkList_fine, imp_iff_right rfl]

/-- A reply of four bytes, all of them zero. -/
theorem short_reply_read_behind : ¬ forall (reply data : Received) (parses : Nat -> Nat -> Nat -> Bool)
    (msgType subList : Nat)
    (completeReply complete : Bool), (forall read, read ∈ recvLinkMsg reply completeReply -> reply.Inside read) ∧
      (recvMsg data parses msgType subList complete).Sound data := by
  intro all
  have inside := (all ⟨4, fun _ => 0⟩ ⟨4, fun _ => 0⟩ (fun _ _ _ => true) 0 0 true true).1 ⟨170, 4⟩ (by decide)
  exact absurd inside (by decide)

end LinkFraming
end Client
end Spice
