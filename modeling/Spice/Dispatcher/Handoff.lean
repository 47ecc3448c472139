import Spice.Dispatcher.Model

namespace Spice
namespace Dispatcher

open Lib

variable {registry : Registry}

/-!
# Handing messages over

The bytes that the receiver has read of a message, those in the socket, and
those that the holder of the lock has still to write, are together the wire
forms of the messages that were not handed over yet.  Every wire form tells
its own length, so the receiver cuts the stream where the senders did.  While a
message with an acknowledgement is outstanding its sender holds the lock; the
acknowledgement on its way back is therefore the sender's own.
-/

def Sender.locked : Sender registry -> Bool
  | .idle => false
  | .lock _ => false
  | _ => true

/-- What the holder of the lock has still to write. -/
def unsent : Option (Sender registry) -> List UInt8
  | some (.writeType left m) => left ++ m.payload
  | some (.writePayload left _) => left
  | _ => []

/-- What the receiver has still to acknowledge. -/
def unacked : Receiver -> List UInt8
  | .writeAck left => left
  | _ => []

def State.holder (s : State registry) : Option (Sender registry) := s.lock.map s.senders

/-- None of these messages is acknowledged. -/
def NoAck (messages : List (Message registry)) : Prop := forall m, m ∈ messages -> m.acks = false

/-- What the receiver has read of the next message, when `current` is being
handled and `rest` was not read completely. -/
inductive Reads (current rest : List (Message registry)) : Receiver -> List UInt8 -> Prop
  | readType (got : List UInt8) (idle : current = []) (short : got.length < 4) : Reads current rest (.readType got) got
  | readPayload (got : List UInt8) (m : Message registry) (others : List (Message registry)) (idle : current = [])
      (next : rest = m :: others) (within : got.length ≤ m.msg.size) :
      Reads current rest (.readPayload m.type m.msg got) (m.typeBytes ++ got)
  | handling (m : Message registry) (only : current = [m]) : Reads current rest (.handling m.type m.msg m.payload) []
  | writeAck (left : List UInt8) (idle : current = []) (nonempty : left ≠ []) : Reads current rest (.writeAck left) []

/-- Nothing is on its way back. -/
def Quiet (toSender ack : List UInt8) : Prop := toSender = [] ∧ ack = []

/-- Where the holder of the lock is, when `out` are the messages whose handlers
have not completed; `toSender` and `ack` are the acknowledgement on its way. -/
inductive Phase (acquired out : List (Message registry)) (toSender ack : List UInt8) : Option (Sender registry) -> Prop
  | free (quiet : Quiet toSender ack) (noAck : NoAck out) : Phase acquired out toSender ack none
  | writeType (left : List UInt8) (m : Message registry) (before : List (Message registry)) (nonempty : left ≠ [])
      (quiet : Quiet toSender ack) (last : out = before ++ [m]) (noAck : NoAck before) :
      Phase acquired out toSender ack (some (.writeType left m))
  | writePayload (left : List UInt8) (m : Message registry) (before : List (Message registry)) (nonempty : left ≠ [])
      (quiet : Quiet toSender ack) (last : out = before ++ [m]) (noAck : NoAck before) :
      Phase acquired out toSender ack (some (.writePayload left m))
  | waiting (m : Message registry) (before : List (Message registry)) (acks : m.acks = true)
      (quiet : Quiet toSender ack) (last : out = before ++ [m]) (noAck : NoAck before) :
      Phase acquired out toSender ack (some (.readAck [] m))
  | acked (got : List UInt8) (m : Message registry) (acks : m.acks = true) (settled : out = [])
      (last : acquired.getLast? = some m) (short : got.length < 4) (whole : got ++ toSender ++ ack = ackBytes) :
      Phase acquired out toSender ack (some (.readAck got m))
  | unlock (m : Message registry) (quiet : Quiet toSender ack) (noAck : NoAck out)
      (last : acquired.getLast? = some m) (done : m.acks = true -> out = []) :
      Phase acquired out toSender ack (some (.unlock m))

/-- The messages are done, being handled, or on their way. -/
structure View (holder : Option (Sender registry)) (s : State registry) (done current rest : List (Message registry))
    (part : List UInt8) : Prop where
  acquired : s.acquired = done ++ (current ++ rest)
  completed : s.completed = done.map Message.seen
  handled : s.handled = (done ++ current).map Message.seen
  reads : Reads current rest s.receiver part
  stream : rest.flatMap Message.wire = part ++ (s.toReceiver ++ unsent holder)
  phase : Phase s.acquired (current ++ rest) s.toSender (unacked s.receiver) holder

/-- The invariant of the dispatcher. -/
structure Inv (s : State registry) : Prop where
  locks : forall thread, (s.senders thread).locked = true <-> s.lock = some thread
  view : Exists fun done => Exists fun current => Exists fun rest => Exists fun part =>
    View s.holder s done current rest part

theorem length_typeBytes (m : Message registry) : m.typeBytes.length = 4 := length_toLittleEndian 4 m.type

theorem littleEndian_typeBytes (m : Message registry) : littleEndian m.typeBytes = m.type :=
  littleEndian_toLittleEndian 4 m.type (registry.typeFits m.type m.msg m.registered)

variable {part : List UInt8}

theorem Reads.extend {current rest : List (Message registry)} {receiver : Receiver}
    (reads : Reads current rest receiver part) (more : List (Message registry)) :
    Reads current (rest ++ more) receiver part := by
  cases reads with
  | readType _ idle short => exact .readType _ idle short
  | readPayload got m others idle next within =>
      exact .readPayload got m (others ++ more) idle (by rw [next, List.cons_append]) within
  | handling m only => exact .handling m only
  | writeAck left idle nonempty => exact .writeAck left idle nonempty

theorem acks_iff (m : Message registry) : m.acks = true <-> m.msg.ack = .ack := beq_iff_eq

theorem payloadFrom_locked (left : List UInt8) (m : Message registry) : (State.payloadFrom left m).locked = true := by
  unfold State.payloadFrom State.afterPayload
  split
  · split <;> rfl
  · rfl

theorem unsent_payloadFrom (left : List UInt8) (m : Message registry) :
    unsent (some (State.payloadFrom left m)) = left := by
  unfold State.payloadFrom State.afterPayload
  split
  · next empty =>
      rw [empty]
      split <;> rfl
  · rfl

variable {m : Message registry}

/-- Behind the type the holder writes the payload, and then waits for the
acknowledgement or leaves. -/
theorem phase_payloadFrom {acquired out before : List (Message registry)} {toSender ack : List UInt8}
    (left : List UInt8) (quiet : Quiet toSender ack) (last : out = before ++ [m])
    (noAck : NoAck before) (newest : acquired.getLast? = some m) :
    Phase acquired out toSender ack (some (State.payloadFrom left m)) := by
  unfold State.payloadFrom State.afterPayload
  split
  · split
    · next waits => exact .waiting m before ((acks_iff m).mpr waits) quiet last noAck
    · next leaves =>
        have plain : m.acks = false := by
          rw [← Bool.not_eq_true, acks_iff]
          exact leaves
        refine .unlock m quiet ?_ newest (fun acks => ?_)
        · intro other member
          rw [last] at member
          rcases List.mem_append.mp member with earlier | isLast
          · exact noAck other earlier
          · rw [List.mem_singleton.mp isLast]
            exact plain
        · rw [plain] at acks
          cases acks
  · next nonempty => exact .writePayload left m before nonempty quiet last noAck

/-- A message whose handler completes: with an acknowledgement it is the only one
left, and its sender waits; without one, the phase is that of the others. -/
theorem settle {acquired rest : List (Message registry)} {toSender : List UInt8}
    {holder : Option (Sender registry)} (phase : Phase acquired ([m] ++ rest) toSender [] holder)
    (unread : rest = [] -> unsent holder = []) :
    (m.acks = true -> rest = [] ∧ holder = some (.readAck [] m) ∧ Quiet toSender []) ∧
      (m.acks = false -> Phase acquired ([] ++ rest) toSender [] holder) := by
  have first : forall {before : List (Message registry)} {last : Message registry}, [m] ++ rest = before ++ [last] ->
      (rest = [] ∧ last = m) ∨ Exists fun others => before = m :: others ∧ rest = others ++ [last] := by
    intro before last same
    cases before with
    | nil =>
        have split := List.cons.inj same
        exact Or.inl ⟨split.2, split.1.symm⟩
    | cons head others =>
        have split := List.cons.inj same
        exact Or.inr ⟨others, by rw [split.1], split.2⟩
  have member : m ∈ [m] ++ rest := List.mem_append_left _ (List.mem_singleton.mpr rfl)
  cases phase with
  | free quiet noAck =>
      refine ⟨fun acks => ?_, fun _ => .free quiet (fun other isIn => noAck other (List.mem_append_right _ isIn))⟩
      rw [noAck m member] at acks
      cases acks
  | writeType left last before nonempty quiet isLast noAck =>
      rcases first isLast with ⟨none, _⟩ | ⟨others, isBefore, isRest⟩
      · exact absurd (List.append_eq_nil_iff.mp (unread none)).1 nonempty
      · have plain := noAck m (by rw [isBefore]; exact List.mem_cons_self)
        refine ⟨fun acks => ?_, fun _ => .writeType left last others nonempty quiet isRest (fun other isIn => ?_)⟩
        · rw [plain] at acks
          cases acks
        · exact noAck other (by rw [isBefore]; exact List.mem_cons_of_mem _ isIn)
  | writePayload left last before nonempty quiet isLast noAck =>
      rcases first isLast with ⟨none, _⟩ | ⟨others, isBefore, isRest⟩
      · exact absurd (unread none) nonempty
      · have plain := noAck m (by rw [isBefore]; exact List.mem_cons_self)
        refine ⟨fun acks => ?_, fun _ => .writePayload left last others nonempty quiet isRest (fun other isIn => ?_)⟩
        · rw [plain] at acks
          cases acks
        · exact noAck other (by rw [isBefore]; exact List.mem_cons_of_mem _ isIn)
  | waiting last before lastAcks quiet isLast noAck =>
      rcases first isLast with ⟨none, same⟩ | ⟨others, isBefore, isRest⟩
      · subst same
        refine ⟨fun _ => ⟨none, rfl, quiet⟩, fun plain => ?_⟩
        rw [plain] at lastAcks
        cases lastAcks
      · have plain := noAck m (by rw [isBefore]; exact List.mem_cons_self)
        refine ⟨fun acks => ?_, fun _ => .waiting last others lastAcks quiet isRest (fun other isIn => ?_)⟩
        · rw [plain] at acks
          cases acks
        · exact noAck other (by rw [isBefore]; exact List.mem_cons_of_mem _ isIn)
  | acked got last lastAcks settled newest short whole => cases settled
  | unlock last quiet noAck newest settled =>
      refine ⟨fun acks => ?_, fun _ => .unlock last quiet (fun other isIn => noAck other (List.mem_append_right _ isIn))
        newest (fun acks => by cases settled acks)⟩
      rw [noAck m member] at acks
      cases acks

namespace Inv

variable {s next : State registry} {thread : Nat}

theorem of_view {holder : Option (Sender registry)} {done current rest : List (Message registry)}
    (locks : forall thread, (next.senders thread).locked = true <-> next.lock = some thread)
    (isHolder : next.holder = holder) (view : View holder next done current rest part) : Inv next := by
  subst isHolder
  exact ⟨locks, done, current, rest, part, view⟩

theorem holder_eq (inv : Inv s) {sender : Sender registry} (sends : s.senders thread = sender)
    (locked : sender.locked = true) : s.lock = some thread ∧ s.holder = some sender := by
  have isHolder := (inv.locks thread).mp (by rw [sends]; exact locked)
  exact ⟨isHolder, by rw [State.holder, isHolder, Option.map_some, sends]⟩

theorem inside (inv : Inv s) (next : State registry) (sender : Sender registry) (was : s.lock = some thread)
    (still : sender.locked = true)
    (senders : next.senders = Function.update s.senders thread sender) (lock : next.lock = s.lock) :
    (forall other, (next.senders other).locked = true <-> next.lock = some other) ∧ next.holder = some sender := by
  constructor
  · intro other
    rw [senders, lock]
    by_cases same : other = thread
    · subst same
      rw [Function.update_self, still]
      exact ⟨fun _ => was, fun _ => rfl⟩
    · rw [Function.update_of_ne same]
      exact inv.locks other
  · rw [State.holder, lock, was, Option.map_some, senders, Function.update_self]

/-- A sender outside of the lock does what it wants. -/
theorem outside (inv : Inv s) (sender : Sender registry) (was : (s.senders thread).locked = false)
    (still : sender.locked = false) : Inv (s.setSender thread sender) := by
  have notHolder : s.lock ≠ some thread := by
    intro isHolder
    rw [(inv.locks thread).mpr isHolder] at was
    cases was
  have holder : (s.setSender thread sender).holder = s.holder := by
    unfold State.holder State.setSender
    cases isLocked : s.lock with
    | none => rfl
    | some other =>
        have different : other ≠ thread := by
          rintro rfl
          exact notHolder isLocked
        simp only [Option.map_some, Function.update_of_ne different]
  rcases inv.view with ⟨done, current, rest, part, view⟩
  refine of_view (fun other => ?_) holder ⟨view.acquired, view.completed, view.handled, view.reads,
    view.stream, view.phase⟩
  show (Function.update s.senders thread sender other).locked = true <-> s.lock = some other
  by_cases same : other = thread
  · subst same
    rw [Function.update_self, still]
    exact ⟨fun absent => absurd absent Bool.false_ne_true, fun isHolder => absurd isHolder notHolder⟩
  · rw [Function.update_of_ne same]
    exact inv.locks other

/-- A sender takes the lock for its message. -/
theorem lock (inv : Inv s) (m : Message registry) (free : s.lock = none) :
    Inv { s.setSender thread (.writeType m.typeBytes m) with lock := some thread, acquired := s.acquired ++ [m] } := by
  have noHolder : s.holder = none := by rw [State.holder, free, Option.map_none]
  rcases inv.view with ⟨done, current, rest, part, view⟩
  have stream := view.stream
  have phase := view.phase
  rw [noHolder] at stream phase
  have sent : View (some (.writeType m.typeBytes m))
      { s.setSender thread (.writeType m.typeBytes m) with lock := some thread, acquired := s.acquired ++ [m] }
      done current (rest ++ [m]) part := by
    refine ⟨?_, view.completed, view.handled, view.reads.extend [m], ?_, ?_⟩
    · show s.acquired ++ [m] = _
      rw [view.acquired]
      simp only [List.append_assoc]
    · rw [List.flatMap_append, List.flatMap_singleton, stream]
      simp only [unsent, Message.wire, List.append_nil, List.append_assoc, State.setSender]
    · cases phase with
      | free quiet noAck =>
          refine .writeType _ m (current ++ rest) ?_ quiet (by rw [List.append_assoc]) noAck
          intro empty
          have length := length_typeBytes m
          rw [empty] at length
          cases length
  refine of_view (fun other => ?_) ?_ sent
  · show (Function.update s.senders thread _ other).locked = true <-> some thread = some other
    by_cases same : other = thread
    · subst same
      rw [Function.update_self]
      exact ⟨fun _ => rfl, fun _ => rfl⟩
    · rw [Function.update_of_ne same]
      refine ⟨fun locked => ?_, fun isHolder => absurd (Option.some.inj isHolder).symm same⟩
      have isHolder := (inv.locks other).mp locked
      rw [free] at isHolder
      cases isHolder
  · simp only [State.holder, State.setSender, Option.map_some, Function.update_self]

/-- Bytes go from a sender into the pipe. -/
theorem sent (inv : Inv s) {sender : Sender registry} {was : Sender registry} {bytes : List UInt8}
    (sends : s.senders thread = was) (locked : was.locked = true) (still : sender.locked = true)
    (moved : unsent (some was) = bytes ++ unsent (some sender))
    (phase : forall done current rest part, View (some was) s done current rest part ->
      Phase s.acquired (current ++ rest) s.toSender (unacked s.receiver) (some sender)) :
    Inv { s.setSender thread sender with toReceiver := s.toReceiver ++ bytes } := by
  have isHolder := inv.holder_eq sends locked
  rcases inv.view with ⟨done, current, rest, part, view⟩
  rw [isHolder.2] at view
  have kept : View (some sender) { s.setSender thread sender with toReceiver := s.toReceiver ++ bytes }
      done current rest part := by
    refine ⟨view.acquired, view.completed, view.handled, view.reads, ?_, phase done current rest part view⟩
    rw [view.stream, moved]
    simp only [List.append_assoc]
  have goes := inv.inside { s.setSender thread sender with toReceiver := s.toReceiver ++ bytes } sender
    isHolder.1 still rfl rfl
  exact of_view goes.1 goes.2 kept

theorem newest_of_view {holder : Option (Sender registry)} {done current rest before : List (Message registry)}
    (view : View holder s done current rest part)
    (last : current ++ rest = before ++ [m]) : s.acquired.getLast? = some m := by
  rw [view.acquired, last, ← List.append_assoc, List.getLast?_append, List.getLast?_singleton, Option.some_or]

/-- A write of the sender that has the lock. -/
theorem write (inv : Inv s) {count : Nat} (done : s.write thread count = some next) : Inv next := by
  unfold State.write at done
  split at done
  · next left m sends =>
      split at done
      · next within =>
          cases done
          have split := List.take_append_drop count left
          refine inv.sent sends rfl ?_ ?_ ?_
          · split
            · exact payloadFrom_locked _ _
            · rfl
          · split
            · next all =>
                rw [all, List.append_nil] at split
                rw [unsent_payloadFrom, split]
                rfl
            · show left ++ m.payload = left.take count ++ (left.drop count ++ m.payload)
              rw [← List.append_assoc, split]
          · intro done current rest part view
            cases view.phase with
            | writeType _ _ before nonempty quiet last noAck =>
                split
                · exact phase_payloadFrom _ quiet last noAck (newest_of_view view last)
                · next more => exact .writeType _ m before more quiet last noAck
      · cases done
  · next left m sends =>
      split at done
      · next within =>
          cases done
          refine inv.sent sends rfl (payloadFrom_locked _ _) ?_ ?_
          · rw [unsent_payloadFrom]
            exact (List.take_append_drop count left).symm
          · intro done current rest part view
            cases view.phase with
            | writePayload _ _ before nonempty quiet last noAck =>
                exact phase_payloadFrom _ quiet last noAck (newest_of_view view last)
      · cases done
  · cases done

/-- The holder reads a part of its acknowledgement. -/
theorem readAck (inv : Inv s) {count : Nat} (done : s.readAck thread count = some next) : Inv next := by
  unfold State.readAck at done
  split at done
  · next got m sends =>
      split at done
      · next within =>
          cases done
          have isHolder := inv.holder_eq sends rfl
          rcases inv.view with ⟨done, current, rest, part, view⟩
          rw [isHolder.2] at view
          have phase := view.phase
          have nonempty : s.toSender ≠ [] := by
            intro empty
            rw [empty] at within
            exact absurd within.2.1 (Nat.not_le_of_lt within.1)
          have split := List.take_append_drop count s.toSender
          cases phase with
          | waiting _ before acks quiet last noAck => exact absurd quiet.1 nonempty
          | acked _ _ acks settled newest short whole =>
              have length : (got ++ s.toSender.take count).length = got.length + count := by
                rw [List.length_append, List.length_take, Nat.min_eq_left within.2.1]
              have wholeNow : (got ++ s.toSender.take count) ++ s.toSender.drop count ++ unacked s.receiver =
                  ackBytes := by
                rw [List.append_assoc got, split]
                exact whole
              have kept : View (some (if (got ++ s.toSender.take count).length = 4 then Sender.unlock m
                  else .readAck (got ++ s.toSender.take count) m))
                  { s.setSender thread (if (got ++ s.toSender.take count).length = 4 then Sender.unlock m
                    else .readAck (got ++ s.toSender.take count) m) with toSender := s.toSender.drop count }
                  done current rest part := by
                refine ⟨view.acquired, view.completed, view.handled, view.reads, ?_, ?_⟩
                · rw [view.stream]
                  split <;> rfl
                · split
                  · next full =>
                      have quiet : Quiet (s.toSender.drop count) (unacked s.receiver) := by
                        have total := congrArg List.length wholeNow
                        simp only [List.length_append, ackBytes, length_toLittleEndian] at total full
                        exact ⟨List.length_eq_zero_iff.mp (by omega), List.length_eq_zero_iff.mp (by omega)⟩
                      refine .unlock m quiet ?_ newest (fun _ => settled)
                      rw [settled]
                      exact fun other member => absurd member List.not_mem_nil
                  · next more =>
                      exact .acked _ m acks settled newest (by omega) wholeNow
              have goes := inv.inside { s.setSender thread
                (if (got ++ s.toSender.take count).length = 4 then Sender.unlock m
                  else .readAck (got ++ s.toSender.take count) m) with toSender := s.toSender.drop count } _
                isHolder.1 (by split <;> rfl) rfl rfl
              exact of_view goes.1 goes.2 kept
      · cases done
  · cases done

/-- The lock is given back when nothing is left to send. -/
theorem unlock (inv : Inv s) (sends : s.senders thread = .unlock m) :
    Inv { s.setSender thread .idle with lock := none } := by
  have isHolder := inv.holder_eq sends rfl
  rcases inv.view with ⟨done, current, rest, part, view⟩
  rw [isHolder.2] at view
  have free : View none { s.setSender thread .idle with lock := none } done current rest part := by
    refine ⟨view.acquired, view.completed, view.handled, view.reads, view.stream, ?_⟩
    cases view.phase with
    | unlock _ quiet noAck newest settled => exact .free quiet noAck
  refine of_view (fun other => ?_) rfl free
  show (Function.update s.senders thread .idle other).locked = true <-> none = some other
  refine ⟨fun locked => ?_, fun absent => by cases absent⟩
  by_cases same : other = thread
  · subst same
    rw [Function.update_self] at locked
    cases locked
  · rw [Function.update_of_ne same] at locked
    have also := (inv.locks other).mp locked
    rw [isHolder.1] at also
    exact absurd (Option.some.inj also).symm same

theorem received (inv : Inv s) (next : State registry) (senders : next.senders = s.senders) (lock : next.lock = s.lock)
    {done current rest : List (Message registry)} (view : View s.holder next done current rest part) :
    Inv next := by
  refine of_view (fun other => ?_) ?_ view
  · rw [senders, lock]
    exact inv.locks other
  · rw [State.holder, senders, lock, State.holder]

theorem next_message {rest : List (Message registry)} {got tail : List UInt8}
    (stream : rest.flatMap Message.wire = got ++ tail)
    (full : got.length = 4) : Exists fun m => Exists fun others => rest = m :: others ∧ got = m.typeBytes := by
  cases rest with
  | nil =>
      have length := congrArg List.length stream
      simp only [List.flatMap_nil, List.length_nil, List.length_append] at length
      omega
  | cons m others =>
      refine ⟨m, others, rfl, ?_⟩
      rw [List.flatMap_cons, Message.wire, List.append_assoc] at stream
      exact (List.append_inj_left stream (by rw [length_typeBytes, full])).symm

/-- The receiver reads what is in the pipe. -/
theorem read (inv : Inv s) {count : Nat} (done : s.read count = some next) : Inv next := by
  rcases inv.view with ⟨finished, current, rest, part, view⟩
  have reads := view.reads
  have stream := view.stream
  have phase := view.phase
  have split := List.take_append_drop count s.toReceiver
  unfold State.read at done
  split at done
  · next got receives =>
      rw [receives] at reads phase
      split at done
      · next within =>
          cases reads with
          | readType _ idle short =>
              have moved : rest.flatMap Message.wire =
                  (part ++ s.toReceiver.take count) ++ (s.toReceiver.drop count ++ unsent s.holder) := by
                rw [stream, ← List.append_assoc (part ++ _), List.append_assoc part, split, List.append_assoc]
              have length : (part ++ s.toReceiver.take count).length = part.length + count := by
                rw [List.length_append, List.length_take, Nat.min_eq_left within.2.1]
              simp only at done
              split at done
              · next full =>
                  rcases next_message moved full with ⟨m, others, isNext, isType⟩
                  rw [isType, littleEndian_typeBytes, m.registered] at done
                  cases done
                  refine inv.received _ rfl rfl ⟨view.acquired, view.completed, view.handled,
                    .readPayload [] m others idle isNext (Nat.zero_le _), ?_, phase⟩
                  rw [List.append_nil, ← isType]
                  exact moved
              · next more =>
                  cases done
                  exact inv.received _ rfl rfl ⟨view.acquired, view.completed, view.handled,
                    .readType _ idle (by omega), moved, phase⟩
      · cases done
  · next type msg got receives =>
      rw [receives] at reads phase
      split at done
      · next within =>
          cases done
          cases reads with
          | readPayload _ m others idle isNext bound =>
              refine inv.received _ rfl rfl ⟨view.acquired, view.completed, view.handled,
                .readPayload _ m others idle isNext ?_, ?_, phase⟩
              · rw [List.length_append, List.length_take, Nat.min_eq_left within.2.1]
                omega
              · rw [stream]
                show _ = m.typeBytes ++ (got ++ s.toReceiver.take count) ++ (s.toReceiver.drop count ++ unsent s.holder)
                conv =>
                  lhs
                  rw [← split]
                simp only [List.append_assoc]
      · cases done
  · cases done

/-- A message is handled when it was read whole. -/
theorem handle (inv : Inv s) {type : Nat} {msg : DispatcherMessage} {got : List UInt8}
    (receives : s.receiver = .readPayload type msg got) (full : got.length = msg.size) :
    Inv { s with receiver := .handling type msg got, handled := s.handled ++ [(type, got)] } := by
  rcases inv.view with ⟨finished, current, rest, part, view⟩
  have reads := view.reads
  have phase := view.phase
  rw [receives] at reads phase
  cases reads with
  | readPayload _ m others idle isNext bound =>
      have stream := view.stream
      rw [isNext, List.flatMap_cons, Message.wire, List.append_assoc, List.append_assoc] at stream
      have behind := List.append_cancel_left stream
      have payload : m.payload = got := List.append_inj_left behind (by rw [m.length, full])
      subst payload
      have left := List.append_cancel_left behind
      have out : [m] ++ others = current ++ rest := by rw [idle, isNext, List.nil_append, List.singleton_append]
      have kept : View s.holder
          { s with receiver := .handling m.type m.msg m.payload, handled := s.handled ++ [(m.type, m.payload)] }
          finished [m] others [] := by
        refine ⟨?_, view.completed, ?_, .handling m rfl, left, ?_⟩
        · rw [out]
          exact view.acquired
        · show s.handled ++ [m.seen] = _
          rw [view.handled, idle, List.append_nil, List.map_append, List.map_singleton]
        · rw [out]
          exact phase
      exact inv.received _ rfl rfl kept

/-- The acknowledgement of a message goes to its own sender. -/
theorem handled (inv : Inv s) {type : Nat} {msg : DispatcherMessage} {payload : List UInt8}
    (receives : s.receiver = .handling type msg payload) :
    Inv { s with
      receiver := if msg.ack = .ack then .writeAck ackBytes else .readType []
      completed := s.completed ++ [(type, payload)] } := by
  rcases inv.view with ⟨finished, current, rest, part, view⟩
  have reads := view.reads
  have phase := view.phase
  rw [receives] at reads phase
  cases reads with
  | handling m only =>
      rw [only] at phase
      have acquired : s.acquired = (finished ++ [m]) ++ ([] ++ rest) := by
        rw [view.acquired, only]
        simp only [List.append_assoc, List.nil_append]
      have completed : s.completed ++ [m.seen] = (finished ++ [m]).map Message.seen := by
        rw [view.completed, List.map_append, List.map_singleton]
      have handled : s.handled = (finished ++ [m] ++ []).map Message.seen := by
        rw [view.handled, only, List.append_nil]
      have unread : rest = [] -> unsent s.holder = [] := by
        intro none
        have stream := view.stream
        rw [none, List.flatMap_nil] at stream
        exact (List.append_eq_nil_iff.mp (List.append_eq_nil_iff.mp stream.symm).2).2
      have settles := settle phase unread
      refine inv.received _ rfl rfl ⟨acquired, completed, handled, ?_, view.stream, ?_⟩
      · show Reads [] rest (if m.msg.ack = .ack then .writeAck ackBytes else .readType []) []
        split
        · exact .writeAck _ rfl (by decide)
        · exact .readType _ rfl (by decide)
      · show Phase s.acquired _ s.toSender (unacked (if m.msg.ack = .ack then .writeAck ackBytes else .readType [])) _
        split
        · next acks =>
            rcases settles.1 ((acks_iff m).mpr acks) with ⟨none, waits, quiet⟩
            have isOnly : current ++ rest = [] ++ [m] := by rw [only, none]; rfl
            have newest : s.acquired.getLast? = some m := newest_of_view view isOnly
            rw [waits, none]
            refine .acked [] m ((acks_iff m).mpr acks) rfl newest (by decide) ?_
            rw [quiet.1]
            rfl
        · next plain =>
            have isPlain : m.acks = false := by
              rw [← Bool.not_eq_true, acks_iff]
              exact plain
            exact settles.2 isPlain

/-- The receiver acknowledges. -/
theorem writeAck (inv : Inv s) {left : List UInt8} (count : Nat) (receives : s.receiver = .writeAck left) :
    Inv { s with
      receiver := if left.drop count = [] then .readType [] else .writeAck (left.drop count)
      toSender := s.toSender ++ left.take count } := by
  rcases inv.view with ⟨finished, current, rest, part, view⟩
  have reads := view.reads
  have phase := view.phase
  have split := List.take_append_drop count left
  rw [receives] at reads phase
  have pending : unacked (if left.drop count = [] then .readType [] else .writeAck (left.drop count)) =
      left.drop count := by
    split
    · next all => rw [all]; rfl
    · rfl
  cases reads with
  | writeAck _ idle nonempty =>
      refine inv.received _ rfl rfl ⟨view.acquired, view.completed, view.handled, ?_, view.stream, ?_⟩
      · show Reads current rest (if left.drop count = [] then .readType [] else .writeAck (left.drop count)) []
        split
        · exact .readType _ idle (by decide)
        · next more => exact .writeAck _ idle more
      · show Phase s.acquired _ _ (unacked (if left.drop count = [] then .readType []
          else .writeAck (left.drop count))) _
        rw [pending]
        -- an acknowledgement on its way: the holder waits for it
        generalize s.holder = holder at phase
        cases phase with
        | free quiet noAck => exact absurd quiet.2 nonempty
        | writeType _ _ before _ quiet last noAck => exact absurd quiet.2 nonempty
        | writePayload _ _ before _ quiet last noAck => exact absurd quiet.2 nonempty
        | waiting _ before acks quiet last noAck => exact absurd quiet.2 nonempty
        | acked got m acks settled newest short whole =>
            refine .acked got m acks settled newest short ?_
            rw [← whole]
            simp only [unacked, List.append_assoc, split]
        | unlock _ quiet noAck newest settled => exact absurd quiet.2 nonempty

/-- Every step of a sender or of the receiver keeps the invariant. -/
theorem step (inv : Inv s) {op : Op registry} (done : s.step op = some next) : Inv next := by
  cases op with
  | call thread m =>
      simp only [State.step] at done
      split at done
      · next idle =>
          cases done
          exact inv.outside _ (by rw [idle]; rfl) rfl
      · cases done
  | lock thread =>
      simp only [State.step] at done
      split at done
      · next m wants free =>
          cases done
          exact inv.lock m free
      · cases done
  | write thread count => exact inv.write done
  | readAck thread count => exact inv.readAck done
  | unlock thread =>
      simp only [State.step] at done
      split at done
      · next m sends =>
          cases done
          exact inv.unlock sends
      · cases done
  | read count => exact inv.read done
  | handle =>
      simp only [State.step] at done
      split at done
      · next type msg got receives =>
          split at done
          · next full =>
              cases done
              exact inv.handle receives full
          · cases done
      · cases done
  | handled =>
      simp only [State.step] at done
      split at done
      · next type msg payload receives =>
          cases done
          exact inv.handled receives
      · cases done
  | writeAck count =>
      simp only [State.step] at done
      split at done
      · next left receives =>
          split at done
          · cases done
            exact inv.writeAck count receives
          · cases done
      · cases done

theorem init : Inv (State.init registry) where
  locks := fun _ => ⟨fun absent => (by cases absent), fun absent => (by cases absent)⟩
  view := ⟨[], [], [], [], rfl, rfl, rfl, .readType [] rfl (by decide), rfl,
    .free ⟨rfl, rfl⟩ (fun _ member => absurd member List.not_mem_nil)⟩

theorem of_run {ops : List (Op registry)} (ran : run State.step (State.init registry) ops = some s) : Inv s :=
  run_invariant (fun _ _ _ _ inv done => step inv done) ops [] _ s init ran

end Inv

/-- The steps of the functions already called, other than acquiring the lock. -/
def Op.goesOn : Op registry -> Bool
  | .call _ _ => false
  | .lock _ => false
  | _ => true

/-- What the holder of the lock has to do once everything is written. -/
def senderWork : Option (Sender registry) -> Nat
  | some (.writeType _ _) => 6
  | some (.writePayload _ _) => 6
  | some (.readAck got _) => 1 + (4 - got.length)
  | some (.unlock _) => 1
  | _ => 0

/-- What the receiver has to do once the handler was started. -/
def receiverWork : Receiver -> Nat
  | .handling _ _ _ => 5
  | .writeAck left => left.length
  | _ => 0

/-- A bound on the steps to come. -/
def State.work (s : State registry) : Nat :=
  2 * (unsent s.holder).length + s.toReceiver.length + senderWork s.holder + receiverWork s.receiver +
    6 * (s.acquired.length - s.handled.length)

theorem senderWork_payloadFrom (left : List UInt8) (m : Message registry) :
    senderWork (some (State.payloadFrom left m)) ≤ 6 := by
  unfold State.payloadFrom State.afterPayload
  split
  · split
    · exact Nat.le_succ 5
    · exact Nat.le_of_ble_eq_true rfl
  · exact Nat.le_refl 6

/-- Going on takes no new message. -/
theorem acquired_eq {s next : State registry} {op : Op registry} (goesOn : op.goesOn = true)
    (done : s.step op = some next) : next.acquired = s.acquired := by
  cases op with
  | call thread m => cases goesOn
  | lock thread => cases goesOn
  | write thread count =>
      simp only [State.step, State.write] at done
      split at done
      · split at done
        · cases done
          rfl
        · cases done
      · split at done
        · cases done
          rfl
        · cases done
      · cases done
  | readAck thread count =>
      simp only [State.step, State.readAck] at done
      split at done
      · split at done
        · cases done
          rfl
        · cases done
      · cases done
  | unlock thread =>
      simp only [State.step] at done
      split at done
      · cases done
        rfl
      · cases done
  | read count =>
      simp only [State.step, State.read] at done
      split at done
      · split at done
        · split at done
          · rcases Option.map_eq_some_iff.mp done with ⟨msg, _, result⟩
            rw [← result]
          · cases done
            rfl
        · cases done
      · split at done
        · cases done
          rfl
        · cases done
      · cases done
  | handle =>
      simp only [State.step] at done
      split at done
      · split at done
        · cases done
          rfl
        · cases done
      · cases done
  | handled =>
      simp only [State.step] at done
      split at done
      · cases done
        rfl
      · cases done
  | writeAck count =>
      simp only [State.step] at done
      split at done
      · split at done
        · cases done
          rfl
        · cases done
      · cases done

namespace Inv

variable {s next : State registry} {thread : Nat}

theorem work_sent (inv : Inv s) {was sender : Sender registry} {bytes : List UInt8} (sends : s.senders thread = was)
    (locked : was.locked = true) (still : sender.locked = true)
    (moved : unsent (some was) = bytes ++ unsent (some sender))
    (positive : 0 < bytes.length) (less : senderWork (some sender) ≤ senderWork (some was)) :
    State.work { s.setSender thread sender with toReceiver := s.toReceiver ++ bytes } < s.work := by
  have isHolder := inv.holder_eq sends locked
  have goes := inv.inside { s.setSender thread sender with
      toReceiver := s.toReceiver ++ bytes } sender isHolder.1 still rfl rfl
  have length := congrArg List.length moved
  unfold State.work
  rw [goes.2, isHolder.2]
  simp only [State.setSender, List.length_append] at length ⊢
  omega

/-- A write leaves less to do. -/
theorem work_write (inv : Inv s) {count : Nat} (done : s.write thread count = some next) : next.work < s.work := by
  unfold State.write at done
  split at done
  · next left m sends =>
      split at done
      · next within =>
          cases done
          have split := List.take_append_drop count left
          have positive : 0 < (left.take count).length := by
            rw [List.length_take, Nat.min_eq_left within.2]
            exact within.1
          by_cases all : left.drop count = []
          · rw [if_pos all]
            rw [all, List.append_nil] at split
            refine inv.work_sent sends rfl (payloadFrom_locked _ _) ?_ positive (senderWork_payloadFrom _ _)
            rw [unsent_payloadFrom, split]
            rfl
          · rw [if_neg all]
            refine inv.work_sent sends rfl rfl ?_ positive (Nat.le_refl _)
            show left ++ m.payload = left.take count ++ (left.drop count ++ m.payload)
            rw [← List.append_assoc, split]
      · cases done
  · next left m sends =>
      split at done
      · next within =>
          cases done
          have positive : 0 < (left.take count).length := by
            rw [List.length_take, Nat.min_eq_left within.2]
            exact within.1
          refine inv.work_sent sends rfl (payloadFrom_locked _ _) ?_ positive (senderWork_payloadFrom _ _)
          rw [unsent_payloadFrom]
          exact (List.take_append_drop count left).symm
      · cases done
  · cases done

theorem work_readAck (inv : Inv s) {count : Nat} (done : s.readAck thread count = some next) : next.work < s.work := by
  unfold State.readAck at done
  split at done
  · next got m sends =>
      split at done
      · next within =>
          cases done
          have isHolder := inv.holder_eq sends rfl
          have length : (got ++ s.toSender.take count).length = got.length + count := by
            rw [List.length_append, List.length_take, Nat.min_eq_left within.2.1]
          simp only
          split
          · next full =>
              have goes := inv.inside { s.setSender thread (.unlock m) with toSender := s.toSender.drop count } _
                isHolder.1 rfl rfl rfl
              unfold State.work
              rw [goes.2, isHolder.2]
              simp only [State.setSender, unsent, senderWork]
              omega
          · next more =>
              have goes := inv.inside { s.setSender thread (.readAck (got ++ s.toSender.take count) m) with
                toSender := s.toSender.drop count } _ isHolder.1 rfl rfl rfl
              unfold State.work
              rw [goes.2, isHolder.2]
              simp only [State.setSender, unsent, senderWork]
              omega
      · cases done
  · cases done

theorem work_unlock (inv : Inv s) (sends : s.senders thread = .unlock m) :
    State.work { s.setSender thread .idle with lock := none } < s.work := by
  have isHolder := inv.holder_eq sends rfl
  unfold State.work
  rw [isHolder.2]
  simp only [State.holder, State.setSender, Option.map_none, unsent, senderWork]
  omega

/-- A read leaves less to do. -/
theorem work_read {count : Nat} (done : s.read count = some next) : next.work < s.work := by
  unfold State.read at done
  split at done
  · next got receives =>
      split at done
      · next within =>
          simp only at done
          split at done
          · rcases Option.map_eq_some_iff.mp done with ⟨msg, _, result⟩
            rw [← result]
            simp only [State.work, State.holder, receives, receiverWork, List.length_drop]
            omega
          · cases done
            simp only [State.work, State.holder, receives, receiverWork, List.length_drop]
            omega
      · cases done
  · next type msg got receives =>
      split at done
      · next within =>
          cases done
          simp only [State.work, State.holder, receives, receiverWork, List.length_drop]
          omega
      · cases done
  · cases done

/-- The handling of a message leaves less to do. -/
theorem work_handle (inv : Inv s) {type : Nat} {msg : DispatcherMessage} {got : List UInt8}
    (receives : s.receiver = .readPayload type msg got) :
    State.work { s with receiver := .handling type msg got, handled := s.handled ++ [(type, got)] } < s.work := by
  rcases inv.view with ⟨finished, current, rest, part, view⟩
  have reads := view.reads
  rw [receives] at reads
  have acquired := congrArg List.length view.acquired
  have handled := congrArg List.length view.handled
  cases reads with
  | readPayload _ m others idle isNext bound =>
      rw [isNext, idle] at acquired
      rw [idle] at handled
      simp only [List.nil_append, List.append_nil, List.length_append, List.length_cons,
        List.length_map] at acquired handled
      simp only [State.work, State.holder, receives, receiverWork, List.length_append, List.length_singleton]
      omega

/-- Every step of the functions already called leaves less to do. -/
theorem work_lt (inv : Inv s) {op : Op registry} (goesOn : op.goesOn = true) (done : s.step op = some next) :
    next.work < s.work := by
  cases op with
  | call thread m => cases goesOn
  | lock thread => cases goesOn
  | write thread count => exact inv.work_write done
  | readAck thread count => exact inv.work_readAck done
  | unlock thread =>
      simp only [State.step] at done
      split at done
      · next m sends =>
          cases done
          exact inv.work_unlock sends
      · cases done
  | read count => exact work_read done
  | handle =>
      simp only [State.step] at done
      split at done
      · next type msg got receives =>
          split at done
          · cases done
            exact inv.work_handle receives
          · cases done
      · cases done
  | handled =>
      simp only [State.step] at done
      split at done
      · next type msg payload receives =>
          cases done
          simp only [State.work, State.holder, receives]
          split <;> simp only [receiverWork, ackBytes, length_toLittleEndian] <;> omega
      · cases done
  | writeAck count =>
      simp only [State.step] at done
      split at done
      · next left receives =>
          split at done
          · next within =>
              cases done
              simp only [State.work, State.holder, receives]
              split
              · simp only [receiverWork]
                omega
              · simp only [receiverWork, List.length_drop]
                omega
          · cases done
      · cases done

/-- Where nothing goes on, nothing is left to send. -/
theorem unsent_of_stuck (inv : Inv s) (stuck : forall op : Op registry, op.goesOn = true -> s.step op = none) :
    unsent s.holder = [] := by
  rcases inv.view with ⟨finished, current, rest, part, view⟩
  have phase := view.phase
  cases isLocked : s.lock with
  | none =>
      rw [State.holder, isLocked, Option.map_none]
      rfl
  | some thread =>
      have isHolder : s.holder = some (s.senders thread) := by rw [State.holder, isLocked, Option.map_some]
      rw [isHolder] at phase ⊢
      have writes := stuck (.write thread 1) rfl
      cases sends : s.senders thread with
      | idle => rfl
      | lock m => rfl
      | writeType left m =>
          rw [sends] at phase
          cases phase with
          | writeType _ _ before nonempty quiet last noAck =>
              simp only [State.step, State.write, sends] at writes
              rw [if_pos ⟨Nat.one_pos, List.length_pos_iff.mpr nonempty⟩] at writes
              cases writes
      | writePayload left m =>
          rw [sends] at phase
          cases phase with
          | writePayload _ _ before nonempty quiet last noAck =>
              simp only [State.step, State.write, sends] at writes
              rw [if_pos ⟨Nat.one_pos, List.length_pos_iff.mpr nonempty⟩] at writes
              cases writes
      | readAck got m => rfl
      | unlock m => rfl

/-- When no function can go on, the receiver has read and handled everything. -/
theorem read_of_stuck (inv : Inv s) (stuck : forall op : Op registry, op.goesOn = true -> s.step op = none)
    {finished current rest : List (Message registry)} (view : View s.holder s finished current rest part) :
    current = [] ∧ rest = [] ∧ unacked s.receiver = [] := by
  have reads := view.reads
  have stream := view.stream
  rw [inv.unsent_of_stuck stuck, List.append_nil] at stream
  have handles := stuck .handle rfl
  have handled := stuck .handled rfl
  have acks := stuck (.writeAck 1) rfl
  have readsOne := stuck (.read 1) rfl
  cases receives : s.receiver with
  | readType got =>
      rw [receives] at reads
      cases reads with
      | readType _ idle short =>
          have nothing : s.toReceiver = [] := by
            by_contra some
            simp only [State.step, State.read, receives] at readsOne
            rw [if_pos ⟨Nat.one_pos, List.length_pos_iff.mpr some, by omega⟩] at readsOne
            split at readsOne
            · next full =>
                -- the type is complete, and it is a registered one
                have moved : rest.flatMap Message.wire = (part ++ s.toReceiver.take 1) ++ s.toReceiver.drop 1 := by
                  rw [stream, List.append_assoc, List.take_append_drop]
                rcases next_message moved full with ⟨m, others, _, isType⟩
                rw [isType, littleEndian_typeBytes, m.registered] at readsOne
                cases readsOne
            · cases readsOne
          refine ⟨idle, ?_, rfl⟩
          rw [nothing, List.append_nil] at stream
          cases rest with
          | nil => rfl
          | cons m others =>
              have length := congrArg List.length stream
              simp only [List.flatMap_cons, Message.wire, List.length_append, length_typeBytes] at length
              omega
  | readPayload type msg got =>
      rw [receives] at reads
      cases reads with
      | readPayload _ m others idle isNext bound =>
          exfalso
          simp only [State.step, receives] at handles
          by_cases full : got.length = m.msg.size
          · rw [if_pos full] at handles
            cases handles
          · have length := congrArg List.length stream
            rw [isNext] at length
            simp only [List.flatMap_cons, Message.wire, List.length_append, length_typeBytes, m.length] at length
            simp only [State.step, State.read, receives] at readsOne
            rw [if_pos ⟨Nat.one_pos, by omega, by omega⟩] at readsOne
            cases readsOne
  | handling type msg payload =>
      simp only [State.step, receives] at handled
      cases handled
  | writeAck left =>
      rw [receives] at reads
      cases reads with
      | writeAck _ idle nonempty =>
          simp only [State.step, receives] at acks
          rw [if_pos ⟨Nat.one_pos, List.length_pos_iff.mpr nonempty⟩] at acks
          cases acks

/-- Where nothing goes on, every message that got the lock was handled. -/
theorem settled (inv : Inv s) (stuck : forall op : Op registry, op.goesOn = true -> s.step op = none) :
    s.lock = none ∧ s.handled = s.acquired.map Message.seen ∧ s.completed = s.acquired.map Message.seen := by
  rcases inv.view with ⟨finished, current, rest, part, view⟩
  rcases inv.read_of_stuck stuck view with ⟨idle, none, noAck⟩
  have acquired : s.acquired = finished := by
    rw [view.acquired, idle, none, List.nil_append, List.append_nil]
  refine ⟨?_, ?_, ?_⟩
  · have phase := view.phase
    rw [idle, none, List.nil_append, noAck] at phase
    cases isLocked : s.lock with
    | none => rfl
    | some thread =>
        exfalso
        have isHolder : s.holder = some (s.senders thread) := by rw [State.holder, isLocked, Option.map_some]
        have reads := stuck (.readAck thread 1) rfl
        have leaves := stuck (.unlock thread) rfl
        rw [isHolder] at phase
        generalize sends : s.senders thread = sender at phase
        cases phase with
        | writeType _ _ before nonempty quiet last others => cases before <;> cases last
        | writePayload _ _ before nonempty quiet last others => cases before <;> cases last
        | waiting _ before acks quiet last others => cases before <;> cases last
        | acked got m acks settled newest short whole =>
            have length := congrArg List.length whole
            simp only [List.append_nil, List.length_append, ackBytes, length_toLittleEndian] at length
            simp only [State.step, State.readAck, sends] at reads
            rw [if_pos ⟨Nat.one_pos, by omega, by omega⟩] at reads
            cases reads
        | unlock m quiet others newest settled =>
            simp only [State.step, sends] at leaves
            cases leaves
  · rw [view.handled, idle, List.append_nil, acquired]
  · rw [view.completed, acquired]

theorem acknowledged (inv : Inv s) (sends : s.senders thread = .unlock m) (acks : m.acks = true) :
    s.completed = s.acquired.map Message.seen ∧ s.acquired.getLast? = some m := by
  have isHolder := inv.holder_eq sends rfl
  rcases inv.view with ⟨finished, current, rest, part, view⟩
  have phase := view.phase
  rw [isHolder.2] at phase
  cases phase with
  | unlock _ quiet noAck newest settled =>
      refine ⟨?_, newest⟩
      rw [view.completed, view.acquired, settled acks, List.append_nil]

theorem in_order (inv : Inv s) : s.handled <+: s.acquired.map Message.seen ∧ s.completed <+: s.handled := by
  rcases inv.view with ⟨finished, current, rest, part, view⟩
  constructor
  · refine ⟨rest.map Message.seen, ?_⟩
    rw [view.handled, view.acquired, ← List.map_append, List.append_assoc]
  · refine ⟨current.map Message.seen, ?_⟩
    rw [view.completed, view.handled, List.map_append]

/-- Going on ends after as many steps as there is work. -/
theorem bounded {more : List (Op registry)} {last : State registry} (inv : Inv s)
    (goesOn : forall op, op ∈ more -> op.goesOn = true) (ran : run State.step s more = some last) :
    more.length ≤ s.work ∧ Inv last ∧ last.acquired = s.acquired := by
  induction more generalizing s with
  | nil =>
      cases ran
      exact ⟨Nat.zero_le _, inv, rfl⟩
  | cons op rest ih =>
      rcases (run_cons_eq_some State.step).mp ran with ⟨next, stepped, ranRest⟩
      have isOn := goesOn op List.mem_cons_self
      have less := inv.work_lt isOn stepped
      rcases ih (inv.step stepped) (fun other member => goesOn other (List.mem_cons_of_mem _ member)) ranRest with
        ⟨length, kept, same⟩
      refine ⟨?_, kept, same.trans (acquired_eq isOn stepped)⟩
      rw [List.length_cons]
      omega

end Inv

/-- The receiver runs the handlers of the messages in the order in which their
senders acquired the lock, each with the payload its sender wrote.  Once no
further thread acquires the lock the functions in progress come to an end after
a bounded number of steps, in any order, and then every handler has run once.
A sender that waits for an acknowledgement returns after its handler completed. -/
theorem dispatcher_handoff (registry : Registry) (ops : List (Op registry)) (s : State registry)
    (ran : run State.step (State.init registry) ops = some s) :
    (s.handled <+: s.acquired.map Message.seen ∧ s.completed <+: s.handled) ∧
      (forall thread m, s.senders thread = .unlock m -> m.acks = true ->
        s.completed = s.acquired.map Message.seen ∧ s.acquired.getLast? = some m) ∧
      Exists fun bound => forall more last, (forall op, op ∈ more -> op.goesOn = true) ->
        run State.step s more = some last -> more.length ≤ bound ∧
          ((forall op : Op registry, op.goesOn = true -> last.step op = none) ->
            last.lock = none ∧ last.handled = s.acquired.map Message.seen) := by
  have inv := Inv.of_run ran
  refine ⟨inv.in_order, fun _ _ sends acks => inv.acknowledged sends acks, s.work, ?_⟩
  intro more last goesOn ranMore
  rcases inv.bounded goesOn ranMore with ⟨length, kept, same⟩
  refine ⟨length, fun stuck => ?_⟩
  rcases kept.settled stuck with ⟨free, handled, _⟩
  rw [same] at handled
  exact ⟨free, handled⟩

/-- One type with a payload of two bytes and an acknowledgement. -/
def oneType : Registry where
  messages := fun type => if type = 7 then some ⟨2, .ack⟩ else none
  typeFits := by
    intro type msg registered
    split at registered
    · next same =>
        rw [same]
        decide
    · cases registered

def greeting : Message oneType := ⟨7, [1, 2], ⟨2, .ack⟩, rfl, rfl⟩

/-- Two threads; the first sends in pieces and gets its acknowledgement. -/
def twoThreads : List (Op oneType) :=
  [.call 0 greeting, .call 1 greeting, .lock 1, .write 1 3, .read 2, .write 1 1, .read 2, .write 1 2, .read 1, .read 1,
    .handle, .handled, .writeAck 3, .readAck 1 2, .writeAck 1, .readAck 1 2]

theorem dispatcher_handoff_two_threads :
    Exists fun s => run State.step (State.init oneType) twoThreads = some s ∧ s.handled = [(7, [1, 2])] ∧
      s.handled <+: s.acquired.map Message.seen := by
  have final : (run State.step (State.init oneType) twoThreads).map (fun s => s.handled) = some [(7, [1, 2])] :=
    by decide
  rcases Option.map_eq_some_iff.mp final with ⟨s, ran, handled⟩
  exact ⟨s, ran, handled, (dispatcher_handoff oneType twoThreads s ran).1.1⟩

end Dispatcher
end Spice
