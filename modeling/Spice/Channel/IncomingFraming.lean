import Spice.Channel.Incoming

namespace Spice
namespace Channel

open Lib

variable {Parsed : Type}

/-!
# Incoming messages do not depend on the reads

The handler holds the part of the current message that arrived.  These bytes
followed by those still in the socket, parsed at once, always give the calls
that are still to come; a call of `red_peer_handle_incoming` moves bytes from
the socket to the handler and makes some of these calls.
-/

/-- How often the socket has no data before the listed reads are used up. -/
def pauses : List Read -> Nat
  | [] => 0
  | .again :: rest => pauses rest + 1
  | _ :: rest => pauses rest

/-- Bytes were read from the socket. -/
structure Received (reads : List Read) (size : Nat) (bytes : List UInt8) (rest : List Read) : Prop where
  content : streamBytes reads = bytes ++ streamBytes rest
  closes : streamCloses reads = streamCloses rest
  count : byteCount reads = bytes.length + byteCount rest
  within : bytes.length ≤ size
  pauses : pauses rest ≤ pauses reads
  short : bytes.length < size -> rest = [] ∨ Channel.pauses rest < Channel.pauses reads

/-- The bytes are there after some reads. -/
theorem receiveLoop_received (reads : List Read) (size : Nat) {bytes : List UInt8} {left : List Read}
    (received : receiveLoop reads size = (some bytes, left)) : Received reads size bytes left := by
  induction reads, size using receiveLoop.induct generalizing bytes left with
  | case1 reads =>
      simp only [receiveLoop, Prod.mk.injEq, Option.some.injEq] at received
      obtain ⟨rfl, rfl⟩ := received
      exact ⟨rfl, rfl, (Nat.zero_add _).symm, Nat.le_refl _, Nat.le_refl _, fun short => absurd short (Nat.lt_irrefl 0)⟩
  | case2 size =>
      simp only [receiveLoop, Prod.mk.injEq, Option.some.injEq] at received
      obtain ⟨rfl, rfl⟩ := received
      exact ⟨rfl, rfl, rfl, Nat.zero_le _, Nat.le_refl _, fun _ => Or.inl rfl⟩
  | case3 rest size =>
      simp only [receiveLoop, Prod.mk.injEq, Option.some.injEq] at received
      obtain ⟨rfl, rfl⟩ := received
      exact ⟨rfl, rfl, (Nat.zero_add _).symm, Nat.zero_le _, Nat.le_succ _, fun _ => Or.inr (Nat.lt_succ_self _)⟩
  | case4 rest size ih =>
      have kept := ih (by simpa only [receiveLoop] using received)
      exact ⟨kept.content, kept.closes, kept.count, kept.within, kept.pauses, kept.short⟩
  | case5 rest size => simp [receiveLoop] at received
  | case6 rest size => simp [receiveLoop] at received
  | case7 head tail rest size fits ih =>
      rcases brought : receiveLoop rest (size - tail.length) with ⟨got, others⟩
      rw [receiveLoop, fits] at received
      simp only [brought, Prod.mk.injEq, Option.map_eq_some_iff] at received
      obtain ⟨⟨more, rfl, rfl⟩, rfl⟩ := received
      have short : tail.length ≤ size := List.drop_eq_nil_iff.mp fits
      have kept := ih brought
      refine ⟨?_, kept.closes, ?_, ?_, kept.pauses, ?_⟩
      · simp only [streamBytes, List.cons_append, List.append_assoc, kept.content]
      · have count := kept.count
        simp only [byteCount, List.length_cons, List.length_append] at count ⊢
        omega
      · have within := kept.within
        simp only [List.length_cons, List.length_append]
        omega
      · intro fewer
        refine kept.short ?_
        simp only [List.length_cons, List.length_append] at fewer
        omega
  | case8 head tail rest size next others dropped =>
      rw [receiveLoop, dropped] at received
      simp only [Prod.mk.injEq, Option.some.injEq] at received
      obtain ⟨rfl, rfl⟩ := received
      have split : tail.take size ++ next :: others = tail := by
        rw [← dropped]
        exact List.take_append_drop size tail
      have length : (tail.take size).length = size := by
        have whole := congrArg List.length dropped
        simp only [List.length_drop, List.length_cons] at whole
        rw [List.length_take]
        omega
      refine ⟨?_, rfl, ?_, ?_, Nat.le_refl _, ?_⟩
      · show head :: (tail ++ streamBytes rest) = head :: (tail.take size ++ ((next :: others) ++ streamBytes rest))
        rw [← List.append_assoc, split]
      · have whole := congrArg List.length split
        simp only [List.length_append, List.length_cons] at whole
        simp only [byteCount, List.length_cons] at whole ⊢
        omega
      · exact Nat.le_of_eq (by rw [List.length_cons, length])
      · intro fewer
        rw [List.length_cons, length] at fewer
        exact absurd fewer (Nat.lt_irrefl _)

/-- The stream closes before they are there. -/
theorem receiveLoop_failed (reads : List Read) (size : Nat) {rest : List Read}
    (received : receiveLoop reads size = (none, rest)) :
    streamCloses reads = true ∧ (streamBytes reads).length < size := by
  induction reads, size using receiveLoop.induct generalizing rest with
  | case1 reads => simp [receiveLoop] at received
  | case2 size => simp [receiveLoop] at received
  | case3 rest size => simp [receiveLoop] at received
  | case4 rest size ih => exact ih (by simpa only [receiveLoop] using received)
  | case5 rest size => exact ⟨rfl, Nat.succ_pos size⟩
  | case6 rest size => exact ⟨rfl, Nat.succ_pos size⟩
  | case7 head tail rest size fits ih =>
      rw [receiveLoop, fits] at received
      simp only [Prod.mk.injEq, Option.map_eq_none_iff] at received
      have short : tail.length ≤ size := List.drop_eq_nil_iff.mp fits
      have failed := ih (Prod.ext received.1 rfl)
      refine ⟨failed.1, ?_⟩
      simp only [streamBytes, List.length_cons, List.length_append]
      omega
  | case8 head tail rest size next others dropped =>
      rw [receiveLoop, dropped] at received
      simp at received

theorem toInt_ne {count : Nat} (small : count < 2 ^ 32 - 1) : toInt count ≠ -1 := by
  unfold toInt
  rw [Nat.mod_eq_of_lt (by omega)]
  split <;> omega

theorem advance_toInt {pos count : Nat} (fits : pos + count < 2 ^ 32) : advance pos (toInt count) = pos + count := by
  unfold advance toInt
  rw [Nat.mod_eq_of_lt (by omega : count < 2 ^ 32)]
  split <;> omega

theorem take_store {buf pending : List UInt8} {pos : Nat} (bytes : List UInt8) (held : buf.take pos = pending)
    (length : pending.length = pos) : (store buf pos bytes).take (pos + bytes.length) = pending ++ bytes := by
  unfold store
  rw [held]
  refine List.take_left' ?_
  rw [List.length_append, length]

namespace DataHeader

theorem getMsgSize_append (header : DataHeader) {headerBytes : List UInt8}
    (length : headerBytes.length = header.headerSize)
    (rest : List UInt8) : header.getMsgSize (headerBytes ++ rest) = header.getMsgSize headerBytes := by
  cases header with
  | full =>
      have long : headerBytes.length = 18 := length
      simp only [getMsgSize]
      rw [List.drop_append_of_le_length (by omega), List.take_append_of_le_length (by rw [List.length_drop]; omega)]
  | mini =>
      have long : headerBytes.length = 6 := length
      simp only [getMsgSize]
      rw [List.drop_append_of_le_length (by omega), List.take_append_of_le_length (by rw [List.length_drop]; omega)]

theorem getMsgType_append (header : DataHeader) {headerBytes : List UInt8}
    (length : headerBytes.length = header.headerSize)
    (rest : List UInt8) : header.getMsgType (headerBytes ++ rest) = header.getMsgType headerBytes := by
  cases header with
  | full =>
      have long : headerBytes.length = 18 := length
      simp only [getMsgType]
      rw [List.drop_append_of_le_length (by omega), List.take_append_of_le_length (by rw [List.length_drop]; omega)]
  | mini =>
      have long : headerBytes.length = 6 := length
      simp only [getMsgType]
      rw [List.take_append_of_le_length (by omega)]

end DataHeader

section Parse

variable (header : DataHeader) (cb : IncomingHandlerInterface Parsed) (closed : Bool)

theorem parseMessage_congr {rest other : List (Event Parsed) -> List (Event Parsed) × Ending}
    (same : forall trace, rest trace = other trace) (trace : List (Event Parsed)) (type : Nat) (payload : List UInt8) :
    parseMessage cb rest trace type payload = parseMessage cb other trace type payload := by
  rw [funext same]

/-- A message depends on the rest of the stream only behind it. -/
theorem parseOne_congr {rest other : List (Event Parsed) -> List UInt8 -> List (Event Parsed) × Ending}
    (trace : List (Event Parsed)) (bytes : List UInt8)
    (same : forall trace shorter, shorter.length < bytes.length -> rest trace shorter = other trace shorter) :
    parseOne header cb closed rest trace bytes = parseOne header cb closed other trace bytes := by
  have positive := header.headerSize_pos
  unfold parseOne
  split
  · rfl
  · next long =>
      simp only
      split
      · refine parseMessage_congr cb (fun trace => same trace _ ?_) _ _ _
        rw [List.length_drop]
        omega
      · split
        · rfl
        · split
          · rfl
          · refine parseMessage_congr cb (fun trace => same trace _ ?_) _ _ _
            rw [List.length_drop, List.length_drop]
            omega

/-- More rounds than there are bytes change nothing. -/
theorem parseLoop_enough (messages : Nat) : forall (more : Nat) (trace : List (Event Parsed)) (bytes : List UInt8),
    bytes.length ≤ messages -> bytes.length ≤ more ->
      parseLoop header cb closed messages trace bytes = parseLoop header cb closed more trace bytes := by
  have positive := header.headerSize_pos
  have empty : forall (more : Nat) (trace : List (Event Parsed)),
      parseLoop header cb closed more trace [] = starve closed trace [] := by
    intro more trace
    cases more with
    | zero => rfl
    | succ more => exact if_pos positive
  induction messages with
  | zero =>
      intro more trace bytes none _
      have nil : bytes = [] := List.length_eq_zero_iff.mp (Nat.le_zero.mp none)
      rw [nil, empty, empty]
  | succ messages ih =>
      intro more trace bytes enough enoughToo
      cases more with
      | zero =>
          have nil : bytes = [] := List.length_eq_zero_iff.mp (Nat.le_zero.mp enoughToo)
          rw [nil, empty, empty]
      | succ more =>
          refine parseOne_congr header cb closed trace bytes (fun trace shorter less => ih more trace shorter ?_ ?_)
          · omega
          · omega

theorem parseStream_eq (trace : List (Event Parsed)) (bytes : List UInt8) :
    parseStream header cb closed trace bytes =
      parseOne header cb closed (parseStream header cb closed) trace bytes := by
  have more := parseLoop_enough header cb closed bytes.length (bytes.length + 1) trace bytes (Nat.le_refl _)
    (Nat.le_succ _)
  rw [parseStream, more, parseLoop]
  refine parseOne_congr header cb closed trace bytes (fun trace shorter less => ?_)
  exact parseLoop_enough header cb closed _ _ trace shorter (Nat.le_of_lt less) (Nat.le_refl _)

variable {header}

theorem parseStream_short (trace : List (Event Parsed)) {bytes : List UInt8}
    (short : bytes.length < header.headerSize) :
    parseStream header cb closed trace bytes = starve closed trace [] := by
  rw [parseStream_eq, parseOne, if_pos short]

theorem parseStream_header (trace : List (Event Parsed)) {headerBytes : List UInt8}
    (length : headerBytes.length = header.headerSize) (body : List UInt8) :
    parseStream header cb closed trace (headerBytes ++ body) =
      (if header.getMsgSize headerBytes = 0 then
        parseMessage cb (fun trace => parseStream header cb closed trace body) trace (header.getMsgType headerBytes) []
      else
        match cb.allocMsgBuf trace (header.getMsgType headerBytes) (header.getMsgSize headerBytes) with
        | none => (trace ++ [.alloc (header.getMsgType headerBytes) (header.getMsgSize headerBytes), .error], .stopped)
        | some _ =>
            if body.length < header.getMsgSize headerBytes then
              starve closed (trace ++ [.alloc (header.getMsgType headerBytes) (header.getMsgSize headerBytes)])
                [.release (header.getMsgType headerBytes) (header.getMsgSize headerBytes)]
            else
              parseMessage cb
                (fun trace => parseStream header cb closed trace (body.drop (header.getMsgSize headerBytes)))
                (trace ++ [.alloc (header.getMsgType headerBytes) (header.getMsgSize headerBytes)])
                (header.getMsgType headerBytes) (body.take (header.getMsgSize headerBytes))) := by
  have opened := parseStream_eq header cb closed trace (headerBytes ++ body)
  rw [parseOne, if_neg (by rw [List.length_append]; omega), header.getMsgType_append length,
    header.getMsgSize_append length, List.drop_left' length] at opened
  exact opened

end Parse

section Rounds

variable (header : DataHeader) (cb : IncomingHandlerInterface Parsed)

/-- The handler holds a part of a header.  `trace` are the calls made up to
the message that begins with it. -/
structure HoldsHeader (trace : List (Event Parsed)) (rcc : RedChannelClient Parsed) (pending : List UInt8) : Prop where
  buf : rcc.incoming.headerBuf.take rcc.incoming.headerPos = pending
  pos : pending.length = rcc.incoming.headerPos
  within : rcc.incoming.headerPos ≤ header.headerSize
  msg : rcc.incoming.msg = none
  msgPos : rcc.incoming.msgPos = 0
  trace : rcc.trace = trace
  alive : rcc.dangling = false

/-- The handler holds a header and a part of the bytes behind it. -/
structure HoldsMsg (trace : List (Event Parsed)) (rcc : RedChannelClient Parsed) (headerBytes body : List UInt8) :
    Prop where
  buf : rcc.incoming.headerBuf.take header.headerSize = headerBytes
  length : headerBytes.length = header.headerSize
  pos : rcc.incoming.headerPos = header.headerSize
  msg : Exists fun buf => rcc.incoming.msg = some buf ∧ buf.take rcc.incoming.msgPos = body
  msgPos : body.length = rcc.incoming.msgPos
  within : body.length ≤ header.getMsgSize headerBytes
  alloc : Exists fun buf =>
    cb.allocMsgBuf trace (header.getMsgType headerBytes) (header.getMsgSize headerBytes) = some buf
  trace : rcc.trace = trace ++ [.alloc (header.getMsgType headerBytes) (header.getMsgSize headerBytes)]
  alive : rcc.dangling = false

/-- The handler waits for the rest of a message, of which it holds `pending`. -/
inductive Holds (trace : List (Event Parsed)) (rcc : RedChannelClient Parsed) (pending : List UInt8) : Prop
  | header (holds : HoldsHeader header trace rcc pending) (short : rcc.incoming.headerPos < header.headerSize)
  | msg (headerBytes body : List UInt8) (holds : HoldsMsg header cb trace rcc headerBytes body)
      (short : body.length < header.getMsgSize headerBytes) (split : pending = headerBytes ++ body)

/-- The bytes held and those in the socket, parsed at once. -/
def toCome (trace : List (Event Parsed)) (stream : RedsStream) (pending : List UInt8) : List (Event Parsed) × Ending :=
  parseStream header cb (streamCloses stream.reads) trace (pending ++ streamBytes stream.reads)

/-- `red_peer_handle_incoming` returned; `whole` is what is expected in the end. -/
inductive Returned (before : List Read) (whole : List (Event Parsed) × Ending) (rcc : RedChannelClient Parsed) : Prop
  | waiting (stream : RedsStream) (trace : List (Event Parsed)) (pending : List UInt8)
      (isOpen : rcc.stream = some stream) (up : stream.shutdown = false) (holds : Holds header cb trace rcc pending)
      (same : whole = toCome header cb trace stream pending)
      (moved : stream.reads = [] ∨ pauses stream.reads < pauses before)
  | stopped (closed : rcc.stream = none) (alive : rcc.dangling = false) (same : whole = (rcc.trace, .stopped))
  | dangling (closed : rcc.stream = none) (dead : rcc.dangling = true) (same : whole = (rcc.trace, .dangling))

variable {header cb} {before : List Read} {whole : List (Event Parsed) × Ending} {trace : List (Event Parsed)}
  {rcc : RedChannelClient Parsed} {stream : RedsStream}

theorem Returned.error (alive : rcc.dangling = false) (same : whole = (rcc.trace ++ [.error], .stopped)) :
    Returned header cb before whole rcc.onError :=
  .stopped rfl alive same

/-- A read from a stream that is up. -/
theorem redPeerReceive_up {size : Nat} (up : stream.shutdown = false) (small : size < 2 ^ 32 - 1) :
    (Exists fun left => redPeerReceive stream size = (-1, [], left) ∧ streamCloses stream.reads = true ∧
      (streamBytes stream.reads).length < size) ∨
    Exists fun bytes => Exists fun left => redPeerReceive stream size = (toInt bytes.length, bytes, left) ∧
      left.shutdown = false ∧ Received stream.reads size bytes left.reads ∧ toInt bytes.length ≠ -1 := by
  have notDown : Not (size ≠ 0 ∧ stream.shutdown = true) := by
    rw [up]
    exact fun down => Bool.false_ne_true down.2
  unfold redPeerReceive
  rw [if_neg notDown]
  rcases brought : receiveLoop stream.reads size with ⟨got, left⟩
  cases got with
  | none => exact Or.inl ⟨_, rfl, receiveLoop_failed _ _ brought⟩
  | some bytes =>
      have received := receiveLoop_received _ _ brought
      exact Or.inr ⟨bytes, _, rfl, up, received, toInt_ne (Nat.lt_of_le_of_lt received.within small)⟩

/-- The header is read, or the client is disconnected, or it waits. -/
theorem readHeader_spec (cb : IncomingHandlerInterface Parsed) {pending : List UInt8}
    (holds : HoldsHeader header trace rcc pending)
    (short : rcc.incoming.headerPos < header.headerSize) (isOpen : rcc.stream = some stream)
    (up : stream.shutdown = false) :
    (Exists fun next => rcc.readHeader header = .error next ∧
      Returned header cb stream.reads (toCome header cb trace stream pending) next) ∨
    Exists fun next => Exists fun headerBytes => Exists fun left => rcc.readHeader header = .ok next ∧
      HoldsHeader header trace next headerBytes ∧ next.incoming.headerPos = header.headerSize ∧
      next.stream = some left ∧ left.shutdown = false ∧
      toCome header cb trace stream pending = toCome header cb trace left headerBytes ∧
      byteCount left.reads < byteCount stream.reads ∧ pauses left.reads ≤ pauses stream.reads := by
  have small := header.headerSize_le
  have pos := holds.pos
  unfold RedChannelClient.readHeader
  rw [if_pos short, isOpen]
  rcases redPeerReceive_up up (by omega : header.headerSize - rcc.incoming.headerPos < 2 ^ 32 - 1) with
    ⟨left, failed, closes, fewer⟩ | ⟨bytes, left, got, leftUp, received, positive⟩
  · simp only [failed, if_true]
    refine Or.inl ⟨_, rfl, Returned.error holds.alive ?_⟩
    have notComplete : (pending ++ streamBytes stream.reads).length < header.headerSize := by
      rw [List.length_append]
      omega
    rw [toCome, parseStream_short cb _ trace notComplete, closes, ← holds.trace]
    simp only [starve, if_true, List.append_nil]
  · have within := received.within
    have advanced : advance rcc.incoming.headerPos (toInt bytes.length) = rcc.incoming.headerPos + bytes.length :=
      advance_toInt (by omega)
    have same : toCome header cb trace stream pending = toCome header cb trace left (pending ++ bytes) := by
      rw [toCome, toCome, received.content, received.closes, List.append_assoc]
    simp only [got, if_neg positive, advanced]
    have kept : HoldsHeader header trace { rcc with
        stream := some left
        incoming := { rcc.incoming with
          headerBuf := store rcc.incoming.headerBuf rcc.incoming.headerPos bytes
          headerPos := rcc.incoming.headerPos + bytes.length } } (pending ++ bytes) :=
      { buf := take_store bytes holds.buf holds.pos
        pos := by rw [List.length_append, pos]
        within := by simp only; omega
        msg := holds.msg
        msgPos := holds.msgPos
        trace := holds.trace
        alive := holds.alive }
    by_cases complete : rcc.incoming.headerPos + bytes.length = header.headerSize
    · rw [if_neg (by simp only [complete]; exact fun different => different rfl)]
      have count := received.count
      exact Or.inr ⟨_, pending ++ bytes, left, rfl, kept, complete, rfl, leftUp, same, by omega, received.pauses⟩
    · rw [if_pos complete]
      have less : rcc.incoming.headerPos + bytes.length < header.headerSize := by omega
      refine Or.inl ⟨_, rfl, .waiting left trace (pending ++ bytes) rfl leftUp (.header kept less) same ?_⟩
      exact received.short (by omega)

/-- A buffer was handed out for a message, so it is not one of `2 ^ 32 - 1` bytes. -/
def GrantsBelow (cb : IncomingHandlerInterface Parsed) : Prop :=
  forall trace type, cb.allocMsgBuf trace type (2 ^ 32 - 1) = none

variable {headerBytes body : List UInt8}

theorem HoldsMsg.size_lt (holds : HoldsMsg header cb trace rcc headerBytes body)
    (grants : GrantsBelow cb) : header.getMsgSize headerBytes < 2 ^ 32 - 1 := by
  have bound := header.getMsgSize_lt headerBytes
  rcases holds.alloc with ⟨buf, granted⟩
  by_contra large
  have size : header.getMsgSize headerBytes = 2 ^ 32 - 1 := by omega
  rw [size, grants] at granted
  cases granted

theorem HoldsMsg.toCome_eq (holds : HoldsMsg header cb trace rcc headerBytes body)
    (nonempty : header.getMsgSize headerBytes ≠ 0) (stream : RedsStream) :
    toCome header cb trace stream (headerBytes ++ body) =
      (if (body ++ streamBytes stream.reads).length < header.getMsgSize headerBytes then
        starve (streamCloses stream.reads) rcc.trace [.release (header.getMsgType headerBytes)
          (header.getMsgSize headerBytes)]
      else parseMessage cb (fun trace => parseStream header cb (streamCloses stream.reads) trace
            ((body ++ streamBytes stream.reads).drop (header.getMsgSize headerBytes))) rcc.trace
              (header.getMsgType headerBytes)
          ((body ++ streamBytes stream.reads).take (header.getMsgSize headerBytes))) := by
  rcases holds.alloc with ⟨buf, granted⟩
  rw [toCome, List.append_assoc, parseStream_header cb _ trace holds.length, if_neg nonempty, granted, holds.trace]

/-- The body is read, or the client is disconnected, or it waits. -/
theorem receiveMsg_spec (grants : GrantsBelow cb)
    (holds : HoldsMsg header cb trace rcc headerBytes body) (short : body.length < header.getMsgSize headerBytes)
    (isOpen : rcc.stream = some stream) (up : stream.shutdown = false) :
    (Exists fun next =>
      rcc.receiveMsg (header.getMsgType headerBytes) (header.getMsgSize headerBytes) = .error next ∧
        Returned header cb stream.reads (toCome header cb trace stream (headerBytes ++ body)) next) ∨
    Exists fun next => Exists fun whole => Exists fun left =>
      rcc.receiveMsg (header.getMsgType headerBytes) (header.getMsgSize headerBytes) = .ok next ∧
        HoldsMsg header cb trace next headerBytes whole ∧ whole.length = header.getMsgSize headerBytes ∧
        next.stream = some left ∧ left.shutdown = false ∧
        toCome header cb trace stream (headerBytes ++ body) = toCome header cb trace left (headerBytes ++ whole) ∧
        byteCount left.reads < byteCount stream.reads ∧ pauses left.reads ≤ pauses stream.reads := by
  have small := holds.size_lt grants
  have pos := holds.msgPos
  rcases holds.msg with ⟨buf, hasBuf, held⟩
  unfold RedChannelClient.receiveMsg
  rw [isOpen]
  rcases redPeerReceive_up up (by omega : header.getMsgSize headerBytes - rcc.incoming.msgPos < 2 ^ 32 - 1) with
    ⟨left, failed, closes, fewer⟩ | ⟨bytes, left, got, leftUp, received, positive⟩
  · simp only [failed, if_true]
    refine Or.inl ⟨_, rfl, Returned.error holds.alive ?_⟩
    have notComplete : (body ++ streamBytes stream.reads).length < header.getMsgSize headerBytes := by
      rw [List.length_append]
      omega
    rw [holds.toCome_eq (by omega) stream, if_pos notComplete, closes]
    rfl
  · have within := received.within
    have advanced : advance rcc.incoming.msgPos (toInt bytes.length) = rcc.incoming.msgPos + bytes.length :=
      advance_toInt (by omega)
    have same : toCome header cb trace stream (headerBytes ++ body) =
        toCome header cb trace left (headerBytes ++ (body ++ bytes)) := by
      rw [toCome, toCome, received.content, received.closes]
      simp only [List.append_assoc]
    simp only [got, if_neg positive, advanced]
    have kept : HoldsMsg header cb trace { rcc with
        stream := some left
        incoming := { rcc.incoming with
          msg := rcc.incoming.msg.map (fun buf => store buf rcc.incoming.msgPos bytes)
          msgPos := rcc.incoming.msgPos + bytes.length } } headerBytes (body ++ bytes) :=
      { buf := holds.buf
        length := holds.length
        pos := holds.pos
        msg := ⟨store buf rcc.incoming.msgPos bytes, by simp only [hasBuf, Option.map_some],
          take_store bytes held holds.msgPos⟩
        msgPos := by rw [List.length_append, pos]
        within := by rw [List.length_append]; omega
        alloc := holds.alloc
        trace := holds.trace
        alive := holds.alive }
    by_cases complete : rcc.incoming.msgPos + bytes.length = header.getMsgSize headerBytes
    · rw [if_neg (by simp only [complete]; exact fun different => different rfl)]
      have count := received.count
      exact Or.inr ⟨_, body ++ bytes, left, rfl, kept, by rw [List.length_append, pos, complete], rfl, leftUp, same,
        by omega, received.pauses⟩
    · rw [if_pos complete]
      have less : (body ++ bytes).length < header.getMsgSize headerBytes := by
        rw [List.length_append]
        omega
      refine Or.inl ⟨_, rfl, .waiting left trace (headerBytes ++ (body ++ bytes)) rfl leftUp
        (.msg headerBytes (body ++ bytes) kept less rfl) same ?_⟩
      exact received.short (by omega)

/-- The message is complete: its bytes, and what the rest of the stream brings. -/
structure Complete (header : DataHeader) (cb : IncomingHandlerInterface Parsed)
    (whole : List (Event Parsed) × Ending) (rcc : RedChannelClient Parsed) (type : Nat) (payload : List UInt8)
    (stream : RedsStream) : Prop where
  msg : (rcc.incoming.msg.getD []).take payload.length = payload
  isOpen : rcc.stream = some stream
  up : stream.shutdown = false
  alive : rcc.dangling = false
  whole : whole = parseMessage cb
    (fun trace => parseStream header cb (streamCloses stream.reads) trace (streamBytes stream.reads)) rcc.trace
      type payload

theorem HoldsMsg.complete (holds : HoldsMsg header cb trace rcc headerBytes body)
    (all : body.length = header.getMsgSize headerBytes) (nonempty : header.getMsgSize headerBytes ≠ 0)
    (isOpen : rcc.stream = some stream) (up : stream.shutdown = false) :
    Complete header cb (toCome header cb trace stream (headerBytes ++ body)) rcc
      (header.getMsgType headerBytes) body stream := by
  refine ⟨?_, isOpen, up, holds.alive, ?_⟩
  · rcases holds.msg with ⟨buf, hasBuf, held⟩
    rw [hasBuf, Option.getD_some, holds.msgPos, held]
  · have enough : Not ((body ++ streamBytes stream.reads).length < header.getMsgSize headerBytes) := by
      rw [List.length_append]
      omega
    rw [holds.toCome_eq nonempty stream, if_neg enough, List.take_left' all, List.drop_left' all]

/-- The state in which a round begins. -/
inductive Top (header : DataHeader) (cb : IncomingHandlerInterface Parsed) (whole : List (Event Parsed) × Ending)
    (rcc : RedChannelClient Parsed) : Prop
  | up (stream : RedsStream) (trace : List (Event Parsed)) (pending : List UInt8) (isOpen : rcc.stream = some stream)
      (up : stream.shutdown = false) (holds : Holds header cb trace rcc pending)
      (same : whole = toCome header cb trace stream pending)
  | down (stream : RedsStream) (isOpen : rcc.stream = some stream) (down : stream.shutdown = true)
      (holds : HoldsHeader header rcc.trace rcc []) (same : whole = (rcc.trace ++ [.error], .stopped))
  | freed (closed : rcc.stream = none) (holds : HoldsHeader header rcc.trace rcc [])
      (same : whole = (rcc.trace, .dangling))

def readsLeft (rcc : RedChannelClient Parsed) : List Read :=
  match rcc.stream with
  | none => []
  | some stream => stream.reads

theorem HoldsHeader.of_initial (initial : rcc.incoming.Initial) (alive : rcc.dangling = false) :
    HoldsHeader header rcc.trace rcc [] where
  buf := by rw [initial.1, List.take_zero]
  pos := by rw [initial.1, List.length_nil]
  within := by rw [initial.1]; exact Nat.zero_le _
  msg := initial.2.1
  msgPos := initial.2.2
  trace := rfl
  alive := alive

/-- A message that is there is handed over. -/
theorem handleMsg_spec {payload : List UInt8} {type : Nat}
    (complete : Complete header cb whole rcc type payload stream) :
    (Exists fun next => rcc.handleMsg cb type payload.length = .error next ∧ Returned header cb before whole next) ∨
    Exists fun next => rcc.handleMsg cb type payload.length = .ok next ∧ next.incoming.Initial ∧
      Top header cb whole next ∧ byteCount (readsLeft next) ≤ byteCount stream.reads ∧
      pauses (readsLeft next) ≤ pauses stream.reads := by
  have positive := header.headerSize_pos
  have whole := complete.whole
  unfold parseMessage at whole
  unfold RedChannelClient.handleMsg
  rw [complete.msg]
  cases delivered : cb.deliver rcc.trace type payload with
  | none =>
      rw [delivered] at whole
      refine Or.inl ⟨_, rfl, Returned.error complete.alive ?_⟩
      rw [whole]
      simp only [RedChannelClient.ask, List.append_assoc, List.cons_append, List.nil_append]
  | some answer =>
      rcases answer with ⟨event, handled⟩
      rw [delivered] at whole
      simp only at whole ⊢
      cases ret : handled.ret with
      | false =>
          rw [ret] at whole
          refine Or.inl ⟨_, rfl, Returned.error ?_ ?_⟩
          · cases fate : handled.stream <;> exact complete.alive
          · rw [whole]
            cases fate : handled.stream <;>
              simp only [RedChannelClient.ask, RedChannelClient.meet, List.append_assoc, List.cons_append,
                List.nil_append, Bool.false_eq_true, if_false]
      | true =>
          rw [ret] at whole
          cases fate : handled.stream with
          | kept =>
              rw [fate] at whole
              refine Or.inr ⟨_, rfl, ⟨rfl, rfl, rfl⟩, .up stream _ [] complete.isOpen complete.up
                (.header (HoldsHeader.of_initial ⟨rfl, rfl, rfl⟩ complete.alive) positive) ?_, ?_⟩
              · rw [whole, toCome]
                simp only [RedChannelClient.ask, RedChannelClient.meet, List.append_assoc, List.cons_append,
                  List.nil_append, if_true]
              · simp only [readsLeft, RedChannelClient.ask, RedChannelClient.meet, complete.isOpen,
                  Nat.le_refl, and_self]
          | shutdown =>
              rw [fate] at whole
              refine Or.inr ⟨_, rfl, ⟨rfl, rfl, rfl⟩, .down { stream with shutdown := true } ?_ rfl
                (HoldsHeader.of_initial ⟨rfl, rfl, rfl⟩ complete.alive) ?_, ?_⟩
              · simp only [RedChannelClient.ask, RedChannelClient.meet, complete.isOpen, Option.map_some]
              · rw [whole]
                simp only [RedChannelClient.ask, RedChannelClient.meet, List.append_assoc, List.cons_append,
                  List.nil_append, if_true]
              · simp only [readsLeft, RedChannelClient.ask, RedChannelClient.meet, complete.isOpen, Option.map_some,
                  Nat.le_refl, and_self]
          | freed =>
              rw [fate] at whole
              refine Or.inr ⟨_, rfl, ⟨rfl, rfl, rfl⟩, .freed rfl
                (HoldsHeader.of_initial ⟨rfl, rfl, rfl⟩ complete.alive) ?_, Nat.zero_le _, Nat.zero_le _⟩
              rw [whole]
              simp only [RedChannelClient.ask, RedChannelClient.meet, List.append_assoc, List.cons_append,
                List.nil_append, if_true]

theorem Returned.mono {earlier : List Read} (returned : Returned header cb before whole rcc)
    (fewer : pauses before ≤ pauses earlier) : Returned header cb earlier whole rcc := by
  cases returned with
  | waiting stream trace pending isOpen up holds same moved =>
      exact .waiting stream trace pending isOpen up holds same
        (moved.imp_right (fun less => Nat.lt_of_lt_of_le less fewer))
  | stopped closed alive same => exact .stopped closed alive same
  | dangling closed dead same => exact .dangling closed dead same

/-- A round either returns, or ends between two messages with fewer bytes to read. -/
def RoundMeets (header : DataHeader) (cb : IncomingHandlerInterface Parsed) (whole : List (Event Parsed) × Ending)
    (reads : List Read) (round : Except (RedChannelClient Parsed) (RedChannelClient Parsed)) : Prop :=
  (Exists fun next => round = .error next ∧ Returned header cb reads whole next) ∨
    Exists fun next => round = .ok next ∧ next.incoming.Initial ∧ Top header cb whole next ∧
      byteCount (readsLeft next) < byteCount reads ∧ pauses (readsLeft next) ≤ pauses reads

/-- A round that starts inside of a body. -/
theorem receiveMsg_round (grants : GrantsBelow cb)
    (holds : HoldsMsg header cb trace rcc headerBytes body) (short : body.length < header.getMsgSize headerBytes)
    (isOpen : rcc.stream = some stream) (up : stream.shutdown = false) :
    RoundMeets header cb (toCome header cb trace stream (headerBytes ++ body)) stream.reads
      (rcc.receiveMsg (header.getMsgType headerBytes) (header.getMsgSize headerBytes) >>= fun rcc =>
        rcc.handleMsg cb (header.getMsgType headerBytes) (header.getMsgSize headerBytes)) := by
  rcases receiveMsg_spec grants holds short isOpen up with
    ⟨next, returns, returned⟩ | ⟨next, all, left, continues, kept, length, nextOpen, nextUp, same, fewer, pauses⟩
  · rw [returns]
    exact Or.inl ⟨next, rfl, returned⟩
  · rw [continues, same]
    have complete := kept.complete length (by omega) nextOpen nextUp
    rcases handleMsg_spec complete with ⟨last, returns, returned⟩ | ⟨last, goesOn, initial, top, bytes, morePauses⟩
    · exact Or.inl ⟨last, by rw [← length]; exact returns, returned⟩
    · exact Or.inr ⟨last, by rw [← length]; exact goesOn, initial, top, Nat.lt_of_le_of_lt bytes fewer,
        Nat.le_trans morePauses pauses⟩

/-- The rest of a round, once the header is complete. -/
theorem readMsg_round (grants : GrantsBelow cb) {headerBytes : List UInt8}
    (holds : HoldsHeader header trace rcc headerBytes) (full : rcc.incoming.headerPos = header.headerSize)
    (isOpen : rcc.stream = some stream) (up : stream.shutdown = false) {reads : List Read}
    (fewer : byteCount stream.reads < byteCount reads) (notMore : pauses stream.reads ≤ pauses reads) :
    RoundMeets header cb (toCome header cb trace stream headerBytes) reads
      (rcc.readMsg cb (header.getMsgType headerBytes) (header.getMsgSize headerBytes) >>= fun rcc =>
        rcc.handleMsg cb (header.getMsgType headerBytes) (header.getMsgSize headerBytes)) := by
  have length : headerBytes.length = header.headerSize := by rw [holds.pos, full]
  unfold RedChannelClient.readMsg
  rw [holds.msgPos]
  have parsed := parseStream_header cb (streamCloses stream.reads) trace length (streamBytes stream.reads)
  by_cases empty : header.getMsgSize headerBytes = 0
  · rw [if_neg (by rw [empty]; exact Nat.lt_irrefl 0), toCome, parsed, if_pos empty]
    have complete : Complete header cb (parseMessage cb
        (fun trace => parseStream header cb (streamCloses stream.reads) trace (streamBytes stream.reads)) trace
          (header.getMsgType headerBytes) []) rcc (header.getMsgType headerBytes) [] stream :=
      ⟨by rw [holds.msg]; rfl, isOpen, up, holds.alive, by rw [holds.trace]⟩
    rw [empty]
    rcases handleMsg_spec complete with ⟨last, returns, returned⟩ | ⟨last, goesOn, initial, top, bytes, morePauses⟩
    · exact Or.inl ⟨last, returns, returned.mono notMore⟩
    · exact Or.inr ⟨last, goesOn, initial, top, Nat.lt_of_le_of_lt bytes fewer, Nat.le_trans morePauses notMore⟩
  · rw [if_pos (Nat.pos_of_ne_zero empty)]
    unfold RedChannelClient.allocMsg
    rw [holds.msg, holds.trace]
    cases granted : cb.allocMsgBuf trace (header.getMsgType headerBytes) (header.getMsgSize headerBytes) with
    | none =>
        refine Or.inl ⟨_, rfl, Returned.error holds.alive ?_⟩
        rw [toCome, parsed, if_neg empty, granted]
        simp only [RedChannelClient.ask, holds.trace, List.append_assoc, List.cons_append, List.nil_append]
    | some buf =>
        have held : HoldsMsg header cb trace
            { rcc.ask [.alloc (header.getMsgType headerBytes) (header.getMsgSize headerBytes)] with
              incoming := { rcc.incoming with msg := some buf } } headerBytes [] :=
          { buf := by rw [← full]; exact holds.buf
            length := length
            pos := full
            msg := ⟨buf, rfl, by simp only [holds.msgPos, List.take_zero]⟩
            msgPos := by simp only [holds.msgPos, List.length_nil]
            within := Nat.zero_le _
            alloc := ⟨buf, granted⟩
            trace := by simp only [RedChannelClient.ask, holds.trace]
            alive := holds.alive }
        have round := receiveMsg_round grants held (Nat.pos_of_ne_zero empty) isOpen up
        rw [List.append_nil] at round
        rcases round with ⟨next, returns, returned⟩ | ⟨next, goesOn, initial, top, bytes, morePauses⟩
        · exact Or.inl ⟨next, returns, returned.mono notMore⟩
        · exact Or.inr ⟨next, goesOn, initial, top, Nat.lt_trans bytes fewer, Nat.le_trans morePauses notMore⟩

theorem header_fields {headerBytes : List UInt8} (buf : rcc.incoming.headerBuf.take header.headerSize = headerBytes)
    (length : headerBytes.length = header.headerSize) :
    header.getMsgType rcc.incoming.headerBuf = header.getMsgType headerBytes ∧
      header.getMsgSize rcc.incoming.headerBuf = header.getMsgSize headerBytes := by
  have split : rcc.incoming.headerBuf = headerBytes ++ rcc.incoming.headerBuf.drop header.headerSize := by
    rw [← buf, List.take_append_drop]
  rw [split]
  exact ⟨header.getMsgType_append length _, header.getMsgSize_append length _⟩

/-- Any round of the loop. -/
theorem incomingRound_spec (grants : GrantsBelow cb) (top : Top header cb whole rcc) :
    RoundMeets header cb whole (readsLeft rcc) (rcc.incomingRound header cb) := by
  have positive := header.headerSize_pos
  unfold RedChannelClient.incomingRound
  cases top with
  | up stream trace pending isOpen up holds same =>
      have reads : readsLeft rcc = stream.reads := by simp only [readsLeft, isOpen]
      rw [same, reads]
      cases holds with
      | header holds short =>
          rcases readHeader_spec cb holds short isOpen up with
            ⟨next, returns, returned⟩ | ⟨next, headerBytes, left, goesOn, kept, full, nextOpen, nextUp, still,
              fewer, notMore⟩
          · rw [returns]
            exact Or.inl ⟨next, rfl, returned⟩
          · have buf := kept.buf
            rw [full] at buf
            have fields := header_fields buf (by rw [kept.pos, full])
            rw [goesOn, still]
            have round := readMsg_round grants kept full nextOpen nextUp fewer notMore
            rw [← fields.1, ← fields.2] at round
            exact round
      | msg headerBytes body holds short split =>
          have skips : rcc.readHeader header = .ok rcc := by
            unfold RedChannelClient.readHeader
            rw [if_neg (by rw [holds.pos]; exact Nat.lt_irrefl _)]
          have fields := header_fields holds.buf holds.length
          have hasBuf : rcc.allocMsg cb (header.getMsgType headerBytes) (header.getMsgSize headerBytes) = .ok rcc := by
            rcases holds.msg with ⟨buf, hasBuf, _⟩
            unfold RedChannelClient.allocMsg
            rw [hasBuf]
          have round := receiveMsg_round grants holds short isOpen up
          rw [skips, split]
          show RoundMeets header cb _ _ (rcc.readMsg cb _ _ >>= fun rcc => rcc.handleMsg cb _ _)
          unfold RedChannelClient.readMsg
          rw [fields.1, fields.2, if_pos (by rw [← holds.msgPos]; exact short), hasBuf]
          exact round
  | down stream isOpen down holds same =>
      refine Or.inl ⟨({ rcc with stream := some stream } : RedChannelClient Parsed).onError, ?_,
        Returned.error holds.alive same⟩
      have empty : rcc.incoming.headerPos = 0 := by rw [← holds.pos, List.length_nil]
      unfold RedChannelClient.readHeader redPeerReceive
      rw [empty, if_pos positive, isOpen]
      simp only [down, Nat.sub_zero, ne_eq, Nat.ne_of_gt positive, not_false_eq_true, and_self, if_true]
      rfl
  | freed closed holds same =>
      refine Or.inl ⟨{ rcc with dangling := true }, ?_, .dangling closed rfl same⟩
      have empty : rcc.incoming.headerPos = 0 := by rw [← holds.pos, List.length_nil]
      unfold RedChannelClient.readHeader
      rw [empty, if_pos positive, closed]
      rfl

/-- The loop ends, and has parsed what it has read. -/
theorem incomingLoop_spec (grants : GrantsBelow cb) (rounds : Nat) :
    forall (rcc : RedChannelClient Parsed), Top header cb whole rcc -> byteCount (readsLeft rcc) < rounds ->
      Exists fun next => RedChannelClient.incomingLoop header cb rounds rcc = some next ∧
        Returned header cb (readsLeft rcc) whole next := by
  induction rounds with
  | zero => exact fun _ _ none => absurd none (Nat.not_lt_zero _)
  | succ rounds ih =>
      intro rcc top enough
      rw [RedChannelClient.incomingLoop]
      rcases incomingRound_spec grants top with ⟨next, returns, returned⟩ | ⟨next, goesOn, _, nextTop, fewer, notMore⟩
      · rw [returns]
        exact ⟨next, rfl, returned⟩
      · rw [goesOn]
        rcases ih next nextTop (by omega) with ⟨last, ran, returned⟩
        exact ⟨last, ran, returned.mono notMore⟩

end Rounds

def RedChannelClient.ending (rcc : RedChannelClient Parsed) : Ending :=
  if rcc.dangling then .dangling else if rcc.stream.isNone then .stopped else .waiting

section Runs

variable {header : DataHeader} {cb : IncomingHandlerInterface Parsed} {whole : List (Event Parsed) × Ending}
  {rcc : RedChannelClient Parsed}

theorem Holds.starved {trace : List (Event Parsed)} {pending : List UInt8} (holds : Holds header cb trace rcc pending) :
    parseStream header cb false trace pending = (rcc.trace, .waiting) ∧ rcc.dangling = false := by
  cases holds with
  | header holds short =>
      rw [parseStream_short cb false trace (by rw [holds.pos]; exact short), holds.trace]
      exact ⟨rfl, holds.alive⟩
  | msg headerBytes body holds short split =>
      have needs := holds.toCome_eq (by omega) { shutdown := false, reads := [] }
      rw [if_pos (by simpa only [streamBytes, List.append_nil] using short)] at needs
      rw [toCome, streamBytes, List.append_nil] at needs
      rw [split]
      exact ⟨needs, holds.alive⟩

theorem Returned.final {before : List Read} (returned : Returned header cb before whole rcc)
    (finished : forall stream, rcc.stream = some stream -> stream.reads = []) : (rcc.trace, rcc.ending) = whole := by
  unfold RedChannelClient.ending
  cases returned with
  | waiting stream trace pending isOpen up holds same moved =>
      rw [same, toCome, finished stream isOpen, streamBytes, List.append_nil, streamCloses, holds.starved.1,
        holds.starved.2, isOpen]
      rfl
  | stopped closed alive same =>
      rw [same, closed, alive]
      rfl
  | dangling closed dead same =>
      rw [same, dead]
      rfl

theorem receives_closed (calls : Nat) (closed : rcc.stream = none) :
    RedChannelClient.receives header cb calls rcc = some rcc := by
  induction calls with
  | zero => rfl
  | succ calls ih =>
      rw [RedChannelClient.receives, RedChannelClient.redPeerHandleIncoming, closed]
      exact ih

theorem Returned.moved {before : List Read} (returned : Returned header cb before whole rcc) :
    readsLeft rcc = [] ∨ pauses (readsLeft rcc) < pauses before := by
  cases returned with
  | waiting stream trace pending isOpen up holds same moved =>
      simp only [readsLeft, isOpen]
      exact moved
  | stopped closed alive same => exact Or.inl (by simp only [readsLeft, closed])
  | dangling closed dead same => exact Or.inl (by simp only [readsLeft, closed])

theorem redPeerHandleIncoming_spec (grants : GrantsBelow cb) {before : List Read}
    (returned : Returned header cb before whole rcc) (isOpen : rcc.stream ≠ none) :
    Exists fun next => rcc.redPeerHandleIncoming header cb = some next ∧
      Returned header cb (readsLeft rcc) whole next := by
  cases returned with
  | waiting stream trace pending hasStream up holds same moved =>
      have enough : byteCount (readsLeft rcc) < byteCount stream.reads + 1 := by
        simp only [readsLeft, hasStream]
        exact Nat.lt_succ_self _
      unfold RedChannelClient.redPeerHandleIncoming
      rw [hasStream]
      exact incomingLoop_spec grants _ rcc (.up stream trace pending hasStream up holds same) enough
  | stopped closed alive same => exact absurd closed isOpen
  | dangling closed dead same => exact absurd closed isOpen

/-- The induction over the calls. -/
theorem receives_spec (grants : GrantsBelow cb) (calls : Nat) :
    forall (before : List Read) (rcc : RedChannelClient Parsed), Returned header cb before whole rcc ->
      Exists fun next => RedChannelClient.receives header cb calls rcc = some next ∧
        (Exists fun last => Returned header cb last whole next) ∧
        (readsLeft rcc = [] ∨ pauses (readsLeft rcc) < calls -> readsLeft next = []) := by
  induction calls with
  | zero =>
      intro before rcc returned
      exact ⟨rcc, rfl, ⟨before, returned⟩, fun done => done.resolve_right (Nat.not_lt_zero _)⟩
  | succ calls ih =>
      intro before rcc returned
      by_cases closed : rcc.stream = none
      · refine ⟨rcc, receives_closed _ closed, ⟨before, returned⟩, fun _ => ?_⟩
        simp only [readsLeft, closed]
      · rcases redPeerHandleIncoming_spec grants returned closed with ⟨middle, called, middleReturned⟩
        rcases ih _ middle middleReturned with ⟨next, ran, last, finished⟩
        refine ⟨next, ?_, last, fun done => finished ?_⟩
        · rw [RedChannelClient.receives, called, Option.bind_some, ran]
        · rcases middleReturned.moved with empty | fewer
          · exact Or.inl empty
          · rcases done with empty | few
            · rw [empty] at fewer
              exact absurd fewer (Nat.not_lt_zero _)
            · exact Or.inr (by omega)

end Runs

/-- However the bytes of the stream arrive, the channel is asked exactly what
parsing the whole stream at once amounts to, with the same end; between two
messages the handler is in its initial state, and a client that was
disconnected after an error receives nothing more. -/
theorem incoming_framing (header : DataHeader) (cb : IncomingHandlerInterface Parsed) (grants : GrantsBelow cb)
    (headerBuf : List UInt8) (reads : List Read) : (forall calls, Exists fun rcc =>
      RedChannelClient.receives header cb calls (RedChannelClient.create headerBuf reads) = some rcc ∧
        (pauses reads < calls ∨ rcc.stream = none ->
          (rcc.trace, rcc.ending) = parseStream header cb (streamCloses reads) [] (streamBytes reads)) ∧
        (rcc.stream = none -> forall more, RedChannelClient.receives header cb more rcc = some rcc)) ∧
      forall rcc next : RedChannelClient Parsed, rcc.incomingRound header cb = .ok next -> next.incoming.Initial := by
  constructor
  · intro calls
    have positive := header.headerSize_pos
    have holds : HoldsHeader header [] (RedChannelClient.create headerBuf reads : RedChannelClient Parsed) [] := by
      show HoldsHeader header (RedChannelClient.create headerBuf reads : RedChannelClient Parsed).trace _ []
      apply HoldsHeader.of_initial
      · exact ⟨rfl, rfl, rfl⟩
      · rfl
    have start : Returned header cb (.again :: reads)
        (parseStream header cb (streamCloses reads) [] (streamBytes reads)) (RedChannelClient.create headerBuf reads) :=
      .waiting { shutdown := false, reads := reads } [] [] rfl rfl
        (.header holds positive) rfl (Or.inr (Nat.lt_succ_self _))
    rcases receives_spec grants calls _ _ start with ⟨rcc, ran, ⟨last, returned⟩, finished⟩
    refine ⟨rcc, ran, fun done => returned.final (fun stream isOpen => ?_),
      fun closed more => receives_closed more closed⟩
    rcases done with enough | closed
    · have empty := finished (Or.inr enough)
      simpa only [readsLeft, isOpen] using empty
    · rw [closed] at isOpen
      cases isOpen
  · intro rcc next goesOn
    unfold RedChannelClient.incomingRound at goesOn
    cases headerRead : rcc.readHeader header with
    | error other =>
        rw [headerRead] at goesOn
        cases goesOn
    | ok middle =>
        rw [headerRead] at goesOn
        simp only [bind, Except.bind] at goesOn
        split at goesOn
        · cases goesOn
        · unfold RedChannelClient.handleMsg at goesOn
          split at goesOn
          · cases goesOn
          · simp only at goesOn
            split at goesOn
            · cases goesOn
              exact ⟨rfl, rfl, rfl⟩
            · cases goesOn

/-- A channel without a parser that takes messages of up to four bytes. -/
def smallMessages : IncomingHandlerInterface Unit where
  allocMsgBuf := fun _ _ size => if size ≤ 4 then some (List.replicate size 0) else none
  parser := none
  handleParsed := fun _ _ _ => ⟨true, .kept⟩
  handleMessage := fun _ _ _ => ⟨true, .kept⟩

def pieces : List Read :=
  [.chunk 1 [0], .again, .chunk 2 [0, 0], .intr, .chunk 0 [7], .again, .again, .chunk 8 [3, 0, 0, 0, 0, 0, 9]]

theorem incoming_framing_pieces :
    Exists fun rcc => RedChannelClient.receives .mini smallMessages 4 (RedChannelClient.create [] pieces) = some rcc ∧
      rcc.trace = [.alloc 1 2, .message 1 [7, 8], .release 1 2, .message 3 [], .release 3 0] ∧
        rcc.ending = .waiting := by
  have grants : GrantsBelow smallMessages := fun _ _ => rfl
  rcases (incoming_framing .mini smallMessages grants [] pieces).1 4 with ⟨rcc, ran, whole, _⟩
  have same := whole (Or.inl (by decide))
  have parsed : parseStream .mini smallMessages (streamCloses pieces) [] (streamBytes pieces) =
      ([.alloc 1 2, .message 1 [7, 8], .release 1 2, .message 3 [], .release 3 0], .waiting) := rfl
  rw [parsed, Prod.mk.injEq] at same
  exact ⟨rcc, ran, same⟩

/-- When the channel refuses a buffer the header stays where it is. -/
theorem refused_buffer_keeps_header :
    Not (forall (header : DataHeader) (cb : IncomingHandlerInterface Unit) (headerBuf : List UInt8) (reads : List Read)
      (calls : Nat) (rcc : RedChannelClient Unit) (past : List (Event Unit)) (type size : Nat),
      RedChannelClient.receives header cb calls (RedChannelClient.create headerBuf reads) = some rcc ->
        rcc.trace = past ++ [.alloc type size, .error] -> rcc.incoming.Initial) := by
  intro claim
  have final : RedChannelClient.receives .mini smallMessages 1
      (RedChannelClient.create [] [.chunk 1 [0, 5, 0, 0, 0]]) = some
        { stream := none
          incoming := { headerBuf := [1, 0, 5, 0, 0, 0], headerPos := 6, msg := none, msgPos := 0 }
          trace := [.alloc 1 5, .error]
          dangling := false } := rfl
  have initial := claim .mini smallMessages [] [.chunk 1 [0, 5, 0, 0, 0]] 1 _ [] 1 5 final rfl
  exact absurd initial.1 (by decide)

end Channel
end Spice
