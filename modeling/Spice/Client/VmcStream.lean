import Mathlib.Data.List.Basic
import Spice.Lib.Run

namespace Spice
namespace Client

open Lib

/-!
# The input stream of a port channel

`SpiceVmcInputStream` of `vmcstream.c`.  The coroutine of the channel feeds messages with
`spice_vmc_input_stream_co_data`, and the main loop reads bytes asynchronously.  A message and
the outstanding read are matched by a loop in the coroutine.  Without a read the coroutine
yields in the middle of the message, and the next read resumes it.

The buffer of a read is known by the bytes that were copied through `self->buffer`, which
moves forward with every copy.  A stream also records the bytes that were fed so far, and the
reads that ended so far with what was copied for them.  An operation that is impossible, such
as feeding while the coroutine is suspended in the middle of a message, does nothing.
-/

/-- A call of `read_async`, or of `read_all_async`.  The cancellable may be cancelled already. -/
structure ReadRequest where
  all : Bool
  count : Nat
  cancelled : Bool
  positive : 0 < count

/-- The result of a read: the size it returns, or an error. -/
inductive Ending
  | completed (size : Nat)
  | cancelled
deriving DecidableEq

/-- A read that ended, with the bytes that were copied for it. -/
structure EndedRead where
  all : Bool
  count : Nat
  written : List UInt8
  ending : Ending
deriving DecidableEq

/-- `self->coroutine`: `NULL`, a coroutine that waits for a read with the rest of a message, or
a coroutine that has left `spice_vmc_input_stream_co_data`. -/
inductive Coroutine
  | null
  | waiting (data : List UInt8)
  | gone
deriving DecidableEq

/-- A `SpiceVmcInputStream`.  `result` says whether `self->result` is set, `cancellable` whether
`self->cancellable` is set and whether it was cancelled.  `idle` counts the results that were
completed in idle and not finished yet. -/
structure InputStream where
  result : Bool
  all : Bool
  written : List UInt8
  count : Nat
  pos : Nat
  cancellable : Option Bool
  coroutine : Coroutine
  idle : Nat
  fed : List UInt8
  reads : List EndedRead
deriving DecidableEq

namespace InputStream

def init : InputStream where
  result := false
  all := false
  written := []
  count := 0
  pos := 0
  cancellable := none
  coroutine := .null
  idle := 0
  fed := []
  reads := []

/-- `memcpy` to the buffer, which moves on. -/
def copy (self : InputStream) (data : List UInt8) : InputStream :=
  { self with written := self.written ++ data, pos := self.pos + data.length }

/-- The read ends: its result is completed in idle. -/
def finishRead (self : InputStream) (ending : Ending) : InputStream :=
  { self with
    result := false
    idle := self.idle + 1
    reads := self.reads ++
      [{ all := self.all, count := self.count, written := self.written, ending := ending }] }

/-- The result is set to `self->pos`, and the cancellable is disconnected. -/
def complete (self : InputStream) : InputStream :=
  { self.finishRead (.completed self.pos) with cancellable := none }

/-- `read_cancelled`, which leaves the cancellable to the call of `_finish`. -/
def readCancelled (self : InputStream) : InputStream :=
  if self.result then { self.finishRead .cancelled with cancellable := some true }
  else { self with cancellable := some true }

/-- The loop of `spice_vmc_input_stream_co_data` until it ends or yields. -/
def coLoop : Nat -> InputStream -> List UInt8 -> Option InputStream
  | 0, _, _ => none
  | _ + 1, self, [] => some { self with coroutine := .null }
  | fuel + 1, self, byte :: rest =>
      if self.result then
        let data := byte :: rest
        let min := min self.count data.length
        let next := self.copy (data.take min)
        -- `min` is taken from `count`, whatever was copied for this read before
        if next.all && decide (0 < min) && decide (next.pos ≠ next.count) then
          coLoop fuel next (data.drop min)
        else coLoop fuel next.complete (data.drop min)
      else some { self with coroutine := .waiting (byte :: rest) }

/-- Run the loop with rounds enough. -/
def coRun (self : InputStream) (data : List UInt8) : Option InputStream :=
  coLoop (data.length + 1) self data

/-- A message arrives. -/
def receive (self : InputStream) (data : List UInt8) : InputStream :=
  { self with fed := self.fed ++ data }

def coData (self : InputStream) (data : List UInt8) : Option InputStream :=
  match self.coroutine with
  | .null => (self.receive data).coRun data
  | .waiting _ => some self
  -- `g_return_if_fail(self->coroutine == NULL)`
  | .gone => some (self.receive data)

def startRead (self : InputStream) (request : ReadRequest) : InputStream :=
  { self with
    result := true
    all := request.all
    written := []
    count := request.count
    pos := 0
    cancellable := some false }

/-- `coroutine_yieldto(self->coroutine, NULL)`. -/
def resume (self : InputStream) : Option InputStream :=
  match self.coroutine with
  | .null => some self
  -- `g_return_if_fail(self->result != NULL)` leaves `self->coroutine` set
  | .waiting data => if self.result then coRun self data else some { self with coroutine := .gone }
  | .gone => none

/-- `spice_vmc_input_stream_read_async` and `spice_vmc_input_stream_read_all_async`.  Connecting
a cancellable that is cancelled calls `read_cancelled` at once. -/
def readAsync (self : InputStream) (request : ReadRequest) : Option InputStream :=
  if self.result || self.cancellable.isSome then some self
  else
    let started := self.startRead request
    (if request.cancelled then started.readCancelled else started).resume

/-- `g_cancellable_cancel` on the cancellable of the stream. -/
def cancel (self : InputStream) : InputStream :=
  if self.cancellable = some false then self.readCancelled else self

/-- `spice_vmc_input_stream_read_finish` and `spice_vmc_input_stream_read_all_finish`, called
for a result that was completed. -/
def readFinish (self : InputStream) : InputStream :=
  if self.idle = 0 then self else { self with idle := self.idle - 1, cancellable := none }

end InputStream

inductive StreamOp
  | data (bytes : List UInt8)
  | read (request : ReadRequest)
  | cancel
  | finish

/-- One operation. -/
def vmcStep (stream : InputStream) : StreamOp -> Option InputStream
  | .data bytes => stream.coData bytes
  | .read request => stream.readAsync request
  | .cancel => some stream.cancel
  | .finish => some stream.readFinish

/-! ## What a faithful stream is -/

/-- A read got no more than it has room for.  A read that completed returns what was copied, at
least one byte, and all of `count` if it was to read all. -/
structure EndedRead.Exact (read : EndedRead) : Prop where
  within : read.written.length ≤ read.count
  returned : forall size, read.ending = .completed size ->
    size = read.written.length ∧ 1 ≤ size ∧ (read.all = true -> size = read.count)

variable {stream : InputStream}

namespace InputStream

/-- What was copied for reads that ended, in order. -/
def delivered (stream : InputStream) : List UInt8 := stream.reads.flatMap EndedRead.written

/-- What was copied for the outstanding read. -/
def pending (stream : InputStream) : List UInt8 := if stream.result then stream.written else []

/-- The rest of the message the coroutine waits with. -/
def held (stream : InputStream) : List UInt8 :=
  match stream.coroutine with
  | .waiting data => data
  | _ => []

/-- No read has more than `count` bytes written to its buffer, completed reads return what they
have to, and the bytes that were fed are those copied for the reads, one read after another,
and then those still to come.  Only a cancelled read loses bytes, and only those that were
copied for it. -/
structure Faithful (stream : InputStream) : Prop where
  ended : forall read, read ∈ stream.reads -> read.Exact
  outstanding : stream.result = true -> stream.written.length ≤ stream.count
  inOrder : stream.fed = stream.delivered ++ stream.pending ++ stream.held

/-- The bytes completed reads returned. -/
def returned (stream : InputStream) : List UInt8 :=
  (stream.reads.filter fun read => read.ending ≠ .cancelled).flatMap EndedRead.written

theorem Faithful.returned_prefix (faithful : stream.Faithful)
    (noCancel : forall read, read ∈ stream.reads -> read.ending ≠ .cancelled) : stream.returned <+: stream.fed := by
  have all : stream.reads.filter (fun read => read.ending ≠ .cancelled) = stream.reads := by
    apply List.filter_eq_self.mpr
    intro read member
    exact decide_eq_true (noCancel read member)
  refine ⟨stream.pending ++ stream.held, ?_⟩
  rw [faithful.inOrder, returned, all, delivered, List.append_assoc]

end InputStream

/-- The operation meets no defect.  A message that reaches a read which already has some of its
bytes is not larger than the room that is left in its buffer, and no read starts with a
cancelled cancellable while the coroutine waits. -/
def StreamFits (stream : InputStream) : StreamOp -> Prop
  | .data bytes => stream.coroutine = .null -> stream.result = true -> 0 < stream.pos ->
      bytes.length ≤ stream.count - stream.pos
  | .read request => request.cancelled = true -> stream.result = false -> stream.cancellable = none ->
      stream.held = []
  | .cancel => True
  | .finish => True

namespace InputStream

/-- What holds of a stream while the loop has `rest` still to copy. -/
structure Holds (stream : InputStream) (rest : List UInt8) : Prop where
  ended : forall read, read ∈ stream.reads -> read.Exact
  copied : stream.result = true -> stream.written.length = stream.pos
  room : stream.result = true -> stream.pos < stream.count
  atStart : stream.result = true -> stream.all = false -> stream.pos = 0
  inOrder : stream.fed = stream.delivered ++ stream.pending ++ rest

/-- What holds between operations. -/
structure Inv (stream : InputStream) : Prop where
  holds : stream.Holds stream.held
  waits : forall data, stream.coroutine = .waiting data -> stream.result = false ∧ data ≠ []
  present : stream.coroutine ≠ .gone

theorem init_inv : init.Inv where
  holds :=
    { ended := fun read member => by cases member
      copied := fun outstanding => by cases outstanding
      room := fun outstanding => by cases outstanding
      atStart := fun outstanding => by cases outstanding
      inOrder := rfl }
  waits := fun data waiting => by cases waiting
  present := fun gone => by cases gone

theorem Inv.faithful (inv : stream.Inv) : stream.Faithful where
  ended := inv.holds.ended
  outstanding := fun outstanding => by
    have copied := inv.holds.copied outstanding
    have room := inv.holds.room outstanding
    omega
  inOrder := inv.holds.inOrder

theorem delivered_finishRead (stream : InputStream) (ending : Ending) :
    (stream.finishRead ending).delivered = stream.delivered ++ stream.written := by
  simp [delivered, finishRead]

variable {rest : List UInt8}

/-- A read that ended exactly leaves the rest. -/
theorem Holds.finishRead {ending : Ending}
    (holds : stream.Holds rest) (outstanding : stream.result = true)
    (exact : EndedRead.Exact
      { all := stream.all, count := stream.count, written := stream.written, ending := ending }) :
    (stream.finishRead ending).Holds rest where
  ended := by
    intro read member
    rcases List.mem_append.mp member with old | new
    · exact holds.ended read old
    · rw [List.mem_singleton.mp new]
      exact exact
  copied := fun impossible => by cases impossible
  room := fun impossible => by cases impossible
  atStart := fun impossible => by cases impossible
  inOrder := by
    have before := holds.inOrder
    rw [pending, if_pos outstanding] at before
    rw [delivered_finishRead]
    show stream.fed = stream.delivered ++ stream.written ++ [] ++ rest
    rw [before, List.append_nil]

/-! ## The loop of the coroutine -/

/-- The room left for the message in a read that has bytes already. -/
def RoomFor (stream : InputStream) (data : List UInt8) : Prop :=
  stream.result = true -> 0 < stream.pos -> data.length ≤ stream.count - stream.pos

theorem copy_pos (stream : InputStream) (data : List UInt8) :
    (stream.copy (data.take (min stream.count data.length))).pos =
      stream.pos + min stream.count data.length := by
  show stream.pos + (data.take (min stream.count data.length)).length = _
  rw [List.length_take, Nat.min_eq_left (Nat.min_le_right _ _)]

/-- The test on which the loop copies on for the same read. -/
def Loops (stream : InputStream) (data : List UInt8) : Prop :=
  stream.all = true ∧ 0 < min stream.count data.length ∧
    stream.pos + min stream.count data.length ≠ stream.count

theorem loops_iff (stream : InputStream) (data : List UInt8) :
    (stream.all && decide (0 < min stream.count data.length) &&
      decide ((stream.copy (data.take (min stream.count data.length))).pos ≠ stream.count)) = true <->
        stream.Loops data := by
  rw [Bool.and_eq_true, Bool.and_eq_true, decide_eq_true_eq, decide_eq_true_eq, and_assoc, copy_pos]
  exact Iff.rfl

theorem coLoop_more {byte : UInt8} (fuel : Nat) (outstanding : stream.result = true)
    (loops : stream.Loops (byte :: rest)) :
    coLoop (fuel + 1) stream (byte :: rest) =
      coLoop fuel (stream.copy ((byte :: rest).take (min stream.count (byte :: rest).length)))
        ((byte :: rest).drop (min stream.count (byte :: rest).length)) := by
  rw [coLoop, if_pos outstanding]
  exact if_pos ((stream.loops_iff _).mpr loops)

theorem coLoop_complete {byte : UInt8} (fuel : Nat)
    (outstanding : stream.result = true) (stops : Not (stream.Loops (byte :: rest))) : coLoop (fuel + 1) stream
    (byte :: rest) =
      coLoop fuel (stream.copy ((byte :: rest).take (min stream.count (byte :: rest).length))).complete
        ((byte :: rest).drop (min stream.count (byte :: rest).length)) := by
  rw [coLoop, if_pos outstanding]
  exact if_neg (fun loops => stops ((stream.loops_iff _).mp loops))

variable {data : List UInt8}

theorem Holds.copy_inOrder (holds : stream.Holds data) (outstanding : stream.result = true) (size : Nat) :
    stream.fed = stream.delivered ++ (stream.copy (data.take size)).written ++ data.drop size := by
  have before := holds.inOrder
  rw [pending, if_pos outstanding] at before
  show stream.fed = stream.delivered ++ (stream.written ++ data.take size) ++ data.drop size
  rw [before, List.append_assoc, List.append_assoc, List.append_assoc, List.take_append_drop]

/-- A part of what a read wants is copied. -/
theorem Holds.copy_more (holds : stream.Holds data)
    (outstanding : stream.result = true) (roomFor : stream.RoomFor data) (all : stream.all = true)
    (notFull : stream.pos + min stream.count data.length ≠ stream.count) :
    (stream.copy (data.take (min stream.count data.length))).Holds (data.drop (min stream.count data.length)) where
  ended := holds.ended
  copied := fun _ => by
    have copied := holds.copied outstanding
    simp only [copy, List.length_append, copied]
  room := fun _ => by
    have room := holds.room outstanding
    have left := roomFor outstanding
    rw [copy_pos]
    show stream.pos + min stream.count data.length < stream.count
    omega
  atStart := fun _ notAll => by
    have impossible : true = false := all.symm.trans notAll
    cases impossible
  inOrder := by
    show stream.fed = stream.delivered ++ pending (stream.copy _) ++ _
    rw [pending, if_pos (show (stream.copy _).result = true from outstanding)]
    exact holds.copy_inOrder outstanding _

/-- The read has what it wants. -/
theorem Holds.copy_complete (holds : stream.Holds data) (outstanding : stream.result = true) (some : data ≠ [])
    (full : stream.all = true -> stream.pos + min stream.count data.length = stream.count) :
    (stream.copy (data.take (min stream.count data.length))).complete.Holds
      (data.drop (min stream.count data.length)) := by
  have copied := holds.copied outstanding
  have room := holds.room outstanding
  have atStart := holds.atStart outstanding
  have nonempty : 0 < data.length := List.length_pos_iff.mpr some
  have within : stream.pos + min stream.count data.length ≤ stream.count := by
    cases all : stream.all with
    | false =>
        have zero := atStart all
        omega
    | true => exact Nat.le_of_eq (full all)
  have size : (stream.copy (data.take (min stream.count data.length))).written.length =
      stream.pos + min stream.count data.length := by
    simp only [copy, List.length_append, List.length_take, copied]
    omega
  refine
    { ended := ?_
      copied := fun impossible => by cases impossible
      room := fun impossible => by cases impossible
      atStart := fun impossible => by cases impossible
      inOrder := ?_ }
  · intro read member
    rcases List.mem_append.mp member with old | new
    · exact holds.ended read old
    · rw [List.mem_singleton.mp new]
      refine ⟨size ▸ within, ?_⟩
      rintro returned ending
      cases ending
      rw [copy_pos]
      refine ⟨size.symm, by omega, fun all => full all⟩
  · show stream.fed = ((stream.copy _).finishRead _).delivered ++ [] ++ _
    rw [delivered_finishRead, List.append_nil]
    exact holds.copy_inOrder outstanding _

/-- The loop ends or yields, and everything holds then. -/
theorem coLoop_spec : forall (fuel : Nat) (stream : InputStream) (data : List UInt8),
    data.length < fuel -> stream.Holds data -> stream.RoomFor data ->
      Exists fun next => coLoop fuel stream data = some next ∧ next.Inv := by
  intro fuel
  induction fuel with
  | zero => intro stream data enough; omega
  | succ fuel ih =>
      intro stream data enough holds roomFor
      cases data with
      | nil =>
          refine ⟨_, rfl, ⟨⟨holds.ended, holds.copied, holds.room, holds.atStart, holds.inOrder⟩, ?_, ?_⟩⟩
          · intro data waiting
            cases waiting
          · intro gone
            cases gone
      | cons byte rest =>
          cases outstanding : stream.result with
          | false =>
              refine ⟨{ stream with coroutine := .waiting (byte :: rest) }, ?_, ?_⟩
              · simp only [coLoop, outstanding, Bool.false_eq_true, if_false]
              · refine ⟨⟨holds.ended, holds.copied, holds.room, holds.atStart, holds.inOrder⟩, ?_, ?_⟩
                · intro data waiting
                  cases waiting
                  exact ⟨outstanding, List.cons_ne_nil byte rest⟩
                · intro gone
                  cases gone
          | true =>
              have room := holds.room outstanding
              have left := roomFor outstanding
              have nonempty : 0 < (byte :: rest).length := Nat.succ_pos _
              have shorter : ((byte :: rest).drop (min stream.count (byte :: rest).length)).length < fuel := by
                rw [List.length_drop]
                omega
              by_cases loops : stream.Loops (byte :: rest)
              · have again := holds.copy_more outstanding roomFor loops.1 loops.2.2
                have notFull := loops.2.2
                -- a message that leaves room in the read is used up
                have usedUp : (byte :: rest).drop (min stream.count (byte :: rest).length) = [] := by
                  apply List.drop_eq_nil_of_le
                  omega
                rw [coLoop_more fuel outstanding loops]
                refine ih _ _ shorter again ?_
                intro _ _
                rw [usedUp]
                exact Nat.zero_le _
              · have full : stream.all = true ->
                    stream.pos + min stream.count (byte :: rest).length = stream.count :=
                  fun all => not_not.mp (fun notFull => loops ⟨all, by omega, notFull⟩)
                rw [coLoop_complete fuel outstanding loops]
                refine ih _ _ shorter
                  (holds.copy_complete outstanding (List.cons_ne_nil byte rest) full) ?_
                intro impossible
                cases impossible

/-- A `read_all` that has more bytes than its buffer holds never completes: the loop goes on
writing behind the buffer. -/
structure Overrun (stream : InputStream) : Prop where
  outstanding : stream.result = true
  positive : 0 < stream.count
  all : stream.all = true
  beyond : stream.count < stream.pos
  copied : stream.written.length = stream.pos

theorem Overrun.copy (overrun : stream.Overrun) (data : List UInt8) :
    (stream.copy (data.take (min stream.count data.length))).Overrun where
  outstanding := overrun.outstanding
  positive := overrun.positive
  all := overrun.all
  beyond := by
    have beyond := overrun.beyond
    rw [copy_pos]
    exact Nat.lt_of_lt_of_le beyond (Nat.le_add_right _ _)
  copied := by
    show (stream.written ++ _).length = stream.pos + _
    rw [List.length_append, overrun.copied]

/-- The loop does not come back from an overrun. -/
theorem Overrun.coLoop : forall (fuel : Nat) (stream next : InputStream) (data : List UInt8),
    stream.Overrun -> InputStream.coLoop fuel stream data = some next -> next.Overrun := by
  intro fuel
  induction fuel with
  | zero => intro stream next data _ ran; cases ran
  | succ fuel ih =>
      intro stream next data overrun ran
      cases data with
      | nil =>
          cases ran
          exact ⟨overrun.outstanding, overrun.positive, overrun.all, overrun.beyond, overrun.copied⟩
      | cons byte rest =>
          have beyond := overrun.beyond
          have positive := overrun.positive
          have nonempty : 0 < (byte :: rest).length := Nat.succ_pos _
          have loops : stream.Loops (byte :: rest) := ⟨overrun.all, by omega, by omega⟩
          rw [coLoop_more fuel overrun.outstanding loops] at ran
          exact ih _ _ _ (overrun.copy (byte :: rest)) ran

theorem Overrun.not_faithful (overrun : stream.Overrun) : Not stream.Faithful := by
  intro faithful
  have within := faithful.outstanding overrun.outstanding
  have copied := overrun.copied
  have beyond := overrun.beyond
  omega

/-! ## The operations -/

theorem Holds.receive (holds : stream.Holds []) (data : List UInt8) : (stream.receive data).Holds data where
  ended := holds.ended
  copied := holds.copied
  room := holds.room
  atStart := holds.atStart
  inOrder := by
    have before := holds.inOrder
    show stream.fed ++ data = stream.delivered ++ stream.pending ++ data
    rw [before, List.append_nil]

theorem coData_null (null : stream.coroutine = .null) (data : List UInt8) :
    stream.coData data = (stream.receive data).coRun data := by
  rw [coData, null]

theorem Inv.coData (inv : stream.Inv) (fits : StreamFits stream (.data data)) :
    Exists fun next => stream.coData data = some next ∧ next.Inv := by
  cases coroutine : stream.coroutine with
  | null =>
      have holds := inv.holds
      rw [held, coroutine] at holds
      rw [coData_null coroutine]
      exact coLoop_spec _ _ _ (Nat.lt_succ_self _) (holds.receive data) (fits coroutine)
  | waiting rest =>
      refine ⟨stream, ?_, inv⟩
      rw [InputStream.coData, coroutine]
  | gone => exact absurd coroutine inv.present

theorem Holds.startRead (holds : stream.Holds rest)
    (idle : stream.result = false) (request : ReadRequest) : (stream.startRead request).Holds rest where
  ended := holds.ended
  copied := fun _ => rfl
  room := fun _ => request.positive
  atStart := fun _ _ => rfl
  inOrder := by
    have before := holds.inOrder
    rw [pending, if_neg (by rw [idle]; exact Bool.false_ne_true)] at before
    exact before

theorem Holds.readCancelled (holds : stream.Holds rest)
    (outstanding : stream.result = true) : stream.readCancelled.Holds rest := by
  have room := holds.room outstanding
  have copied := holds.copied outstanding
  have exact : EndedRead.Exact
      { all := stream.all, count := stream.count, written := stream.written, ending := .cancelled } := by
    refine ⟨?_, fun size impossible => by cases impossible⟩
    show stream.written.length ≤ stream.count
    omega
  have ended := holds.finishRead outstanding exact
  rw [InputStream.readCancelled, if_pos outstanding]
  exact ⟨ended.ended, ended.copied, ended.room, ended.atStart, ended.inOrder⟩

theorem coroutine_readCancelled (stream : InputStream) : stream.readCancelled.coroutine = stream.coroutine := by
  unfold readCancelled
  split <;> rfl

theorem result_readCancelled (stream : InputStream) : stream.readCancelled.result = false := by
  unfold readCancelled
  by_cases outstanding : stream.result = true
  · rw [if_pos outstanding]
    rfl
  · rw [if_neg outstanding]
    exact Bool.eq_false_iff.mpr outstanding

theorem Holds.inv_of_null (holds : stream.Holds []) (null : stream.coroutine = .null) : stream.Inv where
  holds := by rwa [held, null]
  waits := fun data waiting => by
    rw [null] at waiting
    cases waiting
  present := fun gone => by
    rw [null] at gone
    cases gone

/-- The stream once a read was set up and its cancellable connected. -/
def connected (stream : InputStream) (request : ReadRequest) : InputStream :=
  if request.cancelled then (stream.startRead request).readCancelled else stream.startRead request

theorem coroutine_connected (stream : InputStream) (request : ReadRequest) :
    (stream.connected request).coroutine = stream.coroutine := by
  unfold connected
  split
  · rw [coroutine_readCancelled]
    rfl
  · rfl

theorem Holds.connected (holds : stream.Holds rest)
    (idle : stream.result = false) (request : ReadRequest) : (stream.connected request).Holds rest := by
  unfold InputStream.connected
  split
  · exact (holds.startRead idle request).readCancelled rfl
  · exact holds.startRead idle request

theorem readAsync_refused (request : ReadRequest) (busy : stream.result = true ∨ stream.cancellable.isSome = true) :
    stream.readAsync request = some stream := by
  rw [readAsync, if_pos (by rwa [Bool.or_eq_true])]

theorem readAsync_accepted (request : ReadRequest) (idle : stream.result = false) (free : stream.cancellable = none) :
    stream.readAsync request = (stream.connected request).resume := by
  rw [readAsync, if_neg (by rw [idle, free]; exact Bool.false_ne_true)]
  rfl

/-- A read starts, and takes what is there. -/
theorem Inv.readAsync (inv : stream.Inv) {request : ReadRequest} (fits : StreamFits stream (.read request)) :
    Exists fun next => stream.readAsync request = some next ∧ next.Inv := by
  by_cases busy : stream.result = true ∨ stream.cancellable.isSome = true
  · exact ⟨stream, readAsync_refused request busy, inv⟩
  · have idle : stream.result = false := Bool.eq_false_iff.mpr (fun outstanding => busy (Or.inl outstanding))
    have free : stream.cancellable = none :=
      Option.not_isSome_iff_eq_none.mp (fun set => busy (Or.inr set))
    rw [readAsync_accepted request idle free, resume, coroutine_connected]
    have holds := inv.holds
    cases coroutine : stream.coroutine with
    | null =>
        rw [held, coroutine] at holds
        have null := (stream.coroutine_connected request).trans coroutine
        exact ⟨_, rfl, (holds.connected idle request).inv_of_null null⟩
    | waiting rest =>
        rw [held, coroutine] at holds
        have live : request.cancelled = false := by
          apply Bool.eq_false_iff.mpr
          intro cancelled
          have empty := fits cancelled idle free
          rw [held, coroutine] at empty
          exact (inv.waits rest coroutine).2 empty
        have started : stream.connected request = stream.startRead request := by
          rw [InputStream.connected, if_neg (by rw [live]; exact Bool.false_ne_true)]
        rw [started]
        show Exists fun next => coRun (stream.startRead request) rest = some next ∧ next.Inv
        refine coLoop_spec _ _ _ (Nat.lt_succ_self _) (holds.startRead idle request) ?_
        intro _ impossible
        exact absurd impossible (Nat.lt_irrefl 0)
    | gone => exact absurd coroutine inv.present

/-- A read is cancelled. -/
theorem Inv.cancel (inv : stream.Inv) : stream.cancel.Inv := by
  unfold InputStream.cancel
  split
  · by_cases outstanding : stream.result = true
    · have holds := inv.holds.readCancelled outstanding
      refine ⟨?_, ?_, ?_⟩
      · rwa [held, coroutine_readCancelled]
      · intro data waiting
        rw [coroutine_readCancelled] at waiting
        exact ⟨result_readCancelled stream, (inv.waits data waiting).2⟩
      · rw [coroutine_readCancelled]
        exact inv.present
    · rw [InputStream.readCancelled, if_neg outstanding]
      have holds := inv.holds
      exact ⟨⟨holds.ended, holds.copied, holds.room, holds.atStart, holds.inOrder⟩, inv.waits, inv.present⟩
  · exact inv

theorem Inv.readFinish (inv : stream.Inv) : stream.readFinish.Inv := by
  unfold InputStream.readFinish
  split
  · exact inv
  · have holds := inv.holds
    exact ⟨⟨holds.ended, holds.copied, holds.room, holds.atStart, holds.inOrder⟩, inv.waits, inv.present⟩

theorem Inv.step (inv : stream.Inv) (op : StreamOp) (fits : StreamFits stream op) :
    Exists fun next => vmcStep stream op = some next ∧ next.Inv := by
  cases op with
  | data bytes => exact inv.coData fits
  | read request => exact inv.readAsync fits
  | cancel => exact ⟨stream.cancel, rfl, inv.cancel⟩
  | finish => exact ⟨stream.readFinish, rfl, inv.readFinish⟩

/-! ## The defects -/

/-- After an overrun nothing is right any more. -/
theorem Inv.overrun {stream next : InputStream} (inv : stream.Inv)
    (null : stream.coroutine = .null) (outstanding : stream.result = true) (partly : 0 < stream.pos)
    (larger : stream.count - stream.pos < data.length) (stepped : stream.coData data = some next) : next.Overrun := by
  have room := inv.holds.room outstanding
  have all : stream.all = true := by
    cases all : stream.all with
    | true => rfl
    | false =>
        have zero := inv.holds.atStart outstanding all
        omega
  rw [coData_null null] at stepped
  cases data with
  | nil => exact absurd larger (Nat.not_lt_zero _)
  | cons byte rest =>
      have loops : (stream.receive (byte :: rest)).Loops (byte :: rest) := by
        refine ⟨all, ?_, ?_⟩
        · show 0 < min stream.count (byte :: rest).length
          omega
        · show stream.pos + min stream.count (byte :: rest).length ≠ stream.count
          omega
      have received : (stream.receive (byte :: rest)).result = true := outstanding
      rw [coRun, coLoop_more (byte :: rest).length received loops] at stepped
      refine Overrun.coLoop _ _ _ _ ?_ stepped
      refine ⟨outstanding, by show 0 < stream.count; omega, all, ?_, ?_⟩
      · rw [copy_pos]
        show stream.count < stream.pos + min stream.count (byte :: rest).length
        omega
      · have copied := inv.holds.copied outstanding
        show (stream.written ++ _).length = stream.pos + _
        rw [List.length_append, copied]

/-- A cancelled read drops the bytes that it had. -/
theorem Inv.dropped {stream next : InputStream} (inv : stream.Inv) {request : ReadRequest}
    (cancelled : request.cancelled = true) (idle : stream.result = false)
    (free : stream.cancellable = none) (stepped : stream.readAsync request = some next)
    (faithful : next.Faithful) : stream.held = [] := by
  cases coroutine : stream.coroutine with
  | null => rw [held, coroutine]
  | gone => rw [held, coroutine]
  | waiting rest =>
      have connectedEq : stream.connected request = (stream.startRead request).readCancelled :=
        if_pos cancelled
      rw [readAsync_accepted request idle free, resume, coroutine_connected, coroutine, connectedEq] at stepped
      simp only [result_readCancelled, Bool.false_eq_true, if_false, Option.some.injEq] at stepped
      subst stepped
      have after := faithful.inOrder
      have before := ((inv.holds.startRead idle request).readCancelled rfl).inOrder
      have same : (stream.startRead request).readCancelled.delivered ++
            (stream.startRead request).readCancelled.pending ++ stream.held =
          (stream.startRead request).readCancelled.delivered ++
            (stream.startRead request).readCancelled.pending ++ [] := before.symm.trans after
      exact List.append_cancel_left same

theorem Inv.needed {stream next : InputStream} (inv : stream.Inv) (op : StreamOp)
    (stepped : vmcStep stream op = some next) (faithful : next.Faithful) : StreamFits stream op := by
  cases op with
  | data bytes =>
      intro null outstanding partly
      by_contra larger
      exact (inv.overrun null outstanding partly (Nat.lt_of_not_le larger) stepped).not_faithful faithful
  | read request =>
      intro cancelled idle free
      exact inv.dropped cancelled idle free stepped faithful
  | cancel => trivial
  | finish => trivial

end InputStream

/-- The stream is faithful all along a run exactly if the run meets no defect. -/
theorem vmcInputStream_faithful_iff (ops : List StreamOp) :
    AllStates vmcStep (fun _ stream => stream.Faithful) [] InputStream.init ops <->
      Meets vmcStep (fun _ stream op => StreamFits stream op) [] InputStream.init ops := by
  apply @allStates_iff_meets InputStream StreamOp vmcStep (fun _ stream op => StreamFits stream op)
    (fun _ stream => stream.Inv) (fun _ stream => stream.Faithful) (fun _ _ => True)
  · exact fun _ _ inv => inv.faithful
  · exact fun _ _ op inv _ fits => inv.step op fits
  · exact fun _ _ op _ inv _ stepped faithful => inv.needed op stepped faithful
  · exact InputStream.init_inv
  · exact fun _ _ _ _ => trivial

/-- A `read_all` of four bytes that got three of them in a first message. -/
def partlyFilled : List StreamOp :=
  [.read { all := true, count := 4, cancelled := false, positive := by decide }, .data [1, 2, 3],
    .data [4, 5, 6]]

/-- The second message is copied whole: six bytes in a buffer of four. -/
theorem vmcInputStream_overruns : Not (forall ops : List StreamOp,
    AllStates vmcStep (fun _ stream => stream.Faithful) [] InputStream.init ops) := by
  intro all
  rcases all partlyFilled partlyFilled (List.prefix_refl _) with ⟨final, ran, faithful⟩
  have within := faithful.outstanding
  cases ran
  exact absurd (within rfl) (by decide)

end Client
end Spice
