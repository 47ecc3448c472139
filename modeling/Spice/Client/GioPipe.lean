import Spice.Lib.Run

namespace Spice
namespace Client
namespace GioPipe

open Lib

/-!
# The pipe of two streams

A write on the pipe takes three steps: the writer publishes its buffer and blocks, the
reader copies from the buffer and notes how much, and the writer comes again with the same
buffer and is told the count.  Both wait on sources, which are set ready when the other side
has changed what `is_readable` and `is_writable` look at.
-/

structure Source where
  destroyed : Bool
  ready : Bool

/-- A buffer of the writer: where it is, and its `count` bytes. -/
structure Buffer where
  address : Nat
  bytes : List UInt8

structure PipeInputStream where
  closed : Bool
  peerClosed : Bool
  read : Option Nat
  sources : List Source

structure PipeOutputStream where
  closed : Bool
  peerClosed : Bool
  buffer : Option Buffer
  sources : List Source

/-- Both streams, the write the writer will come again with, the bytes reads returned and the bytes reported as written.
-/
structure Pipe where
  input : PipeInputStream
  output : PipeOutputStream
  waiting : Option Buffer
  returned : List UInt8
  reported : List UInt8

def makeGioPipe : Pipe := ⟨⟨false, false, none, []⟩, ⟨false, false, none, []⟩, none, [], []⟩

/-- `set_all_sources_ready`, which removes the destroyed ones. -/
def setAllSourcesReady (sources : List Source) : List Source :=
  (sources.filter fun source => !source.destroyed).map fun source => { source with
    ready := true }

namespace Pipe

variable (pipe : Pipe)

def isReadable : Bool := (pipe.output.buffer.isSome && pipe.input.read.isNone) || pipe.input.peerClosed

def isWritable : Bool := pipe.output.buffer.isNone || pipe.input.read.isSome

def setInputSources (sources : List Source) : Pipe :=
  { pipe with
    input := { pipe.input with
      sources := sources } }

def setOutputSources (sources : List Source) : Pipe :=
  { pipe with
    output := { pipe.output with
      sources := sources } }

def inputCheckSource : Pipe :=
  if pipe.isReadable then pipe.setInputSources (setAllSourcesReady pipe.input.sources) else pipe

def outputCheckSource : Pipe :=
  if pipe.isWritable then pipe.setOutputSources (setAllSourcesReady pipe.output.sources) else pipe

def setInputClosed : Pipe :=
  { pipe with
    input := { pipe.input with
      closed := true } }

def setOutputClosed : Pipe :=
  { pipe with
    output := { pipe.output with
      closed := true } }

def setInputPeerClosed : Pipe :=
  { pipe with
    input := { pipe.input with
      peerClosed := true } }

def setOutputPeerClosed : Pipe :=
  { pipe with
    output := { pipe.output with
      peerClosed := true } }

def inputRead (count : Nat) : Pipe :=
  if count = 0 ∨ pipe.input.closed = true ∨ pipe.input.peerClosed = true then pipe
  else
    match pipe.output.buffer with
    | none => pipe
    | some buffer =>
        outputCheckSource { pipe with
          input := { pipe.input with
            read := some (min buffer.bytes.length count) }
          output := { pipe.output with
            buffer := none }
          returned := pipe.returned ++ buffer.bytes.take (min buffer.bytes.length count) }

/-- `pipe_output_stream_write`; it fails at its check of the buffer and at the assertion. -/
def outputWrite (buffer : Buffer) : Option Pipe :=
  if pipe.output.closed = true ∨ pipe.output.peerClosed = true then some pipe
  else if pipe.output.buffer.all fun published => published.address = buffer.address then
    let pipe := inputCheckSource { pipe with
      output := { pipe.output with
        buffer := some buffer } }
    match pipe.input.read with
    | none =>
        some { pipe with
          waiting := some buffer }
    | some read =>
        if read ≤ buffer.bytes.length then
          some { pipe with
            input := { pipe.input with
              read := none }
            output := { pipe.output with
              buffer := none }
            waiting := none
            reported := pipe.reported ++ buffer.bytes.take read }
        else none
  else none

/-- The writer comes again with what it has, and more, or with something new. -/
def nextBuffer (address : Nat) (more : List UInt8) : Buffer :=
  match pipe.waiting with
  | none => ⟨address, more⟩
  | some waiting => ⟨waiting.address, waiting.bytes ++ more⟩

/-- Nothing is written without a byte. -/
def write (address : Nat) (more : List UInt8) : Option Pipe :=
  if (pipe.nextBuffer address more).bytes = [] then some pipe else pipe.outputWrite (pipe.nextBuffer address more)

/-- `pipe_input_stream_close`.  Closing a stream does nothing if it is closed, and is refused while an operation is
pending on it: on the input, the close that called, and on the output, if `busy`. -/
def inputClose (busy : Bool) : Pipe :=
  if pipe.input.closed = true then pipe
  else
    let pipe := pipe.setOutputPeerClosed
    let pipe :=
      if busy = true ∨ pipe.output.closed = true then pipe else pipe.setInputPeerClosed.inputCheckSource.setOutputClosed
    pipe.outputCheckSource.setInputClosed

def outputClose (busy : Bool) : Pipe :=
  if pipe.output.closed = true then pipe
  else
    let pipe := pipe.setInputPeerClosed
    let pipe :=
      if busy = true ∨ pipe.input.closed = true then pipe else pipe.setOutputPeerClosed.outputCheckSource.setInputClosed
    pipe.inputCheckSource.setOutputClosed

end Pipe

def destroy (sources : List Source) (index : Nat) : List Source :=
  sources.modify index fun source => { source with
    destroyed := true }

inductive Op
  | write (address : Nat) (more : List UInt8)
  | read (count : Nat)
  | inputCreateSource
  | outputCreateSource
  | inputDestroySource (index : Nat)
  | outputDestroySource (index : Nat)
  | inputClose (busy : Bool)
  | outputClose (busy : Bool)

def step (pipe : Pipe) : Op -> Option Pipe
  | .write address more => pipe.write address more
  | .read count => some (pipe.inputRead count)
  | .inputCreateSource => some (pipe.setInputSources (⟨false, false⟩ :: pipe.input.sources))
  | .outputCreateSource => some (pipe.setOutputSources (⟨false, false⟩ :: pipe.output.sources))
  | .inputDestroySource index => some (pipe.setInputSources (destroy pipe.input.sources index))
  | .outputDestroySource index => some (pipe.setOutputSources (destroy pipe.output.sources index))
  | .inputClose busy => some (pipe.inputClose busy)
  | .outputClose busy => some (pipe.outputClose busy)

/-! ## What is expected of the pipe -/

/-- The sources that somebody waits on are set ready. -/
def Woken (sources : List Source) : Prop :=
  forall source, source ∈ sources -> source.destroyed = false -> source.ready = true

namespace Pipe

variable (pipe : Pipe)

def CouldRead : Prop := pipe.input.peerClosed = true ∨ pipe.output.buffer ≠ none

/-- The writer would not have to wait. -/
def CouldWrite : Prop := pipe.output.peerClosed = true ∨ pipe.isWritable = true

/-- The chunk read but not yet reported. -/
def chunk : List UInt8 :=
  match pipe.input.read, pipe.waiting with
  | some read, some waiting => waiting.bytes.take read
  | _, _ => []

structure Safe : Prop where
  stream : pipe.returned = pipe.reported ++ pipe.chunk
  reader : pipe.CouldRead -> Woken pipe.input.sources
  writer : pipe.CouldWrite -> Woken pipe.output.sources

/-- A source is created while the stream is not ready, and closing finds no source of the writer waiting for a buffer to
be read. -/
def Kept : Op -> Prop
  | .inputCreateSource => ¬ pipe.CouldRead
  | .outputCreateSource => ¬ pipe.CouldWrite
  | .inputClose _ => pipe.input.closed = false -> pipe.isWritable = true ∨ Woken pipe.output.sources
  | .outputClose busy => pipe.output.closed = false -> pipe.input.closed = false -> busy = false ->
      pipe.isWritable = true ∨ Woken pipe.output.sources
  | _ => True

/-- The writer waits with the buffer that is published, and with a count not below what was read of it. -/
structure Meeting : Prop where
  stream : pipe.returned = pipe.reported ++ pipe.chunk
  published : forall buffer, pipe.output.buffer = some buffer -> pipe.waiting = some buffer ∧ pipe.input.read = none
  unreported : forall read, pipe.input.read = some read -> Exists fun waiting => pipe.waiting = some waiting ∧
    read ≤ waiting.bytes.length

structure Inv : Prop where
  meeting : pipe.Meeting
  reader : pipe.CouldRead -> Woken pipe.input.sources
  writer : pipe.CouldWrite -> Woken pipe.output.sources

end Pipe

/-! ## Sources -/

theorem woken_setAllSourcesReady (sources : List Source) : Woken (setAllSourcesReady sources) := by
  intro source member _
  unfold setAllSourcesReady at member
  rcases List.mem_map.mp member with ⟨before, _, rfl⟩
  rfl

theorem Woken.destroy {sources : List Source} (woken : Woken sources) (index : Nat) :
    Woken (destroy sources index) := by
  intro source member alive
  rcases List.getElem_of_mem member with ⟨place, inside, rfl⟩
  unfold GioPipe.destroy at inside alive ⊢
  rw [List.getElem_modify] at alive ⊢
  split at alive
  · contradiction
  · next other =>
    rw [if_neg other]
    exact woken _ (List.getElem_mem _) alive

theorem woken_destroy {sources : List Source} {ready : Prop} (woken : ready -> Woken sources) (index : Nat) :
    ready -> Woken (destroy sources index) := fun isReady => (woken isReady).destroy index

theorem not_woken_create (sources : List Source) : ¬ Woken (⟨false, false⟩ :: sources) :=
  fun woken => Bool.false_ne_true (woken _ List.mem_cons_self rfl)

namespace Pipe

variable {pipe : Pipe}

theorem Inv.safe (inv : pipe.Inv) : pipe.Safe := ⟨inv.meeting.stream, inv.reader, inv.writer⟩

/-- Setting sources ready changes nothing else. -/
theorem inputCheckSource_spec (pipe : Pipe) :
    Exists fun sources => pipe.inputCheckSource = pipe.setInputSources sources ∧
    (pipe.isReadable = true ∨ Woken pipe.input.sources -> Woken sources) := by
  unfold inputCheckSource
  split
  · exact ⟨_, rfl, fun _ => woken_setAllSourcesReady _⟩
  · next notReadable => exact ⟨pipe.input.sources, rfl, fun woken => woken.resolve_left notReadable⟩

theorem outputCheckSource_spec (pipe : Pipe) :
    Exists fun sources => pipe.outputCheckSource = pipe.setOutputSources sources ∧
    (pipe.isWritable = true ∨ Woken pipe.output.sources -> Woken sources) ∧
    (pipe.isWritable = false -> sources = pipe.output.sources) := by
  unfold outputCheckSource
  split
  · next writable => exact ⟨_, rfl, fun _ => woken_setAllSourcesReady _,
      fun not => absurd (writable.symm.trans not) (by decide)⟩
  · next notWritable => exact ⟨pipe.output.sources, rfl, fun woken => woken.resolve_left notWritable, fun _ => rfl⟩

theorem couldWrite_of_unread {read : Nat} (isRead : pipe.input.read = some read) : pipe.CouldWrite := by
  refine .inr ?_
  unfold isWritable
  rw [isRead, Option.isSome_some, Bool.or_true]

/-- A read takes what was written. -/
theorem Inv.inputRead (inv : pipe.Inv) (count : Nat) : (pipe.inputRead count).Inv := by
  unfold Pipe.inputRead
  split
  · exact inv
  · next opened =>
    cases isBuffer : pipe.output.buffer with
    | none => exact inv
    | some buffer =>
        rcases inv.meeting.published buffer isBuffer with ⟨waits, notRead⟩
        have stream := inv.meeting.stream
        simp only [chunk, notRead, List.append_nil] at stream
        dsimp only
        generalize isNext : ({ pipe with
          input := { pipe.input with
            read := some (min buffer.bytes.length count) }
          output := { pipe.output with
            buffer := none }
          returned := pipe.returned ++ buffer.bytes.take (min buffer.bytes.length count) } : Pipe) = next
        rcases outputCheckSource_spec next with ⟨sources, same, woken, _⟩
        rw [same]
        subst isNext
        refine ⟨⟨?_, fun _ isSome => by contradiction, ?_⟩, ?_, fun _ => woken (.inl rfl)⟩
        · simp only [chunk, setOutputSources, waits, stream]
        · intro read isRead
          cases isRead
          exact ⟨buffer, waits, Nat.min_le_left _ _⟩
        · rintro (peerClosed | published)
          · exact inv.reader (.inl peerClosed)
          · exact absurd rfl published

/-- A write by the rules of the writer does not fail. -/
theorem Inv.outputWrite (inv : pipe.Inv) {buffer : Buffer}
    (again : forall waiting, pipe.waiting = some waiting -> buffer.address = waiting.address ∧
      waiting.bytes <+: buffer.bytes) :
    Exists fun next => pipe.outputWrite buffer = some next ∧ next.Inv := by
  unfold Pipe.outputWrite
  split
  · exact ⟨pipe, rfl, inv⟩
  · next opened =>
    have sameBuffer : (pipe.output.buffer.all fun published => decide (published.address = buffer.address)) = true := by
      cases isBuffer : pipe.output.buffer with
      | none => rfl
      | some published => exact decide_eq_true (again published (inv.meeting.published published isBuffer).1).1.symm
    rw [if_pos sameBuffer]
    generalize isNext : ({ pipe with
      output := { pipe.output with
        buffer := some buffer } } : Pipe) = next
    rcases inputCheckSource_spec next with ⟨sources, same, woken⟩
    rw [same]
    subst isNext
    dsimp only [setInputSources] at woken ⊢
    cases isRead : pipe.input.read with
    | none =>
        have stream := inv.meeting.stream
        simp only [chunk, isRead] at stream
        refine ⟨_, rfl, ⟨⟨?_, fun _ isSome => ⟨isSome, rfl⟩, fun _ isSome => by contradiction⟩,
          fun _ => woken (.inl ?_), ?_⟩⟩
        · simpa only [chunk] using stream
        · simp only [isReadable, isRead, Option.isSome_some, Option.isNone_none, Bool.and_self, Bool.true_or]
        · rintro (peerClosed | writable)
          · exact absurd (.inr peerClosed) opened
          · simp only [isWritable, Option.isNone_some, Option.isSome_none, Bool.or_self] at writable
            contradiction
    | some read =>
        rcases inv.meeting.unreported read isRead with ⟨waiting, waits, fits⟩
        rcases again waiting waits with ⟨_, rest, isMore⟩
        have stream := inv.meeting.stream
        simp only [chunk, isRead, waits] at stream
        have taken : buffer.bytes.take read = waiting.bytes.take read := by
          rw [<- isMore, List.take_append_of_le_length fits]
        have long : read ≤ buffer.bytes.length := by
          rw [<- isMore, List.length_append]
          exact Nat.le_add_right_of_le fits
        dsimp only
        rw [if_pos long]
        refine ⟨_, rfl, ⟨⟨?_, fun _ isSome => by contradiction, fun _ isSome => by contradiction⟩, ?_, ?_⟩⟩
        · simpa only [chunk, taken, List.append_nil] using stream
        · rintro (peerClosed | published)
          · exact woken (.inr (inv.reader (.inl peerClosed)))
          · exact absurd rfl published
        · exact fun _ => inv.writer (couldWrite_of_unread isRead)

theorem Inv.write (inv : pipe.Inv) (address : Nat) (more : List UInt8) :
    Exists fun next => pipe.write address more = some next ∧ next.Inv := by
  unfold Pipe.write
  split
  · exact ⟨pipe, rfl, inv⟩
  · refine inv.outputWrite fun waiting waits => ?_
    unfold nextBuffer
    rw [waits]
    exact ⟨rfl, List.prefix_append _ _⟩

/-- The state of the other end does not matter to the streams, apart from who waits for it. -/
theorem Meeting.of_same {other : Pipe} (meeting : pipe.Meeting) (sameRead : other.input.read = pipe.input.read)
    (sameBuffer : other.output.buffer = pipe.output.buffer) (sameWaiting : other.waiting = pipe.waiting)
    (sameReturned : other.returned = pipe.returned) (sameReported : other.reported = pipe.reported) :
    other.Meeting := by
  refine ⟨?_, ?_, ?_⟩
  · have stream := meeting.stream
    unfold chunk at stream ⊢
    rw [sameRead, sameWaiting, sameReturned, sameReported]
    exact stream
  · rw [sameBuffer, sameWaiting, sameRead]
    exact meeting.published
  · rw [sameRead, sameWaiting]
    exact meeting.unreported

/-- The reader is told that the other end closed. -/
theorem Inv.tellReader (inv : pipe.Inv) : pipe.setInputPeerClosed.inputCheckSource.Inv := by
  rcases inputCheckSource_spec pipe.setInputPeerClosed with ⟨sources, same, woken⟩
  rw [same]
  refine ⟨inv.meeting.of_same rfl rfl rfl rfl rfl, fun _ => woken (.inl ?_), inv.writer⟩
  exact Bool.or_true _

/-- The writer is told that the other end closed, if it can write or nobody waits. -/
theorem Inv.tellWriter (inv : pipe.Inv) (kept : pipe.isWritable = true ∨ Woken pipe.output.sources) :
    pipe.setOutputPeerClosed.outputCheckSource.Inv := by
  rcases outputCheckSource_spec pipe.setOutputPeerClosed with ⟨sources, same, woken, _⟩
  rw [same]
  exact ⟨inv.meeting.of_same rfl rfl rfl rfl rfl, inv.reader, fun _ => woken kept⟩

theorem Inv.setInputClosed (inv : pipe.Inv) : pipe.setInputClosed.Inv :=
  ⟨inv.meeting.of_same rfl rfl rfl rfl rfl, inv.reader, inv.writer⟩

theorem Inv.setOutputClosed (inv : pipe.Inv) : pipe.setOutputClosed.Inv :=
  ⟨inv.meeting.of_same rfl rfl rfl rfl rfl, inv.reader, inv.writer⟩

theorem setOutputPeerClosed_comm (pipe : Pipe) :
    pipe.setOutputPeerClosed.setInputPeerClosed.inputCheckSource.setOutputClosed.outputCheckSource =
      (pipe.setInputPeerClosed.inputCheckSource.setOutputClosed).setOutputPeerClosed.outputCheckSource := by
  unfold inputCheckSource
  simp only [isReadable, setInputPeerClosed, Bool.or_true, if_true]
  rfl

theorem setInputPeerClosed_comm (pipe : Pipe) :
    pipe.setInputPeerClosed.setOutputPeerClosed.outputCheckSource.setInputClosed =
      pipe.setOutputPeerClosed.outputCheckSource.setInputClosed.setInputPeerClosed := by
  by_cases writable : pipe.isWritable = true
  · have before : pipe.setInputPeerClosed.setOutputPeerClosed.outputCheckSource = _ := if_pos writable
    have after : pipe.setOutputPeerClosed.outputCheckSource = _ := if_pos writable
    rw [before, after]
    rfl
  · have before : pipe.setInputPeerClosed.setOutputPeerClosed.outputCheckSource = _ := if_neg writable
    have after : pipe.setOutputPeerClosed.outputCheckSource = _ := if_neg writable
    rw [before, after]
    rfl

/-- The reader closes, and nobody waits for it. -/
theorem Inv.inputClose (inv : pipe.Inv) {busy : Bool} (kept : pipe.Kept (.inputClose busy)) :
    (pipe.inputClose busy).Inv := by
  unfold Pipe.inputClose
  split
  · exact inv
  · next opened =>
    have kept := kept (eq_false_of_ne_true opened)
    dsimp only
    split
    · exact (inv.tellWriter kept).setInputClosed
    · rw [setOutputPeerClosed_comm]
      refine (inv.tellReader.setOutputClosed.tellWriter ?_).setInputClosed
      rcases inputCheckSource_spec pipe.setInputPeerClosed with ⟨sources, same, _⟩
      rw [same]
      exact kept

theorem Inv.outputClose (inv : pipe.Inv) {busy : Bool} (kept : pipe.Kept (.outputClose busy)) :
    (pipe.outputClose busy).Inv := by
  unfold Pipe.outputClose
  split
  · exact inv
  · next opened =>
    dsimp only
    split
    · exact inv.tellReader.setOutputClosed
    · next goesOn =>
      rw [not_or] at goesOn
      have kept := kept (eq_false_of_ne_true opened) (eq_false_of_ne_true goesOn.2) (eq_false_of_ne_true goesOn.1)
      rw [setInputPeerClosed_comm]
      exact (inv.tellWriter kept).setInputClosed.tellReader.setOutputClosed

/-- Closing the input leaves the sources of the output as they are, if nothing can be written. -/
theorem inputClose_sources (opened : pipe.input.closed = false) (full : pipe.isWritable = false) (busy : Bool) :
    (pipe.inputClose busy).output.peerClosed = true ∧ (pipe.inputClose busy).output.sources = pipe.output.sources := by
  unfold Pipe.inputClose
  rw [if_neg (ne_true_of_eq_false opened)]
  dsimp only
  split
  · rcases outputCheckSource_spec pipe.setOutputPeerClosed with ⟨sources, same, _, unchanged⟩
    rw [same]
    exact ⟨rfl, unchanged full⟩
  · rw [setOutputPeerClosed_comm]
    rcases inputCheckSource_spec pipe.setInputPeerClosed with ⟨inputSources, inputSame, _⟩
    rw [inputSame]
    rcases outputCheckSource_spec
      ((pipe.setInputPeerClosed.setInputSources inputSources).setOutputClosed.setOutputPeerClosed) with
      ⟨sources, same, _, unchanged⟩
    rw [same]
    exact ⟨rfl, unchanged full⟩

/-- The sources of a pipe that is full. -/
theorem outputClose_sources (opened : pipe.output.closed = false) (inputOpened : pipe.input.closed = false)
    (full : pipe.isWritable = false) :
    (pipe.outputClose false).output.peerClosed = true ∧
      (pipe.outputClose false).output.sources = pipe.output.sources := by
  unfold Pipe.outputClose
  rw [if_neg (ne_true_of_eq_false opened)]
  dsimp only
  rw [if_neg (by
    rintro (busy | closed)
    · contradiction
    · exact absurd (inputOpened.symm.trans closed) Bool.false_ne_true), setInputPeerClosed_comm]
  rcases outputCheckSource_spec pipe.setOutputPeerClosed with ⟨sources, same, _, unchanged⟩
  rw [same]
  rcases inputCheckSource_spec
    ((pipe.setOutputPeerClosed.setOutputSources sources).setInputClosed.setInputPeerClosed) with
    ⟨inputSources, inputSame, _⟩
  rw [inputSame]
  exact ⟨rfl, unchanged full⟩

/-- Every step under its condition keeps the invariant. -/
theorem Inv.step (inv : pipe.Inv) {op : Op} (kept : pipe.Kept op) :
    Exists fun next => step pipe op = some next ∧ next.Inv := by
  cases op with
  | write address more => exact inv.write address more
  | read count => exact ⟨_, rfl, inv.inputRead count⟩
  | inputCreateSource =>
      exact ⟨_, rfl, inv.meeting.of_same rfl rfl rfl rfl rfl, fun couldRead => absurd couldRead kept, inv.writer⟩
  | outputCreateSource =>
      exact ⟨_, rfl, inv.meeting.of_same rfl rfl rfl rfl rfl, inv.reader, fun couldWrite => absurd couldWrite kept⟩
  | inputDestroySource index =>
      exact ⟨_, rfl, inv.meeting.of_same rfl rfl rfl rfl rfl, woken_destroy inv.reader index, inv.writer⟩
  | outputDestroySource index =>
      exact ⟨_, rfl, inv.meeting.of_same rfl rfl rfl rfl rfl, inv.reader, woken_destroy inv.writer index⟩
  | inputClose busy => exact ⟨_, rfl, inv.inputClose kept⟩
  | outputClose busy => exact ⟨_, rfl, inv.outputClose kept⟩

/-- A step that is not kept leaves somebody waiting. -/
theorem kept_of_safe {op : Op} {next : Pipe} (stepped : GioPipe.step pipe op = some next) (safe : next.Safe) :
    pipe.Kept op := by
  cases op with
  | inputCreateSource =>
      cases stepped
      exact fun couldRead => not_woken_create _ (safe.reader couldRead)
  | outputCreateSource =>
      cases stepped
      exact fun couldWrite => not_woken_create _ (safe.writer couldWrite)
  | inputClose busy =>
      cases stepped
      intro opened
      by_cases writable : pipe.isWritable = true
      · exact .inl writable
      · rcases inputClose_sources opened (eq_false_of_ne_true writable) busy with ⟨peerClosed, same⟩
        exact .inr (same ▸ safe.writer (.inl peerClosed))
  | outputClose busy =>
      cases stepped
      intro opened inputOpened notBusy
      subst notBusy
      by_cases writable : pipe.isWritable = true
      · exact .inl writable
      · rcases outputClose_sources opened inputOpened (eq_false_of_ne_true writable) with ⟨peerClosed, same⟩
        exact .inr (same ▸ safe.writer (.inl peerClosed))
  | write | read | inputDestroySource | outputDestroySource => trivial

theorem Inv.start : makeGioPipe.Inv := by
  refine ⟨⟨rfl, fun _ isSome => by contradiction, fun _ isSome => by contradiction⟩, fun _ => ?_, fun _ => ?_⟩
  all_goals exact fun _ member => absurd member List.not_mem_nil

end Pipe

/-- The pipe carries the bytes in order, never fails and wakes whoever can go on, exactly if sources are created while
the stream is not ready and no end is closed while a source of the writer waits for a buffer to be read. -/
theorem pipe_faithful_iff (ops : List Op) :
    AllStates step (fun _ => Pipe.Safe) [] makeGioPipe ops <-> Meets step (fun _ => Pipe.Kept) [] makeGioPipe ops :=
  @allStates_iff_meets _ _ step (fun _ => Pipe.Kept) (fun _ => Pipe.Inv) (fun _ => Pipe.Safe) (fun _ _ => True)
    (fun _ _ inv => inv.safe) (fun _ _ _ inv _ kept => inv.step kept)
      (fun _ _ _ _ _ _ stepped safe => Pipe.kept_of_safe stepped safe)
    ops [] makeGioPipe Pipe.Inv.start fun _ _ _ _ => trivial

/-- The reader closes while the writer waits for its byte to be read. -/
theorem closed_reader_leaves_writer :
    ¬ forall ops : List Op, AllStates step (fun _ => Pipe.Safe) [] makeGioPipe ops := by
  intro all
  rcases all [.write 0 [7], .outputCreateSource, .inputClose false] _ List.prefix_rfl with ⟨final, ran, safe⟩
  cases ran
  exact Bool.false_ne_true (safe.writer (.inl rfl) ⟨false, false⟩ List.mem_cons_self rfl)

end GioPipe
end Client
end Spice
