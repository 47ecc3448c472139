import Spice.Avc.Frames

namespace Spice
namespace Avc

open Lib
open Outgoing (RedChannelClient Write Streamed)

/-!
# The buffer of the encoder

`h264_send` adds the encoder's own output buffer to the marshaller by reference.
The next frame of the worker is encoded into the same buffer, and the encoder is
closed when a client connects; a message that is not completely written is then
continued with what the memory holds now.
-/

/-- An operation of the worker, with what the memory of a closed encoder is used for. -/
structure SharedOp where
  op : Op
  reused : List UInt8

structure SharedWorker where
  worker : RedWorker
  buffer : List UInt8

namespace DisplayChannelClient

variable (client : DisplayChannelClient)

def frameInFlight : Bool := client.frameSize.isSome && client.inFlight

/-- The frame in flight is read from the buffer. -/
def readFrom (buffer : List UInt8) : DisplayChannelClient :=
  match client.frameSize with
  | none => client
  | some size =>
      if client.inFlight then
        let marshaller := client.rcc.marshaller
        { client with
          rcc := client.rcc.setMarshaller
            { marshaller with body := marshaller.body.take (marshaller.body.length - size) ++ buffer.take size } }
      else client

end DisplayChannelClient

namespace RedWorker

variable (worker : RedWorker)

/-- The buffer changes when a frame is encoded, or when a client connects and the encoder
is closed. -/
def newBuffer (buffer : List UInt8) (op : SharedOp) : Option (List UInt8) :=
  match op.op with
  | .connect _ _ _ => if worker.inserting.isSome then none else some op.reused
  | other =>
      match worker.encodesFor other with
      | some (_, .output frame) => some (frame.payload ++ buffer.drop frame.payload.length)
      | _ => none

def readFrom (buffer : List UInt8) : RedWorker :=
  { worker with clients := worker.clients.map (fun client => client.readFrom buffer) }

end RedWorker

namespace SharedWorker

def step (shared : SharedWorker) (op : SharedOp) : Option SharedWorker :=
  match shared.worker.newBuffer shared.buffer op with
  | none => (shared.worker.step op.op).map (fun worker => { shared with worker := worker })
  | some buffer =>
      ((shared.worker.readFrom buffer).step op.op).map (fun worker => { worker := worker, buffer := buffer })

def init : SharedWorker where
  worker := RedWorker.init
  buffer := []

end SharedWorker

/-- Whenever the buffer changes, all frames are completely written; inserted frames meet
no message in flight; the encoder never gives 0 without a frame; and messages are small. -/
structure FramesWritten (shared : SharedWorker) (op : SharedOp) : Prop where
  written : (shared.worker.newBuffer shared.buffer op).isSome = true ->
    forall client, client ∈ shared.worker.clients -> client.frameInFlight = false
  idle : InsertsIdle shared.worker op.op
  encodes : Encodes shared.worker op.op
  small : op.op.Small

/-- The client is sent the messages as they were marshalled, and each of them that is a
frame was made of what the encoder gave. -/
structure FramesReceived (client : DisplayChannelClient) : Prop where
  streamed : Streamed client.rcc
  made : client.strays = 0

theorem DisplayChannelClient.readFrom_same {client : DisplayChannelClient} (written : client.frameInFlight = false)
    (buffer : List UInt8) : client.readFrom buffer = client := by
  unfold DisplayChannelClient.readFrom
  unfold DisplayChannelClient.frameInFlight at written
  cases isSize : client.frameSize with
  | none => rfl
  | some size =>
      rw [isSize] at written
      have flight : client.inFlight = false := written
      simp only [flight, Bool.false_eq_true, if_false]

theorem RedWorker.readFrom_same {worker : RedWorker}
    (written : forall client, client ∈ worker.clients -> client.frameInFlight = false) (buffer : List UInt8) :
    worker.readFrom buffer = worker := by
  have same : worker.clients.map (fun client => client.readFrom buffer) = worker.clients := by
    conv_rhs => rw [<- List.map_id worker.clients]
    apply List.map_congr_left
    intro client member
    exact DisplayChannelClient.readFrom_same (written client member) buffer
  rw [RedWorker.readFrom, same]

theorem SharedWorker.step_of_written {shared : SharedWorker} {op : SharedOp} (written : FramesWritten shared op) :
    Exists fun buffer => shared.step op = (shared.worker.step op.op).map (fun worker => ⟨worker, buffer⟩) := by
  unfold SharedWorker.step
  cases changed : shared.worker.newBuffer shared.buffer op with
  | none => exact ⟨shared.buffer, rfl⟩
  | some buffer =>
      refine ⟨buffer, ?_⟩
      simp only [RedWorker.readFrom_same (written.written (by rw [changed]; rfl)) buffer]

/-- If no frame is encoded and no client connects while a frame is not completely
written, every client receives the messages as they were marshalled. -/
theorem h264_frames_received (ops : List SharedOp)
    (written : Meets SharedWorker.step (fun _ shared op => FramesWritten shared op) [] SharedWorker.init ops) :
    AllStates SharedWorker.step (fun _ shared => forall client, client ∈ shared.worker.clients ->
      FramesReceived client) []
      SharedWorker.init ops := by
  have keep : forall (_ : List SharedOp) (shared : SharedWorker) (op : SharedOp), AllSound True shared.worker ->
      FramesWritten shared op -> Exists fun next => shared.step op = some next ∧ AllSound True next.worker := by
    intro _ shared op sound written
    rcases SharedWorker.step_of_written written with ⟨buffer, stepped⟩
    rcases sound.step written.idle written.small (fun _ => written.encodes) with ⟨next, isNext, nextSound⟩
    refine ⟨⟨next, buffer⟩, ?_, nextSound⟩
    rw [stepped, isNext, Option.map_some]
  have safe : forall (_ : List SharedOp) (shared : SharedWorker), AllSound True shared.worker ->
      forall client, client ∈ shared.worker.clients -> FramesReceived client :=
    fun _ _ sound client member => ⟨(sound client member).rcc.streamed, (sound client member).strays trivial⟩
  have start : AllSound True SharedWorker.init.worker := fun _ member => absurd member List.not_mem_nil
  exact allStates_of_meets safe keep start written

/-- `FramesWritten`, evaluated. -/
def framesWritten (shared : SharedWorker) (op : SharedOp) : Bool :=
  (!(shared.worker.newBuffer shared.buffer op).isSome ||
      shared.worker.clients.all (fun client => !client.frameInFlight)) &&
    insertsIdle shared.worker op.op && (shared.worker.encodesFor op.op).all (fun pair =>
      match pair.2 with
      | .unset _ => false
      | _ => true) && decide op.op.Small

theorem framesWritten_sound {shared : SharedWorker} {op : SharedOp} (checked : framesWritten shared op = true) :
    FramesWritten shared op := by
  unfold framesWritten at checked
  simp only [Bool.and_eq_true] at checked
  rcases checked with ⟨⟨⟨all, idle⟩, encodes⟩, small⟩
  refine ⟨?_, insertsIdle_sound idle, ?_, of_decide_eq_true small⟩
  · intro changed client member
    rw [changed, Bool.not_true, Bool.false_or, List.all_eq_true] at all
    simpa using all client member
  · intro index stray called
    rw [called] at encodes
    cases encodes

/-- Two clients, each sent a frame while the other has none in flight. -/
def framesRun : List SharedOp :=
  [⟨.connect .mini false 20, []⟩, ⟨.connect .mini false 20, []⟩, ⟨.paint, []⟩, ⟨.pipeAdd 0 0 .draw, []⟩,
    ⟨.pipeAdd 1 0 .draw, []⟩, ⟨.sendNext 0 ⟨10, 0⟩ (.output ⟨[1], [2, 3]⟩) [.accept 8], []⟩,
      ⟨.resume 0 [.accept 100], []⟩,
    ⟨.sendNext 1 ⟨10, 40000⟩ (.output ⟨[1], [4, 5]⟩) [.accept 100], []⟩]

theorem h264_frames_received_two : (run SharedWorker.step SharedWorker.init framesRun).map
        (fun shared => shared.worker.clients.map (fun client => client.rcc.written)) =
        some [[124, 0, 3, 0, 0, 0, 1, 2, 3], [124, 0, 3, 0, 0, 0, 1, 4, 5]] ∧ AllStates SharedWorker.step
        (fun _ shared => forall client, client ∈ shared.worker.clients -> FramesReceived client) []
        SharedWorker.init framesRun := by
  constructor
  · decide +kernel
  · apply h264_frames_received
    have sound : forall (_ : List SharedOp) (shared : SharedWorker) (op : SharedOp), framesWritten shared op = true ->
        FramesWritten shared op := fun _ _ _ checked => framesWritten_sound checked
    exact Meets.of_check sound framesRun [] SharedWorker.init (by decide +kernel)

/-- The frame of the first client is written in part when one is encoded for the second. -/
def overwrittenRun : List SharedOp :=
  [⟨.connect .mini false 20, []⟩, ⟨.connect .mini false 20, []⟩, ⟨.paint, []⟩, ⟨.pipeAdd 0 0 .draw, []⟩,
    ⟨.pipeAdd 1 0 .draw, []⟩, ⟨.sendNext 0 ⟨10, 0⟩ (.output ⟨[1], [2, 3]⟩) [.accept 8], []⟩,
    ⟨.sendNext 1 ⟨10, 40000⟩ (.output ⟨[1], [4, 5]⟩) [.accept 100], []⟩, ⟨.resume 0 [.accept 100], []⟩]

theorem written_front {client : RedChannelClient} (streamed : Streamed client) :
    client.written <+: (client.begun.map Prod.snd).flatten := by
  rcases streamed.messages with ⟨finished, unfinished, count, messages, bytes, -, -⟩
  rw [bytes, messages, List.flatten_append]
  exact List.prefix_append_right_inj _ |>.mpr (List.take_prefix count _)

/-- The first client receives the end of the second frame behind the start of the first. -/
theorem frame_overwritten_in_flight : (run SharedWorker.step SharedWorker.init overwrittenRun).map
        (fun shared => shared.worker.clients.map (fun client => client.rcc.written)) =
        some [[124, 0, 3, 0, 0, 0, 1, 2, 5], [124, 0, 3, 0, 0, 0, 1, 4, 5]] ∧ Not (AllStates SharedWorker.step
        (fun _ shared => forall client, client ∈ shared.worker.clients -> FramesReceived client) []
        SharedWorker.init overwrittenRun) := by
  constructor
  · decide +kernel
  · intro all
    rcases all overwrittenRun List.prefix_rfl with ⟨shared, ran, received⟩
    have differs : (run SharedWorker.step SharedWorker.init overwrittenRun).map (fun shared =>
        shared.worker.clients.all (fun client =>
          decide (client.rcc.written <+: (client.rcc.begun.map Prod.snd).flatten))) = some false := by
      decide +kernel
    rw [ran] at differs
    have holds : shared.worker.clients.all (fun client =>
        decide (client.rcc.written <+: (client.rcc.begun.map Prod.snd).flatten)) = true := by
      rw [List.all_eq_true]
      intro client member
      exact decide_eq_true (written_front (received client member).streamed)
    rw [Option.map_some, holds] at differs
    cases differs

end Avc
end Spice
