import Spice.Avc.Model
import Spice.Channel.OutgoingStream

namespace Spice
namespace Avc

open Lib
open Channel (DataHeader)
open Outgoing (RedChannelClient PipeItem MsgType Write Settled Idle Streamed)

/-!
# Inserted frames and messages in flight

`insert_h264_frame` empties the marshaller of every client.  As long as it meets no
client with a message in flight, and all messages are small, no assertion of the channel
fails and every client is sent whole messages, one after the other.
-/

/-- A client that was disconnected. -/
structure Closed (client : RedChannelClient) : Prop where
  disconnected : client.connected = false
  unblocked : client.blocked = false
  size : client.size = 0
  streamed : Streamed client

/-- The state of a client between two calls. -/
inductive Sound (client : RedChannelClient) : Prop
  | settled (settled : Settled client)
  | closed (closed : Closed client)

namespace Sound

variable {client : RedChannelClient}

theorem streamed (sound : Sound client) : Streamed client := by
  cases sound with
  | settled settled => exact settled.streamed
  | closed closed => exact closed.streamed

theorem idle (sound : Sound client) (connected : client.connected = true) (unblocked : client.blocked = false) :
    Idle client := by
  cases sound with
  | closed closed =>
      rw [closed.disconnected] at connected
      cases connected
  | settled settled =>
      cases settled with
      | idle idle => exact idle
      | blocked _ isBlocked =>
          rw [unblocked] at isBlocked
          cases isBlocked
      | gone gone =>
          rw [gone.disconnected] at connected
          cases connected

theorem idle_of_size (sound : Sound client) (connected : client.connected = true) (size : client.size = 0) :
    Idle client := by
  apply sound.idle connected
  cases sound with
  | closed closed => exact closed.unblocked
  | settled settled =>
      cases settled with
      | idle idle => exact idle.unblocked
      | blocked writing _ =>
          have inside := writing.inside
          rw [size] at inside
          exact absurd inside (Nat.not_lt_zero _)
      | gone gone => exact gone.unblocked

theorem disconnect (sound : Sound client) : Sound client.disconnect := by
  rcases sound.streamed with ⟨⟨finished, unfinished, count, messages, bytes, last, -⟩, sequential⟩
  refine .closed ⟨rfl, rfl, rfl, ⟨⟨finished, unfinished, count, messages, bytes, last, ?_⟩, sequential⟩⟩
  intro connected
  cases connected

theorem window (sound : Sound client) (messagesWindow : Nat) :
    Sound { client with messagesWindow := messagesWindow } := by
  cases sound with
  | settled settled => exact .settled (settled.window messagesWindow)
  | closed closed =>
      rcases closed.streamed with ⟨messages, sequential⟩
      exact .closed ⟨closed.disconnected, closed.unblocked, closed.size, ⟨messages, sequential⟩⟩

theorem resume (sound : Sound client) (writes : List Write) :
    Exists fun next => Exists fun rest => client.resume writes = some (next, rest) ∧ Sound next ∧
      (next.size ≠ 0 && !next.blocked) = false := by
  cases sound with
  | settled settled =>
      rcases settled.resume writes with ⟨next, rest, resumed, nextSettled, -⟩
      exact ⟨next, rest, resumed, .settled nextSettled, nextSettled.size_or_blocked⟩
  | closed closed =>
      refine ⟨client, writes, ?_, .closed closed, ?_⟩
      · rw [RedChannelClient.resume, closed.unblocked]
        rfl
      · rw [closed.size]
        rfl

end Sound

def SmallPipe (pipe : List DisplayItem) : Prop := forall item, .other item ∈ pipe -> item.Small

/-- A client is between two messages, or in the middle of one; and if the encoder always gave a frame, all its
messages are made of what it gave. -/
structure SoundClient (made : Prop) (client : DisplayChannelClient) : Prop where
  rcc : Sound client.rcc
  pipe : SmallPipe client.pipe
  strays : made -> client.strays = 0

def AllSound (made : Prop) (worker : RedWorker) : Prop :=
  forall client, client ∈ worker.clients -> SoundClient made client

/-- `insert_h264_frame` does not meet a client with a message in flight. -/
def InsertsIdle (worker : RedWorker) : Op -> Prop
  | .insertNext _ _ _ =>
      forall index client, worker.inserting = some index -> worker.clients[index]? = some client ->
        client.rcc.connected = true -> client.inFlight = false
  | _ => True

/-- The encoder does not give 0 without a frame. -/
def Encodes (worker : RedWorker) (op : Op) : Prop :=
  forall index stray, worker.encodesFor op ≠ some (index, .unset stray)

theorem SmallPipe.insert {pipe : List DisplayItem} (small : SmallPipe pipe) (position : Nat) {item : DisplayItem}
    (smallItem : forall other, item = .other other -> other.Small) :
    SmallPipe (pipe.take position ++ item :: pipe.drop position) := by
  intro other member
  rcases List.mem_append.mp member with before | behind
  · exact small other (List.mem_of_mem_take before)
  · rcases List.mem_cons.mp behind with rfl | after
    · exact smallItem other rfl
    · exact small other (List.mem_of_mem_drop after)

theorem SoundClient.withRcc {made : Prop} {client : DisplayChannelClient} (small : SmallPipe client.pipe)
    (strays : made -> client.strays = 0) {rcc : RedChannelClient} (sound : Sound rcc) :
    SoundClient made (client.withRcc rcc) := by
  refine ⟨sound, fun item member => ?_, strays⟩
  unfold DisplayChannelClient.withRcc at member
  dsimp only at member
  split at member
  · exact small item member
  · cases member

namespace AllSound

variable {worker : RedWorker} {made : Prop}

theorem at_index (sound : AllSound made worker) {index : Nat} {client : DisplayChannelClient}
    (found : worker.clients[index]? = some client) : SoundClient made client :=
  sound client (List.mem_of_getElem? found)

theorem setClient (sound : AllSound made worker) (index : Nat) {client : DisplayChannelClient}
    (isSound : SoundClient made client) : AllSound made (worker.setClient index client) := by
  intro other member
  rcases List.mem_or_eq_of_mem_set member with old | rfl
  · exact sound other old
  · exact isSound

theorem modifyClient (sound : AllSound made worker) (index : Nat)
    {change : DisplayChannelClient -> DisplayChannelClient}
    (keeps : forall client, SoundClient made client -> SoundClient made (change client)) :
    AllSound made (worker.modifyClient index change) := by
  unfold RedWorker.modifyClient
  cases found : worker.clients[index]? with
  | none => exact sound
  | some client => exact sound.setClient index (keeps client (sound.at_index found))

/-- A frame is made into a small message, or into nothing; the sender and the pipe of the client stay. -/
theorem marshalled (sound : AllSound made worker) {client next : DisplayChannelClient} {now : Timeval}
    {encoding : Encoding} {marshalled : RedWorker} {item : PipeItem} (small : encoding.Small)
    (output : made -> worker.lastTime.tooNear now = false -> forall stray, encoding ≠ .unset stray)
    (isMade : worker.marshallStreamH264Data client now encoding = some (marshalled, next, item)) :
    AllSound made marshalled ∧ next.rcc = client.rcc ∧ next.pipe = client.pipe ∧
      (made -> next.strays = client.strays) ∧ item.Small := by
  unfold RedWorker.marshallStreamH264Data at isMade
  split at isMade
  · cases isMade
    exact ⟨sound, rfl, rfl, fun _ => rfl, trivial⟩
  · next near =>
      cases encoding with
      | failed => cases isMade
      | unset stray =>
          cases isMade
          exact ⟨sound, rfl, rfl, fun isMade => absurd rfl (output isMade (eq_false_of_ne_true near) stray), small⟩
      | output frame =>
          cases isMade
          exact ⟨sound, rfl, rfl, fun _ => rfl, small⟩

/-- A client that takes an item has nothing half sent. -/
theorem nextItem_idle (sound : AllSound made worker) {index : Nat} {client : DisplayChannelClient}
    (found : worker.clients[index]? = some client) {item : DisplayItem} {rest : List DisplayItem}
    (isNext : client.nextItem = some (item, rest)) : Idle client.rcc ∧ client.pipe = item :: rest := by
  unfold DisplayChannelClient.nextItem at isNext
  split at isNext
  · cases isNext
  · next free =>
      have connected : client.rcc.connected = true := by
        cases isConnected : client.rcc.connected with
        | true => rfl
        | false => exact absurd (by rw [isConnected]; rfl) free
      have unblocked : client.rcc.blocked = false := by
        cases isBlocked : client.rcc.blocked with
        | false => rfl
        | true => exact absurd (by rw [isBlocked, Bool.or_true, Bool.true_or]) free
      refine ⟨(sound.at_index found).rcc.idle connected unblocked, ?_⟩
      split at isNext
      · cases isNext
      · next isPipe =>
          cases isNext
          exact isPipe

/-- The next item of a client is sent. -/
theorem sendNext (sound : AllSound made worker) (free : worker.inserting = none) {index : Nat} {now : Timeval}
    {encoding : Encoding} {writes : List Write} (small : encoding.Small)
    (output : made -> Encodes worker (.sendNext index now encoding writes)) :
    Exists fun next => worker.sendNext index now encoding writes = some next ∧ AllSound made next := by
  unfold RedWorker.sendNext
  cases found : worker.clients[index]? with
  | none => exact ⟨worker, rfl, sound⟩
  | some client =>
      cases isNext : client.nextItem with
      | none => exact ⟨worker, by simp only [isNext], sound⟩
      | some pair =>
          rcases pair with ⟨item, rest⟩
          rcases sound.nextItem_idle found isNext with ⟨idle, isPipe⟩
          have before := sound.at_index found
          have smallPipe := before.pipe
          rw [isPipe] at smallPipe
          have smallRest : SmallPipe rest := fun other member => smallPipe other (List.mem_cons_of_mem _ member)
          cases item with
          | draw =>
              cases isMade : worker.marshallStreamH264Data
                { client with pipe := rest, dequeued := some worker.canvas } now
                encoding with
              | none => exact ⟨worker.stop, by simp only [isNext, isMade], sound⟩
              | some triple =>
                  rcases triple with ⟨marshalled, next, item⟩
                  have frame : made -> worker.lastTime.tooNear now = false ->
                      forall stray, encoding ≠ .unset stray := by
                    rintro always near stray rfl
                    exact output always index stray (RedWorker.encodesFor_sendNext found free isNext near _ writes)
                  rcases sound.marshalled small frame isMade with ⟨after, sameRcc, samePipe, sameStrays, smallItem⟩
                  rcases idle.sendItem writes smallItem with ⟨rcc, left, isSent, settled, -⟩
                  rw [<- show next.rcc = client.rcc from sameRcc] at isSent
                  rw [<- show next.pipe = rest from samePipe] at smallRest
                  simp only [isNext, isMade, isSent]
                  refine ⟨_, rfl, after.setClient index (SoundClient.withRcc smallRest ?_ (.settled settled))⟩
                  exact fun isMade => (sameStrays isMade).trans (before.strays isMade)
          | other item =>
              rcases idle.sendItem writes (smallPipe item List.mem_cons_self) with ⟨rcc, left, isSent, settled, -⟩
              simp only [isNext, isSent]
              refine ⟨_, rfl, sound.setClient index (SoundClient.withRcc ?_ ?_ (.settled settled))⟩
              · exact smallRest
              · exact before.strays

theorem resume (sound : AllSound made worker) (index : Nat) (writes : List Write) :
    Exists fun next => worker.resume index writes = some next ∧ AllSound made next := by
  unfold RedWorker.resume
  cases found : worker.clients[index]? with
  | none => exact ⟨worker, rfl, sound⟩
  | some client =>
      have before := sound.at_index found
      rcases before.rcc.resume writes with ⟨rcc, left, resumed, isSound, passes⟩
      simp only [resumed, passes, Bool.false_eq_true, if_false]
      exact ⟨_, rfl, sound.setClient index (.withRcc before.pipe before.strays isSound)⟩

/-- A frame is inserted for a client that is idle. -/
theorem insertFrame (sound : AllSound made worker) {index : Nat} {client : DisplayChannelClient}
    (idle : Idle client.rcc)
    (before : SoundClient made client) {now : Timeval} {encoding : Encoding} (small : encoding.Small)
    (output : made -> worker.lastTime.tooNear now = false -> forall stray, encoding ≠ .unset stray)
    (writes : List Write) :
    Exists fun next => worker.insertFrame index client now encoding writes = some next ∧ AllSound made next := by
  simp only [RedWorker.insertFrame, idle.resetSendData]
  cases isMade : worker.marshallStreamH264Data
    { client with rcc := client.rcc.emptied (client.rcc.lastSentSerial + 1) } now
    encoding with
  | none => exact ⟨worker.stop, rfl, sound⟩
  | some triple =>
      rcases triple with ⟨marshalled, next, item⟩
      rcases sound.marshalled small output isMade with ⟨after, sameRcc, samePipe, sameStrays, smallItem⟩
      rcases idle.emptied.channelSendItem rfl rfl writes smallItem with ⟨rcc, left, isSent, settled, -⟩
      rw [<- show next.rcc = client.rcc.emptied (client.rcc.lastSentSerial + 1) from sameRcc] at isSent
      have smallPipe := before.pipe
      rw [<- show next.pipe = client.pipe from samePipe] at smallPipe
      simp only [isSent]
      refine ⟨_, rfl, after.setClient index (SoundClient.withRcc smallPipe ?_ (.settled settled))⟩
      exact fun isMade => (sameStrays isMade).trans (before.strays isMade)

/-- The next client gets the frame that is being inserted. -/
theorem insertNext (sound : AllSound made worker) {index : Nat} {now : Timeval} {encoding : Encoding}
    {writes : List Write} (small : encoding.Small) (inserting : worker.inserting = some index)
    (inserts : InsertsIdle worker (.insertNext now encoding writes))
    (output : made -> Encodes worker (.insertNext now encoding writes)) :
    Exists fun next => worker.insertNext index now encoding writes = some next ∧ AllSound made next := by
  unfold RedWorker.insertNext
  cases found : worker.clients[index]? with
  | none => exact ⟨_, rfl, sound⟩
  | some client =>
      cases connected : client.rcc.connected with
      | false =>
          simp only [connected, Bool.false_eq_true, if_false]
          exact ⟨_, rfl, sound⟩
      | true =>
          have flight := inserts index client inserting found connected
          have size : client.rcc.size = 0 := by
            by_contra wrong
            rw [DisplayChannelClient.inFlight, decide_eq_true wrong] at flight
            cases flight
          have idle := (sound.at_index found).rcc.idle_of_size connected size
          have onward : AllSound made { worker with inserting := some (index + 1) } := sound
          have frame : made -> worker.lastTime.tooNear now = false -> forall stray, encoding ≠ .unset stray := by
            rintro isMade near stray rfl
            exact output isMade index stray (RedWorker.encodesFor_insertNext found inserting connected near _ writes)
          simp only [connected, if_true]
          exact onward.insertFrame idle (sound.at_index found) small frame writes

theorem connect (sound : AllSound made worker) (header : DataHeader) (handleAcks : Bool) (clientWindow : Nat) :
    AllSound made (worker.connect header handleAcks clientWindow) := by
  intro client member
  rcases List.mem_append.mp member with old | new
  · exact sound client old
  · rw [List.mem_singleton.mp new]
    exact ⟨.settled (Settled.create header handleAcks clientWindow), fun _ member => absurd member List.not_mem_nil,
      fun _ => rfl⟩

/-- A step while no frame is being inserted. -/
theorem stepFree (sound : AllSound made worker) (free : worker.inserting = none) {op : Op} (small : op.Small)
    (output : made -> Encodes worker op) : Exists fun next => worker.stepFree op = some next ∧ AllSound made next := by
  cases op with
  | paint => exact ⟨_, rfl, sound⟩
  | pipeAdd index position item =>
      refine ⟨_, rfl, sound.modifyClient index ?_⟩
      intro client before
      split
      · refine ⟨before.rcc, before.pipe.insert position ?_, before.strays⟩
        rintro other rfl
        exact small
      · exact before
  | pipeRemove index position =>
      refine ⟨_, rfl, sound.modifyClient index
        (fun client before => ⟨before.rcc, fun item member => ?_, before.strays⟩)⟩
      exact before.pipe item (List.mem_of_mem_eraseIdx member)
  | sendNext index now encoding writes => exact sound.sendNext free small output
  | resume index writes => exact sound.resume index writes
  | acked index messagesWindow =>
      refine ⟨_, rfl, sound.modifyClient index (fun _ before => ?_)⟩
      exact ⟨before.rcc.window messagesWindow, before.pipe, before.strays⟩
  | connect header handleAcks clientWindow => exact ⟨_, rfl, sound.connect header handleAcks clientWindow⟩
  | disconnect index =>
      refine ⟨_, rfl, sound.modifyClient index (fun _ before => ?_)⟩
      exact .withRcc before.pipe before.strays before.rcc.disconnect
  | poll now =>
      refine ⟨_, rfl, ?_⟩
      unfold RedWorker.poll
      split
      · exact sound
      · exact sound
  | insertNext now encoding writes => exact ⟨_, rfl, sound⟩

theorem step (sound : AllSound made worker) {op : Op} (inserts : InsertsIdle worker op) (small : op.Small)
    (output : made -> Encodes worker op) : Exists fun next => worker.step op = some next ∧ AllSound made next := by
  unfold RedWorker.step
  cases stopped : worker.stopped with
  | true => exact ⟨worker, rfl, sound⟩
  | false =>
      simp only [Bool.false_eq_true, if_false]
      cases inserting : worker.inserting with
      | none => exact sound.stepFree inserting small output
      | some index =>
          cases op with
          | insertNext now encoding writes => exact sound.insertNext small inserting inserts output
          | _ => exact ⟨worker, rfl, sound⟩

end AllSound

/-- If `insert_h264_frame` never meets a client with a message in flight, and all messages
are small, no assertion of the channel fails, and what is written to each client are the
messages that were begun, in order, all of them complete but perhaps the last. -/
theorem insert_h264_frame_undisturbed (ops : List Op)
    (idle : Meets RedWorker.step (fun _ worker op => InsertsIdle worker op) [] RedWorker.init ops)
    (small : forall op, op ∈ ops -> op.Small) :
    AllStates RedWorker.step (fun _ worker => forall client, client ∈ worker.clients -> Streamed client.rcc) []
      RedWorker.init ops := by
  have keep : forall (_ : List Op) (worker : RedWorker) (op : Op), AllSound False worker ->
      InsertsIdle worker op ∧ op.Small -> Exists fun next => worker.step op = some next ∧ AllSound False next :=
    fun _ _ _ sound meets => sound.step meets.1 meets.2 False.elim
  have safe : forall (_ : List Op) (worker : RedWorker), AllSound False worker ->
      forall client, client ∈ worker.clients -> Streamed client.rcc :=
    fun _ _ sound client member => (sound client member).rcc.streamed
  have start : AllSound False RedWorker.init := fun _ member => absurd member List.not_mem_nil
  exact allStates_of_meets safe keep start (idle.and (Meets.of_mem (fun _ _ op member => small op member)))

/-- `InsertsIdle`, evaluated. -/
def insertsIdle (worker : RedWorker) : Op -> Bool
  | .insertNext _ _ _ =>
      match worker.inserting.bind (fun index => worker.clients[index]?) with
      | none => true
      | some client => !client.rcc.connected || !client.inFlight
  | _ => true

theorem insertsIdle_sound {worker : RedWorker} {op : Op} (checked : insertsIdle worker op = true) :
    InsertsIdle worker op := by
  cases op with
  | insertNext now encoding writes =>
      intro index client inserting found connected
      simp only [insertsIdle, inserting, Option.bind_some, found, connected, Bool.not_true, Bool.false_or] at checked
      simpa using checked
  | _ => trivial

/-- A frame is sent, the next one is dropped, and two seconds later one is inserted. -/
def insertRun : List Op :=
  [.connect .mini false 20, .paint, .pipeAdd 0 0 .draw, .sendNext 0 ⟨10, 0⟩ (.output ⟨[1], [2, 3]⟩) [.accept 100],
    .paint, .pipeAdd 0 0 .draw, .sendNext 0 ⟨10, 10000⟩ (.output ⟨[1], [4, 5]⟩) [.accept 100],
    .poll ⟨12, 0⟩, .insertNext ⟨12, 0⟩ (.output ⟨[1], [6, 7]⟩) [.accept 4], .insertNext ⟨12, 0⟩ (.output ⟨[], []⟩) [],
      .resume 0 [.accept 100]]

theorem insert_h264_frame_undisturbed_once :
    (run RedWorker.step RedWorker.init insertRun).map
      (fun worker => worker.clients.map (fun client => client.rcc.written)) =
        some [[124, 0, 3, 0, 0, 0, 1, 2, 3, 124, 0, 3, 0, 0, 0, 1, 6, 7]] ∧
      AllStates RedWorker.step (fun _ worker => forall client, client ∈ worker.clients -> Streamed client.rcc) []
        RedWorker.init insertRun := by
  constructor
  · decide +kernel
  · apply insert_h264_frame_undisturbed
    · have sound : forall (_ : List Op) (worker : RedWorker) (op : Op), insertsIdle worker op = true ->
          InsertsIdle worker op := fun _ _ _ checked => insertsIdle_sound checked
      exact Meets.of_check sound insertRun [] RedWorker.init (by decide +kernel)
    · decide

/-- An image behind the dropped frame is written in part, and blocks the client when the
frame is inserted. -/
def blockedInsertRun : List Op :=
  [.connect .mini false 20, .paint, .pipeAdd 0 0 .draw, .sendNext 0 ⟨10, 0⟩ (.output ⟨[1], [2, 3]⟩) [.accept 100],
    .paint, .pipeAdd 0 0 .draw, .sendNext 0 ⟨10, 10000⟩ (.output ⟨[1], [4, 5]⟩) [.accept 100],
    .pipeAdd 0 0 (.other (.message ⟨304, Nat.succ_ne_zero 303⟩ [8, 9])),
    .sendNext 0 ⟨10, 20000⟩ (.output ⟨[], []⟩) [.accept 3], .poll ⟨12, 0⟩,
    .insertNext ⟨12, 0⟩ (.output ⟨[1], [6, 7]⟩) [.accept 100]]

/-- The assertion that no item is being sent fails. -/
theorem blocked_client_aborts_insert : run RedWorker.step RedWorker.init blockedInsertRun.dropLast ≠ none ∧
      Not (AllStates RedWorker.step (fun _ worker => forall client, client ∈ worker.clients -> Streamed client.rcc) []
        RedWorker.init blockedInsertRun) := by
  have reached : (run RedWorker.step RedWorker.init blockedInsertRun.dropLast).isSome = true := by decide +kernel
  have fails : (run RedWorker.step RedWorker.init blockedInsertRun).isNone = true := by decide +kernel
  constructor
  · intro wrong
    rw [wrong] at reached
    cases reached
  · intro all
    rcases all blockedInsertRun List.prefix_rfl with ⟨worker, ran, -⟩
    rw [ran] at fails
    cases fails

end Avc
end Spice
