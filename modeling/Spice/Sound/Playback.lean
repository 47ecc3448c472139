import Spice.Lib.Run
import Spice.Lib.Bytes
import Mathlib.Logic.Function.Basic

namespace Spice
namespace Sound
namespace Playback

open Lib

/-!
# The playback channel

What the channel is to send waits as bits of a command.  Sending first finishes the message that is
not finished, and then goes through the bits: a message is made, written as far as the stream takes
it, and its bit is cleared once it is all written.  Volume and mute are also sent directly.

The channel has three frames.  The device gets them, fills them and puts them back; a frame that is
put waits until it can be sent, and is replaced when another is put before.

A log has what was requested, what was given up and what was sent, and the bytes of each connection
are kept.
-/

/-! ## Messages -/

inductive Command
  | mode
  | pcm
  | ctrl
  | volume
  | migrate
  | latency
deriving DecidableEq, Repr

def Command.all : List Command := [.mode, .pcm, .ctrl, .volume, .migrate, .latency]

/-- A message with what it says. -/
inductive Body
  | mode (time mode : Nat)
  | data (mode time : Nat) (samples : List UInt32)
  | start (frequency time : Nat)
  | stop
  | volume (volume : List Nat)
  | mute (mute : Nat)
  | migrate
  | latency (latency : Nat)
deriving DecidableEq, Repr

inductive Kind
  | mode
  | data
  | ctrl
  | volume
  | mute
  | migrate
  | latency
deriving DecidableEq, Repr

def Kind.command : Kind -> Command
  | .mode => .mode
  | .data => .pcm
  | .ctrl => .ctrl
  | .volume => .volume
  | .mute => .volume
  | .migrate => .migrate
  | .latency => .latency

def Body.kind : Body -> Kind
  | .mode _ _ => .mode
  | .data _ _ _ => .data
  | .start _ _ => .ctrl
  | .stop => .ctrl
  | .volume _ => .volume
  | .mute _ => .mute
  | .migrate => .migrate
  | .latency _ => .latency

/-- The number of the message, `SPICE_MSG_MIGRATE` or one of `SPICE_MSG_PLAYBACK`. -/
def Body.verb : Body -> Nat
  | .mode _ _ => 102
  | .data _ _ _ => 101
  | .start _ _ => 103
  | .stop => 104
  | .volume _ => 105
  | .mute _ => 106
  | .migrate => 1
  | .latency _ => 107

/-- A request of messages, a request that is given up, or a message with its bytes. -/
inductive Event
  | request (kinds : List Kind)
  | withdraw (command : Command)
  | send (body : Body) (bytes : List UInt8)
deriving DecidableEq, Repr

/-! ## The channel -/

structure AudioFrame where
  index : Nat
  time : Nat
  samples : List UInt32
deriving DecidableEq, Repr

/-- `PlaybackChannel` with its `SndChannel`: the bytes of the message in the marshaller and how many were written, the
frames that are free by their index, and those that the device has. -/
structure PlaybackChannel where
  miniHeader : Bool
  volumeCap : Bool
  latencyCap : Bool
  active : Bool
  clientActive : Bool
  command : Command -> Bool
  serial : Nat
  out : List UInt8
  pos : Nat
  mode : Nat
  latency : Nat
  freeFrames : List Nat
  inProgress : Option AudioFrame
  pendingFrame : Option AudioFrame
  held : List Nat
  written : List UInt8
  log : List Event

/-- What the marshallers and the codec make of a message, whether the codec can encode it, the state of the instance,
and the time. -/
structure Context where
  payload : Body -> List UInt8
  encodes : Body -> Bool
  frequency : Nat
  volume : List Nat
  mute : Nat
  now : Nat

/-- What a write does: it takes some bytes, or fails with `EAGAIN`, `EINTR`, or another error. -/
inductive Write
  | wrote (count : Nat)
  | again
  | interrupted
  | broken
deriving DecidableEq, Repr

inductive Status
  | done
  | blocked
  | closed
deriving DecidableEq, Repr

/-- How far sending came, with the writes that are left. -/
structure Sending where
  channel : PlaybackChannel
  status : Status
  writes : List Write

namespace PlaybackChannel

variable (channel : PlaybackChannel)

def setCommand (command : Command) (kinds : List Kind) : PlaybackChannel :=
  { channel with
    command := Function.update channel.command command true
    log := channel.log ++ [.request kinds] }

def clear (command : Command) : PlaybackChannel :=
  { channel with command := Function.update channel.command command false }

/-- Messages are requested past the command. -/
def request (kinds : List Kind) : PlaybackChannel := { channel with log := channel.log ++ [.request kinds] }

/-- A request is given up. -/
def withdraw (command : Command) : PlaybackChannel := { channel with log := channel.log ++ [.withdraw command] }

def onMessageDone : PlaybackChannel :=
  match channel.inProgress with
  | none => channel
  | some frame => { channel with
      freeFrames := frame.index :: channel.freeFrames
      inProgress := none
      command := if channel.pendingFrame.isSome then Function.update channel.command .pcm true else channel.command }

/-- The stream takes some bytes. -/
def advance (count : Nat) : PlaybackChannel :=
  let taken := (channel.out.drop channel.pos).take count
  { channel with
    written := channel.written ++ taken
    pos := channel.pos + taken.length }

/-- The loop of `snd_send_data`; after the writes that are given the stream takes everything. -/
def sendLoop : List Write -> PlaybackChannel -> Sending
  | [], channel => ⟨(channel.advance channel.out.length).onMessageDone, .done, []⟩
  | .wrote count :: writes, channel =>
      if (channel.advance count).pos = channel.out.length then ⟨(channel.advance count).onMessageDone, .done, writes⟩
      else sendLoop writes (channel.advance count)
  | .again :: writes, channel => ⟨channel, .blocked, writes⟩
  | .interrupted :: writes, channel => sendLoop writes channel
  | .broken :: writes, channel => ⟨channel, .closed, writes⟩

def sendData (writes : List Write) : Sending :=
  if channel.pos = channel.out.length then ⟨channel, .done, writes⟩ else sendLoop writes channel

variable (context : Context)

/-- The bytes of a message, with the header that `snd_reset_send_data` reserves. -/
def message (body : Body) : List UInt8 :=
  let size := (context.payload body).length
  (if channel.miniHeader then toLittleEndian 2 body.verb ++ toLittleEndian 4 size
    else toLittleEndian 8 (channel.serial + 1) ++ toLittleEndian 2 body.verb ++ toLittleEndian 4 size ++
      toLittleEndian 4 0) ++
    context.payload body

/-- `snd_reset_send_data` and the marshalling: what was in the marshaller is lost. -/
def reset (body : Body) : PlaybackChannel := { channel with
  serial := channel.serial + 1
  out := channel.message context body
  pos := 0
  log := channel.log ++ [.send body (channel.message context body)] }

/-- `snd_begin_send_message` for a message. -/
def beginSend (body : Body) (writes : List Write) : Sending := (channel.reset context body).sendData writes

def sendVolume (writes : List Write) : Sending :=
  if channel.volumeCap then channel.beginSend context (.volume context.volume) writes
  else ⟨channel.withdraw .volume, .done, writes⟩

def sendMute (writes : List Write) : Sending :=
  if channel.volumeCap then channel.beginSend context (.mute context.mute) writes
  else ⟨channel.withdraw .volume, .done, writes⟩

def sendCtl (writes : List Write) : Sending :=
  { channel with clientActive := channel.active }.beginSend context
    (if channel.active then .start context.frequency context.now else .stop) writes

end PlaybackChannel

/-- The next of several things that are sent. -/
def Sending.next (sent : Sending) (stage : PlaybackChannel -> List Write -> Sending) : Sending :=
  if sent.status = .done then stage sent.channel sent.writes else sent

namespace PlaybackChannel

variable (context : Context)

/-- A bit of the command: if it is set a message is sent, and it is cleared when that is done. -/
def stage (command : Command) (send : PlaybackChannel -> List Write -> Sending) (channel : PlaybackChannel)
    (writes : List Write) : Sending :=
  if channel.command command then
    (send channel writes).next fun sent writes => ⟨sent.clear command, .done, writes⟩
  else ⟨channel, .done, writes⟩

/-- The frame that waits is sent.  If the codec fails the channel is disconnected. -/
def pcmStage (channel : PlaybackChannel) (writes : List Write) : Option Sending :=
  if channel.command .pcm then
    match channel.inProgress, channel.pendingFrame with
    | none, some frame =>
        let taken := { channel with
          inProgress := some frame
          pendingFrame := none }.clear .pcm
        let body := .data channel.mode frame.time frame.samples
        if context.encodes body then some (taken.beginSend context body writes)
        else some ⟨taken.withdraw .pcm, .closed, writes⟩
    | _, _ => none
  else some ⟨channel, .done, writes⟩

/-- The bits behind that of the frames. -/
def laterStages (sent : Sending) : Sending :=
  (((sent.next (stage .ctrl fun channel => channel.sendCtl context)).next
    (stage .volume fun channel writes => (channel.sendVolume context writes).next fun channel =>
      channel.sendMute context)).next
    (stage .migrate fun channel => channel.beginSend context .migrate)).next
    (stage .latency fun channel => channel.beginSend context (.latency channel.latency))

/-- The loop of `snd_playback_send`, one pass through the bits after the other. -/
def sendCommands : Nat -> PlaybackChannel -> List Write -> Option Sending
  | 0, _, _ => none
  | fuel + 1, channel, writes =>
      if Command.all.all fun command => !channel.command command then some ⟨channel, .done, writes⟩
      else
        let moded :=
          stage .mode (fun channel => channel.beginSend context (.mode context.now channel.mode)) channel writes
        if moded.status = .done then
          match pcmStage context moded.channel moded.writes with
          | none => none
          | some sent =>
              let last := laterStages context sent
              if last.status = .done then sendCommands fuel last.channel last.writes else some last
        else some moded

/-- `snd_playback_send`; one pass leaves no bit. -/
def send (channel : PlaybackChannel) (writes : List Write) : Option Sending :=
  let sent := channel.sendData writes
  if sent.status = .done then sendCommands context 2 sent.channel sent.writes else some sent

end PlaybackChannel
/-! ## The worker -/

/-- `__new_channel` with its frames. -/
def newChannel (miniHeader volumeCap latencyCap : Bool) (mode : Nat) : PlaybackChannel :=
  { miniHeader := miniHeader, volumeCap := volumeCap, latencyCap := latencyCap, active := false, clientActive := false,
    command := fun _ => false, serial := 0, out := [], pos := 0, mode := mode, latency := 0, freeFrames := [2, 1, 0],
    inProgress := none, pendingFrame := none, held := [], written := [], log := [] }

/-- `SndWorker` with the volume of its instance, the connection, and the connections that ended. -/
structure Worker where
  active : Bool
  volume : List Nat
  mute : Nat
  connection : Option PlaybackChannel
  ended : List PlaybackChannel

/-- Calls of the device, of the client's connection, and events of the stream, with the time and what writes do. -/
inductive Op
  | connect (miniHeader volumeCap latencyCap : Bool) (mode : Nat) (migrating : Bool) (now : Nat)
  (writes later : List Write)
  | disconnect
  | start (now : Nat) (writes : List Write)
  | stop (now : Nat) (writes : List Write)
  | getBuffer
  | putSamples (connection index : Nat) (samples : List UInt32) (now : Nat) (writes : List Write)
  | setVolume (volume : List Nat) (now : Nat) (writes : List Write)
  | setMute (mute now : Nat) (writes : List Write)
  | setLatency (latency now : Nat) (writes : List Write)
  | setMode (mode : Nat)
  | migrate (now : Nat) (writes : List Write)
  | writable (now : Nat) (writes : List Write)

/-- The marshallers and the codec, and the frequency. -/
structure Setup where
  payload : Body -> List UInt8
  encodes : Body -> Bool
  frequency : Nat

namespace Worker

variable (setup : Setup) (worker : Worker)

def context (now : Nat) : Context := ⟨setup.payload, setup.encodes, setup.frequency, worker.volume, worker.mute, now⟩

def disconnect : Worker := { worker with
  connection := none
  ended := worker.ended ++ worker.connection.toList }

/-- What is left when something was sent: the channel, or none if it was disconnected. -/
def settle (sent : Sending) : Worker :=
  if sent.status = .closed then { worker with connection := some sent.channel }.disconnect
  else { worker with connection := some sent.channel }

/-- `snd_playback_send` for a channel. -/
def send (channel : PlaybackChannel) (now : Nat) (writes : List Write) : Option Worker :=
  (channel.send (worker.context setup now) writes).map worker.settle

def start (now : Nat) (writes : List Write) : Option Worker :=
  let worker := { worker with active := true }
  match worker.connection with
  | none => some worker
  | some channel =>
      if channel.active then none
      else
        let started := { channel with active := true }
        if channel.clientActive then some { worker with connection := some ((started.clear .ctrl).withdraw .ctrl) }
        else worker.send setup (started.setCommand .ctrl [.ctrl]) now writes

def stop (now : Nat) (writes : List Write) : Option Worker :=
  let worker := { worker with active := false }
  match worker.connection with
  | none => some worker
  | some channel =>
      if channel.active then
        let stopped := { channel with active := false }
        if channel.clientActive then worker.send setup (stopped.setCommand .ctrl [.ctrl]) now writes
        else
          let quiet := (((stopped.clear .ctrl).withdraw .ctrl).clear .pcm).withdraw .pcm
          if channel.pendingFrame.isSome ∧ channel.inProgress.isSome then none
          else
            some { worker with
              connection := some { quiet with
                freeFrames := (channel.pendingFrame.map AudioFrame.index).toList ++ channel.freeFrames
                pendingFrame := none } }
      else none

def getBuffer : Option Worker :=
  match worker.connection with
  | none => some worker
  | some channel =>
      match channel.freeFrames with
      | [] => some worker
      | index :: rest =>
          if channel.active then
            some { worker with
              connection := some { channel with
                freeFrames := rest
                held := channel.held ++ [index] } }
          else none

/-- `spice_server_playback_put_samples` for a frame of a connection; those of connections that ended are dropped. -/
def putSamples (connection index : Nat) (samples : List UInt32) (now : Nat) (writes : List Write) : Option Worker :=
  match worker.connection with
  | none => some worker
  | some channel =>
      if connection = worker.ended.length then
        if channel.active then
          let free := (channel.pendingFrame.map AudioFrame.index).toList ++ channel.freeFrames
          worker.send setup ({ channel with
            freeFrames := free
            pendingFrame := some ⟨index, now, samples⟩
            held := channel.held.erase index }.setCommand .pcm [.data]) now writes
        else none
      else some worker

/-- `on_new_playback_channel`, for a channel that is not active. -/
def onNewPlaybackChannel (channel : PlaybackChannel) : PlaybackChannel :=
  if worker.volume.isEmpty then channel.setCommand .mode [.mode]
  else (channel.setCommand .mode [.mode]).setCommand .volume [.volume, .mute]

/-- `snd_set_playback_peer`, up to the last call. -/
def joined (miniHeader volumeCap latencyCap : Bool) (mode : Nat) (migrating : Bool) (now : Nat) (writes : List Write) :
    Option Worker :=
  let channel := newChannel miniHeader volumeCap latencyCap mode
  let asked := if migrating then channel else worker.onNewPlaybackChannel channel
  let fresh := { worker.disconnect with connection := some asked }
  if worker.active then fresh.start setup now writes else some fresh

/-- A bit is set, if any, and sent for. -/
def ask (change : PlaybackChannel -> PlaybackChannel) (now : Nat) (writes : List Write) : Option Worker :=
  match worker.connection with
  | none => some worker
  | some channel => worker.send setup (change channel) now writes

/-- A volume or mute message that is sent past the command. -/
def sendDirectly (kind : Kind) (stage : PlaybackChannel -> List Write -> Sending) (writes : List Write) : Worker :=
  match worker.connection with
  | none => worker
  | some channel =>
      if channel.volumeCap then
        worker.settle (stage (channel.request [kind]) writes)
      else worker

def setVolume (volume : List Nat) (now : Nat) (writes : List Write) : Worker :=
  let worker := { worker with volume := volume }
  if volume.isEmpty then worker
  else worker.sendDirectly .volume (fun channel => channel.sendVolume (worker.context setup now)) writes

def setMute (mute now : Nat) (writes : List Write) : Worker :=
  let worker := { worker with mute := mute }
  worker.sendDirectly .mute (fun channel => channel.sendMute (worker.context setup now)) writes

def step (worker : Worker) : Op -> Option Worker
  | .connect miniHeader volumeCap latencyCap mode migrating now writes later =>
      (worker.joined setup miniHeader volumeCap latencyCap mode migrating now writes).bind fun started =>
        started.ask setup id now later
  | .disconnect => some worker.disconnect
  | .start now writes => worker.start setup now writes
  | .stop now writes => worker.stop setup now writes
  | .getBuffer => worker.getBuffer
  | .putSamples connection index samples now writes => worker.putSamples setup connection index samples now writes
  | .setVolume volume now writes => some (worker.setVolume setup volume now writes)
  | .setMute mute now writes => some (worker.setMute setup mute now writes)
  -- a client without the capability has no latency
  | .setLatency latency now writes =>
      if (worker.connection.map PlaybackChannel.latencyCap).getD false then
        worker.ask setup (fun channel => { channel with latency := latency }.setCommand .latency [.latency]) now writes
      else some worker
  | .setMode mode => some { worker with
      connection := worker.connection.map fun channel =>
        if channel.mode = mode then channel else { channel with mode := mode }.setCommand .mode [.mode] }
  | .migrate now writes => worker.ask setup (fun channel => channel.setCommand .migrate [.migrate]) now writes
  | .writable now writes => worker.ask setup id now writes

def empty : Worker := ⟨false, [], 0, none, []⟩

end Worker

/-! ## What is to hold -/

/-- The requests that are not answered, and whether the client was started. -/
structure Track where
  owed : Kind -> Bool
  started : Bool

/-- A message answers a request of its kind; a start comes only after a stop and a stop only after a start. -/
def Track.step (track : Track) : Event -> Option Track
  | .request kinds => some { track with owed := fun kind => track.owed kind || kinds.contains kind }
  | .withdraw command => some { track with owed := fun kind => track.owed kind && kind.command ≠ command }
  | .send body _ =>
      let answered := fun kind => track.owed kind && kind ≠ body.kind
      if track.owed body.kind then
        match body with
        | .start _ _ => if track.started then none else some ⟨answered, true⟩
        | .stop => if track.started then some ⟨answered, false⟩ else none
        | _ => some ⟨answered, track.started⟩
      else none

def Track.none : Track := ⟨fun _ => false, false⟩

/-- The messages that were begun. -/
def sentBytes (log : List Event) : List (List UInt8) :=
  log.flatMap fun event =>
    match event with
    | .send _ bytes => [bytes]
    | _ => []

def PlaybackChannel.frames (channel : PlaybackChannel) : List Nat :=
  channel.freeFrames ++ (channel.inProgress.map AudioFrame.index).toList ++
    (channel.pendingFrame.map AudioFrame.index).toList ++
    channel.held

/-- Messages are written one after the other, all but the last to their ends; each answers a request, and when nothing
waits all are answered and the client knows whether there is sound; and the frames are kept apart. -/
structure Fine (channel : PlaybackChannel) : Prop where
  whole : Exists fun rest => channel.written ++ rest = (sentBytes channel.log).flatten ∧
    rest <:+ (sentBytes channel.log).getLast?.getD []
  answered : Exists fun track => run Track.step .none channel.log = some track ∧
    (channel.pos = channel.out.length -> (forall command, channel.command command = false) ->
      (forall kind, track.owed kind = false) ∧ track.started = channel.active)
  frames : channel.frames.Perm [0, 1, 2]

/-- All connections are fine. -/
def InOrder (worker : Worker) : Prop :=
  forall channel, channel ∈ worker.ended ++ worker.connection.toList -> Fine channel

def owed (log : List Event) (kind : Kind) : Bool :=
  ((run Track.step .none log).map fun track => track.owed kind).getD false

/-- Whether the stream takes so many bytes before it fails. -/
def takes : Nat -> List Write -> Bool
  | _, [] => true
  | size, .wrote count :: writes => size ≤ count || takes (size - count) writes
  | size, .interrupted :: writes => takes size writes
  | _, .again :: _ => false
  | _, .broken :: _ => false

/-- A message that was blocked is not finished while its bit is set and nothing was requested again. -/
def Renewed (channel : PlaybackChannel) (writes : List Write) : Prop :=
  channel.pos < channel.out.length -> takes (channel.out.length - channel.pos) writes = true ->
    forall kind : Kind, channel.command kind.command = true -> owed channel.log kind = true

/-- The device starts what is stopped and stops what is started, gets and puts frames only in between, and puts only
those that it has.  Volume and mute change only when no message is unfinished, no message is repeated, and a stop does
not come while a frame is sent that the client was not started for and another waits. -/
def CarefulOn (ended : Nat) (channel : PlaybackChannel) : Op -> Prop
  | .start _ writes => channel.active = false ∧
      (channel.clientActive = false -> Renewed (channel.setCommand .ctrl [.ctrl]) writes)
  | .stop _ writes => channel.active = true ∧
      (channel.clientActive = true -> Renewed (channel.setCommand .ctrl [.ctrl]) writes) ∧
      (channel.clientActive = false -> channel.pendingFrame.isSome = true -> channel.inProgress = none)
  | .getBuffer => channel.freeFrames ≠ [] -> channel.active = true
  | .putSamples connection index _ _ writes => connection = ended ->
      channel.active = true ∧ index ∈ channel.held ∧ Renewed (channel.setCommand .pcm [.data]) writes
  | .setVolume volume _ _ => volume = [] ∨ channel.volumeCap = false ∨ channel.pos = channel.out.length
  | .setMute _ _ _ => channel.volumeCap = false ∨ channel.pos = channel.out.length
  | .setLatency _ _ writes => channel.latencyCap = true -> Renewed (channel.setCommand .latency [.latency]) writes
  | .migrate _ writes => Renewed (channel.setCommand .migrate [.migrate]) writes
  | .writable _ writes => Renewed channel writes
  | _ => True

/-- A new connection sends once more after it was started. -/
def CarefulJoin (setup : Setup) (worker : Worker) : Op -> Prop
  | .connect miniHeader volumeCap latencyCap mode migrating now writes later => forall started,
      worker.joined setup miniHeader volumeCap latencyCap mode migrating now writes = some started ->
        forall channel, started.connection = some channel -> Renewed channel later
  | _ => True

def Careful (setup : Setup) (worker : Worker) (op : Op) : Prop :=
  (forall channel, worker.connection = some channel -> CarefulOn worker.ended.length channel op) ∧
    CarefulJoin setup worker op

/-! ## One channel -/

/-- What was written and what is left of the last message are the messages that were begun. -/
structure Wire (channel : PlaybackChannel) : Prop where
  whole : channel.written ++ channel.out.drop channel.pos = (sentBytes channel.log).flatten
  last : channel.out = (sentBytes channel.log).getLast?.getD []
  inside : channel.pos ≤ channel.out.length

/-- The bits and the frames agree with what is owed. -/
structure Agrees (channel : PlaybackChannel) (track : Track) : Prop where
  tracked : run Track.step .none channel.log = some track
  owed : forall kind, track.owed kind = true -> channel.command kind.command = true
  data : track.owed .data = channel.command .pcm
  pcm : channel.command .pcm = channel.pendingFrame.isSome
  ctrl : track.owed .ctrl = (channel.active != channel.clientActive)
  started : track.started = channel.clientActive
  frames : channel.frames.Perm [0, 1, 2]

/-- No message is unfinished, and what is set is owed. -/
structure Ready (channel : PlaybackChannel) (track : Track) : Prop where
  wire : Wire channel
  agrees : Agrees channel track
  rest : channel.pos = channel.out.length
  idle : channel.inProgress = none
  answered : forall kind : Kind, channel.command kind.command = track.owed kind

/-- The channel between two calls. -/
def Inv (channel : PlaybackChannel) : Prop := Exists fun track => Wire channel ∧ Agrees channel track ∧
  (channel.pos = channel.out.length -> Ready channel track ∧ forall command, channel.command command = true ->
    command = .mode)

section Channels

variable {channel : PlaybackChannel} {track : Track} {context : Context}

theorem tracked_snoc {log : List Event} {event : Event} {next : Track} (tracked : run Track.step .none log = some track)
    (stepped : track.step event = some next) : run Track.step .none (log ++ [event]) = some next := by
  rw [run_append, tracked, Option.bind_some, run_cons_of_some _ _ stepped]
  rfl

theorem owed_eq (agrees : Agrees channel track) (kind : Kind) : owed channel.log kind = track.owed kind := by
  unfold owed
  rw [agrees.tracked]
  rfl

theorem Wire.fine (wire : Wire channel) (agrees : Agrees channel track) : Fine channel where
  whole := ⟨channel.out.drop channel.pos, wire.whole, by rw [<- wire.last]; exact List.drop_suffix _ _⟩
  answered := by
    refine ⟨track, agrees.tracked, fun _ idle => ?_⟩
    have none : forall kind, track.owed kind = false := by
      intro kind
      refine Bool.eq_false_iff.mpr fun isOwed => ?_
      have isSet := agrees.owed kind isOwed
      rw [idle] at isSet
      cases isSet
    have same := agrees.ctrl
    rw [none, eq_comm, bne_eq_false_iff_eq] at same
    exact ⟨none, by rw [agrees.started, same]⟩
  frames := agrees.frames

theorem length_taken (channel : PlaybackChannel) (count : Nat) :
    ((channel.out.drop channel.pos).take count).length = min count (channel.out.length - channel.pos) := by
  rw [List.length_take, List.length_drop]

theorem Wire.advance (wire : Wire channel) (count : Nat) : Wire (channel.advance count) where
  whole := by
    show channel.written ++ (channel.out.drop channel.pos).take count ++
      channel.out.drop (channel.pos + ((channel.out.drop channel.pos).take count).length) =
        (sentBytes channel.log).flatten
    rw [<- wire.whole, List.append_assoc, <- List.drop_drop,
      List.prefix_iff_eq_append.mp (List.take_prefix count (channel.out.drop channel.pos))]
  last := wire.last
  inside := by
    have inside := wire.inside
    show channel.pos + ((channel.out.drop channel.pos).take count).length ≤ channel.out.length
    rw [length_taken]
    omega

theorem Agrees.advance (agrees : Agrees channel track) (count : Nat) : Agrees (channel.advance count) track :=
  ⟨agrees.tracked, agrees.owed, agrees.data, agrees.pcm, agrees.ctrl, agrees.started, agrees.frames⟩

/-- A frame that was sent is free again; the bit of a frame that waits was set before. -/
structure Finished (channel next : PlaybackChannel) : Prop where
  out : next.out = channel.out ∧ next.pos = channel.pos
  idle : next.inProgress = none
  command : next.command = channel.command

/-- A message is done. -/
theorem Agrees.onMessageDone (agrees : Agrees channel track) : Agrees channel.onMessageDone track ∧
    Finished channel channel.onMessageDone ∧ (Wire channel -> Wire channel.onMessageDone) := by
  unfold PlaybackChannel.onMessageDone
  split
  · rename_i idle
    exact ⟨agrees, ⟨⟨rfl, rfl⟩, idle, rfl⟩, id⟩
  · rename_i frame isFrame
    have same : (if channel.pendingFrame.isSome then Function.update channel.command .pcm true else channel.command) =
        channel.command := by
      split
      · rename_i waits
        rw [Function.update_eq_self_iff, agrees.pcm, waits]
      · rfl
    have frames := agrees.frames
    unfold PlaybackChannel.frames at frames
    rw [isFrame] at frames
    rw [same]
    refine ⟨⟨agrees.tracked, agrees.owed, agrees.data, agrees.pcm, agrees.ctrl, agrees.started, ?_⟩,
      ⟨⟨rfl, rfl⟩, rfl, rfl⟩, ?_⟩
    · refine List.Perm.trans ?_ frames
      refine List.perm_iff_count.mpr fun index => ?_
      simp [PlaybackChannel.frames, List.count_cons]
      omega
    · exact fun wire => ⟨wire.whole, wire.last, wire.inside⟩

/-- What the loop that writes does: unless the message is finished it stays, and a frame is given back with its end. -/
structure Writes (channel : PlaybackChannel) (track : Track) (writes : List Write) (sent : Sending) : Prop where
  wire : Wire sent.channel
  agrees : Agrees sent.channel track
  command : sent.channel.command = channel.command
  done : sent.status = .done -> sent.channel.pos = sent.channel.out.length ∧ sent.channel.inProgress = none ∧
    takes (channel.out.length - channel.pos) writes = true
  blocked : sent.status = .blocked -> sent.channel.pos < sent.channel.out.length

theorem Agrees.finish (agrees : Agrees channel track) (wire : Wire channel) {writes rest : List Write} (count : Nat)
    (all : channel.out.length - channel.pos ≤ count) (fits : takes (channel.out.length - channel.pos) writes = true) :
    Writes channel track writes ⟨(channel.advance count).onMessageDone, .done, rest⟩ := by
  obtain ⟨doneAgrees, finished, doneWire⟩ := (agrees.advance count).onMessageDone
  refine ⟨doneWire (wire.advance count), doneAgrees, finished.command, fun _ => ⟨?_, finished.idle, fits⟩,
    fun blocked => (nomatch blocked)⟩
  have inside := wire.inside
  show (channel.advance count).onMessageDone.pos = (channel.advance count).onMessageDone.out.length
  rw [finished.out.1, finished.out.2]
  show channel.pos + ((channel.out.drop channel.pos).take count).length = channel.out.length
  rw [length_taken]
  omega

/-- A message is written, or waits in the middle. -/
theorem sendLoop_spec (writes : List Write) : forall {channel : PlaybackChannel}, Wire channel ->
    Agrees channel track ->
    channel.pos < channel.out.length -> Writes channel track writes (PlaybackChannel.sendLoop writes channel) := by
  induction writes with
  | nil =>
      intro channel wire agrees more
      exact agrees.finish wire _ (Nat.sub_le _ _) rfl
  | cons write writes ih =>
      intro channel wire agrees more
      cases write with
      | wrote count =>
          unfold PlaybackChannel.sendLoop
          have isPos : (channel.advance count).pos = channel.pos + min count (channel.out.length - channel.pos) :=
            congrArg (channel.pos + ·) (length_taken channel count)
          split
          · refine agrees.finish wire count (by omega) ?_
            rw [takes, decide_eq_true (by omega), Bool.true_or]
          · obtain ⟨nextWire, nextAgrees, command, done, blocked⟩ :=
              ih (wire.advance count) (agrees.advance count)
                (show (channel.advance count).pos < channel.out.length by omega)
            refine ⟨nextWire, nextAgrees, command, fun isDone => ?_, blocked⟩
            obtain ⟨rest, idle, fits⟩ := done isDone
            refine ⟨rest, idle, ?_⟩
            have left : (channel.advance count).out.length - (channel.advance count).pos =
                channel.out.length - channel.pos - count := by
              show channel.out.length - (channel.advance count).pos = _
              omega
            rw [left] at fits
            rw [takes, fits, Bool.or_true]
      | again => exact ⟨wire, agrees, rfl, fun done => (nomatch done), fun _ => more⟩
      | interrupted =>
          obtain ⟨nextWire, nextAgrees, command, done, blocked⟩ := ih wire agrees more
          exact ⟨nextWire, nextAgrees, command, done, blocked⟩
      | broken => exact ⟨wire, agrees, rfl, fun done => (nomatch done), fun blocked => (nomatch blocked)⟩

/-! ### One message -/

theorem length_message_pos (channel : PlaybackChannel) (context : Context) (body : Body) :
    0 < (channel.message context body).length := by
  unfold PlaybackChannel.message
  dsimp only
  split <;> simp only [List.length_append, length_toLittleEndian] <;> omega

theorem sentBytes_send (log : List Event) (body : Body) (bytes : List UInt8) :
    sentBytes (log ++ [.send body bytes]) = sentBytes log ++ [bytes] := by
  rw [sentBytes, List.flatMap_append]
  rfl

/-- A message is begun when none is unfinished. -/
theorem Wire.reset (wire : Wire channel) (rest : channel.pos = channel.out.length) (body : Body) :
    Wire (channel.reset context body) where
  whole := by
    have whole := wire.whole
    rw [rest, List.drop_length, List.append_nil] at whole
    show channel.written ++ channel.message context body = (sentBytes (channel.log ++ [_])).flatten
    rw [whole, sentBytes_send, List.flatten_append, List.flatten_singleton]
  last := by
    show channel.message context body = (sentBytes (channel.log ++ [_])).getLast?.getD []
    rw [sentBytes_send, List.getLast?_concat]
    rfl
  inside := Nat.zero_le _

/-- The requests without those that a message answers. -/
def Track.without (track : Track) (kind : Kind) (started : Bool) : Track :=
  ⟨fun other => track.owed other && other ≠ kind, started⟩

theorem Agrees.reset {body : Body} {next : Track} (tracked : run Track.step .none channel.log = some track)
    (stepped : track.step (.send body (channel.message context body)) = some next)
    (owed : forall kind, next.owed kind = true -> channel.command kind.command = true)
    (data : next.owed .data = channel.command .pcm) (pcm : channel.command .pcm = channel.pendingFrame.isSome)
    (ctrl : next.owed .ctrl = (channel.active != channel.clientActive)) (started : next.started = channel.clientActive)
    (frames : channel.frames.Perm [0, 1, 2]) : Agrees (channel.reset context body) next :=
  ⟨tracked_snoc tracked stepped, owed, data, pcm, ctrl, started, frames⟩

structure Begun (channel : PlaybackChannel) (next : Track) (sent : Sending) : Prop where
  wire : Wire sent.channel
  agrees : Agrees sent.channel next
  command : sent.channel.command = channel.command
  done : sent.status = .done -> sent.channel.pos = sent.channel.out.length ∧ sent.channel.inProgress = none
  blocked : sent.status = .blocked -> sent.channel.pos < sent.channel.out.length

theorem beginSend_spec {body : Body} {next : Track} (wire : Wire channel) (rest : channel.pos = channel.out.length)
    (agrees : Agrees (channel.reset context body) next) (writes : List Write) :
    Begun channel next (channel.beginSend context body writes) := by
  have more : (channel.reset context body).pos < (channel.reset context body).out.length :=
    length_message_pos channel context body
  unfold PlaybackChannel.beginSend PlaybackChannel.sendData
  rw [if_neg (Nat.ne_of_lt more)]
  obtain ⟨sentWire, sentAgrees, command, done, blocked⟩ := sendLoop_spec writes (wire.reset rest body) agrees more
  exact ⟨sentWire, sentAgrees, command, fun isDone => ⟨(done isDone).1, (done isDone).2.1⟩, blocked⟩

/-- A message that says nothing of frames or of the client's state. -/
theorem Agrees.begins {body : Body} (agrees : Agrees channel track) (wire : Wire channel)
    (rest : channel.pos = channel.out.length) (owed : track.owed body.kind = true) (notData : body.kind ≠ .data)
    (notCtrl : body.kind ≠ .ctrl) (writes : List Write) :
    Begun channel (track.without body.kind track.started) (channel.beginSend context body writes) := by
  refine beginSend_spec wire rest ?_ writes
  refine Agrees.reset agrees.tracked ?_ ?_ ?_ agrees.pcm ?_ agrees.started agrees.frames
  · unfold Track.step
    dsimp only
    rw [if_pos owed]
    cases body with
    | start => exact absurd rfl notCtrl
    | stop => exact absurd rfl notCtrl
    | _ => rfl
  · exact fun kind isOwed => agrees.owed kind (Bool.and_eq_true_iff.mp isOwed).1
  · show (track.owed .data && decide (Kind.data ≠ body.kind)) = _
    rw [decide_eq_true notData.symm, Bool.and_true, agrees.data]
  · show (track.owed .ctrl && decide (Kind.ctrl ≠ body.kind)) = _
    rw [decide_eq_true notCtrl.symm, Bool.and_true, agrees.ctrl]

/-- What comes of a bit: only bits of some are left when it is done. -/
def Left (bits : List Command) (sent : Sending) : Prop :=
  Exists fun next => Wire sent.channel ∧ Agrees sent.channel next ∧
  (sent.status = .blocked -> sent.channel.pos < sent.channel.out.length) ∧
  (sent.status = .done -> Ready sent.channel next ∧ forall command, sent.channel.command command = true ->
    command ∈ bits)

/-- What sending a bit is to do: when it is done the kinds of the bit are answered and no others. -/
def Sends (command : Command) (send : PlaybackChannel -> List Write -> Sending) : Prop := forall channel track writes,
  Ready channel track -> channel.command command = true -> Exists fun next => Begun channel next (send channel writes) ∧
    ((send channel writes).status = .done -> forall kind, next.owed kind = (track.owed kind && kind.command ≠ command))

variable {command : Command}

/-- A stage sends its message, or nothing if something waits. -/
theorem Left.stage {bits : List Command} {send : PlaybackChannel -> List Write -> Sending} {sent : Sending}
    (left : Left (command :: bits) sent) (notPcm : command ≠ .pcm) (sends : Sends command send) :
    Left bits (sent.next (PlaybackChannel.stage command send)) := by
  obtain ⟨track, wire, agrees, blocked, done⟩ := left
  unfold Sending.next
  split
  · rename_i isDone
    obtain ⟨ready, only⟩ := done isDone
    unfold PlaybackChannel.stage
    split
    · rename_i isSet
      obtain ⟨next, begun, answers⟩ := sends sent.channel track sent.writes ready isSet
      unfold Sending.next
      split
      · rename_i wasDone
        have nextAgrees := begun.agrees
        have cleared : forall other, ((send sent.channel sent.writes).channel.clear command).command other =
            (sent.channel.command other && other ≠ command) := by
          intro other
          show Function.update (send sent.channel sent.writes).channel.command command false other = _
          rw [begun.command]
          by_cases same : other = command
          · rw [same, Function.update_self, decide_eq_false (not_not_intro rfl), Bool.and_false]
          · rw [Function.update_of_ne same, decide_eq_true same, Bool.and_true]
        have answered : forall kind : Kind,
            ((send sent.channel sent.writes).channel.clear command).command kind.command =
            next.owed kind := by
          intro kind
          rw [cleared, answers wasDone, ready.answered]
        have pcm : ((send sent.channel sent.writes).channel.clear command).command .pcm =
            (send sent.channel sent.writes).channel.command .pcm := by
          rw [cleared, begun.command, decide_eq_true notPcm.symm, Bool.and_true]
        have isClear : Agrees ((send sent.channel sent.writes).channel.clear command) next :=
          ⟨nextAgrees.tracked, fun kind isOwed => (answered kind).trans isOwed, (answered .data).symm,
            pcm.trans nextAgrees.pcm,
            nextAgrees.ctrl, nextAgrees.started, nextAgrees.frames⟩
        have clearWire : Wire ((send sent.channel sent.writes).channel.clear command) :=
          ⟨begun.wire.whole, begun.wire.last, begun.wire.inside⟩
        refine ⟨next, clearWire, isClear, fun blocked => (nomatch blocked),
          fun _ => ⟨⟨clearWire, isClear, (begun.done wasDone).1,
          (begun.done wasDone).2, answered⟩, fun other isSet => ?_⟩⟩
        rw [cleared, Bool.and_eq_true_iff] at isSet
        exact (List.mem_cons.mp (only other isSet.1)).resolve_left (of_decide_eq_true isSet.2)
      · rename_i notDone
        exact ⟨next, begun.wire, begun.agrees, begun.blocked, fun done => absurd done notDone⟩
    · rename_i notSet
      refine ⟨track, wire, agrees, fun blocked => (nomatch blocked), fun _ => ⟨ready, fun other isSet => ?_⟩⟩
      refine (List.mem_cons.mp (only other isSet)).resolve_left fun same => notSet ?_
      rw [<- same, isSet]
  · rename_i notDone
    exact ⟨track, wire, agrees, blocked, fun done => absurd done notDone⟩

/-! ### One pass -/

theorem sends_one (context : Context) (kind : Kind) (body : PlaybackChannel -> Body)
    (isKind : forall channel, (body channel).kind = kind)
    (alone : forall other : Kind, other.command = kind.command <-> other = kind) (notData : kind ≠ .data)
    (notCtrl : kind ≠ .ctrl) :
    Sends kind.command fun channel => channel.beginSend context (body channel) := by
  intro channel track writes ready isSet
  rw [ready.answered kind] at isSet
  have same := isKind channel
  refine ⟨_, ready.agrees.begins ready.wire ready.rest (by rw [same]; exact isSet) (by rw [same]; exact notData)
    (by rw [same]; exact notCtrl) writes, fun _ other => ?_⟩
  show (track.owed other && decide (other ≠ (body channel).kind)) = _
  rw [same, decide_eq_decide.mpr (not_congr (alone other)).symm]

theorem step_ctrl {active : Bool} (owed : track.owed .ctrl = true) (different : track.started = !active)
    (frequency now : Nat) (bytes : List UInt8) :
    track.step (.send (if active then .start frequency now else .stop) bytes) = some (track.without .ctrl active) := by
  cases active <;> simp [Track.step, Body.kind, owed, different, Track.without]

/-- The control message sends the start or the stop that is owed. -/
theorem sends_ctrl (context : Context) : Sends .ctrl fun channel => channel.sendCtl context := by
  intro channel track writes ready isSet
  have agrees := ready.agrees
  have owed : track.owed .ctrl = true := (ready.answered .ctrl).symm.trans isSet
  have different : track.started = !channel.active := by
    have ctrl := agrees.ctrl
    rw [owed, eq_comm, bne_iff_ne] at ctrl
    rw [agrees.started]
    exact Bool.eq_not_of_ne ctrl.symm
  have told : Wire { channel with clientActive := channel.active } :=
    ⟨ready.wire.whole, ready.wire.last, ready.wire.inside⟩
  have reset : Agrees ({ channel with clientActive := channel.active }.reset context
      (if channel.active then .start context.frequency context.now
        else .stop)) (track.without .ctrl channel.active) := by
    refine Agrees.reset agrees.tracked (step_ctrl owed different _ _ _) ?_ ?_ agrees.pcm ?_ rfl agrees.frames
    · exact fun kind isOwed => agrees.owed kind (Bool.and_eq_true_iff.mp isOwed).1
    · show (track.owed .data && true) = channel.command .pcm
      rw [Bool.and_true, agrees.data]
    · show (track.owed .ctrl && false) = (channel.active != channel.active)
      rw [Bool.and_false, bne_self_eq_false]
  have begun := beginSend_spec told ready.rest reset writes
  refine ⟨_, ⟨begun.wire, begun.agrees, begun.command, begun.done, begun.blocked⟩, fun _ kind => ?_⟩
  show (track.owed kind && decide (kind ≠ .ctrl)) = _
  cases kind <;> rfl

/-- A request is given up when its bit is about to be cleared. -/
theorem Agrees.withdraw (agrees : Agrees channel track) (notPcm : command ≠ .pcm)
    (notCtrl : command ≠ .ctrl) :
    Agrees (channel.withdraw command) ⟨fun kind => track.owed kind && kind.command ≠ command, track.started⟩ := by
  refine ⟨tracked_snoc agrees.tracked rfl, fun kind isOwed => agrees.owed kind (Bool.and_eq_true_iff.mp isOwed).1, ?_,
    agrees.pcm, ?_, agrees.started, agrees.frames⟩
  · show (track.owed .data && decide (Command.pcm ≠ command)) = channel.command .pcm
    rw [decide_eq_true notPcm.symm, Bool.and_true, agrees.data]
  · show (track.owed .ctrl && decide (Command.ctrl ≠ command)) = (channel.active != channel.clientActive)
    rw [decide_eq_true notCtrl.symm, Bool.and_true, agrees.ctrl]

theorem sentBytes_request (log : List Event) (kinds : List Kind) :
    sentBytes (log ++ [.request kinds]) = sentBytes log := by
  rw [sentBytes, List.flatMap_append]
  exact List.append_nil _

theorem sentBytes_withdraw (log : List Event) (command : Command) :
    sentBytes (log ++ [.withdraw command]) = sentBytes log := by
  rw [sentBytes, List.flatMap_append]
  exact List.append_nil _

theorem Wire.withdraw (wire : Wire channel) (command : Command) : Wire (channel.withdraw command) :=
  ⟨wire.whole.trans (congrArg List.flatten (sentBytes_withdraw channel.log command).symm),
    wire.last.trans (by rw [PlaybackChannel.withdraw, sentBytes_withdraw]), wire.inside⟩

/-- A message of volume or mute, or that both are given up. -/
theorem Agrees.volume (agrees : Agrees channel track) (context : Context) (body : Body) (wire : Wire channel)
    (rest : channel.pos = channel.out.length) (idle : channel.inProgress = none)
    (isVolume : body.kind.command = .volume)
    (owed : channel.volumeCap = true -> track.owed body.kind = true) (writes : List Write) :
    Exists fun next => Begun channel next (if channel.volumeCap then channel.beginSend context body writes
      else ⟨channel.withdraw .volume, .done, writes⟩) ∧ next.owed body.kind = false ∧
      forall other, other ≠ body.kind ->
        next.owed other = (track.owed other && (channel.volumeCap || other.command ≠ .volume)) := by
  by_cases cap : channel.volumeCap = true
  · rw [if_pos cap, cap]
    have notData : body.kind ≠ .data := fun same => by rw [same] at isVolume; cases isVolume
    have notCtrl : body.kind ≠ .ctrl := fun same => by rw [same] at isVolume; cases isVolume
    refine ⟨_, agrees.begins wire rest (owed cap) notData notCtrl writes, ?_, fun other different => ?_⟩
    · show (track.owed body.kind && decide (body.kind ≠ body.kind)) = false
      rw [decide_eq_false (not_not_intro rfl), Bool.and_false]
    · show (track.owed other && decide (other ≠ body.kind)) = _
      rw [decide_eq_true different, Bool.true_or]
  · rw [if_neg cap, Bool.not_eq_true _ |>.mp cap]
    have given : Agrees (channel.withdraw .volume) _ := agrees.withdraw nofun nofun
    refine ⟨_, ⟨wire.withdraw .volume, given, rfl, fun _ => ⟨rest, idle⟩, fun blocked => (nomatch blocked)⟩, ?_,
      fun other _ => ?_⟩
    · show (track.owed body.kind && decide (body.kind.command ≠ .volume)) = false
      rw [isVolume]
      exact Bool.and_false _
    · rw [Bool.false_or]

/-- The volume is sent, and the mute behind it. -/
theorem sends_volume (context : Context) : Sends .volume fun channel writes =>
    (channel.sendVolume context writes).next fun channel => channel.sendMute context := by
  intro channel track writes ready isSet
  have owed : forall {kind : Kind}, kind.command = .volume -> track.owed kind = true := by
    intro kind isVolume
    rw [<- ready.answered, isVolume, isSet]
  obtain ⟨middle, begun, less, others⟩ := ready.agrees.volume context (.volume context.volume) ready.wire
    ready.rest ready.idle rfl (fun _ => owed rfl) writes
  change Begun channel middle (channel.sendVolume context writes) at begun
  dsimp only
  unfold Sending.next
  split
  · rename_i isDone
    have due : (channel.sendVolume context writes).channel.volumeCap = true -> middle.owed .mute = true := by
      intro cap
      by_cases had : channel.volumeCap = true
      · rw [others .mute nofun, had, owed rfl]
        rfl
      · unfold PlaybackChannel.sendVolume at cap
        rw [if_neg had] at cap
        exact absurd cap had
    obtain ⟨last, lastBegun, lastLess, lastOthers⟩ := begun.agrees.volume context (.mute context.mute)
      begun.wire (begun.done isDone).1 (begun.done isDone).2 rfl due (channel.sendVolume context writes).writes
    refine ⟨last, ⟨lastBegun.wire, lastBegun.agrees, lastBegun.command.trans begun.command, lastBegun.done,
      lastBegun.blocked⟩,
      fun _ kind => ?_⟩
    by_cases isMute : kind = .mute
    · rw [isMute]
      exact lastLess.trans (Bool.and_false _).symm
    rw [lastOthers kind isMute]
    by_cases isVolume : kind = .volume
    · rw [isVolume]
      exact (congrArg (· && _) less).trans (Bool.and_false _).symm
    have elsewhere : decide (kind.command ≠ .volume) = true := by
      cases kind <;> first | rfl | contradiction
    rw [others kind isVolume, elsewhere, Bool.or_true, Bool.or_true, Bool.and_true]
  · rename_i notDone
    exact ⟨middle, begun, fun done => absurd done notDone⟩

/-- The frame that waits is there, and no other is in progress. -/
theorem pcmStage_spec (context : Context) {bits : List Command} (ready : Ready channel track)
    (only : forall command, channel.command command = true -> command ∈ Command.pcm :: bits) (writes : List Write) :
    Exists fun sent => PlaybackChannel.pcmStage context channel writes = some sent ∧ Left bits sent := by
  have agrees := ready.agrees
  unfold PlaybackChannel.pcmStage
  split
  · rename_i isSet
    have waits := agrees.pcm
    rw [isSet] at waits
    obtain ⟨frame, isFrame⟩ := Option.isSome_iff_exists.mp waits.symm
    have owed : track.owed .data = true := agrees.data.trans isSet
    rw [ready.idle, isFrame]
    dsimp only
    have cleared : forall kind : Kind, (Function.update channel.command .pcm false) kind.command =
        (track.owed kind && decide (kind ≠ .data)) := by
      intro kind
      rw [<- ready.answered]
      cases kind <;> simp [Kind.command]
    have frames : (channel.freeFrames ++ [frame.index] ++ [] ++ channel.held).Perm [0, 1, 2] := by
      have frames := agrees.frames
      unfold PlaybackChannel.frames at frames
      rw [ready.idle, isFrame] at frames
      simpa using frames
    have taken : Wire ({ channel with inProgress := some frame, pendingFrame := none }.clear .pcm) :=
      ⟨ready.wire.whole, ready.wire.last, ready.wire.inside⟩
    split
    · have reset : Agrees (({ channel with inProgress := some frame, pendingFrame := none }.clear .pcm).reset context
          (.data channel.mode frame.time frame.samples)) (track.without .data track.started) := by
        refine Agrees.reset agrees.tracked ?_ (fun kind isOwed => (cleared kind).trans isOwed) (Bool.and_false _) rfl
          ((Bool.and_true _).trans agrees.ctrl) agrees.started frames
        unfold Track.step
        exact if_pos owed
      have begun := beginSend_spec taken ready.rest reset writes
      refine ⟨_, rfl, _, begun.wire, begun.agrees, begun.blocked, fun isDone => ⟨⟨begun.wire, begun.agrees,
        (begun.done isDone).1, (begun.done isDone).2, fun kind => ?_⟩, fun command isSet => ?_⟩⟩
      · rw [begun.command]
        exact cleared kind
      · rw [begun.command] at isSet
        have isLeft : Function.update channel.command .pcm false command = true := isSet
        by_cases same : command = .pcm
        · rw [same, Function.update_self] at isLeft
          cases isLeft
        · rw [Function.update_of_ne same] at isLeft
          exact (List.mem_cons.mp (only command isLeft)).resolve_left same
    · have gone : Agrees (({ channel with inProgress := some frame, pendingFrame := none }.clear .pcm).withdraw .pcm)
          ⟨fun kind => track.owed kind && kind.command ≠ .pcm, track.started⟩ := by
        refine ⟨tracked_snoc agrees.tracked rfl, fun kind isOwed => ?_, Bool.and_false _, rfl, ?_,
          agrees.started, frames⟩
        · refine (cleared kind).trans ?_
          cases kind <;> simp [Kind.command] at isOwed ⊢ <;> exact isOwed
        · exact (Bool.and_true _).trans agrees.ctrl
      exact ⟨_, rfl, _, taken.withdraw .pcm, gone, fun blocked => (nomatch blocked), fun done => (nomatch done)⟩
  · rename_i notSet
    refine ⟨_, rfl, track, ready.wire, agrees, fun blocked => (nomatch blocked),
      fun _ => ⟨ready, fun command isSet => ?_⟩⟩
    refine (List.mem_cons.mp (only command isSet)).resolve_left fun same => notSet ?_
    rw [<- same, isSet]

theorem Left.laterStages (context : Context) {sent : Sending} (left : Left [.ctrl, .volume, .migrate, .latency] sent) :
    Left [] (PlaybackChannel.laterStages context sent) := by
  have toldLeft := left.stage nofun (sends_ctrl context)
  have loudLeft := toldLeft.stage nofun (sends_volume context)
  have movedLeft := loudLeft.stage nofun (sends_one context .migrate (fun _ => .migrate) (fun _ => rfl)
    (fun other => by cases other <;> decide) nofun nofun)
  exact movedLeft.stage nofun (sends_one context .latency (fun channel => .latency channel.latency) (fun _ => rfl)
    (fun other => by cases other <;> decide) nofun nofun)

/-- One pass sends all that is asked for, or what is sent stays unfinished. -/
theorem sendCommands_spec (ready : Ready channel track) (writes : List Write) :
    Exists fun sent => PlaybackChannel.sendCommands context 2 channel writes = some sent ∧ Left [] sent := by
  unfold PlaybackChannel.sendCommands
  split
  · rename_i clear
    refine ⟨_, rfl, track, ready.wire, ready.agrees, fun blocked => (nomatch blocked),
      fun _ => ⟨ready, fun command isSet => ?_⟩⟩
    have notSet := List.all_eq_true.mp clear command (by cases command <;> decide)
    rw [isSet] at notSet
    cases notSet
  · have begin_ : Left Command.all ⟨channel, .done, writes⟩ :=
      ⟨track, ready.wire, ready.agrees, fun blocked => (nomatch blocked),
        fun _ => ⟨ready, fun command _ => by cases command <;> decide⟩⟩
    have left : Left [.pcm, .ctrl, .volume, .migrate, .latency] (PlaybackChannel.stage .mode
        (fun channel => channel.beginSend context (.mode context.now channel.mode)) channel writes) :=
      begin_.stage nofun (sends_one context .mode (fun channel => .mode context.now channel.mode) (fun _ => rfl)
        (fun other => by cases other <;> decide) nofun nofun)
    dsimp only
    split
    · rename_i isDone
      obtain ⟨next, _, _, _, done⟩ := left
      obtain ⟨nextReady, only⟩ := done isDone
      obtain ⟨sent, isSent, sentLeft⟩ := pcmStage_spec context nextReady only _
      rw [isSent]
      have lastLeft := sentLeft.laterStages context
      dsimp only
      split
      · rename_i lastDone
        obtain ⟨last, wire, agrees, blocked, ends⟩ := lastLeft
        obtain ⟨lastReady, none⟩ := ends lastDone
        unfold PlaybackChannel.sendCommands
        have clear : (Command.all.all fun command =>
            !(PlaybackChannel.laterStages context sent).channel.command command) = true := by
          refine List.all_eq_true.mpr fun command _ => ?_
          rw [Bool.not_eq_true', Bool.eq_false_iff]
          exact fun isSet => (nomatch (none command isSet))
        rw [if_pos clear]
        exact ⟨_, rfl, last, wire, agrees, fun blocked => (nomatch blocked), fun _ => ⟨lastReady, none⟩⟩
      · exact ⟨_, rfl, lastLeft⟩
    · rename_i notDone
      obtain ⟨next, wire, agrees, blocked, _⟩ := left
      exact ⟨_, rfl, next, wire, agrees, blocked, fun done => absurd done notDone⟩

/-- A channel that something may be sent for. -/
def Sendable (channel : PlaybackChannel) : Prop :=
  Exists fun track => Wire channel ∧ Agrees channel track ∧ (channel.pos = channel.out.length -> Ready channel track)

/-- All that is requested is sent, one after the other. -/
theorem Sendable.send (context : Context) (sendable : Sendable channel) {writes : List Write}
    (renewed : Renewed channel writes) :
    Exists fun sent => channel.send context writes = some sent ∧ Left [] sent := by
  obtain ⟨track, wire, agrees, ready⟩ := sendable
  unfold PlaybackChannel.send PlaybackChannel.sendData
  dsimp only
  by_cases rest : channel.pos = channel.out.length
  · rw [if_pos rest]
    exact sendCommands_spec (ready rest) writes
  · rw [if_neg rest]
    have more : channel.pos < channel.out.length := Nat.lt_of_le_of_ne wire.inside rest
    obtain ⟨sentWire, sentAgrees, command, done, blocked⟩ := sendLoop_spec writes wire agrees more
    split
    · rename_i isDone
      obtain ⟨isRest, idle, fits⟩ := done isDone
      refine @sendCommands_spec _ track _ ⟨sentWire, sentAgrees, isRest, idle, fun kind => ?_⟩ _
      rw [command, Bool.eq_iff_iff]
      exact ⟨fun isSet => (owed_eq agrees kind).symm.trans (renewed more fits kind isSet), agrees.owed kind⟩
    · rename_i notDone
      exact ⟨_, rfl, track, sentWire, sentAgrees, blocked, fun done => absurd done notDone⟩

/-! ### Calls -/

theorem Inv.sendable (inv : Inv channel) : Sendable channel := by
  obtain ⟨track, wire, agrees, ready⟩ := inv
  exact ⟨track, wire, agrees, fun rest => (ready rest).1⟩

theorem Inv.only (inv : Inv channel) (rest : channel.pos = channel.out.length)
    (isSet : channel.command command = true) : command = .mode := by
  obtain ⟨track, _, _, ready⟩ := inv
  exact (ready rest).2 command isSet

theorem Sendable.inv (sendable : Sendable channel)
    (only : channel.pos = channel.out.length -> forall command, channel.command command = true -> command = .mode) :
    Inv channel := by
  obtain ⟨track, wire, agrees, ready⟩ := sendable
  exact ⟨track, wire, agrees, fun rest => ⟨ready rest, only rest⟩⟩

/-- A call that changes the bits as it changes what is owed. -/
structure Moves (change : Kind -> Bool -> Bool) (event : Event) (channel next : PlaybackChannel) : Prop where
  log : next.log = channel.log ++ [event]
  sent : sentBytes (channel.log ++ [event]) = sentBytes channel.log
  step : forall track : Track, track.step event = some ⟨fun kind => change kind (track.owed kind), track.started⟩
  mono : forall kind, change kind false = true -> change kind true = true
  bits : forall kind : Kind, next.command kind.command = change kind (channel.command kind.command)
  wire : next.written = channel.written ∧ next.out = channel.out ∧ next.pos = channel.pos
  progress : next.inProgress = channel.inProgress
  client : next.clientActive = channel.clientActive

/-- A request, or the withdrawal of one. -/
theorem Sendable.moves {change : Kind -> Bool -> Bool} {event : Event} {next : PlaybackChannel}
    (sendable : Sendable channel)
    (moves : Moves change event channel next) (pcm : next.command .pcm = next.pendingFrame.isSome)
    (ctrl : change .ctrl (channel.active != channel.clientActive) = (next.active != channel.clientActive))
    (frames : next.frames.Perm channel.frames) : Sendable next := by
  obtain ⟨track, wire, agrees, ready⟩ := sendable
  have isLog := moves.log
  obtain ⟨isWritten, isOut, isPos⟩ := moves.wire
  have nextWire : Wire next := by
    refine ⟨?_, ?_, ?_⟩
    · rw [isWritten, isOut, isPos, isLog, moves.sent]
      exact wire.whole
    · rw [isOut, isLog, moves.sent]
      exact wire.last
    · rw [isOut, isPos]
      exact wire.inside
  have nextAgrees : Agrees next ⟨fun kind => change kind (track.owed kind), track.started⟩ := by
    refine ⟨?_, fun kind isOwed => ?_, ?_, pcm, ?_, ?_, frames.trans agrees.frames⟩
    · rw [isLog]
      exact tracked_snoc agrees.tracked (moves.step track)
    · rw [moves.bits]
      dsimp only at isOwed
      cases wasOwed : track.owed kind with
      | true =>
          rw [wasOwed] at isOwed
          rw [agrees.owed kind wasOwed, isOwed]
      | false =>
          rw [wasOwed] at isOwed
          cases channel.command kind.command with
          | true => exact moves.mono kind isOwed
          | false => exact isOwed
    · exact (congrArg (change .data) agrees.data).trans (moves.bits .data).symm
    · rw [moves.client, <- ctrl, <- agrees.ctrl]
    · rw [moves.client]
      exact agrees.started
  refine ⟨_, nextWire, nextAgrees, fun rest => ?_⟩
  have isReady := ready (by rw [<- isPos, <- isOut, rest])
  exact ⟨nextWire, nextAgrees, rest, moves.progress.trans isReady.idle,
    fun kind => (moves.bits kind).trans (congrArg (change kind) (isReady.answered kind))⟩

theorem update_true (set : Command -> Bool) (command : Command) (kind : Kind) :
    Function.update set command true kind.command = (set kind.command || decide (kind.command = command)) := by
  by_cases same : kind.command = command
  · rw [same, Function.update_self, decide_eq_true rfl, Bool.or_true]
  · rw [Function.update_of_ne same, decide_eq_false same, Bool.or_false]

theorem update_false (set : Command -> Bool) (command : Command) (kind : Kind) :
    Function.update set command false kind.command = (set kind.command && decide (kind.command ≠ command)) := by
  by_cases same : kind.command = command
  · rw [same, Function.update_self, decide_eq_false (not_not_intro rfl), Bool.and_false]
  · rw [Function.update_of_ne same, decide_eq_true same, Bool.and_true]

/-- Requests of some kinds. -/
theorem moves_set {kinds : List Kind} {active : Bool} {mode latency : Nat} {free held : List Nat}
    {pending : Option AudioFrame} (all : forall kind, kinds.contains kind = decide (kind.command = command)) :
    Moves (fun kind set => set || decide (kind.command = command)) (.request kinds) channel ({ channel with
      active := active
      mode := mode
      latency := latency
      freeFrames := free
      pendingFrame := pending
      held := held }.setCommand command kinds) where
  log := rfl
  sent := sentBytes_request channel.log kinds
  step := fun track => by simp only [<- all]; rfl
  mono := fun _ _ => rfl
  bits := update_true channel.command command
  wire := ⟨rfl, rfl, rfl⟩
  progress := rfl
  client := rfl

theorem moves_clear (channel : PlaybackChannel) (command : Command) (active : Bool) :
    Moves (fun kind set => set && decide (kind.command ≠ command)) (.withdraw command) channel
      (({ channel with active := active }.clear command).withdraw command) where
  log := rfl
  sent := sentBytes_withdraw channel.log command
  step := fun _ => rfl
  mono := fun _ => nofun
  bits := update_false channel.command command
  wire := ⟨rfl, rfl, rfl⟩
  progress := rfl
  client := rfl

theorem Sendable.pcm (sendable : Sendable channel) : channel.command .pcm = channel.pendingFrame.isSome := by
  obtain ⟨track, _, agrees, _⟩ := sendable
  exact agrees.pcm

/-- A bit that is of no frame and of no start is set. -/
theorem Sendable.setCommand {kinds : List Kind} {mode latency : Nat} (sendable : Sendable channel)
    (all : forall kind, kinds.contains kind = decide (kind.command = command)) (notPcm : command ≠ .pcm)
    (notCtrl : command ≠ .ctrl) :
    Sendable ({ channel with
      mode := mode
      latency := latency }.setCommand command kinds) := by
  refine sendable.moves (moves_set all) ((Function.update_of_ne notPcm.symm _ _).trans sendable.pcm) ?_
    (List.Perm.refl _)
  rw [decide_eq_false (show Kind.ctrl.command ≠ command from notCtrl.symm), Bool.or_false]
  rfl

/-- Sound starts or stops, which the client does not know. -/
theorem Sendable.asks {active : Bool} (sendable : Sendable channel) (different : active = !channel.clientActive) :
    Sendable ({ channel with active := active }.setCommand .ctrl [.ctrl]) := by
  refine sendable.moves (moves_set fun kind => by cases kind <;> rfl) sendable.pcm ?_ (List.Perm.refl _)
  show _ = (active != channel.clientActive)
  rw [different]
  cases channel.clientActive <;> exact Bool.or_true _

/-- Sound starts or stops as the client thinks that it is. -/
theorem Sendable.quiet {active : Bool} (sendable : Sendable channel) (same : active = channel.clientActive) :
    Sendable (({ channel with active := active }.clear .ctrl).withdraw .ctrl) := by
  refine sendable.moves (moves_clear channel .ctrl active) sendable.pcm ?_ (List.Perm.refl _)
  show _ = (active != channel.clientActive)
  rw [same, bne_self_eq_false]
  exact Bool.and_false _

theorem Sendable.drop (sendable : Sendable channel) : Sendable { (channel.clear .pcm).withdraw .pcm with
    freeFrames := (channel.pendingFrame.map AudioFrame.index).toList ++ channel.freeFrames
    pendingFrame := none } := by
  have moves := moves_clear channel .pcm channel.active
  have dropped : Moves (fun kind set => set && decide (kind.command ≠ .pcm)) (.withdraw .pcm) channel
      { (channel.clear .pcm).withdraw .pcm with
        freeFrames := (channel.pendingFrame.map AudioFrame.index).toList ++ channel.freeFrames
        pendingFrame := none } :=
    ⟨moves.log, moves.sent, moves.step, moves.mono, moves.bits, moves.wire, moves.progress, moves.client⟩
  refine sendable.moves dropped rfl (Bool.and_true _) (List.perm_iff_count.mpr fun index => ?_)
  simp only [PlaybackChannel.frames, List.count_append]
  show _ + List.count index (channel.inProgress.map AudioFrame.index).toList + 0 + List.count index channel.held = _
  omega

/-- A frame is put, in the place of the one that waits. -/
theorem Sendable.put {index now : Nat} {samples : List UInt32} (sendable : Sendable channel)
    (isHeld : index ∈ channel.held) :
    Sendable ({ channel with
      freeFrames := (channel.pendingFrame.map AudioFrame.index).toList ++ channel.freeFrames
      pendingFrame := some ⟨index, now, samples⟩
      held := channel.held.erase index }.setCommand .pcm [.data]) := by
  refine sendable.moves (moves_set fun kind => by cases kind <;> rfl) rfl (Bool.or_false _)
    (List.perm_iff_count.mpr fun other => ?_)
  have counts := List.perm_iff_count.mp (List.perm_cons_erase isHeld) other
  rw [List.count_cons] at counts
  show List.count other (_ ++ channel.freeFrames ++ (channel.inProgress.map AudioFrame.index).toList ++ [index] ++
    channel.held.erase index) = _
  simp only [PlaybackChannel.frames, List.count_append, List.count_singleton]
  omega

/-- A frame is handed out. -/
theorem Inv.get {index : Nat} {free : List Nat} (inv : Inv channel) (isFree : channel.freeFrames = index :: free) :
    Inv { channel with
      freeFrames := free
      held := channel.held ++ [index] } := by
  obtain ⟨track, wire, agrees, ready⟩ := inv
  have gotWire : Wire { channel with freeFrames := free, held := channel.held ++ [index] } :=
    ⟨wire.whole, wire.last, wire.inside⟩
  have got : Agrees { channel with freeFrames := free, held := channel.held ++ [index] } track := by
    refine ⟨agrees.tracked, agrees.owed, agrees.data, agrees.pcm, agrees.ctrl, agrees.started,
      List.Perm.trans ?_ agrees.frames⟩
    refine List.perm_iff_count.mpr fun other => ?_
    simp only [PlaybackChannel.frames, isFree, List.count_append, List.count_cons, List.count_nil]
    omega
  exact ⟨track, gotWire, got, fun rest =>
    ⟨⟨gotWire, got, rest, (ready rest).1.idle, (ready rest).1.answered⟩, (ready rest).2⟩⟩

/-- A volume or mute message is sent past the command. -/
theorem Inv.direct {body : Body} (inv : Inv channel) (rest : channel.pos = channel.out.length)
    (isVolume : body.kind.command = .volume) (writes : List Write) : Left [.mode]
      ((channel.request [body.kind]).beginSend context body writes) := by
  have only : forall {command : Command}, channel.command command = true -> command = .mode := inv.only rest
  obtain ⟨track, wire, agrees, ready⟩ := inv
  have isReady := (ready rest).1
  have same : forall kind, ((track.owed kind || [body.kind].contains kind) && decide (kind ≠ body.kind)) =
      track.owed kind := by
    intro kind
    by_cases isKind : kind = body.kind
    · have notOwed : track.owed body.kind = false := by
        rw [<- isReady.answered, isVolume, Bool.eq_false_iff]
        exact fun isSet => (nomatch (only isSet))
      rw [isKind, notOwed, decide_eq_false (not_not_intro rfl), Bool.and_false]
    · rw [decide_eq_true isKind, Bool.and_true, List.contains_cons, beq_eq_false_iff_ne.mpr isKind, Bool.false_or]
      exact Bool.or_false _
  have asked : Wire (channel.request [body.kind]) :=
    ⟨wire.whole.trans (congrArg List.flatten (sentBytes_request channel.log [body.kind]).symm),
      wire.last.trans (by rw [PlaybackChannel.request, sentBytes_request]), wire.inside⟩
  have reset : Agrees ((channel.request [body.kind]).reset context body) track := by
    refine Agrees.reset (tracked_snoc agrees.tracked rfl) ?_ agrees.owed agrees.data agrees.pcm agrees.ctrl
      agrees.started
      agrees.frames
    have asks : (track.owed body.kind || [body.kind].contains body.kind) = true := by
      rw [List.contains_cons, beq_self_eq_true, Bool.true_or, Bool.or_true]
    have answers : (fun kind => (track.owed kind || [body.kind].contains kind) && decide (kind ≠ body.kind)) =
        track.owed :=
      funext same
    unfold Track.step
    dsimp only
    rw [if_pos asks, answers]
    cases body with
    | volume => rfl
    | mute => rfl
    | _ => cases isVolume
  have begun := beginSend_spec asked rest reset writes
  refine ⟨track, begun.wire, begun.agrees, begun.blocked,
    fun isDone => ⟨⟨begun.wire, begun.agrees, (begun.done isDone).1,
    (begun.done isDone).2, fun kind => ?_⟩, fun command isSet => ?_⟩⟩
  · rw [begun.command]
    exact isReady.answered kind
  · rw [begun.command] at isSet
    exact List.mem_singleton.mpr (only isSet)

theorem of_cleared {set : Command -> Bool} {command other : Command}
    (isSet : Function.update set command false other = true) :
    set other = true := by
  by_cases same : other = command
  · rw [same, Function.update_self] at isSet
    cases isSet
  · rwa [Function.update_of_ne same] at isSet

end Channels

/-! ## All connections -/

/-- The connections that ended are fine, and the one that is left keeps its invariant. -/
structure Good (worker : Worker) : Prop where
  ended : forall channel, channel ∈ worker.ended -> Fine channel
  inv : forall channel, worker.connection = some channel -> Inv channel

section Workers

variable {setup : Setup} {worker : Worker} {channel : PlaybackChannel}

theorem Inv.fine (inv : Inv channel) : Fine channel := by
  obtain ⟨track, wire, agrees, _⟩ := inv
  exact wire.fine agrees

theorem Good.inOrder (good : Good worker) : InOrder worker := by
  intro channel member
  rcases List.mem_append.mp member with before | now
  · exact good.ended channel before
  · exact (good.inv channel (Option.mem_toList.mp now)).fine

theorem Good.disconnect (good : Good worker) : Good worker.disconnect where
  ended := good.inOrder
  inv := fun _ isChannel => (nomatch isChannel)

def Ended (worker : Worker) : Prop := forall channel, channel ∈ worker.ended -> Fine channel

theorem Ended.connected (ended : Ended worker) (inv : Inv channel) :
    Good { worker with connection := some channel } where
  ended := ended
  inv := fun other isChannel => by cases isChannel; exact inv

/-- What a sending leaves behind is good. -/
theorem Ended.settle (ended : Ended worker) {sent : Sending} (left : Left [.mode] sent) :
    Good (worker.settle sent) := by
  obtain ⟨track, wire, agrees, blocked, done⟩ := left
  unfold Worker.settle
  split
  · refine ⟨fun channel member => ?_, fun _ isChannel => (nomatch isChannel)⟩
    rcases List.mem_append.mp member with before | now
    · exact ended channel before
    · rw [Option.mem_toList.mp now |> Option.some_inj.mp |>.symm]
      exact wire.fine agrees
  · rename_i notClosed
    refine ended.connected ⟨track, wire, agrees, fun rest => ?_⟩
    have isDone : sent.status = .done := by
      cases isStatus : sent.status with
      | done => rfl
      | blocked => exact absurd rest (Nat.ne_of_lt (blocked isStatus))
      | closed => exact absurd isStatus notClosed
    exact ⟨(done isDone).1, fun command isSet => List.mem_singleton.mp ((done isDone).2 command isSet)⟩

theorem Ended.send (ended : Ended worker) (sendable : Sendable channel) {writes : List Write}
    (renewed : Renewed channel writes)
    (now : Nat) : Exists fun next => worker.send setup channel now writes = some next ∧ Good next := by
  obtain ⟨sent, sends, track, wire, agrees, blocked, done⟩ := sendable.send (worker.context setup now) renewed
  unfold Worker.send
  rw [sends]
  exact ⟨_, rfl, ended.settle ⟨track, wire, agrees, blocked, fun isDone => ⟨(done isDone).1,
    fun command isSet => (nomatch ((done isDone).2 command isSet))⟩⟩⟩

theorem Ended.ask (ended : Ended worker) {change : PlaybackChannel -> PlaybackChannel} {writes : List Write} (now : Nat)
    (sendable : forall channel, worker.connection = some channel -> Sendable (change channel) ∧
      Renewed (change channel) writes) :
    Exists fun next => worker.ask setup change now writes = some next ∧ Good next := by
  unfold Worker.ask
  split
  · rename_i isNone
    exact ⟨worker, rfl, ended, fun channel isChannel => by rw [isNone] at isChannel; cases isChannel⟩
  · rename_i channel isChannel
    exact ended.send (sendable channel isChannel).1 (sendable channel isChannel).2 now

/-- The device starts. -/
theorem Ended.start (ended : Ended worker) {now : Nat} {writes : List Write}
    (sendable : forall channel, worker.connection = some channel -> Sendable channel ∧
      (channel.clientActive = true -> Inv channel))
    (careful : forall channel, worker.connection = some channel ->
      CarefulOn worker.ended.length channel (.start now writes)) :
    Exists fun next => worker.start setup now writes = some next ∧ Good next := by
  have same : Ended { worker with active := true } := ended
  unfold Worker.start
  dsimp only
  split
  · rename_i isNone
    exact ⟨_, rfl, ended, fun channel isChannel => by rw [isNone] at isChannel; cases isChannel⟩
  · rename_i channel isChannel
    obtain ⟨stopped, renewed⟩ := careful channel isChannel
    obtain ⟨isSendable, inv⟩ := sendable channel isChannel
    rw [stopped, if_neg nofun]
    by_cases told : channel.clientActive = true
    · rw [if_pos told]
      exact ⟨_, rfl, same.connected ((isSendable.quiet told.symm).inv fun rest command isSet =>
        (inv told).only rest (of_cleared isSet))⟩
    · rw [if_neg told]
      have isFalse : channel.clientActive = false := Bool.not_eq_true _ |>.mp told
      have asks : Sendable ({ channel with active := true }.setCommand .ctrl [.ctrl]) :=
        isSendable.asks (by rw [isFalse]; rfl)
      exact same.send asks (renewed isFalse) now

/-- The device stops. -/
theorem Good.stop (good : Good worker) {now : Nat} {writes : List Write}
    (careful : forall channel, worker.connection = some channel ->
      CarefulOn worker.ended.length channel (.stop now writes)) :
    Exists fun next => worker.stop setup now writes = some next ∧ Good next := by
  have same : Ended { worker with active := false } := good.ended
  unfold Worker.stop
  dsimp only
  split
  · exact ⟨_, rfl, good.ended, good.inv⟩
  · rename_i channel isChannel
    obtain ⟨started, renewed, alone⟩ := careful channel isChannel
    have inv := good.inv channel isChannel
    rw [if_pos started]
    by_cases told : channel.clientActive = true
    · rw [if_pos told]
      have asks : Sendable ({ channel with active := false }.setCommand .ctrl [.ctrl]) :=
        inv.sendable.asks (by rw [told]; rfl)
      exact same.send asks (renewed told) now
    · rw [if_neg told]
      have isFalse : channel.clientActive = false := Bool.not_eq_true _ |>.mp told
      have dropped := (inv.sendable.quiet isFalse.symm).drop.inv fun rest command isSet =>
        inv.only rest (of_cleared (of_cleared isSet))
      have notBoth : ¬ (channel.pendingFrame.isSome = true ∧ channel.inProgress.isSome = true) := by
        rintro ⟨waits, sends⟩
        rw [alone isFalse waits] at sends
        cases sends
      rw [if_neg notBoth]
      exact ⟨_, rfl, same.connected dropped⟩

theorem Good.putSamples (good : Good worker) {connection index now : Nat} {samples : List UInt32} {writes : List Write}
    (careful : forall channel, worker.connection = some channel ->
      CarefulOn worker.ended.length channel (.putSamples connection index samples now writes)) :
    Exists fun next => worker.putSamples setup connection index samples now writes = some next ∧ Good next := by
  unfold Worker.putSamples
  split
  · exact ⟨worker, rfl, good⟩
  · rename_i channel isChannel
    split
    · rename_i isCurrent
      obtain ⟨active, isHeld, renewed⟩ := careful channel isChannel isCurrent
      rw [if_pos active]
      exact Ended.send good.ended ((good.inv channel isChannel).sendable.put isHeld) renewed now
    · exact ⟨worker, rfl, good⟩

theorem Good.getBuffer (good : Good worker)
    (careful : forall channel, worker.connection = some channel -> CarefulOn worker.ended.length channel .getBuffer) :
    Exists fun next => worker.getBuffer = some next ∧ Good next := by
  unfold Worker.getBuffer
  split
  · exact ⟨worker, rfl, good⟩
  · rename_i channel isChannel
    split
    · exact ⟨worker, rfl, good⟩
    · rename_i index free isFree
      rw [if_pos (careful channel isChannel (by rw [isFree]; exact List.cons_ne_nil _ _))]
      exact ⟨_, rfl, Ended.connected good.ended ((good.inv channel isChannel).get isFree)⟩

/-- A message is sent past the requests. -/
theorem Good.sendDirectly (good : Good worker) (body : Body) {context : Context}
    (isVolume : body.kind.command = .volume)
    (rest : forall channel, worker.connection = some channel -> channel.volumeCap = false ∨
      channel.pos = channel.out.length)
    (writes : List Write) : Good (worker.sendDirectly body.kind (fun channel writes =>
      if channel.volumeCap then channel.beginSend context body writes
      else ⟨channel.withdraw .volume, .done, writes⟩) writes) := by
  unfold Worker.sendDirectly
  split
  · exact good
  · rename_i channel isChannel
    split
    · rename_i cap
      have isRest := (rest channel isChannel).resolve_left (by rw [cap]; exact nofun)
      show Good (worker.settle (if channel.volumeCap then _ else _))
      rw [if_pos cap]
      exact Ended.settle good.ended ((good.inv channel isChannel).direct isRest isVolume writes)
    · exact good

theorem sendable_new (miniHeader volumeCap latencyCap : Bool) (mode : Nat) :
    Sendable (newChannel miniHeader volumeCap latencyCap mode) := by
  have wire : Wire (newChannel miniHeader volumeCap latencyCap mode) := ⟨rfl, rfl, Nat.le_refl 0⟩
  have agrees : Agrees (newChannel miniHeader volumeCap latencyCap mode) .none :=
    ⟨rfl, nofun, rfl, rfl, rfl, rfl, show [2, 1, 0].Perm [0, 1, 2] by decide⟩
  exact ⟨.none, wire, agrees, fun _ => ⟨wire, agrees, rfl, rfl, fun _ => rfl⟩⟩

/-- A new channel is asked for its mode and its volume; it has no message and is not started. -/
theorem sendable_asked (worker : Worker) (miniHeader volumeCap latencyCap : Bool) (mode : Nat) (migrating : Bool)
    {asked : PlaybackChannel} (isAsked : asked = if migrating then newChannel miniHeader volumeCap latencyCap mode
      else worker.onNewPlaybackChannel (newChannel miniHeader volumeCap latencyCap mode)) :
    Sendable asked ∧ asked.active = false ∧ asked.clientActive = false ∧ asked.pos = asked.out.length := by
  have fresh := sendable_new miniHeader volumeCap latencyCap mode
  have moded : Sendable ((newChannel miniHeader volumeCap latencyCap mode).setCommand .mode [.mode]) :=
    fresh.setCommand (fun kind => by cases kind <;> rfl) nofun nofun
  have loud : Sendable (((newChannel miniHeader volumeCap latencyCap mode).setCommand .mode [.mode]).setCommand .volume
      [.volume, .mute]) := moded.setCommand (fun kind => by cases kind <;> rfl) nofun nofun
  rw [isAsked]
  unfold Worker.onNewPlaybackChannel
  split
  · exact ⟨fresh, rfl, rfl, rfl⟩
  · split
    · exact ⟨moded, rfl, rfl, rfl⟩
    · exact ⟨loud, rfl, rfl, rfl⟩

/-- A client connects. -/
theorem Good.joined (setup : Setup) (good : Good worker) (miniHeader volumeCap latencyCap : Bool) (mode : Nat)
    (migrating : Bool) (now : Nat)
    (writes : List Write) : Exists fun started =>
      worker.joined setup miniHeader volumeCap latencyCap mode migrating now writes = some started ∧ Ended started ∧
        forall channel, started.connection = some channel -> Sendable channel := by
  obtain ⟨sendable, stopped, unknown, rest⟩ := sendable_asked worker miniHeader volumeCap latencyCap mode migrating rfl
  have ended : Ended { worker.disconnect with connection := some (if migrating then
      newChannel miniHeader volumeCap latencyCap mode
      else worker.onNewPlaybackChannel (newChannel miniHeader volumeCap latencyCap mode)) } := good.disconnect.ended
  unfold Worker.joined
  dsimp only
  split
  · obtain ⟨started, starts, startedGood⟩ := ended.start
      (fun channel isChannel => by cases isChannel; exact ⟨sendable, fun told => by rw [unknown] at told; cases told⟩)
      (fun channel isChannel => by cases isChannel; exact ⟨stopped, fun _ more => absurd rest (Nat.ne_of_lt more)⟩)
    exact ⟨started, starts, startedGood.ended, fun channel isChannel => (startedGood.inv channel isChannel).sendable⟩
  · exact ⟨_, rfl, ended, fun channel isChannel => by cases isChannel; exact sendable⟩

/-- Every careful operation keeps the worker good. -/
theorem Good.step (good : Good worker) {op : Op} (careful : Careful setup worker op) :
    Exists fun next => worker.step setup op = some next ∧ Good next := by
  obtain ⟨on, later⟩ := careful
  cases op with
  | connect miniHeader volumeCap latencyCap mode migrating now writes rest =>
      obtain ⟨started, joins, ended, sendable⟩ :=
        good.joined setup miniHeader volumeCap latencyCap mode migrating now writes
      obtain ⟨next, asks, nextGood⟩ := @Ended.ask setup _ ended id _ now fun channel isChannel =>
        ⟨sendable channel isChannel, later started joins channel isChannel⟩
      exact ⟨next, (congrArg (Option.bind · _) joins).trans asks, nextGood⟩
  | disconnect => exact ⟨_, rfl, good.disconnect⟩
  | start now writes =>
      exact Ended.start good.ended (fun channel isChannel =>
        ⟨(good.inv channel isChannel).sendable, fun _ => good.inv channel isChannel⟩) on
  | stop now writes => exact good.stop on
  | getBuffer => exact good.getBuffer on
  | putSamples connection index samples now writes => exact good.putSamples on
  | setVolume volume now writes =>
      have same : Good { worker with volume := volume } := ⟨good.ended, good.inv⟩
      refine ⟨_, rfl, ?_⟩
      unfold Worker.setVolume
      dsimp only
      split
      · exact same
      · rename_i some_
        refine same.sendDirectly (.volume volume) rfl (fun channel isChannel => ?_) writes
        exact (on channel isChannel).resolve_left fun none => some_ (by rw [none]; rfl)
  | setMute mute now writes =>
      have same : Good { worker with mute := mute } := ⟨good.ended, good.inv⟩
      exact ⟨_, rfl, same.sendDirectly (.mute mute) rfl on writes⟩
  | setLatency latency now writes =>
      unfold Worker.step
      dsimp only
      split
      · rename_i cap
        refine Ended.ask good.ended now fun channel isChannel => ⟨?_, on channel isChannel ?_⟩
        · exact (good.inv channel isChannel).sendable.setCommand (fun kind => by cases kind <;> rfl) nofun nofun
        · rw [isChannel] at cap
          exact cap
      · exact ⟨worker, rfl, good⟩
  | setMode mode =>
      refine ⟨_, rfl, good.ended, fun channel isChannel => ?_⟩
      obtain ⟨before, isBefore, isNext⟩ := Option.map_eq_some_iff.mp isChannel
      have inv := good.inv before isBefore
      split at isNext
      · rwa [<- isNext]
      · have asked : Sendable ({ before with mode := mode }.setCommand .mode [.mode]) :=
          inv.sendable.setCommand (fun kind => by cases kind <;> rfl) nofun nofun
        rw [<- isNext]
        refine asked.inv fun rest command isSet => ?_
        by_cases isMode : command = .mode
        · exact isMode
        · have before : Function.update before.command .mode true command = true := isSet
          rw [Function.update_of_ne isMode] at before
          exact inv.only rest before
  | migrate now writes =>
      refine Ended.ask good.ended now fun channel isChannel => ⟨?_, on channel isChannel⟩
      exact (good.inv channel isChannel).sendable.setCommand (fun kind => by cases kind <;> rfl) nofun nofun
  | writable now writes =>
      exact Ended.ask good.ended now fun channel isChannel =>
        ⟨(good.inv channel isChannel).sendable, on channel isChannel⟩

end Workers

/-- In every run of careful calls no assertion fails, and in every state reached each connection, those that ended
included, got whole messages, each answering one request, starts and stops alternate and end as the sound is, and the
frames are kept apart. -/
theorem playback (setup : Setup) (ops : List Op)
    (careful : Meets (Worker.step setup) (fun _ => Careful setup) [] .empty ops) :
    AllStates (Worker.step setup) (fun _ => InOrder) [] .empty ops := by
  have start : Good .empty := ⟨fun _ member => (nomatch member), fun _ isChannel => (nomatch isChannel)⟩
  have inOrder : forall (_ : List Op) (worker : Worker), Good worker -> InOrder worker := fun _ _ good => good.inOrder
  refine allStates_of_meets inOrder ?_ start careful
  exact fun _ _ _ good isCareful => good.step isCareful

def Kind.all : List Kind := [.mode, .data, .ctrl, .volume, .mute, .migrate, .latency]

theorem renewed_of_all (channel : PlaybackChannel) (writes : List Write) :
    (channel.pos < channel.out.length -> takes (channel.out.length - channel.pos) writes = true ->
      forall kind, kind ∈ Kind.all -> channel.command kind.command = true -> owed channel.log kind = true) <->
        Renewed channel writes :=
  ⟨fun all more fits kind => all more fits kind (by cases kind <;> decide),
    fun renewed more fits kind _ => renewed more fits kind⟩

instance (channel : PlaybackChannel) (writes : List Write) : Decidable (Renewed channel writes) :=
  decidable_of_iff _ (renewed_of_all channel writes)

instance (ended : Nat) (channel : PlaybackChannel) (op : Op) : Decidable (CarefulOn ended channel op) :=
  match op with
  | .start _ _ => inferInstanceAs (Decidable (_ ∧ (_ -> Renewed _ _)))
  | .stop _ _ => inferInstanceAs (Decidable (_ ∧ (_ -> Renewed _ _) ∧ (_ -> _ -> channel.inProgress = none)))
  | .getBuffer => inferInstanceAs (Decidable (_ -> _))
  | .putSamples _ _ _ _ _ => inferInstanceAs (Decidable (_ -> _ ∧ _ ∧ Renewed _ _))
  | .setVolume _ _ _ => inferInstanceAs (Decidable (_ ∨ _ ∨ _))
  | .setMute _ _ _ => inferInstanceAs (Decidable (_ ∨ _))
  | .setLatency _ _ _ => inferInstanceAs (Decidable (_ -> Renewed _ _))
  | .migrate _ _ => inferInstanceAs (Decidable (Renewed _ _))
  | .writable _ _ => inferInstanceAs (Decidable (Renewed _ _))
  | .connect _ _ _ _ _ _ _ _ => isTrue trivial
  | .disconnect => isTrue trivial
  | .setMode _ => isTrue trivial

instance (setup : Setup) (worker : Worker) (op : Op) : Decidable (CarefulJoin setup worker op) :=
  match op with
  | .connect miniHeader volumeCap latencyCap mode migrating now writes later =>
      inferInstanceAs (Decidable (forall started,
      started ∈ worker.joined setup miniHeader volumeCap latencyCap mode migrating now writes ->
        forall channel, channel ∈ started.connection -> Renewed channel later))
  | .disconnect | .start _ _ | .stop _ _ | .getBuffer | .putSamples _ _ _ _ _ | .setVolume _ _ _ | .setMute _ _ _
  | .setLatency _ _ _ | .setMode _ | .migrate _ _ | .writable _ _ => isTrue trivial

instance (setup : Setup) (worker : Worker) (op : Op) : Decidable (Careful setup worker op) :=
  inferInstanceAs
    (Decidable ((forall channel, channel ∈ worker.connection -> CarefulOn worker.ended.length channel op) ∧
    CarefulJoin setup worker op))

/-- The device and the marshallers of an example. -/
def sampleSetup : Setup := ⟨fun _ => [7], fun _ => true, 44100⟩

/-- A frame is blocked while another is put and the sound stops and starts again, the mute is sent past it, and the
client connects again. -/
theorem playback_blocked : AllStates (Worker.step sampleSetup) (fun _ => InOrder) [] .empty
    [.connect true true false 1 false 10 [] [], .start 11 [], .getBuffer, .getBuffer,
      .putSamples 0 2 [1, 2] 12 [.wrote 3, .again], .putSamples 0 1 [3] 13 [.again], .stop 14 [.again],
        .start 15 [.again],
      .writable 16 [], .setMute 1 17 [.again], .writable 18 [], .connect false false false 0 false 19 [] [],
        .disconnect] := by
  refine playback sampleSetup _ (@Meets.of_check _ _ (Worker.step sampleSetup) (fun _ => Careful sampleSetup)
    (fun worker op => decide (Careful sampleSetup worker op)) (fun _ _ _ checked => of_decide_eq_true checked) _ _ _ ?_)
  decide +kernel

/-- A mode message that is blocked is sent again when it is finished. -/
theorem playback_repeated : Not (forall (setup : Setup) (ops : List Op),
    AllStates (Worker.step setup) (fun _ => InOrder) [] .empty ops) := by
  intro always
  obtain ⟨last, ran, inOrder⟩ :=
    always sampleSetup [.connect true false false 1 false 10 [] [.again], .writable 11 []] _
    (List.prefix_refl _)
  have repeats :
      (run (Worker.step sampleSetup) .empty [.connect true false false 1 false 10 [] [.again], .writable 11 []]).map
      (fun worker => worker.connection.map fun channel => (run Track.step .none channel.log).isNone) =
        some (some true) := by
    decide +kernel
  rw [ran, Option.map_some, Option.some_inj] at repeats
  obtain ⟨channel, isChannel, lost⟩ := Option.map_eq_some_iff.mp repeats
  obtain ⟨track, tracked, _⟩ := (inOrder channel (List.mem_append_right _ (Option.mem_toList.mpr isChannel))).answered
  rw [tracked] at lost
  cases lost

end Playback
end Sound
end Spice
