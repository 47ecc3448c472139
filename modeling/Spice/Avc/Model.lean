import Spice.Channel.Outgoing

namespace Spice
namespace Avc

open Lib
open Channel (DataHeader)
open Outgoing (RedChannelClient PipeItem MsgType Write)

/-!
# H.264 frames

With AVC enabled a drawable is not sent itself.  When it is taken from the pipe of
a client, the worker encodes the whole primary canvas and sends the frame, unless
the last frame of any client is less than 33 milliseconds old.  A dropped frame is
remembered in `last_drop`; when the command ring is empty and nothing was sent for a
second, `insert_h264_frame` encodes a frame for every client.

A worker is one thread.  Its calls are modelled one socket operation at a time, and
the loop of `insert_h264_frame` one client at a time: while `inserting` is set
nothing else happens.
-/

/-- What `gettimeofday` fills in. -/
structure Timeval where
  sec : Int
  usec : Int
  deriving DecidableEq, Repr

def Timeval.tooNear (last now : Timeval) : Bool :=
  decide (now.sec = last.sec ∧ now.usec - last.usec ≤ 33000) ||
    decide (now.sec = last.sec + 1 ∧ now.usec + 1000000 - last.usec ≤ 33000)

/-- `red_worker_main` tries to insert a frame. -/
def Timeval.isDue (last now : Timeval) : Bool :=
  decide (last.sec + 2 ≤ now.sec) || decide (now.sec = last.sec + 1 ∧ last.usec ≤ now.usec)

/-- What the encoder made of the canvas: the marshalled fields of the message, and the
bytes in the encoder's buffer. -/
structure Frame where
  head : List UInt8
  payload : List UInt8
  deriving DecidableEq, Repr

/-- What a call of the encoder gives: an error; or 0 although there is no frame, as after every negative status of
the encoding itself, so that the frame and its size are whatever was in the unset variables; or a frame. -/
inductive Encoding
  | failed
  | unset (stray : Frame)
  | output (frame : Frame)
  deriving DecidableEq, Repr

/-- The message of the frame is smaller than an `int` can say. -/
def Encoding.Small : Encoding -> Prop
  | .failed => True
  | .unset frame => 18 + (frame.head ++ frame.payload).length < 2 ^ 31
  | .output frame => 18 + (frame.head ++ frame.payload).length < 2 ^ 31

instance : (encoding : Encoding) -> Decidable encoding.Small
  | .failed => inferInstanceAs (Decidable True)
  | .unset _ => inferInstanceAs (Decidable (_ < _))
  | .output _ => inferInstanceAs (Decidable (_ < _))

def h264StreamData : MsgType := ⟨124, by decide⟩

inductive DisplayItem
  | draw
  | other (item : PipeItem)

def DisplayItem.isDraw : DisplayItem -> Bool
  | .draw => true
  | .other _ => false

/-- A display client.  `frameSize` is the size of the frame in the message that was
begun last, if it was a frame; `dequeued` and `encoded` are the primary canvas when a
drawable was last dequeued, and the one the last frame was made of; `dropped` says that
the last frame for the client was dropped, and `strays` counts its messages that were
made without a frame of the encoder. -/
structure DisplayChannelClient where
  rcc : RedChannelClient
  pipe : List DisplayItem
  frameSize : Option Nat
  dequeued : Option Nat
  encoded : Option Nat
  dropped : Bool
  strays : Nat

/-- A worker with AVC enabled.  The primary canvas is the number of drawables painted
on it; a failed assertion on the encoder stops the worker. -/
structure RedWorker where
  clients : List DisplayChannelClient
  lastDrop : Bool
  lastTime : Timeval
  canvas : Nat
  inserting : Option Nat
  stopped : Bool

namespace DisplayChannelClient

variable (client : DisplayChannelClient)

/-- The channel client after a call; `red_channel_client_disconnect` clears the pipe. -/
def withRcc (rcc : RedChannelClient) : DisplayChannelClient :=
  { client with rcc := rcc, pipe := if rcc.connected then client.pipe else [] }

/-- A message that is not completely written. -/
def inFlight : Bool := decide (client.rcc.size ≠ 0)

/-- The item `red_channel_client_pipe_item_get` takes. -/
def nextItem : Option (DisplayItem × List DisplayItem) :=
  if !client.rcc.connected || client.rcc.blocked || client.rcc.waitingForAck then none
  else
    match client.pipe with
    | [] => none
    | item :: rest => some (item, rest)

end DisplayChannelClient

namespace RedWorker

variable (worker : RedWorker)

def setClient (index : Nat) (client : DisplayChannelClient) : RedWorker :=
  { worker with clients := worker.clients.set index client }

/-- `red_marshall_stream_h264_data`: the frame is dropped, or it is encoded and put
into a message; nothing if the encoder fails. -/
def marshallStreamH264Data (client : DisplayChannelClient) (now : Timeval) (encoding : Encoding) :
    Option (RedWorker × DisplayChannelClient × PipeItem) :=
  if worker.lastTime.tooNear now then
    some ({ worker with lastDrop := true }, { client with frameSize := none, dropped := true }, .silent)
  else
    match encoding with
    | .failed => none
    | .unset stray =>
        some ({ worker with lastDrop := false, lastTime := now },
          { client with frameSize := none, dropped := false, strays := client.strays + 1 },
          .message h264StreamData (stray.head ++ stray.payload))
    | .output frame =>
        some ({ worker with lastDrop := false, lastTime := now },
          { client with encoded := some worker.canvas, frameSize := some frame.payload.length, dropped := false },
          .message h264StreamData (frame.head ++ frame.payload))

/-- `spice_assert` on the result of `red_marshall_stream_h264_data`. -/
def stop : RedWorker := { worker with stopped := true }

/-- One round of the loop of `red_channel_client_push`, with `display_channel_send_item`. -/
def sendNext (index : Nat) (now : Timeval) (encoding : Encoding) (writes : List Write) : Option RedWorker :=
  match worker.clients[index]? with
  | none => some worker
  | some client =>
      match client.nextItem with
      | none => some worker
      | some (.draw, rest) =>
          match worker.marshallStreamH264Data
            { client with pipe := rest, dequeued := some worker.canvas } now encoding with
          | none => some worker.stop
          | some (marshalled, client, item) =>
              match client.rcc.sendItem writes item with
              | none => none
              | some (rcc, _) => some (marshalled.setClient index (client.withRcc rcc))
      | some (.other item, rest) =>
          match client.rcc.sendItem writes item with
          | none => none
          | some (rcc, _) =>
              some (worker.setClient index ({ client with pipe := rest, frameSize := none }.withRcc rcc))

/-- A blocked message is continued, and what `red_channel_client_push` checks then. -/
def resume (index : Nat) (writes : List Write) : Option RedWorker :=
  match worker.clients[index]? with
  | none => some worker
  | some client =>
      match client.rcc.resume writes with
      | none => none
      | some (rcc, _) =>
          let rcc := if rcc.size ≠ 0 && !rcc.blocked then { rcc with blocked := true } else rcc
          some (worker.setClient index (client.withRcc rcc))

/-- `red_worker_main` finds the command ring empty. -/
def poll (now : Timeval) : RedWorker :=
  if worker.lastDrop && worker.lastTime.isDue now then { worker with inserting := some 0 } else worker

/-- One round of the loop of `insert_h264_frame`.  Unlike `red_channel_client_send_item`
it does not ask whether an item is being sent. -/
def insertFrame (index : Nat) (client : DisplayChannelClient) (now : Timeval) (encoding : Encoding)
    (writes : List Write) : Option RedWorker :=
  match client.rcc.resetSendData with
  | none => none
  | some rcc =>
      match worker.marshallStreamH264Data { client with rcc := rcc } now encoding with
      | none => some worker.stop
      | some (marshalled, client, item) =>
          match client.rcc.channelSendItem writes item with
          | none => none
          | some (rcc, _) => some (marshalled.setClient index (client.withRcc rcc))

/-- The loop of `insert_h264_frame` goes to the next client. -/
def insertNext (index : Nat) (now : Timeval) (encoding : Encoding) (writes : List Write) : Option RedWorker :=
  match worker.clients[index]? with
  | none => some { worker with inserting := none }
  | some client =>
      if client.rcc.connected then
        { worker with inserting := some (index + 1) }.insertFrame index client now encoding writes
      else some { worker with inserting := some (index + 1) }

/-- `handle_new_display_channel`. -/
def connect (header : DataHeader) (handleAcks : Bool) (clientWindow : Nat) : RedWorker :=
  { worker with
    clients := worker.clients ++ [{
      rcc := RedChannelClient.create header handleAcks clientWindow
      pipe := []
      frameSize := none
      dequeued := none
      encoded := none
      dropped := false
      strays := 0 }]
    lastDrop := false
    lastTime := ⟨0, 0⟩ }

def modifyClient (index : Nat) (change : DisplayChannelClient -> DisplayChannelClient) : RedWorker :=
  match worker.clients[index]? with
  | none => worker
  | some client => worker.setClient index (change client)

end RedWorker

/-- What happens in the worker: a drawable is painted; an item is put into a pipe or
removed from it; a client's messages are sent or acknowledged; a client connects or
disconnects; the worker finds the command ring empty, and inserts frames. -/
inductive Op
  | paint
  | pipeAdd (index position : Nat) (item : DisplayItem)
  | pipeRemove (index position : Nat)
  | sendNext (index : Nat) (now : Timeval) (encoding : Encoding) (writes : List Write)
  | resume (index : Nat) (writes : List Write)
  | acked (index messagesWindow : Nat)
  | connect (header : DataHeader) (handleAcks : Bool) (clientWindow : Nat)
  | disconnect (index : Nat)
  | poll (now : Timeval)
  | insertNext (now : Timeval) (encoding : Encoding) (writes : List Write)

def Op.Small : Op -> Prop
  | .pipeAdd _ _ (.other item) => item.Small
  | .sendNext _ _ encoding _ => encoding.Small
  | .insertNext _ encoding _ => encoding.Small
  | _ => True

instance (op : Op) : Decidable op.Small := by
  unfold Op.Small
  split <;> infer_instance

namespace RedWorker

def stepFree (worker : RedWorker) : Op -> Option RedWorker
  | .paint => some { worker with canvas := worker.canvas + 1 }
  | .pipeAdd index position item =>
      some (worker.modifyClient index (fun client =>
        if client.rcc.connected then
          { client with pipe := client.pipe.take position ++ item :: client.pipe.drop position }
        else client))
  | .pipeRemove index position =>
      some (worker.modifyClient index (fun client => { client with pipe := client.pipe.eraseIdx position }))
  | .sendNext index now encoding writes => worker.sendNext index now encoding writes
  | .resume index writes => worker.resume index writes
  | .acked index messagesWindow =>
      some (worker.modifyClient index (fun client =>
        { client with rcc := { client.rcc with messagesWindow := messagesWindow } }))
  | .connect header handleAcks clientWindow => some (worker.connect header handleAcks clientWindow)
  | .disconnect index =>
      some (worker.modifyClient index (fun client => client.withRcc client.rcc.disconnect))
  | .poll now => some (worker.poll now)
  | .insertNext _ _ _ => some worker

/-- While `insert_h264_frame` runs, nothing else happens; and nothing does when the worker
has stopped. -/
def step (worker : RedWorker) (op : Op) : Option RedWorker :=
  if worker.stopped then some worker
  else
    match worker.inserting with
    | none => worker.stepFree op
    | some index =>
        match op with
        | .insertNext now encoding writes => worker.insertNext index now encoding writes
        | _ => some worker

/-- The client an operation encodes a frame for, and what the encoder gives. -/
def encodesFor (worker : RedWorker) : Op -> Option (Nat × Encoding)
  | .sendNext index now encoding _ =>
      if worker.inserting.isSome then none
      else
        match worker.clients[index]?.bind DisplayChannelClient.nextItem with
        | some (.draw, _) => if worker.lastTime.tooNear now then none else some (index, encoding)
        | _ => none
  | .insertNext now encoding _ =>
      match worker.inserting with
      | none => none
      | some index =>
          match worker.clients[index]? with
          | none => none
          | some client => if client.rcc.connected && !worker.lastTime.tooNear now then some (index, encoding) else none
  | _ => none

section Encodes

variable {worker : RedWorker} {index : Nat} {client : DisplayChannelClient}
    (found : worker.clients[index]? = some client)

include found in
theorem encodesFor_sendNext (free : worker.inserting = none) {rest : List DisplayItem}
    (taken : client.nextItem = some (.draw, rest)) {now : Timeval} (near : worker.lastTime.tooNear now = false)
    (encoding : Encoding) (writes : List Write) :
    worker.encodesFor (.sendNext index now encoding writes) = some (index, encoding) := by
  simp only [encodesFor, free, Option.isSome_none, Bool.false_eq_true, if_false, found, Option.bind_some, taken, near]

include found in
theorem encodesFor_insertNext (inserting : worker.inserting = some index) (connected : client.rcc.connected = true)
    {now : Timeval} (near : worker.lastTime.tooNear now = false) (encoding : Encoding) (writes : List Write) :
    worker.encodesFor (.insertNext now encoding writes) = some (index, encoding) := by
  simp only [encodesFor, inserting, found, connected, near, Bool.not_false, Bool.and_self, if_true]

end Encodes

def init : RedWorker where
  clients := []
  lastDrop := false
  lastTime := ⟨0, 0⟩
  canvas := 0
  inserting := none
  stopped := false

end RedWorker

end Avc
end Spice
