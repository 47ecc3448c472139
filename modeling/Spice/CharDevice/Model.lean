import Spice.Lib.Run

namespace Spice
namespace CharDevice

/-!
# The character device

`char_device.c` moves messages between a device and its clients under token
flow control.  Most of its functions call out to the device or to the owner
of the clients, and these may call the device state again before they return.
The model is therefore a small machine: the device state, and a stack with one
frame for each function that has not returned yet.  A frame is a place in the
source, with the local variables that are still needed there.  A frame at a
callback lets the environment make further calls or let the callback return;
the other frames run on by themselves.

`ref_msg_to_client` takes a reference and does nothing else.  A failed
assertion is recorded and ends the run; a call through a pointer that is no
longer valid makes the step fail.
-/

/-- Addition of 64-bit counters. -/
def add64 (a b : Nat) : Nat := if a + b < 2 ^ 64 then a + b else a + b - 2 ^ 64

theorem add64_of_lt {a b : Nat} (fits : a + b < 2 ^ 64) : add64 a b = a + b := if_pos fits

theorem add64_le (a b : Nat) : add64 a b ≤ a + b := by
  unfold add64
  split <;> omega

/-- Decrement of a 64-bit counter. -/
def dec64 (a : Nat) : Nat := if a = 0 then 2 ^ 64 - 1 else a - 1

theorem dec64_of_ne {a : Nat} (positive : a ≠ 0) : dec64 a = a - 1 := if_neg positive

/-- Increment of a 32-bit counter. -/
def inc32 (a : Nat) : Nat := if a = 2 ^ 32 - 1 then 0 else a + 1

/-- Decrement of a 32-bit counter. -/
def dec32 (a : Nat) : Nat := if a = 0 then 2 ^ 32 - 1 else a - 1

/-- `WRITE_BUFFER_ORIGIN_*`. -/
inductive WriteBufferOrigin
  | none
  | client
  | server
  | serverNoToken
  deriving DecidableEq, Repr

/-- `SpiceCharDeviceWriteBuffer`.  `key` is its address, `buf` the used bytes. -/
structure SpiceCharDeviceWriteBuffer where
  key : Nat
  origin : WriteBufferOrigin
  client : Option Nat
  buf : List UInt8
  bufSize : Nat
  tokenPrice : Nat
  refs : Nat
  deriving DecidableEq, Repr

/-- `SpiceCharDeviceClientState`.  `key` is its address; the queue holds the
oldest message first. -/
structure SpiceCharDeviceClientState (Msg : Type) where
  key : Nat
  client : Nat
  doFlowControl : Bool
  numClientTokens : Nat
  numClientTokensFree : Nat
  numSendTokens : Nat
  waitForTokensStarted : Bool
  sendQueue : List Msg
  sendQueueSize : Nat
  maxSendQueueSize : Nat

/-- `SpiceCharDeviceState`.  The write queue and the pool hold the oldest
buffer first, the clients are in ring order, the newest first.  `sin` says
whether there is a device instance. -/
structure SpiceCharDeviceState (Msg : Type) where
  running : Bool
  active : Bool
  waitForMigrateData : Bool
  writeQueue : List SpiceCharDeviceWriteBuffer
  writeBufsPool : List SpiceCharDeviceWriteBuffer
  curWriteBuf : Option SpiceCharDeviceWriteBuffer
  curWriteBufPos : Nat
  numSelfTokens : Nat
  clients : List (SpiceCharDeviceClientState Msg)
  numClients : Nat
  clientTokensInterval : Nat
  sin : Bool
  duringReadFromDevice : Nat
  duringWriteToDevice : Nat

/-- Who called `spice_char_device_client_send_queue_free`. -/
inductive QueueFreeCaller
  | reset
  | remove
  deriving DecidableEq, Repr

/-- A place in a function that has not returned. -/
inductive Frame (Msg : Type)
  -- `spice_char_device_write_to_device`: the loop, and inside `sif->write`
  | writeLoop (total : Nat)
  | writeCall (writeLen total : Nat)
  -- inside `send_tokens_to_client`, `on_free_self_token`, `send_msg_to_client`,
  -- `remove_client`, and `unref_msg_to_client` while a queue is freed
  | sendTokens
  | freeSelfToken
  | sendCall
  | overflowCall
  | freeUnref
  -- `spice_char_device_read_from_device`: the loop, inside the read, and
  -- inside `unref_msg_to_client` once the message has been distributed
  | readLoop (maxSendTokens : Nat) (didRead : Bool)
  | readCall (maxSendTokens : Nat) (didRead : Bool)
  | readUnref (maxSendTokens : Nat)
  -- `spice_char_device_send_msg_to_clients`, about to visit `item`
  | sendLoop (msg : Msg) (item : Option Nat)
  -- `spice_char_device_client_send_queue_push`: the loop, and inside the unref
  | pushLoop (key : Nat)
  | pushUnref (key : Nat)
  -- the rest of `spice_char_device_send_to_client_tokens_absorb`
  | absorbEnd (key : Nat)
  -- `spice_char_device_reset`
  | resetQueue
  | resetCur
  | resetFirst
  | resetClients (item : Option Nat)
  | queueFree (key : Nat) (caller : QueueFreeCaller)
  -- `spice_char_device_client_remove`, `_wakeup`, `_start`, and the overflow
  -- inside `__spice_char_device_write_buffer_get`
  | clientRemoved
  | wakeupRead
  | startRead
  | startCheck
  | getError (buf : SpiceCharDeviceWriteBuffer)

/-- The assertions and errors that end the process. -/
inductive Assertion
  | sendQueueIsEmpty
  | absorbTokens
  | writeQueueIsEmpty
  | bufUsed
  | releaseClient
  | clientNotFound
  | migrateClients
  deriving DecidableEq, Repr

/-- What an observer sees of the device.  `overflowed` is a message that found
the queue of a client full. -/
inductive Obs (Msg : Type)
  | attached (key client : Nat) (doFlowControl : Bool) (clientTokens sendTokens : Nat)
  | read (msg : Msg)
  | sent (key : Nat) (msg : Msg)
  | granted (key tokens : Nat)
  | set (key tokens : Nat)
  | overflowed (key : Nat)

/-- The device, the functions in progress, the write buffers in the hands of
the callers, the observations (newest first), the next unused address, the
value the last function returned, and the assertion that failed, if any. -/
structure Exec (Msg : Type) where
  dev : SpiceCharDeviceState Msg
  stack : List (Frame Msg)
  held : List SpiceCharDeviceWriteBuffer
  trace : List (Obs Msg)
  fresh : Nat
  result : Nat
  aborted : Option Assertion

variable {Msg : Type}

/-- The buffer was obtained by this client. -/
def ownedBy (client : Nat) (buf : SpiceCharDeviceWriteBuffer) : Bool :=
  buf.origin == .client && buf.client == some client

namespace SpiceCharDeviceState

variable (dev : SpiceCharDeviceState Msg)

def clientFind (client : Nat) : Option (SpiceCharDeviceClientState Msg) :=
  dev.clients.find? (fun devClient => devClient.client = client)

/-- The client at an address, if it is still there. -/
def clientAt (key : Nat) : Option (SpiceCharDeviceClientState Msg) :=
  dev.clients.find? (fun devClient => devClient.key = key)

def setClient (key : Nat)
    (change : SpiceCharDeviceClientState Msg -> SpiceCharDeviceClientState Msg) :
    SpiceCharDeviceState Msg :=
  { dev with
    clients := dev.clients.map (fun devClient => if devClient.key = key then change devClient else devClient) }

/-- `ring_next` in the ring of clients. -/
def clientAfter (key : Nat) : Option Nat :=
  ((dev.clients.map (fun devClient => devClient.key)).dropWhile (fun other => other ≠ key)).tail.head?

def maxSendTokens : Nat :=
  if dev.clients.any (fun devClient => !devClient.doFlowControl) then 2 ^ 64 - 1
  else (dev.clients.map (fun devClient => devClient.numSendTokens)).foldl max 0

def writeBufferPoolAdd (buf : SpiceCharDeviceWriteBuffer) : SpiceCharDeviceState Msg :=
  if buf.refs = 1 then
    { dev with writeBufsPool := dev.writeBufsPool ++ [{ buf with buf := [], origin := .none, client := none }] }
  else dev

/-- `spice_char_device_client_tokens_add`; the flag says whether the tokens
were sent to the client. -/
def clientTokensAdd (devClient : SpiceCharDeviceClientState Msg) (numTokens : Nat) :
    SpiceCharDeviceState Msg × Bool :=
  if devClient.doFlowControl then
    let free := add64 devClient.numClientTokensFree numTokens
    if dev.clientTokensInterval ≤ free then
      (dev.setClient devClient.key (fun c =>
        { c with numClientTokens := add64 c.numClientTokens free, numClientTokensFree := 0 }), true)
    else (dev.setClient devClient.key (fun c => { c with numClientTokensFree := free }), false)
  else (dev, false)

/-- The rest of `spice_char_device_client_free`, once the queue is empty. -/
def clientUnlink (devClient : SpiceCharDeviceClientState Msg) : SpiceCharDeviceState Msg :=
  let dev := (dev.writeQueue.filter (ownedBy devClient.client)).reverse.foldl writeBufferPoolAdd
    { dev with writeQueue := dev.writeQueue.filter (fun buf => !ownedBy devClient.client buf) }
  { dev with
    curWriteBuf := dev.curWriteBuf.map (fun buf =>
      if ownedBy devClient.client buf then { buf with origin := .none, client := none } else buf)
    numClients := dev.numClients - 1
    clients := dev.clients.filter (fun other => other.key ≠ devClient.key) }

end SpiceCharDeviceState

def canSendToClient (devClient : SpiceCharDeviceClientState Msg) : Bool :=
  !devClient.doFlowControl || devClient.numSendTokens ≠ 0

/-- `num_send_tokens--`. -/
def spendSendToken (devClient : SpiceCharDeviceClientState Msg) : SpiceCharDeviceClientState Msg :=
  { devClient with numSendTokens := dec64 devClient.numSendTokens }

namespace Exec

variable (e : Exec Msg)

/-- Enter a function. -/
def push (frame : Frame Msg) : Exec Msg := { e with stack := frame :: e.stack }

/-- Leave the innermost function with a result. -/
def ret (result : Nat) : Exec Msg := { e with stack := e.stack.tail, result := result }

/-- Go on at another place of the innermost function. -/
def goto (frame : Frame Msg) : Exec Msg := { e with stack := frame :: e.stack.tail }

/-- An assertion fails. -/
def abort (reason : Assertion) : Exec Msg := { e with aborted := some reason }

def observe (obs : Obs Msg) : Exec Msg := { e with trace := obs :: e.trace }

/-- Enter `spice_char_device_write_to_device`. -/
def writeToDevice : Exec Msg :=
  if !e.dev.running || e.dev.waitForMigrateData || !e.dev.sin then { e with result := 0 }
  else
    let entered := { e with
      dev := { e.dev with duringWriteToDevice := e.dev.duringWriteToDevice + 1 } }
    if 0 < e.dev.duringWriteToDevice then { entered with result := 0 }
    else entered.push (.writeLoop 0)

/-- Enter `spice_char_device_read_from_device`. -/
def readFromDevice : Exec Msg :=
  if !e.dev.running || e.dev.waitForMigrateData || !e.dev.sin then { e with result := 0 }
  else
    let entered := { e with
      dev := { e.dev with duringReadFromDevice := e.dev.duringReadFromDevice + 1 } }
    if 0 < e.dev.duringReadFromDevice then { entered with result := 0 }
    else entered.push (.readLoop e.dev.maxSendTokens false)

/-- Leave `spice_char_device_write_to_device` behind its loop. -/
def writeEnd (total : Nat) : Exec Msg :=
  let left := ({ e with dev := { e.dev with duringWriteToDevice := 0 } } : Exec Msg)
  if e.dev.running then
    if e.dev.curWriteBuf = none ∧ e.dev.writeQueue ≠ [] then e.abort .writeQueueIsEmpty
    else ({ left with dev := { left.dev with active := e.dev.active || decide (0 < total) } } : Exec Msg).ret total
  else left.ret total

/-- Leave `spice_char_device_read_from_device` behind its loop. -/
def readEnd (didRead : Bool) : Exec Msg :=
  let left := ({ e with dev := { e.dev with duringReadFromDevice := 0 } } : Exec Msg)
  if e.dev.running then
    ({ left with dev := { left.dev with active := e.dev.active || didRead } } : Exec Msg).ret didRead.toNat
  else left.ret didRead.toNat

/-- `spice_char_device_write_buffer_release`, up to its callback. -/
def writeBufferRelease (buf : SpiceCharDeviceWriteBuffer) : Exec Msg :=
  let pooled := { e with dev := e.dev.writeBufferPoolAdd buf }
  match buf.origin with
  | .client =>
      match buf.client.bind pooled.dev.clientFind with
      | none => pooled.abort .releaseClient
      | some devClient =>
          match pooled.dev.clientTokensAdd devClient buf.tokenPrice with
          | (dev, true) => ({ pooled with dev := dev } : Exec Msg).push .sendTokens
          | (dev, false) => { pooled with dev := dev }
  | .server =>
      ({ pooled with dev := { pooled.dev with
          numSelfTokens := add64 pooled.dev.numSelfTokens 1 } } : Exec Msg).push .freeSelfToken
  | .none => pooled
  | .serverNoToken => pooled

/-- One round of the loop of `spice_char_device_write_to_device`, up to `sif->write`. -/
def writeRound (total : Nat) : Exec Msg :=
  if e.dev.running then
    match e.dev.curWriteBuf with
    | some buf => e.goto (.writeCall (buf.buf.length - e.dev.curWriteBufPos) total)
    | none =>
        match e.dev.writeQueue with
        | [] => e.writeEnd total
        | buf :: rest =>
            ({ e with dev := { e.dev with
                writeQueue := rest, curWriteBuf := some buf, curWriteBufPos := 0 } } : Exec Msg).goto
              (.writeCall buf.buf.length total)
  else e.writeEnd total

/-- `sif->write` returns.  The device takes at most what it was given. -/
def wrote (n : Int) (writeLen total : Nat) : Option (Exec Msg) :=
  if n ≤ 0 then
    if 1 < e.dev.duringWriteToDevice then
      some (({ e with dev := { e.dev with duringWriteToDevice := 1 } } : Exec Msg).goto (.writeLoop total))
    else some (e.writeEnd total)
  else if writeLen < n then none
  else if writeLen = n then
    match e.dev.curWriteBuf with
    | none => none
    | some buf =>
        let e := e.goto (.writeLoop (total + n.toNat))
        some (({ e with dev := { e.dev with curWriteBuf := none } } : Exec Msg).writeBufferRelease buf)
  else
    some (({ e with dev := { e.dev with
        curWriteBufPos := e.dev.curWriteBufPos + n.toNat } } : Exec Msg).goto (.writeLoop (total + n.toNat)))

/-- One round of the loop of `spice_char_device_read_from_device`, up to the read. -/
def readRound (maxSendTokens : Nat) (didRead : Bool) : Exec Msg :=
  if (maxSendTokens ≠ 0 ∨ e.dev.clients = []) ∧ e.dev.running then
    e.goto (.readCall maxSendTokens didRead)
  else e.readEnd didRead

/-- `read_one_msg_from_device` returns. -/
def readOne (msg : Option Msg) (maxSendTokens : Nat) (didRead : Bool) : Exec Msg :=
  match msg with
  | none =>
      if 1 < e.dev.duringReadFromDevice then
        ({ e with dev := { e.dev with duringReadFromDevice := 1 } } : Exec Msg).goto
          (.readLoop maxSendTokens didRead)
      else e.readEnd didRead
  | some msg =>
      ((e.observe (.read msg)).goto (.readUnref maxSendTokens)).push
        (.sendLoop msg (e.dev.clients.head?.map (fun devClient => devClient.key)))

/-- One round of the loop of `spice_char_device_send_msg_to_clients`, with
`spice_char_device_add_msg_to_client_queue`. -/
def sendRound (msg : Msg) : Option Nat -> Option (Exec Msg)
  | none => some (e.ret 0)
  | some key =>
      match e.dev.clientAt key with
      | none => none
      | some devClient =>
          let next := e.goto (.sendLoop msg (e.dev.clientAfter key))
          if canSendToClient devClient then
            let spent := { next with dev := next.dev.setClient key spendSendToken }
            if devClient.sendQueue = [] then some ((spent.observe (.sent key msg)).push .sendCall)
            else some (spent.abort .sendQueueIsEmpty)
          else if devClient.maxSendQueueSize ≤ devClient.sendQueueSize then
            some ((next.observe (.overflowed key)).push .overflowCall)
          else
            some { next with dev := next.dev.setClient key (fun c => { c with
              sendQueue := c.sendQueue ++ [msg]
              sendQueueSize := inc32 c.sendQueueSize
              waitForTokensStarted := true }) }

/-- One round of `spice_char_device_client_send_queue_push`, up to the send. -/
def pushRound (key : Nat) : Option (Exec Msg) :=
  match e.dev.clientAt key with
  | none => none
  | some devClient =>
      match devClient.sendQueue with
      | [] => some (e.ret 0)
      | msg :: rest =>
          if canSendToClient devClient then
            let taken := { e with
              dev := e.dev.setClient key (fun c => spendSendToken { c with sendQueue := rest }) }
            some (((taken.observe (.sent key msg)).goto (.pushUnref key)).push .sendCall)
          else some (e.ret 0)

/-- The end of a round of `spice_char_device_client_send_queue_push`. -/
def pushNext (key : Nat) : Option (Exec Msg) :=
  match e.dev.clientAt key with
  | none => none
  | some _ =>
      some (({ e with dev := e.dev.setClient key (fun c => { c with
        sendQueueSize := dec32 c.sendQueueSize }) } : Exec Msg).goto (.pushLoop key))

/-- `spice_char_device_send_to_client_tokens_absorb`, up to the push. -/
def tokensAbsorb (devClient : SpiceCharDeviceClientState Msg) (tokens : Nat) : Exec Msg :=
  let balance := add64 devClient.numSendTokens tokens
  let added := ({ e with dev := e.dev.setClient devClient.key (fun c =>
    { c with numSendTokens := balance }) } : Exec Msg)
  if devClient.sendQueueSize = 0 then added.push (.absorbEnd devClient.key)
  else if balance = tokens then (added.push (.absorbEnd devClient.key)).push (.pushLoop devClient.key)
  else added.abort .absorbTokens

/-- The rest of `spice_char_device_send_to_client_tokens_absorb`. -/
def absorbRest (key : Nat) : Option (Exec Msg) :=
  match e.dev.clientAt key with
  | none => none
  | some devClient =>
      if canSendToClient devClient then
        some ((({ e with dev := e.dev.setClient key (fun c =>
          { c with waitForTokensStarted := false }) } : Exec Msg).ret 0).readFromDevice)
      else if devClient.sendQueueSize ≠ 0 then
        some (({ e with dev := e.dev.setClient key (fun c =>
          { c with waitForTokensStarted := true }) } : Exec Msg).ret 0)
      else some (e.ret 0)

/-- One round of `spice_char_device_client_send_queue_free`; behind its loop,
go on with the caller. -/
def queueFreeRound (key : Nat) (caller : QueueFreeCaller) : Option (Exec Msg) :=
  match e.dev.clientAt key with
  | none => none
  | some devClient =>
      match devClient.sendQueue with
      | _ :: rest =>
          some (({ e with dev := e.dev.setClient key (fun c => { c with sendQueue := rest }) } : Exec Msg).push
            .freeUnref)
      | [] =>
          let freed := { e with dev := e.dev.setClient key (fun c => { c with
            numSendTokens := add64 c.numSendTokens c.sendQueueSize, sendQueueSize := 0 }) }
          match caller with
          | .reset => some (freed.goto (.resetClients (freed.dev.clientAfter key)))
          | .remove => some (({ freed with dev := freed.dev.clientUnlink devClient } : Exec Msg).ret 0)

/-- The part of `spice_char_device_reset` that empties the write queue. -/
def resetQueueRound : Exec Msg :=
  match e.dev.writeQueue with
  | [] => e.goto .resetCur
  | buf :: rest => ({ e with dev := { e.dev with writeQueue := rest } } : Exec Msg).writeBufferRelease buf

/-- The part of `spice_char_device_reset` that releases the current buffer. -/
def resetCurRound : Exec Msg :=
  match e.dev.curWriteBuf with
  | none => e.goto .resetFirst
  | some buf =>
      let e := e.goto .resetFirst
      ({ e with dev := { e.dev with curWriteBuf := none } } : Exec Msg).writeBufferRelease buf

/-- Take a buffer from the pool, or allocate one, of the given size. -/
def takeBuffer (size : Nat) : Exec Msg × SpiceCharDeviceWriteBuffer :=
  match e.dev.writeBufsPool with
  | buf :: rest =>
      ({ e with dev := { e.dev with writeBufsPool := rest } }, { buf with bufSize := max buf.bufSize size })
  | [] =>
      ({ e with fresh := e.fresh + 1 },
        { key := e.fresh, origin := .none, client := none, buf := [], bufSize := size, tokenPrice := 0, refs := 0 })

/-- Hand a buffer to the caller. -/
def hold (buf : SpiceCharDeviceWriteBuffer) : Exec Msg := { e with held := buf :: e.held }

/-- Put a buffer back into the pool after an error. -/
def unget (buf : SpiceCharDeviceWriteBuffer) : Exec Msg :=
  { e with dev := { e.dev with writeBufsPool := e.dev.writeBufsPool ++ [buf] } }

/-- `__spice_char_device_write_buffer_get` without migrated data. -/
def writeBufferGet (client : Nat) (size : Nat) (origin : WriteBufferOrigin) : Exec Msg :=
  if origin = .server ∧ e.dev.numSelfTokens = 0 then e
  else
    let (taken, buf) := e.takeBuffer size
    if buf.buf ≠ [] then taken.abort .bufUsed
    else
      let ready := { buf with origin := origin, tokenPrice := 1, refs := 1 }
      match origin with
      | .client =>
          match taken.dev.clientFind client with
          | none => taken.unget { buf with origin := origin }
          | some devClient =>
              if devClient.doFlowControl then
                if devClient.numClientTokens = 0 then
                  (taken.push (.getError { buf with origin := origin })).push .overflowCall
                else
                  ({ taken with dev := taken.dev.setClient devClient.key (fun c => { c with
                    numClientTokens := dec64 c.numClientTokens }) } : Exec Msg).hold
                    { ready with client := some client }
              else taken.hold { ready with client := some client }
      | .server =>
          ({ taken with dev := { taken.dev with
            numSelfTokens := dec64 taken.dev.numSelfTokens } } : Exec Msg).hold ready
      | .none => taken.hold ready
      | .serverNoToken => taken.hold ready

/-- `spice_char_device_write_buffer_add` of a buffer taken from the caller. -/
def writeBufferAdd (buf : SpiceCharDeviceWriteBuffer) : Exec Msg :=
  if buf.origin = .client ∧ buf.client.bind e.dev.clientFind = none then
    { e with dev := e.dev.writeBufferPoolAdd buf }
  else ({ e with dev := { e.dev with writeQueue := e.dev.writeQueue ++ [buf] } } : Exec Msg).writeToDevice

def wakeup : Exec Msg := (e.push .wakeupRead).writeToDevice

def clientAdd (client : Nat) (doFlowControl : Bool)
    (maxSendQueueSize numClientTokens numSendTokens : Nat) (waitForMigrateData : Bool) : Exec Msg :=
  if waitForMigrateData ∧ (0 < e.dev.numClients ∨ e.dev.active) then { e with result := 0 }
  else
    let clientTokens := if doFlowControl then numClientTokens % 2 ^ 32 else 2 ^ 64 - 1
    let sendTokens := if doFlowControl then numSendTokens % 2 ^ 32 else 2 ^ 64 - 1
    let devClient : SpiceCharDeviceClientState Msg :=
      { key := e.fresh, client := client, doFlowControl := doFlowControl
        numClientTokens := clientTokens, numClientTokensFree := 0, numSendTokens := sendTokens
        waitForTokensStarted := false, sendQueue := [], sendQueueSize := 0
        maxSendQueueSize := maxSendQueueSize % 2 ^ 32 }
    let added := { e with
      fresh := e.fresh + 1
      dev := { e.dev with
        waitForMigrateData := waitForMigrateData
        clients := devClient :: e.dev.clients
        numClients := e.dev.numClients + 1 } }
    (added.observe (.attached e.fresh client doFlowControl clientTokens sendTokens)).wakeup

end Exec

inductive Call
  | clientAdd (client : Nat) (doFlowControl : Bool)
      (maxSendQueueSize numClientTokens numSendTokens : Nat) (waitForMigrateData : Bool)
  | clientRemove (client : Nat)
  | sendToClientTokensAdd (client tokens : Nat)
  | sendToClientTokensSet (client tokens : Nat)
  | writeBufferGet (client : Option Nat) (size : Nat)
  | writeBufferGetServerNoToken (size : Nat)
  | writeBufferAdd (key : Nat)
  | writeBufferRelease (key : Nat)
  | writeRetry
  | waitForTokensTimeout (key : Nat)
  | start
  | stop
  | reset
  | resetDevInstance
  | wakeup

/-- One step of a run: a call, the caller filling a buffer it holds, `sif->write`
or the read returning, another callback returning or a function running on. -/
inductive Event (Msg : Type)
  | call (call : Call)
  | fill (key : Nat) (bytes : List UInt8)
  | wrote (n : Int)
  | readOne (msg : Option Msg)
  | tick

namespace Exec

/-- The environment has control: no function is running, or it waits in a callback. -/
def atCallback (e : Exec Msg) : Bool :=
  match e.stack with
  | [] => true
  | .writeCall _ _ :: _ => true
  | .sendTokens :: _ => true
  | .freeSelfToken :: _ => true
  | .sendCall :: _ => true
  | .overflowCall :: _ => true
  | .freeUnref :: _ => true
  | .readCall _ _ :: _ => true
  | .readUnref _ :: _ => true
  | .pushUnref _ :: _ => true
  | _ => false

/-- A call, executed until the next callback, loop or return. -/
def callStep (e : Exec Msg) : Call -> Option (Exec Msg)
  | .clientAdd client flow maxQueue clientTokens sendTokens wait =>
      some (e.clientAdd client flow maxQueue clientTokens sendTokens wait)
  | .clientRemove client =>
      match e.dev.clientFind client with
      | none => some (e.abort .clientNotFound)
      | some devClient => some ((e.push .clientRemoved).push (.queueFree devClient.key .remove))
  | .sendToClientTokensAdd client tokens =>
      match e.dev.clientFind client with
      | none => some (e.abort .clientNotFound)
      | some devClient =>
          some ((e.observe (.granted devClient.key (tokens % 2 ^ 32))).tokensAbsorb devClient (tokens % 2 ^ 32))
  | .sendToClientTokensSet client tokens =>
      match e.dev.clientFind client with
      | none => some (e.abort .clientNotFound)
      | some devClient =>
          some ((e.observe (.set devClient.key (tokens % 2 ^ 32))).tokensAbsorb
            { devClient with numSendTokens := 0 } (tokens % 2 ^ 32))
  | .writeBufferGet (some client) size => some (e.writeBufferGet client size .client)
  | .writeBufferGet none size => some (e.writeBufferGet 0 size .server)
  | .writeBufferGetServerNoToken size => some (e.writeBufferGet 0 size .serverNoToken)
  | .writeBufferAdd key =>
      match e.held.find? (fun buf => buf.key = key) with
      | none => none
      | some buf =>
          some (({ e with held := e.held.eraseP (fun other => other.key = key) } : Exec Msg).writeBufferAdd buf)
  | .writeBufferRelease key =>
      match e.held.find? (fun buf => buf.key = key) with
      | none => none
      | some buf =>
          some (({ e with held := e.held.eraseP (fun other => other.key = key) } : Exec Msg).writeBufferRelease buf)
  | .writeRetry => some e.writeToDevice
  | .waitForTokensTimeout key =>
      match e.dev.clientAt key with
      | none => none
      | some _ => some (e.push .overflowCall)
  | .start => some ((({ e with dev := { e.dev with running := true } } : Exec Msg).push .startRead).writeToDevice)
  | .stop => some { e with dev := { e.dev with running := false, active := false } }
  | .reset =>
      some (({ e with dev := { e.dev with
        running := false, active := false, waitForMigrateData := false } } : Exec Msg).push .resetQueue)
  | .resetDevInstance => some { e with dev := { e.dev with sin := true } }
  | .wakeup => some e.wakeup

/-- The innermost function runs on, or its callback returns without a value. -/
def tickStep (e : Exec Msg) : Option (Exec Msg) :=
  match e.stack with
  | [] => none
  | frame :: _ =>
      match frame with
      | .writeLoop total => some (e.writeRound total)
      | .writeCall _ _ => none
      | .sendTokens => some (e.ret 0)
      | .freeSelfToken => some (e.ret 0)
      | .sendCall => some (e.ret 0)
      | .overflowCall => some (e.ret 0)
      | .freeUnref => some (e.ret 0)
      | .readLoop maxSendTokens didRead => some (e.readRound maxSendTokens didRead)
      | .readCall _ _ => none
      | .readUnref maxSendTokens => some (e.goto (.readLoop (dec64 maxSendTokens) true))
      | .sendLoop msg item => e.sendRound msg item
      | .pushLoop key => e.pushRound key
      | .pushUnref key => e.pushNext key
      | .absorbEnd key => e.absorbRest key
      | .resetQueue => some e.resetQueueRound
      | .resetCur => some e.resetCurRound
      | .resetFirst => some (e.goto (.resetClients (e.dev.clients.head?.map (fun devClient => devClient.key))))
      | .resetClients none => some (({ e with dev := { e.dev with sin := false } } : Exec Msg).ret 0)
      | .resetClients (some key) => some (e.goto (.queueFree key .reset))
      | .queueFree key caller => e.queueFreeRound key caller
      | .clientRemoved =>
          if e.dev.waitForMigrateData then
            if e.dev.numClients ≠ 0 then some (e.abort .migrateClients)
            else some ((({ e with dev := { e.dev with waitForMigrateData := false } } : Exec Msg).ret 0).readFromDevice)
          else some (e.ret 0)
      | .wakeupRead => some ((e.ret 0).readFromDevice)
      | .startRead =>
          if e.result ≠ 0 then some e.writeToDevice else some ((e.goto .startCheck).readFromDevice)
      | .startCheck =>
          if e.result ≠ 0 then some ((e.goto .startRead).writeToDevice) else some (e.ret 0)
      | .getError buf => some ((e.unget buf).ret 0)

/-- One event; `none` if it cannot happen or follows a dead pointer. -/
def step (e : Exec Msg) (event : Event Msg) : Option (Exec Msg) :=
  if e.aborted.isSome then none
  else
    match event with
    | .call call => if e.atCallback then e.callStep call else none
    | .fill key bytes =>
        if e.atCallback then
          some { e with held := e.held.map (fun buf =>
            if buf.key = key ∧ bytes.length ≤ buf.bufSize then { buf with buf := bytes } else buf) }
        else none
    | .wrote n =>
        match e.stack with
        | .writeCall writeLen total :: _ => e.wrote n writeLen total
        | _ => none
    | .readOne msg =>
        match e.stack with
        | .readCall maxSendTokens didRead :: _ => some (e.readOne msg maxSendTokens didRead)
        | _ => none
    | .tick => e.tickStep

end Exec

def stateCreate (Msg : Type) (clientTokensInterval selfTokens : Nat) : Exec Msg where
  dev :=
    { running := false, active := false, waitForMigrateData := false
      writeQueue := [], writeBufsPool := [], curWriteBuf := none, curWriteBufPos := 0
      numSelfTokens := selfTokens % 2 ^ 32, clients := [], numClients := 0
      clientTokensInterval := clientTokensInterval % 2 ^ 32, sin := true
      duringReadFromDevice := 0, duringWriteToDevice := 0 }
  stack := []
  held := []
  trace := []
  fresh := 1
  result := 0
  aborted := none

end CharDevice
end Spice
