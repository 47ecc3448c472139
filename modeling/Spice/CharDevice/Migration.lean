import Spice.CharDevice.WriteStream

namespace Spice
namespace CharDevice

open Lib

variable {Msg : Type}

/-!
# Migration of a character device

The source merges all buffers that are still to be written into one block of
data with one price.  The target, which has a client attached that waits for
migration data, restores the token balances and makes one write buffer of the
block.

The fields are those of `SpiceMigrateDataCharDevice`, 32 bits wide, and the
data that `write_data_ptr` leads to.
-/

def migrateDataCharDeviceVersion : Nat := 1

/-- `SpiceMigrateDataCharDevice`, with the data behind its pointer. -/
structure SpiceMigrateDataCharDevice where
  version : Nat
  connected : Nat
  numClientTokens : Nat
  numSendTokens : Nat
  writeSize : Nat
  writeNumClientTokens : Nat
  writeData : List UInt8
  deriving DecidableEq, Repr

/-- The buffers that are still to be written, the oldest first. -/
def pendingBufs (dev : SpiceCharDeviceState Msg) : List SpiceCharDeviceWriteBuffer :=
  dev.curWriteBuf.toList ++ dev.writeQueue

/-- The parts of `write_data_ptr`, each with its buffer. -/
def writeParts (dev : SpiceCharDeviceState Msg) : List (SpiceCharDeviceWriteBuffer × List UInt8) :=
  dev.curWriteBuf.toList.map (fun buf => (buf, buf.buf.drop dev.curWriteBufPos)) ++
    dev.writeQueue.map (fun buf => (buf, buf.buf))

/-- The merging of the buffers: `write_to_dev_size`, `write_to_dev_tokens` and the data. -/
def marshallBuffers (client : Nat) :
    List (SpiceCharDeviceWriteBuffer × List UInt8) -> Nat × Nat × List UInt8 -> Option (Nat × Nat × List UInt8)
  | [], merged => some merged
  | (buf, bytes) :: rest, (size, tokens, data) =>
      if buf.origin = .client then
        if buf.client = some client then
          marshallBuffers client rest
            ((size + bytes.length) % 2 ^ 32, (tokens + buf.tokenPrice) % 2 ^ 32, data ++ bytes)
        else none
      else marshallBuffers client rest ((size + bytes.length) % 2 ^ 32, tokens, data ++ bytes)

/-- `spice_char_device_state_migrate_data_marshall`; `none` when an assertion fails. -/
def stateMigrateDataMarshall (dev : SpiceCharDeviceState Msg) : Option SpiceMigrateDataCharDevice :=
  if dev.numClients = 1 then
    match dev.clients.getLast? with
    | none => none
    | some clientState =>
        if clientState.sendQueueSize = 0 then
          (marshallBuffers clientState.client (writeParts dev) (0, 0, [])).map fun merged =>
            { version := migrateDataCharDeviceVersion
              connected := 1
              numClientTokens := clientState.numClientTokens % 2 ^ 32
              numSendTokens := clientState.numSendTokens % 2 ^ 32
              writeSize := merged.1
              writeNumClientTokens := merged.2.1
              writeData := merged.2.2 }
        else none
  else none

namespace Exec

/-- `__spice_char_device_write_buffer_get` for migrated data.  The size is an `int`: one that is negative makes the
allocation abort. -/
def migratedBufferGet (e : Exec Msg) (client size tokens : Nat) : Option (Exec Msg × SpiceCharDeviceWriteBuffer) :=
  if tokens = 0 ∧ e.dev.numSelfTokens = 0 then none
  else if 2 ^ 31 ≤ size ∧ e.dev.writeBufsPool.head?.elim 0 SpiceCharDeviceWriteBuffer.bufSize < size then none
  else
    let (taken, buf) := e.takeBuffer size
    if buf.buf ≠ [] then none
    else if tokens = 0 then
      some ({ taken with dev := { taken.dev with numSelfTokens := dec64 taken.dev.numSelfTokens } },
        { buf with origin := .server, tokenPrice := 1, refs := 1 })
    else
      match taken.dev.clientFind client with
      | none => none
      | some _ => some (taken, { buf with origin := .client, client := some client, tokenPrice := tokens, refs := 1 })

/-- The end of `spice_char_device_state_restore`: write to the device, then read from it. -/
def resume (e : Exec Msg) : Exec Msg :=
  ({ e with dev := { e.dev with waitForMigrateData := false } } : Exec Msg).wakeup

/-- The balances that `spice_char_device_state_restore` sets. -/
def restoreTokens (e : Exec Msg) (clientState : SpiceCharDeviceClientState Msg) (migData : SpiceMigrateDataCharDevice) :
    Exec Msg :=
  let clientTokensWindow := clientState.numClientTokens % 2 ^ 32
  { e with dev := e.dev.setClient clientState.key (fun c => { c with
    numClientTokens := migData.numClientTokens
    numClientTokensFree :=
      (clientTokensWindow + 2 ^ 33 - migData.numClientTokens - migData.writeNumClientTokens) % 2 ^ 32
    numSendTokens := migData.numSendTokens }) }

/-- `spice_char_device_state_restore`; `none` when an assertion fails or a null pointer is followed. -/
def stateRestore (e : Exec Msg) (migData : SpiceMigrateDataCharDevice) : Option (Exec Msg) :=
  if e.dev.numClients = 1 ∧ e.dev.waitForMigrateData = true then
    match e.dev.clients.getLast? with
    | none => none
    | some clientState =>
        if migrateDataCharDeviceVersion < migData.version then none
        else if e.dev.curWriteBuf.isSome = true ∨ e.dev.writeQueue ≠ [] then none
        else if migData.connected = 0 then none
        else
          let e := e.restoreTokens clientState migData
          if migData.writeSize = 0 then some e.resume
          else
            match e.migratedBufferGet clientState.client migData.writeSize migData.writeNumClientTokens with
            | none => none
            | some (e, buf) =>
                some ({ e with dev := { e.dev with
                  curWriteBuf := some { buf with buf := migData.writeData.take migData.writeSize }
                  curWriteBufPos := 0 } } : Exec Msg).resume
  else none

end Exec

/-- A device to which nothing has happened but the attachment of one flow-controlled client, which waits for
migration data. -/
structure Awaiting (selfTokens window : Nat) (e : Exec Msg) (clientState : SpiceCharDeviceClientState Msg) : Prop where
  single : e.dev.clients = [clientState]
  count : e.dev.numClients = 1
  waits : e.dev.waitForMigrateData = true
  flow : clientState.doFlowControl = true
  tokens : clientState.numClientTokens = window
  initial : initialTokens clientState.key e.trace = window
  key : clientState.key < e.fresh
  cur : e.dev.curWriteBuf = none
  queue : e.dev.writeQueue = []
  pool : e.dev.writeBufsPool = []
  held : e.held = []
  self : e.dev.numSelfTokens = selfTokens

/-- The state after a migration carries on what the source had. -/
structure RoundTrips (source : Exec Msg) (clientState : SpiceCharDeviceClientState Msg) (target : Exec Msg)
    (restored : SpiceCharDeviceClientState Msg) : Prop where
  single : target.dev.clients = [restored]
  bytes : pending target.dev = pending source.dev
  tokens : restored.numClientTokens + restored.numClientTokensFree +
      prices restored.client (pendingBufs target.dev) =
    clientState.numClientTokens + clientState.numClientTokensFree + prices clientState.client (pendingBufs source.dev)
  sendTokens : restored.numSendTokens = clientState.numSendTokens
  release : forall buf, target.dev.curWriteBuf = some buf ->
    Exists fun later => (({ target with dev := { target.dev with curWriteBuf := none } } : Exec Msg).writeBufferRelease
      buf).dev.clients = [later] ∧
      later.numClientTokens + later.numClientTokensFree =
        restored.numClientTokens + restored.numClientTokensFree + priceFor restored.client buf

/-- When a migration carries on what the source had: nothing is queued for the client, its send tokens are a 32-bit
value, the bytes to be written have a size that is an `int`, no buffer of the client is with a caller (or, without bytes
to be written, these have the price of the empty buffers to be written), and the server has tokens if the bytes are not
the client's. -/
structure Restorable (selfTokens : Nat) (e : Exec Msg) (clientState : SpiceCharDeviceClientState Msg) : Prop where
  sendQueue : clientState.sendQueueSize = 0
  sendTokens : clientState.numSendTokens < 2 ^ 32
  size : (pending e.dev).length < 2 ^ 31
  held : prices clientState.client e.held =
    if pending e.dev = [] then prices clientState.client (pendingBufs e.dev) else 0
  fund : pending e.dev ≠ [] -> prices clientState.client (pendingBufs e.dev) = 0 -> selfTokens ≠ 0

section Marshalling

variable {client : Nat}

/-- A buffer that a client obtained was obtained by this one. -/
def OwnedByOne (client : Nat) (bufs : List SpiceCharDeviceWriteBuffer) : Prop :=
  forall buf, buf ∈ bufs -> buf.origin = .client -> buf.client = some client

theorem writeParts_bufs (dev : SpiceCharDeviceState Msg) : (writeParts dev).map Prod.fst = pendingBufs dev := by
  simp [writeParts, pendingBufs, Function.comp_def]

theorem writeParts_bytes (dev : SpiceCharDeviceState Msg) : (writeParts dev).flatMap Prod.snd = pending dev := by
  unfold writeParts pending
  rw [List.flatMap_append, List.flatMap_map]
  cases dev.curWriteBuf with
  | none => simp [List.flatMap_map]
  | some buf => simp [List.flatMap_map]

theorem priceFor_origin {buf : SpiceCharDeviceWriteBuffer} (owner : buf.origin = .client -> buf.client = some client) :
    priceFor client buf = if buf.origin = .client then buf.tokenPrice else 0 := by
  unfold priceFor ownedBy
  by_cases origin : buf.origin = .client
  · simp [origin, owner origin]
  · simp [origin]

/-- The data of the buffers one after another, and what they cost. -/
theorem marshallBuffers_eq (parts : List (SpiceCharDeviceWriteBuffer × List UInt8))
    (owned : OwnedByOne client (parts.map Prod.fst)) (size tokens : Nat) (data : List UInt8) (sizeFits : size < 2 ^ 32)
    (tokensFit : tokens < 2 ^ 32) : marshallBuffers client parts (size, tokens, data) =
      some ((size + (parts.flatMap Prod.snd).length) % 2 ^ 32, (tokens + prices client (parts.map Prod.fst)) % 2 ^ 32,
        data ++ parts.flatMap Prod.snd) := by
  induction parts generalizing size tokens data with
  | nil =>
      show some (size, tokens, data) = some ((size + 0) % 2 ^ 32, (tokens + 0) % 2 ^ 32, data ++ [])
      rw [Nat.add_zero, Nat.add_zero, Nat.mod_eq_of_lt sizeFits, Nat.mod_eq_of_lt tokensFit, List.append_nil]
  | cons part rest ih =>
      rcases part with ⟨buf, bytes⟩
      have owner := owned buf List.mem_cons_self
      have next := fun size tokens data => ih (fun other member => owned other (List.mem_cons_of_mem buf member))
        (size % 2 ^ 32) tokens data (Nat.mod_lt _ (Nat.two_pow_pos 32))
      have price := priceFor_origin owner
      rw [marshallBuffers, List.map_cons, prices_cons, price, List.flatMap_cons, List.length_append]
      by_cases origin : buf.origin = .client
      · rw [if_pos origin, if_pos (owner origin), if_pos origin, next _ _ _ (Nat.mod_lt _ (Nat.two_pow_pos 32)),
          Nat.mod_add_mod, Nat.mod_add_mod, List.append_assoc, Nat.add_assoc, Nat.add_assoc]
      · rw [if_neg origin, if_neg origin, next _ _ _ tokensFit, Nat.mod_add_mod, List.append_assoc, Nat.add_assoc,
          Nat.zero_add]

/-- The data that the source writes, in closed form. -/
def mergedData (dev : SpiceCharDeviceState Msg) (clientState : SpiceCharDeviceClientState Msg) :
    SpiceMigrateDataCharDevice where
  version := migrateDataCharDeviceVersion
  connected := 1
  numClientTokens := clientState.numClientTokens % 2 ^ 32
  numSendTokens := clientState.numSendTokens % 2 ^ 32
  writeSize := (pending dev).length % 2 ^ 32
  writeNumClientTokens := prices clientState.client (pendingBufs dev) % 2 ^ 32
  writeData := pending dev

theorem marshall_eq {dev : SpiceCharDeviceState Msg} {clientState : SpiceCharDeviceClientState Msg}
    (single : dev.clients = [clientState]) (count : dev.numClients = 1)
    (owned : OwnedByOne clientState.client (pendingBufs dev)) : stateMigrateDataMarshall dev =
      if clientState.sendQueueSize = 0 then some (mergedData dev clientState) else none := by
  have merged := @marshallBuffers_eq clientState.client (writeParts dev)
    (by rw [writeParts_bufs]; exact owned) 0 0 [] (Nat.two_pow_pos 32) (Nat.two_pow_pos 32)
  rw [writeParts_bufs, writeParts_bytes, Nat.zero_add, Nat.zero_add, List.nil_append] at merged
  unfold stateMigrateDataMarshall
  rw [if_pos count, single]
  simp only [List.getLast?_singleton]
  split
  · rw [merged]
    rfl
  · rfl

end Marshalling

section Restoring

variable {selfTokens window : Nat} {target : Exec Msg} {clientState : SpiceCharDeviceClientState Msg}
  {migData : SpiceMigrateDataCharDevice}

def restoredClient (clientState : SpiceCharDeviceClientState Msg) (migData : SpiceMigrateDataCharDevice) :
    SpiceCharDeviceClientState Msg :=
  { clientState with
    numClientTokens := migData.numClientTokens
    numClientTokensFree :=
      (clientState.numClientTokens % 2 ^ 32 + 2 ^ 33 - migData.numClientTokens - migData.writeNumClientTokens) % 2 ^ 32
    numSendTokens := migData.numSendTokens }

/-- The buffer that holds all the restored data. -/
def restoredBuf (key client : Nat) (migData : SpiceMigrateDataCharDevice) : SpiceCharDeviceWriteBuffer :=
  { key := key
    origin := if migData.writeNumClientTokens = 0 then .server else .client
    client := if migData.writeNumClientTokens = 0 then none else some client
    buf := migData.writeData.take migData.writeSize
    bufSize := migData.writeSize
    tokenPrice := if migData.writeNumClientTokens = 0 then 1 else migData.writeNumClientTokens
    refs := 1 }

theorem resume_frame (e : Exec Msg) :
    e.resume.dev.clients = e.dev.clients ∧ e.resume.dev.curWriteBuf = e.dev.curWriteBuf ∧
      e.resume.dev.curWriteBufPos = e.dev.curWriteBufPos ∧ e.resume.dev.writeQueue = e.dev.writeQueue := by
  unfold Exec.resume Exec.wakeup Exec.writeToDevice
  split
  · exact ⟨rfl, rfl, rfl, rfl⟩
  · simp only
    split <;> exact ⟨rfl, rfl, rfl, rfl⟩

theorem Awaiting.restoreTokens_clients (awaiting : Awaiting selfTokens window target clientState) :
    (target.restoreTokens clientState migData).dev.clients = [restoredClient clientState migData] := by
  unfold Exec.restoreTokens SpiceCharDeviceState.setClient restoredClient
  simp only [awaiting.single, List.map_cons, List.map_nil, if_true]

theorem Awaiting.restore_empty (awaiting : Awaiting selfTokens window target clientState)
    (version : migData.version = migrateDataCharDeviceVersion) (connected : migData.connected = 1)
    (empty : migData.writeSize = 0) :
    target.stateRestore migData = some (target.restoreTokens clientState migData).resume := by
  unfold Exec.stateRestore
  rw [if_pos ⟨awaiting.count, awaiting.waits⟩, awaiting.single]
  simp only [List.getLast?_singleton]
  rw [if_neg (by rw [version]; exact Nat.lt_irrefl _), if_neg (by simp [awaiting.cur, awaiting.queue]),
    if_neg (by rw [connected]; decide), if_pos empty]

/-- The target makes one buffer of them. -/
theorem migratedBufferGet_eq {e : Exec Msg} {client size tokens : Nat} {found : SpiceCharDeviceClientState Msg}
    (pool : e.dev.writeBufsPool = []) (here : e.dev.clientFind client = some found) :
    e.migratedBufferGet client size tokens =
      if tokens = 0 ∧ e.dev.numSelfTokens = 0 ∨ 2 ^ 31 ≤ size then none
      else some ({ e with
          fresh := e.fresh + 1
          dev := { e.dev with
            numSelfTokens := if tokens = 0 then dec64 e.dev.numSelfTokens else e.dev.numSelfTokens } },
        { key := e.fresh
          origin := if tokens = 0 then .server else .client
          client := if tokens = 0 then none else some client
          buf := []
          bufSize := size
          tokenPrice := if tokens = 0 then 1 else tokens
          refs := 1 }) := by
  unfold Exec.migratedBufferGet Exec.takeBuffer
  rw [pool]
  by_cases broke : tokens = 0 ∧ e.dev.numSelfTokens = 0
  · rw [if_pos broke, if_pos (Or.inl broke)]
  · rw [if_neg broke]
    by_cases large : 2 ^ 31 ≤ size
    · rw [if_pos ⟨large, by show 0 < size; omega⟩, if_pos (Or.inr large)]
    · rw [if_neg (fun both => large both.1), if_neg (fun either => either.elim broke large)]
      simp only [ne_eq, not_true_eq_false, if_false]
      by_cases free : tokens = 0
      · simp only [if_pos free]
      · simp only [if_neg free]
        rw [here]

/-- The target with the data in one buffer, before it goes on. -/
def withData (target : Exec Msg) (clientState : SpiceCharDeviceClientState Msg) (migData : SpiceMigrateDataCharDevice) :
    Exec Msg :=
  let restored := target.restoreTokens clientState migData
  { restored with
    fresh := restored.fresh + 1
    dev := { restored.dev with
      numSelfTokens :=
        if migData.writeNumClientTokens = 0 then dec64 restored.dev.numSelfTokens else restored.dev.numSelfTokens
      curWriteBuf := some (restoredBuf target.fresh clientState.client migData)
      curWriteBufPos := 0 } }

/-- The device that waits takes the data over. -/
theorem Awaiting.restore_data (awaiting : Awaiting selfTokens window target clientState)
    (version : migData.version = migrateDataCharDeviceVersion) (connected : migData.connected = 1)
    (some : migData.writeSize ≠ 0) : target.stateRestore migData =
      if migData.writeNumClientTokens = 0 ∧ selfTokens = 0 ∨ 2 ^ 31 ≤ migData.writeSize then none
      else Option.some (withData target clientState migData).resume := by
  have clients := @Awaiting.restoreTokens_clients Msg selfTokens window target clientState migData awaiting
  have found : (target.restoreTokens clientState migData).dev.clientFind clientState.client =
      Option.some (restoredClient clientState migData) := by
    unfold SpiceCharDeviceState.clientFind
    rw [clients]
    simp [restoredClient]
  have self : (target.restoreTokens clientState migData).dev.numSelfTokens = selfTokens := awaiting.self
  have pool : (target.restoreTokens clientState migData).dev.writeBufsPool = [] := awaiting.pool
  unfold Exec.stateRestore
  rw [if_pos ⟨awaiting.count, awaiting.waits⟩, awaiting.single]
  simp only [List.getLast?_singleton]
  rw [if_neg (by rw [version]; exact Nat.lt_irrefl _), if_neg (by simp [awaiting.cur, awaiting.queue]),
    if_neg (by rw [connected]; decide), if_neg some, migratedBufferGet_eq pool found, self]
  by_cases fails : migData.writeNumClientTokens = 0 ∧ selfTokens = 0 ∨ 2 ^ 31 ≤ migData.writeSize
  · rw [if_pos fails, if_pos fails]
  · rw [if_neg fails, if_neg fails]
    simp only [withData, self]
    rfl

theorem prices_append (client : Nat) (first second : List SpiceCharDeviceWriteBuffer) :
    prices client (first ++ second) = prices client first + prices client second := by
  rw [prices, List.map_append, List.sum_append]
  rfl

theorem priceFor_restoredBuf (key client : Nat) (migData : SpiceMigrateDataCharDevice) :
    priceFor client (restoredBuf key client migData) = migData.writeNumClientTokens := by
  unfold priceFor ownedBy restoredBuf
  by_cases free : migData.writeNumClientTokens = 0
  · simp [free]
  · simp [free]

theorem restoredBuf_owner (key client : Nat) (migData : SpiceMigrateDataCharDevice)
    (origin : (restoredBuf key client migData).origin = .client) :
    (restoredBuf key client migData).client = some client := by
  unfold restoredBuf at origin ⊢
  by_cases free : migData.writeNumClientTokens = 0
  · simp [free] at origin
  · simp [free]

theorem clientFind_single {dev : SpiceCharDeviceState Msg} (single : dev.clients = [clientState]) :
    dev.clientFind clientState.client = some clientState := by
  unfold SpiceCharDeviceState.clientFind
  rw [single]
  simp

/-- Tokens for the only client. -/
theorem clientTokensAdd_single {dev : SpiceCharDeviceState Msg} (single : dev.clients = [clientState])
    (flow : clientState.doFlowControl = true) (numTokens : Nat)
    (fits : clientState.numClientTokens + clientState.numClientTokensFree + numTokens < 2 ^ 64) :
    Exists fun later => (dev.clientTokensAdd clientState numTokens).1.clients = [later] ∧
      later.numClientTokens + later.numClientTokensFree =
        clientState.numClientTokens + clientState.numClientTokensFree + numTokens := by
  unfold SpiceCharDeviceState.clientTokensAdd
  rw [if_pos flow]
  have free : add64 clientState.numClientTokensFree numTokens = clientState.numClientTokensFree + numTokens :=
    add64_of_lt (by omega)
  simp only [free]
  split
  · refine ⟨{ clientState with
      numClientTokens := add64 clientState.numClientTokens (clientState.numClientTokensFree + numTokens)
      numClientTokensFree := 0 }, ?_, ?_⟩
    · simp [SpiceCharDeviceState.setClient, single]
    · show add64 _ _ + 0 = _
      rw [add64_of_lt (by omega)]
      omega
  · refine ⟨{ clientState with numClientTokensFree := clientState.numClientTokensFree + numTokens }, ?_, ?_⟩
    · simp [SpiceCharDeviceState.setClient, single]
    · show clientState.numClientTokens + (clientState.numClientTokensFree + numTokens) = _
      omega

theorem poolAdd_clients (dev : SpiceCharDeviceState Msg) (buf : SpiceCharDeviceWriteBuffer) :
    (dev.writeBufferPoolAdd buf).clients = dev.clients := by
  unfold SpiceCharDeviceState.writeBufferPoolAdd
  split <;> rfl

/-- A buffer of the only client is released. -/
theorem release_single {e : Exec Msg} (single : e.dev.clients = [clientState])
    (flow : clientState.doFlowControl = true) {buf : SpiceCharDeviceWriteBuffer}
    (owner : buf.origin = .client -> buf.client = some clientState.client)
    (fits : clientState.numClientTokens + clientState.numClientTokensFree + buf.tokenPrice < 2 ^ 64) :
    Exists fun later => (e.writeBufferRelease buf).dev.clients = [later] ∧
      later.numClientTokens + later.numClientTokensFree =
        clientState.numClientTokens + clientState.numClientTokensFree + priceFor clientState.client buf := by
  have price := priceFor_origin owner
  have pooled : (e.dev.writeBufferPoolAdd buf).clients = [clientState] := by rw [poolAdd_clients, single]
  unfold Exec.writeBufferRelease
  cases origin : buf.origin with
  | client =>
      rw [origin, if_pos rfl] at price
      simp only [owner origin, Option.bind_some, clientFind_single pooled]
      rcases clientTokensAdd_single pooled flow buf.tokenPrice fits with ⟨later, clients, sum⟩
      refine ⟨later, ?_, by rw [price]; exact sum⟩
      split
      · next dev same =>
          rw [same] at clients
          exact clients
      · next dev same =>
          rw [same] at clients
          exact clients
  | server =>
      rw [origin, if_neg (by decide)] at price
      exact ⟨clientState, pooled, by rw [price, Nat.add_zero]⟩
  | none =>
      rw [origin, if_neg (by decide)] at price
      exact ⟨clientState, pooled, by rw [price, Nat.add_zero]⟩
  | serverNoToken =>
      rw [origin, if_neg (by decide)] at price
      exact ⟨clientState, pooled, by rw [price, Nat.add_zero]⟩

end Restoring

section RoundTrip

variable {selfTokens : Nat} {source target : Exec Msg} {clientState waiting : SpiceCharDeviceClientState Msg}

theorem prices_outstanding (client : Nat) (e : Exec Msg) :
    prices client (outstanding e) = prices client e.held + prices client (pendingBufs e.dev) := by
  unfold outstanding pendingBufs
  rw [prices_append, prices_append, prices_append]
  omega

theorem Ledger.single (ledger : Ledger selfTokens (outstanding source) source)
    (single : source.dev.clients = [clientState]) (flow : clientState.doFlowControl = true) :
    clientState.numClientTokens + clientState.numClientTokensFree +
        (prices clientState.client source.held + prices clientState.client (pendingBufs source.dev)) =
      initialTokens clientState.key source.trace ∧ initialTokens clientState.key source.trace < 2 ^ 32 := by
  have paid := ledger.paid clientState (by rw [single]; exact List.mem_singleton_self _) flow
  rwa [prices_outstanding] at paid

theorem Ledger.ownedByOne (ledger : Ledger selfTokens (outstanding source) source)
    (single : source.dev.clients = [clientState]) : OwnedByOne clientState.client (pendingBufs source.dev) := by
  intro buf member origin
  have there : buf ∈ outstanding source := by
    unfold outstanding
    unfold pendingBufs at member
    rcases List.mem_append.mp member with cur | queue
    · exact List.mem_append_right _ (List.mem_append_right _ cur)
    · exact List.mem_append_right _ (List.mem_append_left _ queue)
  rcases ledger.owned buf there origin with ⟨owner, attached, same⟩
  rw [single] at attached
  rw [same, List.mem_singleton.mp attached]

/-- The two ends of a migration: a source that keeps its ledger, and a target with the same configuration. -/
structure Ends (selfTokens : Nat) (source : Exec Msg) (clientState : SpiceCharDeviceClientState Msg) (target : Exec Msg)
    (waiting : SpiceCharDeviceClientState Msg) : Prop where
  ledger : Ledger selfTokens (outstanding source) source
  single : source.dev.clients = [clientState]
  count : source.dev.numClients = 1
  flow : clientState.doFlowControl = true
  awaiting : Awaiting selfTokens (initialTokens clientState.key source.trace) target waiting

namespace Ends

variable (ends : Ends selfTokens source clientState target waiting)

include ends

theorem price_mod : prices clientState.client (pendingBufs source.dev) % 2 ^ 32 =
    prices clientState.client (pendingBufs source.dev) := by
  have sums := ends.ledger.single ends.single ends.flow
  exact Nat.mod_eq_of_lt (by omega)

/-- The balances go along with the data. -/
theorem balances : (restoredClient waiting (mergedData source.dev clientState)).numClientTokens =
    clientState.numClientTokens ∧
      (restoredClient waiting (mergedData source.dev clientState)).numClientTokensFree =
        clientState.numClientTokensFree + prices clientState.client source.held := by
  have sums := ends.ledger.single ends.single ends.flow
  have price := ends.price_mod
  have tokens : clientState.numClientTokens % 2 ^ 32 = clientState.numClientTokens := Nat.mod_eq_of_lt (by omega)
  have window : waiting.numClientTokens % 2 ^ 32 = initialTokens clientState.key source.trace := by
    rw [ends.awaiting.tokens]
    exact Nat.mod_eq_of_lt sums.2
  constructor
  · exact tokens
  · show (waiting.numClientTokens % 2 ^ 32 + 2 ^ 33 - clientState.numClientTokens % 2 ^ 32 -
      prices clientState.client (pendingBufs source.dev) % 2 ^ 32) % 2 ^ 32 = _
    rw [window, tokens, price]
    omega

/-- Without data everything is restored if the tokens are. -/
theorem empty_iff (restored : SpiceCharDeviceClientState Msg) :
    RoundTrips source clientState (target.restoreTokens waiting (mergedData source.dev clientState)).resume restored <->
      restored = restoredClient waiting (mergedData source.dev clientState) ∧ pending source.dev = [] ∧
        prices clientState.client source.held = prices clientState.client (pendingBufs source.dev) ∧
        clientState.numSendTokens < 2 ^ 32 := by
  rcases resume_frame (target.restoreTokens waiting (mergedData source.dev clientState)) with ⟨clients, cur, _, queue⟩
  rw [ends.awaiting.restoreTokens_clients] at clients
  have noCur : (target.restoreTokens waiting (mergedData source.dev clientState)).dev.curWriteBuf = none :=
    ends.awaiting.cur
  have noQueue : (target.restoreTokens waiting (mergedData source.dev clientState)).dev.writeQueue = [] :=
    ends.awaiting.queue
  rw [noCur] at cur
  rw [noQueue] at queue
  have nothing : pending (target.restoreTokens waiting (mergedData source.dev clientState)).resume.dev = [] := by
    unfold pending
    rw [cur, queue]
    rfl
  have noBufs : pendingBufs (target.restoreTokens waiting (mergedData source.dev clientState)).resume.dev = [] := by
    unfold pendingBufs
    rw [cur, queue]
    rfl
  rcases ends.balances with ⟨tokens, free⟩
  have send : (restoredClient waiting (mergedData source.dev clientState)).numSendTokens =
      clientState.numSendTokens % 2 ^ 32 := rfl
  constructor
  · intro trip
    have same : [restored] = [restoredClient waiting (mergedData source.dev clientState)] :=
      trip.single.symm.trans clients
    have equal := List.singleton_inj.mp same
    have sum := trip.tokens
    have sends := trip.sendTokens
    rw [equal, tokens, free, noBufs, show prices _ [] = 0 from rfl] at sum
    rw [equal, send] at sends
    exact ⟨equal, trip.bytes.symm.trans nothing, by omega, by omega⟩
  · rintro ⟨equal, empty, held, small⟩
    refine ⟨by rw [clients, equal], nothing.trans empty.symm, ?_, ?_, ?_⟩
    · rw [equal, tokens, free, noBufs, show prices _ [] = 0 from rfl]
      omega
    · rw [equal, send]
      exact Nat.mod_eq_of_lt small
    · intro buf there
      rw [cur] at there
      cases there

/-- The target after a restoration with data. -/
theorem data_iff (restored : SpiceCharDeviceClientState Msg) :
    RoundTrips source clientState (withData target waiting (mergedData source.dev clientState)).resume restored <->
      restored = restoredClient waiting (mergedData source.dev clientState) ∧
        (pending source.dev).take ((pending source.dev).length % 2 ^ 32) = pending source.dev ∧
        prices clientState.client source.held = 0 ∧ clientState.numSendTokens < 2 ^ 32 := by
  rcases resume_frame (withData target waiting (mergedData source.dev clientState)) with ⟨clients, cur, pos, queue⟩
  have restoredClients : (withData target waiting (mergedData source.dev clientState)).dev.clients =
      [restoredClient waiting (mergedData source.dev clientState)] := ends.awaiting.restoreTokens_clients
  have noQueue : (withData target waiting (mergedData source.dev clientState)).dev.writeQueue = [] :=
    ends.awaiting.queue
  rw [restoredClients] at clients
  rw [noQueue] at queue
  have data : pending (withData target waiting (mergedData source.dev clientState)).resume.dev =
      (pending source.dev).take ((pending source.dev).length % 2 ^ 32) := by
    unfold pending
    rw [cur, queue, pos]
    exact List.append_nil _
  have bufs : pendingBufs (withData target waiting (mergedData source.dev clientState)).resume.dev =
      [restoredBuf target.fresh waiting.client (mergedData source.dev clientState)] := by
    unfold pendingBufs
    rw [cur, queue]
    rfl
  have price : priceFor waiting.client (restoredBuf target.fresh waiting.client (mergedData source.dev clientState)) =
      prices clientState.client (pendingBufs source.dev) := (priceFor_restoredBuf _ _ _).trans ends.price_mod
  have owner : (restoredClient waiting (mergedData source.dev clientState)).client = waiting.client := rfl
  rcases ends.balances with ⟨tokens, free⟩
  have send : (restoredClient waiting (mergedData source.dev clientState)).numSendTokens =
      clientState.numSendTokens % 2 ^ 32 := rfl
  have total : prices waiting.client [restoredBuf target.fresh waiting.client (mergedData source.dev clientState)] =
      prices clientState.client (pendingBufs source.dev) := by
    rw [prices_cons, price]
    rfl
  constructor
  · intro trip
    have same : [restored] = [restoredClient waiting (mergedData source.dev clientState)] :=
      trip.single.symm.trans clients
    have equal := List.singleton_inj.mp same
    have sum := trip.tokens
    have sends := trip.sendTokens
    rw [equal, tokens, free, bufs, owner, total] at sum
    rw [equal, send] at sends
    exact ⟨equal, data.symm.trans trip.bytes, by omega, by omega⟩
  · rintro ⟨equal, whole, held, small⟩
    refine ⟨by rw [clients, equal], data.trans whole, ?_, ?_, ?_⟩
    · rw [equal, tokens, free, bufs, owner, total]
      omega
    · rw [equal, send]
      exact Nat.mod_eq_of_lt small
    · intro buf there
      rw [cur] at there
      cases there
      rw [equal]
      have flow : (restoredClient waiting (mergedData source.dev clientState)).doFlowControl = true :=
        ends.awaiting.flow
      let final := (withData target waiting (mergedData source.dev clientState)).resume
      let emptied : Exec Msg := { final with dev := { final.dev with curWriteBuf := none } }
      refine @release_single _ _ emptied clients flow _ (restoredBuf_owner _ _ _) ?_
      have sums := ends.ledger.single ends.single ends.flow
      have bound : (restoredBuf target.fresh waiting.client (mergedData source.dev clientState)).tokenPrice ≤
          2 ^ 32 := by
        show (if prices clientState.client (pendingBufs source.dev) % 2 ^ 32 = 0 then 1
          else prices clientState.client (pendingBufs source.dev) % 2 ^ 32) ≤ 2 ^ 32
        split <;> omega
      rw [tokens, free]
      omega

/-- A migration carries everything on exactly when the state is restorable. -/
theorem roundTrips_iff : (Exists fun migData => Exists fun final => Exists fun restored =>
      stateMigrateDataMarshall source.dev = some migData ∧ target.stateRestore migData = some final ∧
        RoundTrips source clientState final restored) <-> Restorable selfTokens source clientState := by
  have marshalled := marshall_eq ends.single ends.count (ends.ledger.ownedByOne ends.single)
  have size : (mergedData source.dev clientState).writeSize = (pending source.dev).length % 2 ^ 32 := rfl
  have tokens : (mergedData source.dev clientState).writeNumClientTokens =
      prices clientState.client (pendingBufs source.dev) := ends.price_mod
  have empty_of : pending source.dev = [] -> (pending source.dev).length % 2 ^ 32 = 0 := by
    intro empty
    rw [empty]
    rfl
  constructor
  · rintro ⟨migData, final, restored, written, read, trip⟩
    rw [marshalled] at written
    split at written
    · next noQueue =>
        cases written
        by_cases empty : (pending source.dev).length % 2 ^ 32 = 0
        · rw [ends.awaiting.restore_empty rfl rfl (size.trans empty)] at read
          cases read
          rcases (ends.empty_iff restored).mp trip with ⟨_, nothing, held, small⟩
          refine ⟨noQueue, small, ?_, ?_, fun bytes => absurd nothing bytes⟩
          · rw [nothing]
            exact Nat.two_pow_pos 31
          · rw [if_pos nothing]
            exact held
        · rw [ends.awaiting.restore_data rfl rfl (by rw [size]; exact empty), size, tokens] at read
          split at read
          · cases read
          · next succeeds =>
              cases read
              rcases (ends.data_iff restored).mp trip with ⟨_, whole, held, small⟩
              have length := congrArg List.length whole
              rw [List.length_take] at length
              have bytes : pending source.dev ≠ [] := fun none => empty (empty_of none)
              refine ⟨noQueue, small, by omega, ?_, fun _ free broke => succeeds (Or.inl ⟨free, broke⟩)⟩
              rw [if_neg bytes]
              exact held
    · cases written
  · intro condition
    have short := condition.size
    have length : (pending source.dev).length % 2 ^ 32 = (pending source.dev).length := Nat.mod_eq_of_lt (by omega)
    refine ⟨mergedData source.dev clientState, ?_⟩
    rw [marshalled, if_pos condition.sendQueue]
    by_cases bytes : pending source.dev = []
    · have held := condition.held
      rw [if_pos bytes] at held
      refine ⟨_, restoredClient waiting (mergedData source.dev clientState), rfl,
        ends.awaiting.restore_empty rfl rfl (size.trans (empty_of bytes)), ?_⟩
      exact (ends.empty_iff _).mpr ⟨rfl, bytes, held, condition.sendTokens⟩
    · have held := condition.held
      rw [if_neg bytes] at held
      have positive : (pending source.dev).length ≠ 0 := fun zero => bytes (List.eq_nil_of_length_eq_zero zero)
      have succeeds : Not (prices clientState.client (pendingBufs source.dev) = 0 ∧ selfTokens = 0 ∨
          2 ^ 31 ≤ (pending source.dev).length % 2 ^ 32) := by
        rintro (⟨free, broke⟩ | large)
        · exact condition.fund bytes free broke
        · omega
      have read := @Awaiting.restore_data Msg _ _ _ _ (mergedData source.dev clientState) ends.awaiting rfl rfl
        (by rw [size, length]; exact positive)
      rw [size, tokens, if_neg succeeds] at read
      refine ⟨_, restoredClient waiting (mergedData source.dev clientState), rfl, read,
        (ends.data_iff _).mpr ⟨rfl, ?_, held, condition.sendTokens⟩⟩
      rw [length, List.take_length]

/-- The ledger of the target with its one buffer. -/
theorem ledger_alone (noneHeld : prices clientState.client source.held = 0) {e : Exec Msg}
    (clients : e.dev.clients = [restoredClient waiting (mergedData source.dev clientState)])
    (trace : e.trace = target.trace) (fresh : target.fresh ≤ e.fresh)
    (price : prices waiting.client (outstanding e) = prices clientState.client (pendingBufs source.dev))
    (self : e.dev.numSelfTokens + selfBuffers (outstanding e) = selfTokens)
    (owned : OwnedByOne waiting.client (outstanding e)) : Ledger selfTokens (outstanding e) e := by
  have sums := ends.ledger.single ends.single ends.flow
  rcases ends.balances with ⟨tokens, free⟩
  refine ⟨?_, self, ends.ledger.selfSmall, ?_, by simp [clients], by simp [clients], ?_⟩
  · intro c member _
    rw [clients] at member
    rw [List.mem_singleton.mp member, tokens, free, trace]
    show _ + prices waiting.client (outstanding e) = initialTokens waiting.key target.trace ∧
      initialTokens waiting.key target.trace < 2 ^ 32
    rw [ends.awaiting.initial, price]
    exact ⟨by omega, sums.2⟩
  · intro buf member origin
    refine ⟨restoredClient waiting (mergedData source.dev clientState), ?_, owned buf member origin⟩
    rw [clients]
    exact List.mem_singleton_self _
  · intro c member
    rw [clients] at member
    rw [List.mem_singleton.mp member]
    exact Nat.lt_of_lt_of_le ends.awaiting.key fresh

/-- The ledger when nothing waits to be written. -/
theorem ledger_empty (noneHeld : prices clientState.client source.held = 0)
    (noPrice : prices clientState.client (pendingBufs source.dev) = 0) :
    Ledger selfTokens (outstanding (target.restoreTokens waiting (mergedData source.dev clientState)))
      (target.restoreTokens waiting (mergedData source.dev clientState)) := by
  have nothing : outstanding (target.restoreTokens waiting (mergedData source.dev clientState)) = [] := by
    show target.held ++ (target.dev.writeQueue ++ target.dev.curWriteBuf.toList) = []
    rw [ends.awaiting.held, ends.awaiting.queue, ends.awaiting.cur]
    rfl
  refine ends.ledger_alone noneHeld ends.awaiting.restoreTokens_clients rfl (Nat.le_refl _) ?_ ?_ ?_
  · rw [nothing, noPrice]
    rfl
  · rw [nothing]
    exact ends.awaiting.self
  · rw [nothing]
    exact fun buf member => absurd member List.not_mem_nil

/-- The ledger when something does. -/
theorem ledger_data (noneHeld : prices clientState.client source.held = 0)
    (funded : (mergedData source.dev clientState).writeNumClientTokens = 0 -> selfTokens ≠ 0) :
    Ledger selfTokens (outstanding (withData target waiting (mergedData source.dev clientState)))
      (withData target waiting (mergedData source.dev clientState)) := by
  have one : outstanding (withData target waiting (mergedData source.dev clientState)) =
      [restoredBuf target.fresh waiting.client (mergedData source.dev clientState)] := by
    show target.held ++ (target.dev.writeQueue ++ [restoredBuf target.fresh waiting.client
      (mergedData source.dev clientState)]) = _
    rw [ends.awaiting.held, ends.awaiting.queue]
    rfl
  have self : (target.restoreTokens waiting (mergedData source.dev clientState)).dev.numSelfTokens = selfTokens :=
    ends.awaiting.self
  refine ends.ledger_alone noneHeld ends.awaiting.restoreTokens_clients rfl (Nat.le_succ _) ?_ ?_ ?_
  · rw [one, prices_cons, priceFor_restoredBuf]
    exact ends.price_mod
  · rw [one, selfBuffers_cons]
    show (if (mergedData source.dev clientState).writeNumClientTokens = 0 then dec64 _ else _) +
      ((if (if (mergedData source.dev clientState).writeNumClientTokens = 0 then WriteBufferOrigin.server else
        WriteBufferOrigin.client) = .server then 1 else 0) + 0) = selfTokens
    rw [self]
    by_cases free : (mergedData source.dev clientState).writeNumClientTokens = 0
    · have some := funded free
      rw [if_pos free, if_pos free, if_pos rfl, dec64_of_ne some]
      omega
    · rw [if_neg free, if_neg free, if_neg (by decide), Nat.add_zero]
  · rw [one]
    intro buf member origin
    rw [List.mem_singleton.mp member] at origin ⊢
    exact restoredBuf_owner _ _ _ origin

/-- The target's ledger adds up under the condition. -/
theorem restored_ledger (condition : Restorable selfTokens source clientState)
    (lossless : pending source.dev = [] -> prices clientState.client (pendingBufs source.dev) = 0)
    {migData : SpiceMigrateDataCharDevice} {final : Exec Msg}
    (written : stateMigrateDataMarshall source.dev = some migData) (read : target.stateRestore migData = some final) :
    Ledger selfTokens (outstanding final) final := by
  have held := condition.held
  have resumed : forall e : Exec Msg, Ledger selfTokens (outstanding e) e ->
      Ledger selfTokens (outstanding e.resume) e.resume := by
    intro e ledger
    refine Ledger.thenWrite ?_
    exact ledger.keep ⟨rfl, rfl, Nat.le_refl _, fun _ => rfl⟩ rfl
  rw [marshall_eq ends.single ends.count (ends.ledger.ownedByOne ends.single), if_pos condition.sendQueue] at written
  cases written
  by_cases bytes : pending source.dev = []
  · have size : (mergedData source.dev clientState).writeSize = 0 := by
      show (pending source.dev).length % 2 ^ 32 = 0
      rw [bytes]
      rfl
    rw [ends.awaiting.restore_empty rfl rfl size] at read
    cases read
    rw [if_pos bytes, lossless bytes] at held
    exact resumed _ (ends.ledger_empty held (lossless bytes))
  · have short := condition.size
    have size : (mergedData source.dev clientState).writeSize ≠ 0 := by
      show (pending source.dev).length % 2 ^ 32 ≠ 0
      rw [Nat.mod_eq_of_lt (by omega)]
      exact fun zero => bytes (List.eq_nil_of_length_eq_zero zero)
    rw [ends.awaiting.restore_data rfl rfl size] at read
    split at read
    · cases read
    · next succeeds =>
        cases read
        rw [if_neg bytes] at held
        exact resumed _ (ends.ledger_data held (fun free broke => succeeds (Or.inl ⟨free, broke⟩)))

end Ends

/-- The states of a device with this configuration: those of a new one, and those of one that took over from another, if
the one it took over from was restorable and no price was lost. -/
inductive Reached (clientTokensInterval selfTokens : Nat) : Exec Msg -> Prop
  | created (events : List (Event Msg)) (e : Exec Msg)
      (contract : Meets Exec.step (fun _ e event => WriteContract e event) []
        (stateCreate Msg clientTokensInterval selfTokens) events)
      (ran : run Exec.step (stateCreate Msg clientTokensInterval selfTokens) events = some e) :
      Reached clientTokensInterval selfTokens e
  | migrated (source target restored e : Exec Msg) (clientState waiting : SpiceCharDeviceClientState Msg)
      (migData : SpiceMigrateDataCharDevice) (events : List (Event Msg))
      (before : Reached clientTokensInterval selfTokens source)
      (single : source.dev.clients = [clientState]) (count : source.dev.numClients = 1)
      (flow : clientState.doFlowControl = true)
      (awaiting : Awaiting (selfTokens % 2 ^ 32) (initialTokens clientState.key source.trace) target waiting)
      (condition : Restorable (selfTokens % 2 ^ 32) source clientState)
      (lossless : pending source.dev = [] -> prices clientState.client (pendingBufs source.dev) = 0)
      (written : stateMigrateDataMarshall source.dev = some migData)
      (read : target.stateRestore migData = some restored)
      (contract : Meets Exec.step (fun _ e event => WriteContract e event) [] restored events)
      (ran : run Exec.step restored events = some e) : Reached clientTokensInterval selfTokens e

theorem Reached.ledger {clientTokensInterval selfTokens : Nat} {e : Exec Msg}
    (reached : Reached clientTokensInterval selfTokens e) : Ledger (selfTokens % 2 ^ 32) (outstanding e) e := by
  have keep : forall (past : List (Event Msg)) (state : Exec Msg) event next,
      Ledger (selfTokens % 2 ^ 32) (outstanding state) state -> WriteContract state event ->
        state.step event = some next -> Ledger (selfTokens % 2 ^ 32) (outstanding next) next :=
    fun _ _ _ _ ledger met done => ledger.step met done
  induction reached with
  | created events e contract ran =>
      exact run_invariant_of_meets keep events [] _ e (Ledger.create _ _) contract ran
  | migrated source target restored e clientState waiting migData events _ single count flow awaiting condition lossless
      written read contract ran ih =>
      have ends : Ends (selfTokens % 2 ^ 32) source clientState target waiting := ⟨ih, single, count, flow, awaiting⟩
      exact run_invariant_of_meets keep events [] _ e
        (ends.restored_ledger condition lossless written read) contract ran

/-- From every state that a device with one flow-controlled client reaches, a migration to a fresh device with the same
configuration succeeds and carries on the bytes, the tokens and the send tokens, if and only if the state is restorable.
-/
theorem migration_round_trip (clientTokensInterval selfTokens : Nat) (source target : Exec Msg)
    (clientState waiting : SpiceCharDeviceClientState Msg) (reached : Reached clientTokensInterval selfTokens source)
    (single : source.dev.clients = [clientState]) (count : source.dev.numClients = 1)
    (flow : clientState.doFlowControl = true)
    (awaiting : Awaiting (selfTokens % 2 ^ 32) (initialTokens clientState.key source.trace) target waiting) :
    (Exists fun migData => Exists fun final => Exists fun restored =>
      stateMigrateDataMarshall source.dev = some migData ∧ target.stateRestore migData = some final ∧
        RoundTrips source clientState final restored) <-> Restorable (selfTokens % 2 ^ 32) source clientState :=
  Ends.roundTrips_iff ⟨reached.ledger, single, count, flow, awaiting⟩

theorem fresh_awaits (clientTokensInterval selfTokens client maxSendQueueSize numClientTokens numSendTokens : Nat) :
    Exists fun target => Exists fun waiting => run Exec.step (stateCreate Msg clientTokensInterval selfTokens)
        [.call (.clientAdd client true maxSendQueueSize numClientTokens numSendTokens true), .tick] = some target ∧
        Awaiting (selfTokens % 2 ^ 32) (numClientTokens % 2 ^ 32) target waiting :=
  ⟨_, _, rfl, ⟨rfl, rfl, rfl, rfl, rfl, rfl, Nat.lt_succ_self 1, rfl, rfl, rfl, rfl, rfl⟩⟩

/-- The contract of runs in which the callers hold no buffer when a function goes on. -/
def checkContract (e : Exec Msg) : Event Msg -> Bool
  | .call (.clientAdd client _ _ _ _ _) => decide (client ∉ e.dev.clients.map (fun devClient => devClient.client))
  | .tick => e.held.isEmpty
  | _ => true

theorem writeContract_of_check (_past : List (Event Msg)) (e : Exec Msg) (event : Event Msg)
    (checked : checkContract e event = true) : WriteContract e event := by
  unfold checkContract at checked
  unfold WriteContract
  split
  · exact of_decide_eq_true checked
  · intro key rest _ devClient _ buf member
    rw [List.isEmpty_iff.mp checked] at member
    cases member
  · trivial

/-- A client has two bytes in the write queue. -/
theorem migration_round_trip_queued : Exists fun source : Exec Nat => Exists fun target : Exec Nat =>
      run Exec.step (stateCreate Nat 2 1) [.call (.clientAdd 7 true 5 3 2 false), .tick,
        .call (.writeBufferGet (some 7) 16), .fill 2 [1, 2], .call (.writeBufferAdd 2)] = some source ∧
      pending source.dev = [1, 2] ∧ Exists fun migData => Exists fun final => Exists fun clientState =>
        Exists fun restored => stateMigrateDataMarshall source.dev = some migData ∧
          target.stateRestore migData = some final ∧ RoundTrips source clientState final restored := by
  rcases @fresh_awaits Nat 2 1 9 5 3 2 with ⟨target, waiting, _, awaiting⟩
  refine ⟨_, target, rfl, rfl, ?_⟩
  have checked : checkRun Exec.step checkContract (stateCreate Nat 2 1) [.call (.clientAdd 7 true 5 3 2 false), .tick,
      .call (.writeBufferGet (some 7) 16), .fill 2 [1, 2], .call (.writeBufferAdd 2)] = true := by decide
  have contract := Meets.of_check writeContract_of_check _ [] (stateCreate Nat 2 1) checked
  have restorable :=
    (migration_round_trip 2 1 _ target _ waiting (Reached.created _ _ contract rfl) rfl rfl rfl awaiting).mpr
    ⟨rfl, by decide, by decide, rfl, fun _ _ => by decide⟩
  rcases restorable with ⟨migData, final, restored, written, read, trip⟩
  exact ⟨migData, final, _, restored, written, read, trip⟩

/-- A message is queued for the second of two clients, which has no tokens, and the first one leaves. -/
def queuedThenAlone : List (Event Nat) :=
  [.call (.clientAdd 1 true 10 5 1 false), .tick, .call (.clientAdd 2 true 10 5 0 false), .tick,
    .call .start, .tick, .tick, .tick, .readOne (some 5), .tick, .tick, .tick, .tick, .tick, .tick,
    .tick, .tick, .tick, .tick, .tick, .call (.clientRemove 1), .tick, .tick]

/-- The source aborts, because the queue of its only client is not empty. -/
theorem migration_aborts_with_queue : Not (forall (clientTokensInterval selfTokens : Nat) (source target : Exec Nat)
      (clientState waiting : SpiceCharDeviceClientState Nat), Reached clientTokensInterval selfTokens source ->
      source.dev.clients = [clientState] -> source.dev.numClients = 1 -> clientState.doFlowControl = true ->
      Awaiting (selfTokens % 2 ^ 32) (initialTokens clientState.key source.trace) target waiting ->
      Exists fun migData => Exists fun final => Exists fun restored =>
        stateMigrateDataMarshall source.dev = some migData ∧ target.stateRestore migData = some final ∧
          RoundTrips source clientState final restored) := by
  intro claim
  have final : (run Exec.step (stateCreate Nat 1 1) queuedThenAlone).map
      (fun e => (e.dev.clients.map (fun c => (c.doFlowControl, initialTokens c.key e.trace)), e.dev.numClients,
        (stateMigrateDataMarshall e.dev).isNone)) = some ([(true, 5)], 1, true) := by decide
  have checked : checkRun Exec.step checkContract (stateCreate Nat 1 1) queuedThenAlone = true := by decide
  rcases Option.map_eq_some_iff.mp final with ⟨source, ran, facts⟩
  simp only [Prod.mk.injEq] at facts
  rcases facts with ⟨clients, count, none⟩
  rcases List.map_eq_singleton_iff.mp clients with ⟨clientState, single, values⟩
  simp only [Prod.mk.injEq] at values
  rcases @fresh_awaits Nat 1 1 9 10 5 0 with ⟨target, waiting, _, awaiting⟩
  have contract := Meets.of_check writeContract_of_check queuedThenAlone [] (stateCreate Nat 1 1) checked
  rcases claim 1 1 source target clientState waiting (Reached.created _ _ contract ran) single count values.1
    (by rw [values.2]; exact awaiting) with ⟨migData, _, _, written, _⟩
  rw [written] at none
  cases none

end RoundTrip

end CharDevice
end Spice
