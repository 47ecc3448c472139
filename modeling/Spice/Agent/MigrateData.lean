import Spice.Agent.Filter
import Spice.CharDevice.Migration

namespace Spice
namespace Agent

open Lib CharDevice

variable {Msg : Type}

/-!
# Migration data of the agent

The client relays the state of the agent from the source to the target.  The message has
lengths and two pointers that are relative to its own start.  It is read when it
arrives, or stored and read when the agent is attached.  `none` stands for a failed
assertion, a null pointer, and an access outside the message or the read buffer.
-/

/-! ## Reading the message -/

/-- `sizeof(SpiceMigrateDataHeader)`, `sizeof(SpiceMiniDataHeader)` and `sizeof(SpiceMigrateDataMain)`. -/
def migrateDataHeaderSize : Nat := 8

def miniDataHeaderSize : Nat := 6

def migrateDataMainSize : Nat := 57

/-- `memcpy` from a place in a block of memory. -/
def readBytes (memory : List UInt8) (place : Int) (count : Nat) : Option (List UInt8) :=
  if count = 0 then some []
  else if 0 ≤ place ∧ place + count ≤ memory.length then some ((memory.drop place.toNat).take count)
  else none

/-- The fields of `SpiceMigrateDataMain`, packed; the chunk header is kept as its bytes. -/
structure SpiceMigrateDataMain where
  version : Nat
  connected : Nat
  numClientTokens : Nat
  numSendTokens : Nat
  writeSize : Nat
  writeNumClientTokens : Nat
  writeDataPtr : Nat
  clientAgentStarted : Nat
  chunkHeaderSize : Nat
  chunkHeader : List UInt8
  msgHeaderDone : Nat
  msgHeaderPartialLen : Nat
  msgHeaderPtr : Nat
  msgRemaining : Nat
  msgFilterResult : Nat
  toAgentMsgRemaining : Nat
  toAgentMsgFilterResult : Nat
  deriving DecidableEq, Repr

/-- The structure that starts at a place of the memory. -/
def SpiceMigrateDataMain.read (memory : List UInt8) (base : Nat) : SpiceMigrateDataMain :=
  let field (offset width : Nat) : Nat := littleEndian ((memory.drop (base + offset)).take width)
  { version := field 0 4
    connected := field 4 1
    numClientTokens := field 5 4
    numSendTokens := field 9 4
    writeSize := field 13 4
    writeNumClientTokens := field 17 4
    writeDataPtr := field 21 4
    clientAgentStarted := field 25 1
    chunkHeaderSize := field 26 4
    chunkHeader := (memory.drop (base + 30)).take 8
    msgHeaderDone := field 38 1
    msgHeaderPartialLen := field 39 4
    msgHeaderPtr := field 43 4
    msgRemaining := field 47 4
    msgFilterResult := field 51 1
    toAgentMsgRemaining := field 52 4
    toAgentMsgFilterResult := field 56 1 }

/-! ## The state of the agent -/

def numReceiveBuffs : Nat := 5

/-- `VDIPortState.read_state`. -/
inductive ReadState
  | readHeader
  | getBuff
  | readData
deriving DecidableEq, Repr

/-- The fields of `AgentMsgFilter` that are migrated; a result can be any byte. -/
structure MigratedFilter where
  msgDataToRead : Nat
  result : Nat
  discardAll : Bool
  deriving DecidableEq, Repr

/-- `VDIPortState`, as far as it is restored.  `header` is what was read of `vdi_chunk_header`, and
`current` what is in `current_read_buf`, which has `currentLen` bytes when it is full. -/
structure AgentState (Msg : Type) where
  base : Option (Exec Msg)
  vdagent : Bool
  plugGeneration : Nat
  readBufs : Nat
  readState : ReadState
  header : List UInt8
  receiveLen : Nat
  messageReceiveLen : Nat
  current : Option (List UInt8)
  currentLen : Nat
  readFilter : MigratedFilter
  writeFilter : MigratedFilter
  clientAgentStarted : Bool
  migData : Option (List UInt8)

namespace AgentState

variable (agent : AgentState Msg) (data : SpiceMigrateDataMain)

/-- The start of `reds_agent_state_restore`: the header of the chunk. -/
def restoreChunk : Option (AgentState Msg) :=
  if chunkHeaderSize < data.chunkHeaderSize then none
  else if data.chunkHeaderSize < chunkHeaderSize then
    some { agent with
      readState := .readHeader
      header := data.chunkHeader.take data.chunkHeaderSize
      receiveLen := chunkHeaderSize - data.chunkHeaderSize }
  else
    some { agent with
      header := data.chunkHeader
      messageReceiveLen := littleEndian (data.chunkHeader.drop 4) }

/-- The start of a message is copied into a read buffer. -/
def restorePartial (memory : List UInt8) (base : Nat) : Option (AgentState Msg) :=
  if agent.readBufs = 0 then none
  else
    match readBytes memory ((base : Int) + data.msgHeaderPtr - miniDataHeaderSize) data.msgHeaderPartialLen with
    | none => none
    | some bytes =>
        if maxDataSize < data.msgHeaderPartialLen then none
        else
          let length := min agent.messageReceiveLen (maxDataSize - data.msgHeaderPartialLen)
          some { agent with
            readState := .readData
            readBufs := agent.readBufs - 1
            current := some bytes
            receiveLen := length
            currentLen := length + data.msgHeaderPartialLen
            messageReceiveLen := agent.messageReceiveLen - length }

def restoreMessage (memory : List UInt8) (base : Nat) : Option (AgentState Msg) :=
  if data.msgHeaderDone = 0 then
    if data.chunkHeaderSize = chunkHeaderSize then agent.restorePartial data memory base
    else if data.msgHeaderPartialLen = 0 then some agent
    else none
  else
    some { agent with
      readState := .getBuff
      current := none
      readFilter := { agent.readFilter with msgDataToRead := data.msgRemaining, result := data.msgFilterResult } }

def restoreFilters : AgentState Msg :=
  { agent with
    readFilter := { agent.readFilter with discardAll := false }
    writeFilter :=
      { msgDataToRead := data.toAgentMsgRemaining
        result := data.toAgentMsgFilterResult
        discardAll := decide (data.clientAgentStarted = 0) }
    clientAgentStarted := decide (data.clientAgentStarted ≠ 0) }

/-- `spice_char_device_state_restore` for the data in the memory. -/
def restoreDevice (memory : List UInt8) (base : Nat) : Option (AgentState Msg) :=
  match agent.base, readBytes memory ((base : Int) + data.writeDataPtr - migrateDataHeaderSize) data.writeSize with
  | some dev, some bytes =>
      (dev.stateRestore
        { version := data.version
          connected := data.connected
          numClientTokens := data.numClientTokens
          numSendTokens := data.numSendTokens
          writeSize := data.writeSize
          writeNumClientTokens := data.writeNumClientTokens
          writeData := bytes }).map (fun dev => { agent with base := some dev })
  | _, _ => none

/-- `reds_agent_state_restore`, with the structure at a place of the memory. -/
def agentStateRestore (memory : List UInt8) (base : Nat) : Option (AgentState Msg) :=
  let data := SpiceMigrateDataMain.read memory base
  if memory.length < base + migrateDataMainSize then none
  else ((agent.restoreChunk data).bind (fun agent => agent.restoreMessage data memory base)).bind
    (fun agent => (agent.restoreFilters data).restoreDevice data memory base)

def clientRemove (dev : Exec Msg) (client : Nat) : Option (Exec Msg) :=
  match dev.dev.clientFind client with
  | none => none
  | some devClient =>
      let removed := { dev with dev := dev.dev.clientUnlink devClient }
      if removed.dev.waitForMigrateData then
        if removed.dev.numClients ≠ 0 then none
        else some ({ removed with dev := { removed.dev with waitForMigrateData := false } } : Exec Msg).readFromDevice
      else some removed

/-- `reds_handle_migrate_data` for the message of a client; the size that `spice_memdup` is given is
that of the message with its header. -/
def handleMigrateData (client : Nat) (message : List UInt8) : Option (AgentState Msg) :=
  if message.length < migrateDataHeaderSize + migrateDataMainSize then none
  else if (SpiceMigrateDataMain.read message migrateDataHeaderSize).connected ≠ 0 then
    if agent.base.isSome then
      if !agent.vdagent then if 0 < agent.plugGeneration then some agent else none
      else if 1 < agent.plugGeneration then some agent
      else agent.agentStateRestore message migrateDataHeaderSize
    else if agent.plugGeneration = 0 then
      (readBytes message migrateDataHeaderSize message.length).map (fun copy => { agent with migData := some copy })
    else none
  else if agent.vdagent then
    (agent.base.bind (fun dev => clientRemove dev client)).map (fun dev => { agent with base := some dev })
  else some agent

/-- The end of `attach_to_red_agent`, once the client was added: stored data is restored. -/
def restoreStored : Option (AgentState Msg) :=
  match agent.migData with
  | none => some agent
  | some copy =>
      if agent.plugGeneration = 1 then
        (agent.agentStateRestore copy 0).map (fun agent => { agent with migData := none })
      else none

end AgentState

/-! ## The condition -/

/-- The bytes at a place are inside the memory, if there are any. -/
def InMessage (memory : List UInt8) (place : Int) (count : Nat) : Prop :=
  count = 0 ∨ 0 ≤ place ∧ place + count ≤ memory.length

/-- A device that can take the data: it waits for it with its one client and writes nothing, and can
get a buffer of the size. -/
structure TakesData (dev : Exec Msg) (data : SpiceMigrateDataMain) : Prop where
  clients : dev.dev.numClients = 1 ∧ dev.dev.clients ≠ []
  waits : dev.dev.waitForMigrateData = true
  version : data.version ≤ migrateDataCharDeviceVersion
  idle : dev.dev.curWriteBuf = none ∧ dev.dev.writeQueue = []
  buffer : data.writeSize ≠ 0 ->
    (data.writeNumClientTokens ≠ 0 ∨ dev.dev.numSelfTokens ≠ 0) ∧
      (data.writeSize < 2 ^ 31 ∨ data.writeSize ≤
        dev.dev.writeBufsPool.head?.elim 0 SpiceCharDeviceWriteBuffer.bufSize) ∧
      forall pooled, dev.dev.writeBufsPool.head? = some pooled -> pooled.buf = []

/-- The message can be restored by this agent. -/
structure Restores (agent : AgentState Msg) (memory : List UInt8) (base : Nat)
    (data : SpiceMigrateDataMain) : Prop where
  fixed : base + migrateDataMainSize ≤ memory.length
  connected : data.connected ≠ 0
  chunk : data.chunkHeaderSize ≤ chunkHeaderSize
  header : data.msgHeaderDone = 0 -> data.chunkHeaderSize < chunkHeaderSize -> data.msgHeaderPartialLen = 0
  part : data.msgHeaderDone = 0 -> data.chunkHeaderSize = chunkHeaderSize ->
    agent.readBufs ≠ 0 ∧ data.msgHeaderPartialLen ≤ maxDataSize ∧
      InMessage memory ((base : Int) + data.msgHeaderPtr - miniDataHeaderSize) data.msgHeaderPartialLen
  device : Exists fun dev => agent.base = some dev ∧ TakesData dev data
  written : InMessage memory ((base : Int) + data.writeDataPtr - migrateDataHeaderSize) data.writeSize

/-- The message can be handled by this agent: it is not stored for later, and where it is restored it
can be. -/
structure Handles (agent : AgentState Msg) (client : Nat) (message : List UInt8)
    (data : SpiceMigrateDataMain) : Prop where
  fixed : migrateDataHeaderSize + migrateDataMainSize ≤ message.length
  attached : data.connected ≠ 0 -> agent.base.isSome
  detached : data.connected ≠ 0 -> agent.vdagent = false -> 0 < agent.plugGeneration
  restores : data.connected ≠ 0 -> agent.vdagent = true -> agent.plugGeneration ≤ 1 ->
    Restores agent message migrateDataHeaderSize data
  removes : data.connected = 0 -> agent.vdagent = true -> Exists fun dev => Exists fun devClient =>
    agent.base = some dev ∧ dev.dev.clientFind client = some devClient ∧
      (dev.dev.waitForMigrateData = true -> dev.dev.numClients ≤ 1)

/-! ## Restoring -/

theorem readBytes_isSome (memory : List UInt8) (place : Int) (count : Nat) :
    (readBytes memory place count).isSome <-> InMessage memory place count := by
  unfold readBytes InMessage
  by_cases nothing : count = 0
  · rw [if_pos nothing]
    exact ⟨fun _ => Or.inl nothing, fun _ => rfl⟩
  · rw [if_neg nothing]
    by_cases inside : 0 ≤ place ∧ place + count ≤ memory.length
    · rw [if_pos inside]
      exact ⟨fun _ => Or.inr inside, fun _ => rfl⟩
    · rw [if_neg inside]
      exact ⟨nofun, fun either => absurd either (not_or.mpr ⟨nothing, inside⟩)⟩

/-- When a buffer for the data is to be had. -/
theorem migratedBufferGet_isSome {e : Exec Msg} {client size tokens : Nat} {found : SpiceCharDeviceClientState Msg}
    (here : e.dev.clientFind client = some found) : (e.migratedBufferGet client size tokens).isSome <->
      (tokens ≠ 0 ∨ e.dev.numSelfTokens ≠ 0) ∧
        (size < 2 ^ 31 ∨ size ≤ e.dev.writeBufsPool.head?.elim 0 SpiceCharDeviceWriteBuffer.bufSize) ∧
        forall pooled, e.dev.writeBufsPool.head? = some pooled -> pooled.buf = [] := by
  unfold Exec.migratedBufferGet
  by_cases broke : tokens = 0 ∧ e.dev.numSelfTokens = 0
  · rw [if_pos broke]
    exact ⟨nofun, fun all => absurd broke (not_and_or.mpr all.1)⟩
  · rw [if_neg broke]
    by_cases large : 2 ^ 31 ≤ size ∧ e.dev.writeBufsPool.head?.elim 0 SpiceCharDeviceWriteBuffer.bufSize < size
    · rw [if_pos large]
      refine ⟨nofun, fun all => ?_⟩
      rcases all.2.1 with small | fits
      · exact absurd large.1 (Nat.not_le.mpr small)
      · exact absurd large.2 (Nat.not_lt.mpr fits)
    · rw [if_neg large]
      have fits : size < 2 ^ 31 ∨ size ≤ e.dev.writeBufsPool.head?.elim 0 SpiceCharDeviceWriteBuffer.bufSize := by
        by_contra none
        rw [not_or, Nat.not_lt, Nat.not_le] at none
        exact large none
      have same : (e.takeBuffer size).1.dev.clientFind client = some found := by
        unfold Exec.takeBuffer
        cases e.dev.writeBufsPool <;> exact here
      have fresh : (e.takeBuffer size).2.buf = [] <->
          forall pooled, e.dev.writeBufsPool.head? = some pooled -> pooled.buf = [] := by
        unfold Exec.takeBuffer
        cases e.dev.writeBufsPool with
        | nil => exact ⟨fun _ => nofun, fun _ => rfl⟩
        | cons buf rest => exact ⟨fun empty _ head => Option.some.inj head ▸ empty, fun all => all buf rfl⟩
      dsimp only
      by_cases empty : (e.takeBuffer size).2.buf = []
      · rw [if_neg (not_not.mpr empty)]
        refine ⟨fun _ => ⟨not_and_or.mp broke, fits, fresh.mp empty⟩, fun _ => ?_⟩
        by_cases free : tokens = 0
        · rw [if_pos free]
          rfl
        · rw [if_neg free, same]
          rfl
      · rw [if_pos empty]
        exact ⟨nofun, fun all => absurd (fresh.mpr all.2.2) empty⟩

theorem clientFind_restoreTokens (e : Exec Msg) {clientState : SpiceCharDeviceClientState Msg}
    (member : clientState ∈ e.dev.clients) (migData : SpiceMigrateDataCharDevice) :
    Exists fun found => (e.restoreTokens clientState migData).dev.clientFind clientState.client = some found := by
  rw [<- Option.isSome_iff_exists]
  unfold SpiceCharDeviceState.clientFind
  rw [List.find?_isSome]
  unfold Exec.restoreTokens SpiceCharDeviceState.setClient
  refine ⟨_, List.mem_map_of_mem member, ?_⟩
  split <;> exact decide_eq_true rfl

/-- When the assertions of the device's restore hold. -/
theorem stateRestore_isSome (e : Exec Msg) (migData : SpiceMigrateDataCharDevice) : (e.stateRestore migData).isSome <->
      (e.dev.numClients = 1 ∧ e.dev.clients ≠ []) ∧ e.dev.waitForMigrateData = true ∧
        migData.version ≤ migrateDataCharDeviceVersion ∧ (e.dev.curWriteBuf = none ∧ e.dev.writeQueue = []) ∧
        migData.connected ≠ 0 ∧ (migData.writeSize ≠ 0 -> (migData.writeNumClientTokens ≠ 0 ∨ e.dev.numSelfTokens ≠ 0) ∧
            (migData.writeSize < 2 ^ 31 ∨
              migData.writeSize ≤ e.dev.writeBufsPool.head?.elim 0 SpiceCharDeviceWriteBuffer.bufSize) ∧
            forall pooled, e.dev.writeBufsPool.head? = some pooled -> pooled.buf = []) := by
  unfold Exec.stateRestore
  by_cases waiting : e.dev.numClients = 1 ∧ e.dev.waitForMigrateData = true
  · rw [if_pos waiting]
    cases last : e.dev.clients.getLast? with
    | none => exact ⟨nofun, fun all => absurd (List.getLast?_eq_none_iff.mp last) all.1.2⟩
    | some clientState =>
        have member := List.mem_of_getLast? last
        rcases clientFind_restoreTokens e member migData with ⟨found, here⟩
        have got := @migratedBufferGet_isSome _ _ _ migData.writeSize migData.writeNumClientTokens found here
        dsimp only
        by_cases newer : migrateDataCharDeviceVersion < migData.version
        · rw [if_pos newer]
          exact ⟨nofun, fun all => absurd newer (Nat.not_lt.mpr all.2.2.1)⟩
        · rw [if_neg newer]
          by_cases busy : e.dev.curWriteBuf.isSome = true ∨ e.dev.writeQueue ≠ []
          · rw [if_pos busy]
            refine ⟨nofun, fun all => ?_⟩
            rcases all.2.2.2.1 with ⟨noBuf, noQueue⟩
            rw [noBuf, noQueue] at busy
            rcases busy with impossible | impossible
            · cases impossible
            · exact absurd rfl impossible
          · rw [if_neg busy]
            rw [not_or, Bool.not_eq_true, Option.isSome_eq_false_iff, Option.isNone_iff_eq_none, not_not] at busy
            by_cases off : migData.connected = 0
            · rw [if_pos off]
              exact ⟨nofun, fun all => absurd off all.2.2.2.2.1⟩
            · rw [if_neg off]
              have rest : (e.dev.numClients = 1 ∧ e.dev.clients ≠ []) ∧ e.dev.waitForMigrateData = true ∧
                  migData.version ≤ migrateDataCharDeviceVersion := by
                refine ⟨⟨waiting.1, fun empty => ?_⟩, waiting.2, Nat.le_of_not_lt newer⟩
                rw [empty] at member
                cases member
              by_cases empty : migData.writeSize = 0
              · rw [if_pos empty]
                exact ⟨fun _ => ⟨rest.1, rest.2.1, rest.2.2, busy, off, fun some => absurd empty some⟩, fun _ => rfl⟩
              · rw [if_neg empty]
                cases buffer :
                  (e.restoreTokens clientState migData).migratedBufferGet clientState.client migData.writeSize
                    migData.writeNumClientTokens with
                | none =>
                    rw [buffer] at got
                    exact ⟨nofun, fun all => absurd (got.mpr (all.2.2.2.2.2 empty)) (by simp)⟩
                | some taken =>
                    rw [buffer] at got
                    exact ⟨fun _ => ⟨rest.1, rest.2.1, rest.2.2, busy, off, fun _ => got.mp rfl⟩, fun _ => rfl⟩
  · rw [if_neg waiting]
    exact ⟨nofun, fun all => absurd ⟨all.1.1, all.2.1⟩ waiting⟩

namespace AgentState

variable {agent next : AgentState Msg} {data : SpiceMigrateDataMain} {memory : List UInt8} {base : Nat}

theorem restoreChunk_spec (agent : AgentState Msg) (data : SpiceMigrateDataMain) :
    (agent.restoreChunk data = none ∧ chunkHeaderSize < data.chunkHeaderSize) ∨
      data.chunkHeaderSize ≤ chunkHeaderSize ∧ Exists fun next =>
        agent.restoreChunk data = some next ∧ next.base = agent.base ∧ next.readBufs = agent.readBufs := by
  unfold restoreChunk
  by_cases large : chunkHeaderSize < data.chunkHeaderSize
  · rw [if_pos large]
    exact Or.inl ⟨rfl, large⟩
  · rw [if_neg large]
    refine Or.inr ⟨Nat.le_of_not_lt large, ?_⟩
    split
    · exact ⟨_, rfl, rfl, rfl⟩
    · exact ⟨_, rfl, rfl, rfl⟩

/-- When the start of a message can be restored, and what is left as it was. -/
theorem restorePartial_spec (agent : AgentState Msg) (data : SpiceMigrateDataMain) (memory : List UInt8) (base : Nat) :
    (Exists fun next => agent.restorePartial data memory base = some next ∧ next.base = agent.base) ∧
        (agent.readBufs ≠ 0 ∧ data.msgHeaderPartialLen ≤ maxDataSize ∧
          InMessage memory ((base : Int) + data.msgHeaderPtr - miniDataHeaderSize) data.msgHeaderPartialLen) ∨
      agent.restorePartial data memory base = none ∧ ¬ (agent.readBufs ≠ 0 ∧ data.msgHeaderPartialLen ≤ maxDataSize ∧
          InMessage memory ((base : Int) + data.msgHeaderPtr - miniDataHeaderSize) data.msgHeaderPartialLen) := by
  have inside := readBytes_isSome memory
      ((base : Int) + data.msgHeaderPtr - miniDataHeaderSize) data.msgHeaderPartialLen
  unfold restorePartial
  by_cases noBuf : agent.readBufs = 0
  · rw [if_pos noBuf]
    exact Or.inr ⟨rfl, fun all => all.1 noBuf⟩
  · rw [if_neg noBuf]
    cases read : readBytes memory ((base : Int) + data.msgHeaderPtr - miniDataHeaderSize) data.msgHeaderPartialLen with
    | none =>
        rw [read] at inside
        exact Or.inr ⟨rfl, fun all => absurd (inside.mpr all.2.2) (by simp)⟩
    | some bytes =>
        rw [read] at inside
        dsimp only
        by_cases long : maxDataSize < data.msgHeaderPartialLen
        · rw [if_pos long]
          exact Or.inr ⟨rfl, fun all => absurd long (Nat.not_lt.mpr all.2.1)⟩
        · rw [if_neg long]
          exact Or.inl ⟨⟨_, rfl, rfl⟩, noBuf, Nat.le_of_not_lt long, inside.mp rfl⟩

/-- When the message that was being read can be restored. -/
theorem restoreMessage_spec (agent : AgentState Msg) (data : SpiceMigrateDataMain) (memory : List UInt8) (base : Nat)
    (chunk : data.chunkHeaderSize ≤ chunkHeaderSize) :
    (Exists fun next => agent.restoreMessage data memory base = some next ∧ next.base = agent.base) ∧
        (data.msgHeaderDone = 0 -> data.chunkHeaderSize < chunkHeaderSize -> data.msgHeaderPartialLen = 0) ∧
        (data.msgHeaderDone = 0 -> data.chunkHeaderSize = chunkHeaderSize ->
          agent.readBufs ≠ 0 ∧ data.msgHeaderPartialLen ≤ maxDataSize ∧
            InMessage memory ((base : Int) + data.msgHeaderPtr - miniDataHeaderSize) data.msgHeaderPartialLen) ∨
      agent.restoreMessage data memory base = none ∧
        ¬ ((data.msgHeaderDone = 0 -> data.chunkHeaderSize < chunkHeaderSize -> data.msgHeaderPartialLen = 0) ∧
          (data.msgHeaderDone = 0 -> data.chunkHeaderSize = chunkHeaderSize ->
            agent.readBufs ≠ 0 ∧ data.msgHeaderPartialLen ≤ maxDataSize ∧
              InMessage memory ((base : Int) + data.msgHeaderPtr - miniDataHeaderSize) data.msgHeaderPartialLen)) := by
  unfold restoreMessage
  by_cases reading : data.msgHeaderDone = 0
  · rw [if_pos reading]
    by_cases whole : data.chunkHeaderSize = chunkHeaderSize
    · rw [if_pos whole]
      rcases agent.restorePartial_spec data memory base with ⟨done, fits⟩ | ⟨failed, wrong⟩
      · exact Or.inl ⟨done, fun _ less => absurd whole (Nat.ne_of_lt less), fun _ _ => fits⟩
      · exact Or.inr ⟨failed, fun all => wrong (all.2 reading whole)⟩
    · rw [if_neg whole]
      by_cases nothing : data.msgHeaderPartialLen = 0
      · rw [if_pos nothing]
        exact Or.inl ⟨⟨agent, rfl, rfl⟩, fun _ _ => nothing, fun _ equal => absurd equal whole⟩
      · rw [if_neg nothing]
        exact Or.inr ⟨rfl, fun all => nothing (all.1 reading (Nat.lt_of_le_of_ne chunk whole))⟩
  · rw [if_neg reading]
    exact Or.inl ⟨⟨_, rfl, rfl⟩, fun done => absurd done reading, fun done => absurd done reading⟩

/-- When the device can be restored. -/
theorem restoreDevice_isSome (agent : AgentState Msg) (data : SpiceMigrateDataMain) (memory : List UInt8) (base : Nat) :
    (agent.restoreDevice data memory base).isSome <->
      data.connected ≠ 0 ∧ (Exists fun dev => agent.base = some dev ∧ TakesData dev data) ∧
        InMessage memory ((base : Int) + data.writeDataPtr - migrateDataHeaderSize) data.writeSize := by
  have inside := readBytes_isSome memory ((base : Int) + data.writeDataPtr - migrateDataHeaderSize) data.writeSize
  unfold restoreDevice
  cases agent.base with
  | none => exact ⟨nofun, fun all => by rcases all.2.1 with ⟨_, impossible, _⟩; cases impossible⟩
  | some dev =>
      cases read : readBytes memory ((base : Int) + data.writeDataPtr - migrateDataHeaderSize) data.writeSize with
      | none =>
          rw [read] at inside
          exact ⟨nofun, fun all => absurd (inside.mpr all.2.2) (by simp)⟩
      | some bytes =>
          rw [read] at inside
          dsimp only
          rw [Option.isSome_map, stateRestore_isSome]
          constructor
          · rintro ⟨clients, waits, version, idle, connected, buffer⟩
            exact ⟨connected, ⟨dev, rfl, clients, waits, version, idle, buffer⟩, inside.mp rfl⟩
          · rintro ⟨connected, ⟨_, same, clients, waits, version, idle, buffer⟩, _⟩
            cases same
            exact ⟨clients, waits, version, idle, connected, buffer⟩

/-- When the whole state of the agent can be restored. -/
theorem agentStateRestore_isSome (agent : AgentState Msg) (memory : List UInt8) (base : Nat) :
    (agent.agentStateRestore memory base).isSome <->
      Restores agent memory base (SpiceMigrateDataMain.read memory base) := by
  unfold agentStateRestore
  dsimp only
  generalize SpiceMigrateDataMain.read memory base = data
  by_cases short : memory.length < base + migrateDataMainSize
  · rw [if_pos short]
    exact ⟨nofun, fun restores => absurd short (Nat.not_lt.mpr restores.fixed)⟩
  · rw [if_neg short]
    rcases agent.restoreChunk_spec data with ⟨failed, large⟩ | ⟨chunk, first, done, sameBase, sameBufs⟩
    · rw [failed]
      exact ⟨nofun, fun restores => absurd large (Nat.not_lt.mpr restores.chunk)⟩
    · rw [done, Option.bind_some]
      rcases first.restoreMessage_spec data memory base chunk
        with ⟨⟨second, read, alsoBase⟩, header, part⟩ | ⟨failed, wrong⟩
      · rw [read, Option.bind_some, restoreDevice_isSome]
        have keeps : (second.restoreFilters data).base = agent.base := alsoBase.trans sameBase
        rw [keeps]
        rw [sameBufs] at part
        exact ⟨fun all => ⟨Nat.le_of_not_lt short, all.1, chunk, header, part, all.2.1, all.2.2⟩,
          fun restores => ⟨restores.connected, restores.device, restores.written⟩⟩
      · rw [failed]
        refine ⟨nofun, fun restores => absurd ⟨restores.header, ?_⟩ wrong⟩
        rw [sameBufs]
        exact restores.part

theorem poolAdd_waits (bufs : List SpiceCharDeviceWriteBuffer) (dev : SpiceCharDeviceState Msg) :
    (bufs.foldl SpiceCharDeviceState.writeBufferPoolAdd dev).waitForMigrateData = dev.waitForMigrateData ∧
      (bufs.foldl SpiceCharDeviceState.writeBufferPoolAdd dev).numClients = dev.numClients := by
  induction bufs generalizing dev with
  | nil => exact ⟨rfl, rfl⟩
  | cons buf rest ih =>
      rw [List.foldl_cons, (ih _).1, (ih _).2]
      unfold SpiceCharDeviceState.writeBufferPoolAdd
      split <;> exact ⟨rfl, rfl⟩

theorem clientRemove_isSome (dev : Exec Msg) (client : Nat) :
    (clientRemove dev client).isSome <-> Exists fun devClient =>
      dev.dev.clientFind client = some devClient ∧ (dev.dev.waitForMigrateData = true -> dev.dev.numClients ≤ 1) := by
  unfold clientRemove
  cases found : dev.dev.clientFind client with
  | none => exact ⟨nofun, fun all => by rcases all with ⟨_, impossible, _⟩; cases impossible⟩
  | some devClient =>
      have waiting : (dev.dev.clientUnlink devClient).waitForMigrateData = dev.dev.waitForMigrateData := by
        unfold SpiceCharDeviceState.clientUnlink
        exact (poolAdd_waits _ _).1
      have left : (dev.dev.clientUnlink devClient).numClients = dev.dev.numClients - 1 := by
        unfold SpiceCharDeviceState.clientUnlink
        exact congrArg (fun count => count - 1) (poolAdd_waits _ _).2
      dsimp only
      rw [waiting, left]
      by_cases waits : dev.dev.waitForMigrateData = true
      · rw [if_pos waits]
        by_cases others : dev.dev.numClients - 1 ≠ 0
        · rw [if_pos others]
          refine ⟨nofun, fun all => ?_⟩
          rcases all with ⟨_, _, one⟩
          exact absurd (one waits) (by omega)
        · rw [if_neg others]
          exact ⟨fun _ => ⟨devClient, rfl, fun _ => by omega⟩, fun _ => rfl⟩
      · rw [if_neg waits]
        exact ⟨fun _ => ⟨devClient, rfl, fun impossible => absurd impossible waits⟩, fun _ => rfl⟩

theorem save_outside (message : List UInt8) (long : migrateDataHeaderSize + migrateDataMainSize ≤ message.length) :
    readBytes message migrateDataHeaderSize message.length = none := by
  unfold readBytes
  have some : message.length ≠ 0 := by
    unfold migrateDataHeaderSize at long
    omega
  have outside : ¬ (0 ≤ (migrateDataHeaderSize : Int) ∧
      (migrateDataHeaderSize : Int) + message.length ≤ message.length) := by
    unfold migrateDataHeaderSize
    omega
  rw [if_neg some, if_neg outside]

end AgentState

/-- Migration data is used without leaving the message and the read buffer, and without an
abort, exactly if the agent is attached already or was not connected, and what is
restored has lengths and pointers that lead inside.  The same holds for stored data. -/
theorem migrate_data_contained_iff (agent : AgentState Msg) (client : Nat) (message : List UInt8) :
    ((agent.handleMigrateData client message).isSome <->
        Handles agent client message (SpiceMigrateDataMain.read message migrateDataHeaderSize)) ∧
      forall copy, agent.migData = some copy -> (agent.restoreStored.isSome <->
          agent.plugGeneration = 1 ∧ Restores agent copy 0 (SpiceMigrateDataMain.read copy 0)) := by
  constructor
  · unfold AgentState.handleMigrateData
    have restored := agent.agentStateRestore_isSome message migrateDataHeaderSize
    generalize SpiceMigrateDataMain.read message migrateDataHeaderSize = data at restored ⊢
    by_cases short : message.length < migrateDataHeaderSize + migrateDataMainSize
    · rw [if_pos short]
      exact ⟨nofun, fun handles => absurd short (Nat.not_lt.mpr handles.fixed)⟩
    · rw [if_neg short]
      have long := Nat.le_of_not_lt short
      by_cases connected : data.connected ≠ 0
      · rw [if_pos connected]
        by_cases attached : agent.base.isSome = true
        · rw [if_pos attached]
          cases agentThere : agent.vdagent with
          | false =>
              rw [Bool.not_false, if_pos rfl]
              by_cases plugged : 0 < agent.plugGeneration
              · rw [if_pos plugged]
                refine ⟨fun _ => ⟨long, fun _ => attached, fun _ _ => plugged, ?_, fun off => absurd off connected⟩,
                  fun _ => rfl⟩
                rw [agentThere]
                exact fun _ => nofun
              · rw [if_neg plugged]
                exact ⟨nofun, fun handles => absurd (handles.detached connected agentThere) plugged⟩
          | true =>
              rw [Bool.not_true, if_neg Bool.false_ne_true]
              have here : data.connected ≠ 0 -> agent.vdagent = false -> 0 < agent.plugGeneration := by
                rw [agentThere]
                exact fun _ => nofun
              by_cases replugged : 1 < agent.plugGeneration
              · rw [if_pos replugged]
                exact ⟨fun _ => ⟨long, fun _ => attached, here, fun _ _ once => absurd replugged (Nat.not_lt.mpr once),
                  fun off => absurd off connected⟩, fun _ => rfl⟩
              · rw [if_neg replugged, restored]
                exact ⟨fun restores => ⟨long, fun _ => attached, here, fun _ _ _ => restores,
                  fun off => absurd off connected⟩,
                  fun handles => handles.restores connected agentThere (Nat.le_of_not_lt replugged)⟩
        · rw [if_neg attached, AgentState.save_outside message long]
          refine ⟨fun saved => ?_, fun handles => absurd (handles.attached connected) attached⟩
          split at saved
          · cases saved
          · cases saved
      · rw [if_neg connected]
        rw [not_not] at connected
        by_cases agentThere : agent.vdagent = true
        · rw [if_pos agentThere, Option.isSome_map]
          cases isBase : agent.base with
          | none =>
              refine ⟨nofun, fun handles => ?_⟩
              rcases handles.removes connected agentThere with ⟨_, _, impossible, _⟩
              rw [isBase] at impossible
              cases impossible
          | some dev =>
              rw [Option.bind_some, AgentState.clientRemove_isSome]
              constructor
              · rintro ⟨devClient, found, alone⟩
                exact ⟨long, fun on => absurd connected on, fun on => absurd connected on,
                  fun on => absurd connected on,
                  fun _ _ => ⟨dev, devClient, isBase, found, alone⟩⟩
              · intro handles
                rcases handles.removes connected agentThere with ⟨_, devClient, same, found, alone⟩
                cases isBase.symm.trans same
                exact ⟨devClient, found, alone⟩
        · rw [if_neg agentThere]
          exact ⟨fun _ => ⟨long, fun on => absurd connected on, fun on => absurd connected on,
            fun on => absurd connected on,
            fun _ there => absurd there agentThere⟩, fun _ => rfl⟩
  · intro copy stored
    unfold AgentState.restoreStored
    rw [stored]
    dsimp only
    by_cases once : agent.plugGeneration = 1
    · rw [if_pos once, Option.isSome_map, AgentState.agentStateRestore_isSome]
      exact ⟨fun restores => ⟨once, restores⟩, fun both => both.2⟩
    · rw [if_neg once]
      exact ⟨nofun, fun both => absurd both.1 once⟩

/-- The agent of a target to which no agent was attached yet. -/
def waitingAgent : AgentState Nat where
  base := none
  vdagent := false
  plugGeneration := 0
  readBufs := numReceiveBuffs
  readState := .readHeader
  header := []
  receiveLen := chunkHeaderSize
  messageReceiveLen := 0
  current := none
  currentLen := 0
  readFilter := { msgDataToRead := 0, result := 0, discardAll := true }
  writeFilter := { msgDataToRead := 0, result := 0, discardAll := true }
  clientAgentStarted := false
  migData := none

/-- A message of an agent that was connected and idle: the header, version 1, and zeros. -/
def idleMessage : List UInt8 :=
  [0x4d, 0x4e, 0x4d, 0x44, 1, 0, 0, 0] ++ [1, 0, 0, 0, 1] ++ List.replicate 52 0

/-- Storing the message reads eight bytes behind it. -/
theorem stored_message_read_outside : migrateDataHeaderSize + migrateDataMainSize ≤ idleMessage.length ∧
      (waitingAgent.handleMigrateData 0 idleMessage).isNone = true := by
  refine ⟨by decide, ?_⟩
  decide

end Agent
end Spice
