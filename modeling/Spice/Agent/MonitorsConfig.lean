import Spice.Agent.MessageFilter

namespace Spice
namespace Agent
namespace MonitorsConfig

open Lib

/-!
# Monitor configurations put together

A configuration of the client's monitors may come in several chunks.  The server puts
the chunks together in one buffer, which all clients share, and passes the configuration
on when the size in its header says that it is complete.  Only then is the buffer
forgotten: a client that leaves, or an agent that is reset, in the middle of a message
leaves its bytes behind.
-/

/-- `sizeof(VDAgentMonitorsConfig)` without its monitors, and `sizeof(VDAgentMonConfig)`. -/
def monitorsConfigSize : Nat := 8

def monConfigSize : Nat := 20

structure RedsClientMonitorsConfig where
  mcc : Option Nat
  buffer : List UInt8
  deriving DecidableEq

structure Passed where
  client : Nat
  message : List UInt8
  deriving DecidableEq

/-- The parts of the server that the configurations go through, the chunks with the verdict for them
since the start, and what was passed to `red_dispatcher_client_monitors_config`. -/
structure RedsState where
  clients : List Nat
  writeFilter : AgentMsgFilter
  clientMonitorsConfig : RedsClientMonitorsConfig
  chunks : List (Nat × List UInt8)
  passed : List Passed
  deriving DecidableEq

/-- The header is there, and the data that its size gives. -/
def IsWhole (message : List UInt8) : Prop :=
  agentMessageSize ≤ message.length ∧ messageField 16 4 message ≤ message.length - agentMessageSize

instance (message : List UInt8) : Decidable (IsWhole message) := inferInstanceAs (Decidable (_ ∧ _))

namespace RedsState

variable (reds : RedsState)

def clientMonitorsConfigCleanup : RedsState :=
  { reds with clientMonitorsConfig := { mcc := none, buffer := [] } }

/-- `reds_on_main_agent_monitors_config`; a size that is no `int` makes the allocation fail. -/
def onMainAgentMonitorsConfig (mcc : Nat) (message : List UInt8) : Option RedsState :=
  let buffer := reds.clientMonitorsConfig.buffer ++ message
  let logged := { reds with chunks := reds.chunks ++ [(mcc, message)] }
  if 2 ^ 31 ≤ buffer.length then none
  else if IsWhole buffer then
    some ({ logged with
      passed := reds.passed ++ [{ client := mcc, message := buffer }] } : RedsState).clientMonitorsConfigCleanup
  else some { logged with clientMonitorsConfig := { mcc := some mcc, buffer := buffer } }

/-- `reds_on_main_agent_data`, as far as the configurations are concerned. -/
def onMainAgentData (mcc : Nat) (message : List UInt8) : Option RedsState :=
  let result := reds.writeFilter.processData message
  let filtered := { reds with writeFilter := result.1 }
  if result.2 = .monitorsConfig then filtered.onMainAgentMonitorsConfig mcc message else some filtered

def clientDisconnect (client : Nat) : RedsState :=
  let clients := reds.clients.filter (fun other => other ≠ client)
  { reds with
    clients := clients
    writeFilter :=
      if clients = [] then
        .init reds.writeFilter.copyPasteEnabled reds.writeFilter.fileXferEnabled true reds.writeFilter.useMonitorsConfig
      else reds.writeFilter }

def resetVdp : RedsState :=
  { reds with writeFilter := { reds.writeFilter with result := .discard, discardAll := true } }

def onMainAgentStart : RedsState := { reds with writeFilter := { reds.writeFilter with discardAll := false } }

end RedsState

/-- A client connects, sends a chunk, or leaves; the agent is started or reset; the display changes its
mind about the configurations. -/
inductive Op
  | connect (client : Nat)
  | data (client : Nat) (message : List UInt8)
  | disconnect (client : Nat)
  | start
  | reset
  | useClientMonitorsConfig (use : Bool)
  deriving DecidableEq

/-- One operation; `none` if a client is not there to send, or the allocation fails. -/
def RedsState.step (reds : RedsState) : Op -> Option RedsState
  | .connect client => if client ∈ reds.clients then none else some { reds with clients := client :: reds.clients }
  | .data client message => if client ∈ reds.clients then reds.onMainAgentData client message else none
  | .disconnect client => some (reds.clientDisconnect client)
  | .start => some reds.onMainAgentStart
  | .reset => some reds.resetVdp
  | .useClientMonitorsConfig use =>
      some { reds with writeFilter := { reds.writeFilter with useMonitorsConfig := use } }

def RedsState.init (filter : AgentMsgFilter) : RedsState where
  clients := []
  writeFilter := .init filter.copyPasteEnabled filter.fileXferEnabled true filter.useMonitorsConfig
  clientMonitorsConfig := { mcc := none, buffer := [] }
  chunks := []
  passed := []

/-! ## What is asked for -/

namespace RedsState

variable (reds : RedsState)

/-- The bytes of the chunks of a client. -/
def stream (client : Nat) : List UInt8 :=
  (reds.chunks.filter (fun chunk => chunk.1 = client)).flatMap Prod.snd

/-- What was passed on for a client, one behind the other. -/
def passedFrom (client : Nat) : List UInt8 :=
  (reds.passed.filter (fun passed => passed.client = client)).flatMap Passed.message

end RedsState

/-- A message of which the size gives all its data. -/
def IsMessage (message : List UInt8) : Prop :=
  agentMessageSize ≤ message.length ∧ messageField 16 4 message = message.length - agentMessageSize

/-- The configuration and all its monitors are inside the data of the message. -/
def Fits (message : List UInt8) : Prop :=
  monitorsConfigSize + monConfigSize * messageField 20 4 message ≤ messageField 16 4 message

instance (message : List UInt8) : Decidable (Fits message) := inferInstanceAs (Decidable (_ ≤ _))

/-- What was passed on are messages whose monitors are inside, and the bytes of every client are its
messages in order and then a message that is not complete. -/
structure Reassembled (reds : RedsState) : Prop where
  messages : forall passed, passed ∈ reds.passed -> IsMessage passed.message ∧ Fits passed.message
  streams : forall client, Exists fun rest => reds.stream client = reds.passedFrom client ++ rest ∧ ¬ IsWhole rest

/-! ## The condition -/

/-- A step of a client that is there and leaves a message in the making alone: only the client it is from goes on with
it, that client does not leave and the agent is not reset before it is complete; it stays an `int` long, its monitors
are inside it, and no message for the buffer starts with more data than its size says. -/
def Undisturbed (reds : RedsState) : Op -> Prop
  | .data client message =>
      let result := reds.writeFilter.processData message
      let buffer := reds.clientMonitorsConfig.buffer
      client ∈ reds.clients ∧
      (result.2 = .monitorsConfig ->
        (buffer ≠ [] -> reds.clientMonitorsConfig.mcc = some client) ∧ (buffer ++ message).length < 2 ^ 31 ∧
          (IsWhole (buffer ++ message) -> Fits (buffer ++ message))) ∧
      (result.2 = .protoError -> buffer = [] -> result.1.msgDataToRead = 0 ∨ result.1.result ≠ .monitorsConfig)
  | .disconnect client => reds.clientMonitorsConfig.buffer ≠ [] -> reds.clientMonitorsConfig.mcc ≠ some client
  | .reset => reds.clientMonitorsConfig.buffer = []
  | .connect client => client ∉ reds.clients
  | _ => True

/-! ## Assembling -/

/-- A message in the making is the one that the filter waits for. -/
structure Assembling (reds : RedsState) : Prop where
  messages : forall passed, passed ∈ reds.passed -> IsMessage passed.message ∧ Fits passed.message
  streams : forall client, reds.stream client = reds.passedFrom client ++
    (if reds.clientMonitorsConfig.mcc = some client then reds.clientMonitorsConfig.buffer else [])
  owner : reds.clientMonitorsConfig.buffer ≠ [] -> Exists fun client =>
    client ∈ reds.clients ∧ reds.clientMonitorsConfig.mcc = some client
  started : reds.clientMonitorsConfig.buffer ≠ [] -> agentMessageSize ≤ reds.clientMonitorsConfig.buffer.length
  waits : reds.clientMonitorsConfig.buffer ≠ [] -> reds.writeFilter.result = .monitorsConfig ∧
    reds.writeFilter.msgDataToRead ≠ 0 ∧ messageField 16 4 reds.clientMonitorsConfig.buffer =
      reds.clientMonitorsConfig.buffer.length - agentMessageSize + reds.writeFilter.msgDataToRead
  idle : reds.clientMonitorsConfig.buffer = [] ->
    reds.writeFilter.msgDataToRead = 0 ∨ reds.writeFilter.result ≠ .monitorsConfig

theorem not_isWhole_nil : ¬ IsWhole [] := fun whole => absurd whole.1 (by decide)

theorem Assembling.reassembled {reds : RedsState} (inv : Assembling reds) : Reassembled reds where
  messages := inv.messages
  streams client := by
    refine ⟨_, inv.streams client, ?_⟩
    by_cases empty : reds.clientMonitorsConfig.buffer = []
    · rw [empty, ite_self]
      exact not_isWhole_nil
    · split
      · intro whole
        have less := whole.2
        have more := (inv.waits empty).2
        omega
      · exact not_isWhole_nil

theorem messageField_append {first : List UInt8} (second : List UInt8) {offset width : Nat}
    (inside : offset + width ≤ first.length) :
    messageField offset width (first ++ second) = messageField offset width first := by
  unfold messageField
  rw [List.drop_append_of_le_length (by omega), List.take_append_of_le_length (by rw [List.length_drop]; omega)]

theorem processData_inside {filter : AgentMsgFilter} (inside : filter.msgDataToRead ≠ 0) (data : List UInt8) :
    filter.processData data = (filter, .protoError) ∨ (data.length ≤ filter.msgDataToRead ∧ filter.processData data =
        ({ filter with msgDataToRead := filter.msgDataToRead - data.length }, filter.result)) := by
  unfold AgentMsgFilter.processData
  split
  · exact .inl rfl
  · unfold AgentMsgFilter.dataToRead
    split
    · exact .inl rfl
    · next fits => exact .inr ⟨Nat.le_of_not_lt fits, rfl⟩

namespace Assembling

variable {reds next : RedsState}

/-- What leaves the buffer and the chunks alone keeps the invariant. -/
theorem keep (inv : Assembling reds) (cmc : next.clientMonitorsConfig = reds.clientMonitorsConfig)
    (chunks : next.chunks = reds.chunks) (passed : next.passed = reds.passed)
    (clients : reds.clientMonitorsConfig.buffer ≠ [] -> forall client, client ∈ reds.clients ->
      reds.clientMonitorsConfig.mcc = some client -> client ∈ next.clients)
    (busy : reds.clientMonitorsConfig.buffer ≠ [] -> next.writeFilter.result = reds.writeFilter.result ∧
      next.writeFilter.msgDataToRead = reds.writeFilter.msgDataToRead) (free : reds.clientMonitorsConfig.buffer = [] ->
      next.writeFilter.msgDataToRead = 0 ∨ next.writeFilter.result ≠ .monitorsConfig) : Assembling next where
  messages := passed ▸ inv.messages
  streams client := by
    unfold RedsState.stream RedsState.passedFrom
    rw [chunks, passed, cmc]
    exact inv.streams client
  owner some := by
    rw [cmc] at some ⊢
    rcases inv.owner some with ⟨client, member, isOwner⟩
    exact ⟨client, clients some client member isOwner, isOwner⟩
  started some := by
    rw [cmc] at some ⊢
    exact inv.started some
  waits some := by
    rw [cmc] at some ⊢
    rw [(busy some).1, (busy some).2]
    exact inv.waits some
  idle none := free (cmc ▸ none)

theorem stream_snoc (reds : RedsState) (mcc client : Nat) (message : List UInt8) :
    { reds with chunks := reds.chunks ++ [(mcc, message)] }.stream client =
      reds.stream client ++ (if mcc = client then message else []) := by
  unfold RedsState.stream
  rw [List.filter_append, List.flatMap_append]
  refine congrArg _ ?_
  by_cases same : mcc = client
  · rw [List.filter_cons_of_pos (by simpa using same), if_pos same]
    simp
  · rw [List.filter_cons_of_neg (by simpa using same), if_neg same]
    rfl

theorem streams_snoc (inv : Assembling reds) {mcc : Nat} (message : List UInt8)
    (own : reds.clientMonitorsConfig.buffer ≠ [] -> reds.clientMonitorsConfig.mcc = some mcc) (client : Nat) :
    reds.stream client ++ (if mcc = client then message else []) = reds.passedFrom client ++
      (if mcc = client then reds.clientMonitorsConfig.buffer ++ message else []) := by
  rw [inv.streams client, List.append_assoc]
  refine congrArg _ ?_
  by_cases empty : reds.clientMonitorsConfig.buffer = []
  · rw [empty, ite_self]
    rfl
  · rw [own empty]
    by_cases same : mcc = client
    · rw [if_pos (congrArg some same), if_pos same, if_pos same]
    · rw [if_neg (fun equal => same (Option.some.inj equal)), if_neg same, if_neg same]
      rfl

/-- A chunk for the buffer, from a filter that knows how much is missing afterwards. -/
theorem monitorsConfig (inv : Assembling reds) {mcc : Nat} {message : List UInt8} {filter : AgentMsgFilter}
    (there : mcc ∈ reds.clients)
    (own : reds.clientMonitorsConfig.buffer ≠ [] -> reds.clientMonitorsConfig.mcc = some mcc)
    (small : (reds.clientMonitorsConfig.buffer ++ message).length < 2 ^ 31)
    (fits : IsWhole (reds.clientMonitorsConfig.buffer ++ message) -> Fits (reds.clientMonitorsConfig.buffer ++ message))
    (header : agentMessageSize ≤ (reds.clientMonitorsConfig.buffer ++ message).length)
    (verdict : filter.result = .monitorsConfig)
    (missing : messageField 16 4 (reds.clientMonitorsConfig.buffer ++ message) = 0 ∨
      messageField 16 4 (reds.clientMonitorsConfig.buffer ++ message) =
        (reds.clientMonitorsConfig.buffer ++ message).length - agentMessageSize + filter.msgDataToRead) :
    Exists fun next => { reds with writeFilter := filter }.onMainAgentMonitorsConfig mcc message = some next ∧
      Assembling next := by
  have streams := inv.streams_snoc message own
  generalize same : reds.clientMonitorsConfig.buffer ++ message = buffer at small fits header missing streams
  unfold RedsState.onMainAgentMonitorsConfig
  dsimp only
  rw [same, if_neg (Nat.not_le.mpr small)]
  by_cases whole : IsWhole buffer
  · rw [if_pos whole]
    have fit := fits whole
    have body : messageField 16 4 buffer ≠ 0 := by
      unfold Fits monitorsConfigSize at fit
      omega
    have exact := missing.resolve_left body
    have complete := whole.2
    refine ⟨_, rfl, ?_, fun client => ?_, nofun, nofun, nofun, fun _ => Or.inl ?_⟩
    · intro passed member
      rcases List.mem_append.mp member with old | new
      · exact inv.messages passed old
      · rw [List.mem_singleton.mp new]
        have all : messageField 16 4 buffer = buffer.length - agentMessageSize := by omega
        exact ⟨⟨header, all⟩, fit⟩
    · refine (stream_snoc { reds with writeFilter := filter } mcc client message).trans ((streams client).trans ?_)
      show _ = List.flatMap Passed.message (List.filter _ (reds.passed ++ [{ client := mcc, message := buffer }])) ++ []
      rw [List.append_nil, List.filter_append, List.flatMap_append]
      refine congrArg _ ?_
      by_cases here : mcc = client
      · rw [List.filter_cons_of_pos (by simpa using here), if_pos here]
        simp
      · rw [List.filter_cons_of_neg (by simpa using here), if_neg here]
        rfl
    · show filter.msgDataToRead = 0
      omega
  · rw [if_neg whole]
    have more : messageField 16 4 buffer ≠ 0 ∧ filter.msgDataToRead ≠ 0 ∧
        messageField 16 4 buffer = buffer.length - agentMessageSize + filter.msgDataToRead := by
      unfold IsWhole at whole
      omega
    refine ⟨_, rfl, inv.messages, fun client => ?_, fun _ => ⟨mcc, there, rfl⟩, fun _ => header,
      fun _ => ⟨verdict, more.2⟩, fun empty => ?_⟩
    · refine (stream_snoc { reds with writeFilter := filter } mcc client message).trans ((streams client).trans ?_)
      refine congrArg _ ?_
      simp only [Option.some.injEq]
    · have none : buffer = [] := empty
      rw [none] at header
      exact absurd header (by decide)

/-- A chunk of a client that leaves the message in the making alone. -/
theorem data (inv : Assembling reds) {client : Nat} {message : List UInt8}
    (ok : Undisturbed reds (.data client message)) :
    Exists fun next => reds.onMainAgentData client message = some next ∧ Assembling next := by
  rcases ok with ⟨there, monitors, failed⟩
  unfold RedsState.onMainAgentData
  dsimp only
  by_cases empty : reds.clientMonitorsConfig.buffer = []
  · have own : reds.clientMonitorsConfig.buffer ≠ [] -> reds.clientMonitorsConfig.mcc = some client :=
      fun some => absurd empty some
    by_cases refused : (reds.writeFilter.processData message).2 = .protoError
    · rw [if_neg (by rw [refused]; decide)]
      exact ⟨_, rfl, inv.keep rfl rfl rfl (fun some => absurd empty some) (fun some => absurd empty some)
        (fun _ => failed refused empty)⟩
    · rcases processData_cases _ message refused with ⟨inside, _, result⟩ | ⟨_, header, known, result⟩
      · have other := (inv.idle empty).resolve_left inside
        rw [result, if_neg other]
        exact ⟨_, rfl, inv.keep rfl rfl rfl (fun some => absurd empty some) (fun some => absurd empty some)
          (fun _ => Or.inr other)⟩
      · rw [result]
        dsimp only
        by_cases verdict : reds.writeFilter.typeResult (messageField 4 4 message) = .monitorsConfig
        · rw [if_pos verdict]
          rcases monitors (by rw [result]; exact verdict) with ⟨_, small, fits⟩
          refine inv.monitorsConfig there own small fits ?_ verdict ?_
          · rw [empty]
            exact header
          · rw [empty, List.nil_append]
            dsimp only
            omega
        · rw [if_neg verdict]
          exact ⟨_, rfl, inv.keep rfl rfl rfl (fun some => absurd empty some) (fun some => absurd empty some)
            (fun _ => Or.inr verdict)⟩
  · rcases inv.waits empty with ⟨result, inside, missing⟩
    have header := inv.started empty
    rcases processData_inside inside message with refused | ⟨fits, taken⟩
    · rw [refused, if_neg (fun equal => by cases equal)]
      exact ⟨_, rfl, inv.keep rfl rfl rfl (fun _ _ member _ => member) (fun _ => ⟨rfl, rfl⟩)
        (fun none => absurd none empty)⟩
    · rw [taken, if_pos result]
      rcases monitors (by rw [taken]; exact result) with ⟨own, small, whole⟩
      refine inv.monitorsConfig there own small whole ?_ result (Or.inr ?_)
      · rw [List.length_append]
        omega
      · rw [messageField_append message (by unfold agentMessageSize at header; omega), List.length_append, missing]
        dsimp only
        omega

/-- A disconnect drops what was collected only if nothing was. -/
theorem disconnect (inv : Assembling reds) {client : Nat} (ok : Undisturbed reds (.disconnect client)) :
    Assembling (reds.clientDisconnect client) := by
  have stays : reds.clientMonitorsConfig.buffer ≠ [] -> forall other, other ∈ reds.clients ->
      reds.clientMonitorsConfig.mcc = some other -> other ∈ (reds.clientDisconnect client).clients := by
    intro some other member isOwner
    refine List.mem_filter.mpr ⟨member, decide_eq_true (fun same => ?_)⟩
    exact ok some (same ▸ isOwner)
  refine inv.keep rfl rfl rfl stays (fun some => ?_) (fun none => ?_)
  · rcases inv.owner some with ⟨other, member, isOwner⟩
    have left := stays some other member isOwner
    unfold RedsState.clientDisconnect at left ⊢
    dsimp only at left ⊢
    rw [if_neg (fun all => by rw [all] at left; cases left)]
    exact ⟨rfl, rfl⟩
  · unfold RedsState.clientDisconnect
    dsimp only
    split
    · exact Or.inl rfl
    · exact inv.idle none

/-- A step in order keeps the invariant. -/
theorem step (inv : Assembling reds) {op : Op} (ok : Undisturbed reds op) :
    Exists fun next => reds.step op = some next ∧ Assembling next := by
  cases op with
  | connect client =>
      refine ⟨_, if_neg ok, inv.keep rfl rfl rfl ?_ (fun _ => ⟨rfl, rfl⟩) inv.idle⟩
      exact fun _ _ member _ => List.mem_cons_of_mem client member
  | data client message =>
      have there : client ∈ reds.clients := ok.1
      rcases inv.data ok with ⟨next, done, after⟩
      exact ⟨next, (if_pos there).trans done, after⟩
  | disconnect client => exact ⟨_, rfl, inv.disconnect ok⟩
  | start => exact ⟨_, rfl, inv.keep rfl rfl rfl (fun _ _ member _ => member) (fun _ => ⟨rfl, rfl⟩) inv.idle⟩
  | reset =>
      have none : reds.clientMonitorsConfig.buffer = [] := ok
      exact ⟨_, rfl, inv.keep rfl rfl rfl (fun _ _ member _ => member) (fun some => absurd none some)
        (fun _ => Or.inr nofun)⟩
  | useClientMonitorsConfig use =>
      exact ⟨_, rfl, inv.keep rfl rfl rfl (fun _ _ member _ => member) (fun _ => ⟨rfl, rfl⟩) inv.idle⟩

theorem init (filter : AgentMsgFilter) : Assembling (RedsState.init filter) where
  messages := nofun
  streams _ := rfl
  owner some := absurd rfl some
  started some := absurd rfl some
  waits some := absurd rfl some
  idle _ := Or.inl rfl

end Assembling

/-- In every run whose steps leave messages in the making alone, nothing fails, and in every state
the configurations passed on are the complete messages of the clients, each one once. -/
theorem monitors_config_reassembled (filter : AgentMsgFilter) (ops : List Op)
    (undisturbed : Meets RedsState.step (fun _ => Undisturbed) [] (RedsState.init filter) ops) :
    AllStates RedsState.step (fun _ => Reassembled) [] (RedsState.init filter) ops := by
  have keep : forall (past : List Op) (reds : RedsState) op, Assembling reds -> Undisturbed reds op ->
      Exists fun next => reds.step op = some next ∧ Assembling next := fun _ _ _ inv ok => inv.step ok
  exact allStates_of_meets (fun _ _ inv => inv.reassembled) keep (Assembling.init filter) undisturbed

/-- The conditions that can be evaluated along a run. -/
def checkUndisturbed (reds : RedsState) : Op -> Bool
  | .data client message =>
      let result := reds.writeFilter.processData message
      let buffer := reds.clientMonitorsConfig.buffer
      decide (client ∈ reds.clients) &&
        (result.2 != .monitorsConfig || (buffer.isEmpty || reds.clientMonitorsConfig.mcc == some client) &&
          decide ((buffer ++ message).length < 2 ^ 31) &&
          (!decide (IsWhole (buffer ++ message)) || decide (Fits (buffer ++ message)))) &&
        result.2 != .protoError
  | .disconnect client => reds.clientMonitorsConfig.buffer.isEmpty || reds.clientMonitorsConfig.mcc != some client
  | .reset => reds.clientMonitorsConfig.buffer.isEmpty
  | .connect client => decide (client ∉ reds.clients)
  | _ => true

theorem undisturbed_of_check (_past : List Op) (reds : RedsState) (op : Op)
    (checked : checkUndisturbed reds op = true) :
    Undisturbed reds op := by
  cases op with
  | data client message =>
      simp only [checkUndisturbed, Bool.and_eq_true, Bool.or_eq_true, bne_iff_ne, decide_eq_true_eq, beq_iff_eq,
        List.isEmpty_iff, Bool.not_eq_true', decide_eq_false_iff_not] at checked
      rcases checked with ⟨⟨there, monitors⟩, fine⟩
      refine ⟨there, fun verdict => ?_, fun failed => absurd failed fine⟩
      rcases monitors.resolve_left (not_not.mpr verdict) with ⟨⟨own, small⟩, fits⟩
      exact ⟨fun some => own.resolve_left some, small, fun whole => fits.resolve_left (not_not.mpr whole)⟩
  | disconnect client =>
      simp only [checkUndisturbed, Bool.or_eq_true, List.isEmpty_iff, bne_iff_ne] at checked
      exact fun some => checked.resolve_left some
  | reset => exact List.isEmpty_iff.mp checked
  | connect client =>
      have absent : client ∉ reds.clients := of_decide_eq_true checked
      exact absent
  | start => trivial
  | useClientMonitorsConfig use => trivial

def monitorsFilter : AgentMsgFilter := .init true true false true

def configHeader : List UInt8 :=
  toLittleEndian 4 1 ++ toLittleEndian 4 2 ++ toLittleEndian 8 0 ++ toLittleEndian 4 28

def configBody : List UInt8 := toLittleEndian 4 1 ++ toLittleEndian 4 0 ++ List.replicate 20 7

/-- Two clients send a configuration one after the other, the first one in two chunks. -/
theorem monitors_config_reassembled_two_clients :
    AllStates RedsState.step (fun _ => Reassembled) [] (RedsState.init monitorsFilter)
      [.connect 1, .connect 2, .start, .data 1 configHeader, .data 1 configBody, .data 2 (configHeader ++ configBody),
        .disconnect 1] := by
  refine monitors_config_reassembled monitorsFilter _ (Meets.of_check undisturbed_of_check _ _ _ ?_)
  decide +kernel

/-- A client sends the first chunk of a configuration and leaves.  The configuration of the next one
is put behind it. -/
def leftInside : List Op :=
  [.connect 1, .start, .data 1 configHeader, .disconnect 1, .connect 2, .start, .data 2 (configHeader ++ configBody)]

/-- What is passed on then is no message of the second client. -/
theorem left_bytes_are_mixed :
    ¬ AllStates RedsState.step (fun _ => Reassembled) [] (RedsState.init monitorsFilter) leftInside := by
  intro all
  rcases all leftInside List.prefix_rfl with ⟨final, ran, reassembled⟩
  have facts : (run RedsState.step (RedsState.init monitorsFilter) leftInside).map
      (fun reds => ((reds.stream 2).length, (reds.passedFrom 2).length)) = some (48, 68) := by decide +kernel
  rw [ran] at facts
  rcases reassembled.streams 2 with ⟨rest, stream, _⟩
  have lengths := congrArg List.length stream
  simp only [Option.map_some, Option.some.injEq, Prod.mk.injEq] at facts
  rw [List.length_append, facts.1, facts.2] at lengths
  omega

end MonitorsConfig
end Agent
end Spice
