import Spice.Lib.Run
import Mathlib.Data.List.Nodup
import Mathlib.Data.List.Perm.Basic

namespace Spice
namespace Link
namespace MigTarget

open Lib

/-!
# The target of a migration

A main link with a connection id announces a client that migrates in.  The channels it
links are kept until it is known how the migration goes on: a seamless one activates them
with the message of the handshake, the other one when the client says that it has ended.
Which of the two it is stands in a flag of the server.

Clients and links have numbers.  A link is pending, or its channel is activated, or its
stream and its message are released.
-/

abbrev ChannelId : Type := Nat × Nat

structure Setup where
  allowMultipleClients : Bool
  available : ChannelId -> Bool
  needsDataTransfer : ChannelId -> Bool

def migrationProtocolVersion : Nat := 1

def mainChannel : ChannelId := (1, 0)

structure ChannelClient where
  channel : ChannelId
  waitMigrateData : Bool

structure RedClient where
  number : Nat
  connectionId : Nat
  semiSeamless : Bool
  duringTargetMigrate : Bool
  seamlessMigrate : Bool
  channels : List ChannelClient
  numMigratedChannels : Int

structure PendingLink where
  number : Nat
  channel : ChannelId

structure RedsMigTargetClient where
  client : Nat
  pendingLinks : List PendingLink

/-- The state of the server.  `joined` has the clients whose pending channels were activated. -/
@[ext]
structure Reds where
  clients : List RedClient
  migTargetClients : List RedsMigTargetClient
  dstDoSeamlessMigrate : Bool
  allocated : Nat
  linked : Nat
  joined : List Nat
  activated : List Nat
  released : List Nat

def init : Reds := ⟨[], [], false, 0, 0, [], [], []⟩

section Server

variable (setup : Setup)

namespace RedClient

/-- `red_client_add_channel`, after a channel that the client already has was refused. -/
def addChannel (client : RedClient) (channel : ChannelId) : RedClient :=
  if channel ∈ client.channels.map ChannelClient.channel then client
  else
    let waits := client.duringTargetMigrate && client.seamlessMigrate && setup.needsDataTransfer channel
    { client with
      channels := ⟨channel, waits⟩ :: client.channels
      numMigratedChannels := client.numMigratedChannels + if waits then 1 else 0 }

/-- `red_client_set_migration_seamless`, with its assertion for every channel. -/
def setMigrationSeamless (client : RedClient) : Option RedClient :=
  if client.channels = [] ∨ client.duringTargetMigrate = true then
    some { client with
      seamlessMigrate := true
      channels := client.channels.map fun rcc =>
        ⟨rcc.channel, setup.needsDataTransfer rcc.channel || rcc.waitMigrateData⟩
      numMigratedChannels := client.numMigratedChannels +
        client.channels.countP fun rcc => setup.needsDataTransfer rcc.channel }
  else none

/-- `red_channel_client_seamless_migration_done`, of a channel that waited for its data. -/
def seamlessMigrationDone (client : RedClient) (channel : ChannelId) : RedClient :=
  if ⟨channel, true⟩ ∈ client.channels.map fun rcc => (rcc.channel, rcc.waitMigrateData) then
    let left := client.numMigratedChannels - 1
    { client with
      channels := client.channels.map fun rcc => ⟨rcc.channel, rcc.waitMigrateData && rcc.channel ≠ channel⟩
      numMigratedChannels := left
      duringTargetMigrate := client.duringTargetMigrate && left ≠ 0
      seamlessMigrate := client.seamlessMigrate && left ≠ 0 }
  else client

end RedClient

namespace Reds

variable (reds : Reds)

def findClient (number : Nat) : Option RedClient := reds.clients.find? fun client => client.number = number

def byLinkId (connectionId : Nat) : Option RedClient :=
  reds.clients.find? fun client => client.connectionId = connectionId

def change (number : Nat) (changed : RedClient -> RedClient) : Reds :=
  { reds with
    clients := reds.clients.map fun client => if client.number = number then changed client else client }

def migTargetClient (number : Nat) : Option RedsMigTargetClient :=
  reds.migTargetClients.find? fun target => target.client = number

def addPendingLink (number : Nat) (link : PendingLink) : Reds :=
  { reds with
    migTargetClients := reds.migTargetClients.map fun target =>
      if target.client = number then { target with
        pendingLinks := link :: target.pendingLinks } else target }

/-- `reds_mig_target_client_free`, which frees the list of links, but not what is in it. -/
def freeMigTarget (number : Nat) : Reds :=
  { reds with
    migTargetClients := reds.migTargetClients.eraseP fun target => target.client = number }

def disconnect (number : Nat) : Reds :=
  { reds.freeMigTarget number with
    clients := reds.clients.filter fun client => client.number ≠ number }

/-- `reds_disconnect`. -/
def disconnectAll : Reds := (reds.clients.map RedClient.number).foldl disconnect reds

end Reds

/-- `reds_handle_main_link`; `random` is the id of a client that has none. -/
def handleMainLink (reds : Reds) (connectionId random : Nat) (semiSeamless : Bool) : Reds :=
  let reds := if setup.allowMultipleClients then reds else reds.disconnectAll
  let migTarget : Bool := connectionId ≠ 0
  let client := RedClient.addChannel setup
    ⟨reds.allocated, if migTarget then connectionId else random, semiSeamless, migTarget, false, [], 0⟩ mainChannel
  { reds with
    clients := client :: reds.clients
    allocated := reds.allocated + 1
    migTargetClients := if migTarget then ⟨reds.allocated, []⟩ :: reds.migTargetClients else reds.migTargetClients }

/-- `reds_link_mig_target_channels`, and whether there was something to link. -/
def linkMigTargetChannels (reds : Reds) (number : Nat) : Reds × Bool :=
  match reds.migTargetClient number with
  | none => (reds, false)
  | some target =>
      let links := target.pendingLinks.filter fun link => setup.available link.channel
      let reds := reds.change number fun client =>
        links.foldl (fun client link => client.addChannel setup link.channel) client
      ({ reds.freeMigTarget number with
        joined := number :: reds.joined
        activated := links.map PendingLink.number ++ reds.activated }, true)

def migrateDstSetSeamless (reds : Reds) (client : RedClient) (srcVersion : Nat) : Option Reds :=
  if setup.allowMultipleClients = true ∨ srcVersion > migrationProtocolVersion then
    some { reds with
      dstDoSeamlessMigrate := false }
  else
    match client.setMigrationSeamless setup with
    | none => none
    | some seamless =>
        let linked := linkMigTargetChannels setup (reds.change client.number fun _ => seamless) client.number
        some { linked.1 with
          dstDoSeamlessMigrate := linked.2 }

/-- `main_channel_client_handle_migrate_end`, with `red_client_semi_seamless_migrate_complete`. -/
def handleMigrateEnd (reds : Reds) (client : RedClient) : Option Reds :=
  if client.duringTargetMigrate = true ∧ client.semiSeamless = true then
    if client.seamlessMigrate = true then none
    else
      let reds := reds.change client.number fun client => { client with
        duringTargetMigrate := false }
      some (linkMigTargetChannels setup reds client.number).1
  else some reds

/-- `reds_handle_other_links`; a link that is refused is freed. -/
def handleOtherLinks (reds : Reds) (connectionId : Nat) (channel : ChannelId) : Option Reds :=
  match reds.byLinkId connectionId, setup.available channel with
  | some client, true =>
      if client.duringTargetMigrate = true ∧ reds.dstDoSeamlessMigrate = false then
        match reds.migTargetClient client.number with
        | none => none
        | some _ =>
            some { reds.addPendingLink client.number ⟨reds.linked, channel⟩ with
              linked := reds.linked + 1 }
      else
        match reds.migTargetClient client.number with
        | some _ => none
        | none =>
            some { reds.change client.number fun client => client.addChannel setup channel with
              linked := reds.linked + 1
              activated := reds.linked :: reds.activated }
  | _, _ =>
      some { reds with
        linked := reds.linked + 1
        released := reds.linked :: reds.released }

inductive Op
  | mainLink (connectionId random : Nat) (semiSeamless : Bool)
  | otherLink (connectionId : Nat) (channel : ChannelId)
  | doSeamless (client srcVersion : Nat)
  | migrateEnd (client : Nat)
  | migrateData (client : Nat) (channel : ChannelId)
  | disconnect (client : Nat)

/-- A step of the server.  A client that is gone sends nothing more. -/
def step (reds : Reds) : Op -> Option Reds
  | .mainLink connectionId random semiSeamless => some (handleMainLink setup reds connectionId random semiSeamless)
  | .otherLink connectionId channel => handleOtherLinks setup reds connectionId channel
  | .doSeamless number srcVersion =>
      match reds.findClient number with
      | none => some reds
      | some client => migrateDstSetSeamless setup reds client srcVersion
  | .migrateEnd number =>
      match reds.findClient number with
      | none => some reds
      | some client => handleMigrateEnd setup reds client
  | .migrateData number channel => some (reds.change number fun client => client.seamlessMigrationDone channel)
  | .disconnect number => some (reds.disconnect number)

end Server

/-! ## What should hold -/

namespace Reds

/-- The links that wait for the activation of a client. -/
def pending (reds : Reds) : List Nat :=
  reds.migTargetClients.flatMap fun target => target.pendingLinks.map PendingLink.number

/-- There is a target for each client that migrates in and whose channels were not activated, and each link is pending,
or activated once, or released once. -/
structure Sound (reds : Reds) : Prop where
  targets : forall number, number ∈ reds.migTargetClients.map RedsMigTargetClient.client <->
    Exists fun client => client ∈ reds.clients ∧ client.number = number ∧ client.duringTargetMigrate = true ∧
      number ∉ reds.joined
  links : forall link, reds.pending.count link + reds.activated.count link + reds.released.count link =
    if link < reds.linked then 1 else 0

/-- The flag tells of a client that links whether its channels are activated; a seamless migration begins while the
client migrates in, and another one ends that is not seamless; and a client that goes away has no pending links. -/
def Kept (setup : Setup) (reds : Reds) : Op -> Prop
  | .mainLink _ _ _ => setup.allowMultipleClients = false -> reds.pending = []
  | .otherLink connectionId channel =>
      forall client, reds.byLinkId connectionId = some client -> setup.available channel = true ->
      client.duringTargetMigrate = true -> (reds.dstDoSeamlessMigrate = true <-> client.number ∈ reds.joined)
  | .doSeamless number srcVersion =>
      forall client, reds.findClient number = some client -> setup.allowMultipleClients = false ->
      srcVersion ≤ migrationProtocolVersion -> client.duringTargetMigrate = true
  | .migrateEnd number => forall client, reds.findClient number = some client -> client.duringTargetMigrate = true ->
      client.semiSeamless = true -> client.seamlessMigrate = false
  | .migrateData _ _ => True
  | .disconnect number => forall target, reds.migTargetClient number = some target -> target.pendingLinks = []

end Reds

/-! ## The targets -/

/-- What holds of a client, by the clients that have a target and those that joined. -/
structure RedClient.Ok (client : RedClient) (targets joined : List Nat) : Prop where
  channels : client.channels ≠ []
  target : client.number ∈ targets <-> client.duringTargetMigrate = true ∧ client.number ∉ joined
  waits : forall rcc, rcc ∈ client.channels -> rcc.waitMigrateData = true -> client.number ∈ joined

variable {changed : RedClient -> RedClient} {target : RedsMigTargetClient}

namespace Reds

variable (reds : Reds)

def targets : List Nat := reds.migTargetClients.map RedsMigTargetClient.client

structure Inv (setup : Setup) : Prop where
  numbers : (reds.clients.map RedClient.number).Nodup
  known : forall client, client ∈ reds.clients -> client.number < reds.allocated
  joinedKnown : forall number, number ∈ reds.joined -> number < reds.allocated
  ok : forall client, client ∈ reds.clients -> client.Ok reds.targets reds.joined
  once : reds.targets.Nodup
  live : forall number, number ∈ reds.targets -> number ∈ reds.clients.map RedClient.number
  available : forall target, target ∈ reds.migTargetClients -> forall link, link ∈ target.pendingLinks ->
    setup.available link.channel = true
  links : forall link, reds.pending.count link + reds.activated.count link + reds.released.count link =
    if link < reds.linked then 1 else 0

variable {reds}

theorem Inv.sound {setup : Setup} (inv : reds.Inv setup) : reds.Sound where
  targets := fun number => by
    constructor
    · intro member
      rcases List.mem_map.mp (inv.live number member) with ⟨client, isClient, rfl⟩
      exact ⟨client, isClient, rfl, ((inv.ok client isClient).target).mp member⟩
    · rintro ⟨client, isClient, rfl, migrates⟩
      exact ((inv.ok client isClient).target).mpr migrates
  links := inv.links

theorem migTargetClient_eq_none {number : Nat} : reds.migTargetClient number = none <-> number ∉ reds.targets := by
  unfold migTargetClient targets
  rw [List.find?_eq_none, List.mem_map]
  simp only [decide_eq_true_eq, not_exists, not_and]

theorem migTargetClient_eq_some {number : Nat} (found : reds.migTargetClient number = some target) :
    target ∈ reds.migTargetClients ∧ target.client = number :=
  ⟨List.mem_of_find?_eq_some found, by simpa using List.find?_some found⟩

theorem targets_free (number : Nat) : (reds.freeMigTarget number).targets = reds.targets.erase number := by
  unfold targets freeMigTarget
  dsimp only
  rw [List.erase_eq_eraseP, List.eraseP_map]
  refine congrArg (List.map RedsMigTargetClient.client)
    (congrArg (fun found => List.eraseP found _) (funext fun target => ?_))
  exact decide_eq_decide.mpr eq_comm

/-- What is freed and what is left are the targets there were. -/
theorem perm_free {number : Nat} (found : reds.migTargetClient number = some target) :
    (target :: (reds.freeMigTarget number).migTargetClients).Perm reds.migTargetClients := by
  unfold migTargetClient at found
  rcases List.find?_eq_some_iff_append.mp found with ⟨isTarget, before, after, split, others⟩
  unfold freeMigTarget
  dsimp only
  rw [split, List.eraseP_append_right _ fun other member => by simpa using others other member, List.eraseP_cons,
    isTarget, cond_true]
  exact List.perm_middle.symm

theorem count_free {number : Nat} (found : reds.migTargetClient number = some target) (link : Nat) :
    reds.pending.count link = (target.pendingLinks.map PendingLink.number).count link +
      (reds.freeMigTarget number).pending.count link := by
  have same := ((perm_free found).flatMap_right fun target => target.pendingLinks.map PendingLink.number).count_eq link
  rw [List.flatMap_cons, List.count_append] at same
  exact same.symm

theorem free_of_none {number : Nat} (absent : number ∉ reds.targets) : reds.freeMigTarget number = reds := by
  have same : (reds.migTargetClients.eraseP fun target => target.client = number) = reds.migTargetClients := by
    refine List.eraseP_of_forall_not fun target member isTarget => ?_
    exact absent (List.mem_map.mpr ⟨target, member, of_decide_eq_true isTarget⟩)
  unfold freeMigTarget
  rw [same]

theorem targets_addPendingLink (number : Nat) (link : PendingLink) :
    (reds.addPendingLink number link).targets = reds.targets := by
  unfold targets addPendingLink
  dsimp only
  rw [List.map_map]
  refine List.map_congr_left fun target _ => ?_
  rw [Function.comp_apply]
  split <;> rfl

/-- A link is pending once more. -/
theorem count_addPendingLink {number : Nat} (once : reds.targets.Nodup) (member : number ∈ reds.targets)
    (link : PendingLink)
    (other : Nat) : (reds.addPendingLink number link).pending.count other = reds.pending.count other + if other =
      link.number then 1 else 0 := by
  unfold targets at once member
  unfold addPendingLink pending
  dsimp only
  generalize reds.migTargetClients = targets at once member
  induction targets with
  | nil => contradiction
  | cons target rest ih =>
      rw [List.map_cons, List.nodup_cons] at once
      rw [List.map_cons, List.flatMap_cons, List.flatMap_cons, List.count_append, List.count_append]
      by_cases isTarget : target.client = number
      · subst isTarget
        have same : (rest.map fun other => if other.client = target.client then { other with
            pendingLinks := link :: other.pendingLinks } else other) = rest := by
          refine (List.map_congr_left fun other member => if_neg fun isTarget => ?_).trans (List.map_id' rest)
          exact once.1 (List.mem_map.mpr ⟨other, member, isTarget⟩)
        rw [same, if_pos rfl, List.map_cons, List.count_cons]
        rw [if_congr (beq_iff_eq.trans eq_comm) rfl rfl]
        omega
      · have member := (List.mem_cons.mp member).resolve_left fun same => isTarget same.symm
        rw [if_neg isTarget, ih once.2 member, Nat.add_assoc]

theorem numbers_change {number : Nat}
    (same : forall client, client ∈ reds.clients -> client.number = number -> (changed client).number = number) :
    (reds.change number changed).clients.map RedClient.number = reds.clients.map RedClient.number := by
  unfold change
  dsimp only
  rw [List.map_map]
  refine List.map_congr_left fun client member => ?_
  rw [Function.comp_apply]
  split
  next isClient => exact (same client member isClient).trans isClient.symm
  next => rfl

theorem mem_change {number : Nat} {client : RedClient} (member : client ∈ (reds.change number changed).clients) :
    (Exists fun old => old ∈ reds.clients ∧ old.number = number ∧ client = changed old) ∨
      (client ∈ reds.clients ∧ client.number ≠ number) := by
  unfold change at member
  rcases List.mem_map.mp member with ⟨old, isOld, rfl⟩
  split
  next isNumber => exact .inl ⟨old, isOld, isNumber, rfl⟩
  next isOther => exact .inr ⟨isOld, isOther⟩

theorem change_change {number : Nat} {changed again : RedClient -> RedClient}
    (same : forall client, client ∈ reds.clients -> client.number = number -> (changed client).number = number) :
    (reds.change number changed).change number again = reds.change number fun client => again (changed client) := by
  unfold change
  dsimp only
  rw [List.map_map]
  refine congrArg (fun clients => { reds with
    clients := clients }) (List.map_congr_left fun client member => ?_)
  rw [Function.comp_apply]
  by_cases isNumber : client.number = number
  · rw [if_pos isNumber, if_pos isNumber, if_pos (same client member isNumber)]
  · rw [if_neg isNumber, if_neg isNumber, if_neg isNumber]

/-- A change of a client that keeps what holds of it. -/
theorem Inv.change {setup : Setup} (inv : reds.Inv setup) {number : Nat}
    (same : forall client, client ∈ reds.clients -> client.number = number -> (changed client).number = number)
    (isOk : forall client, client ∈ reds.clients -> client.number = number ->
      (changed client).Ok reds.targets reds.joined) :
    (reds.change number changed).Inv setup where
  numbers := (numbers_change same).symm ▸ inv.numbers
  known := fun client member => by
    rcases mem_change member with ⟨old, isOld, isNumber, rfl⟩ | ⟨isOld, _⟩
    · rw [same old isOld isNumber, <- isNumber]
      exact inv.known old isOld
    · exact inv.known client isOld
  joinedKnown := inv.joinedKnown
  ok := fun client member => by
    rcases mem_change member with ⟨old, isOld, isNumber, rfl⟩ | ⟨isOld, _⟩
    · exact isOk old isOld isNumber
    · exact inv.ok client isOld
  once := inv.once
  live := fun other member => (numbers_change same).symm ▸ inv.live other member
  available := inv.available
  links := inv.links

end Reds

namespace RedClient

variable {setup : Setup} (client : RedClient) (channel : ChannelId)

/-- A channel is added to its client. -/
theorem addChannel_spec : (client.addChannel setup channel).number = client.number ∧
    (client.addChannel setup channel).duringTargetMigrate = client.duringTargetMigrate ∧
    (client.addChannel setup channel).channels ≠ [] ∧
    forall rcc, rcc ∈ (client.addChannel setup channel).channels -> rcc.waitMigrateData = true ->
      rcc ∈ client.channels ∨ (client.duringTargetMigrate = true ∧ client.seamlessMigrate = true) := by
  unfold addChannel
  split
  next found =>
    refine ⟨rfl, rfl, fun none_ => ?_, fun rcc member _ => .inl member⟩
    rw [none_] at found
    exact absurd found List.not_mem_nil
  next =>
    refine ⟨rfl, rfl, List.cons_ne_nil _ _, fun rcc member waits => ?_⟩
    rcases List.mem_cons.mp member with rfl | member
    · exact .inr (Bool.and_eq_true_iff.mp (Bool.and_eq_true_iff.mp waits).1)
    · exact .inl member

theorem addChannels_spec (links : List PendingLink) (channels : client.channels ≠ []) :
    (links.foldl (fun client link => client.addChannel setup link.channel) client).number = client.number ∧
      (links.foldl (fun client link => client.addChannel setup link.channel) client).channels ≠ [] := by
  induction links generalizing client with
  | nil => exact ⟨rfl, channels⟩
  | cons link rest ih =>
      rcases @addChannel_spec setup client link.channel with ⟨number, _, nonempty, _⟩
      rcases ih (client.addChannel setup link.channel) nonempty with ⟨same, others⟩
      exact ⟨same.trans number, others⟩

end RedClient

namespace Reds

variable {reds : Reds} {setup : Setup}

theorem Inv.mem_joined (inv : reds.Inv setup) {client : RedClient} (member : client ∈ reds.clients)
    (migrates : client.duringTargetMigrate = true) (absent : client.number ∉ reds.targets) :
    client.number ∈ reds.joined := by
  by_contra notJoined
  exact absent ((inv.ok client member).target.mpr ⟨migrates, notJoined⟩)

/-- A client joins: its target is gone, and its pending links are activated. -/
theorem Inv.joins (inv : reds.Inv setup) (found : reds.migTargetClient target.client = some target)

    (same : forall client, client ∈ reds.clients -> client.number = target.client ->
      (changed client).number = target.client)
    (channels : forall client, client ∈ reds.clients -> client.number = target.client ->
      (changed client).channels ≠ []) :
    Inv { (reds.change target.client changed).freeMigTarget target.client with
      joined := target.client :: reds.joined
      activated := target.pendingLinks.map PendingLink.number ++ reds.activated } setup := by
  have targets : forall number, number ∈ ((reds.change target.client changed).freeMigTarget target.client).targets <->
      number ≠ target.client ∧ number ∈ reds.targets := by
    intro number
    rw [targets_free]
    exact inv.once.mem_erase_iff
  refine ⟨(numbers_change same).symm ▸ inv.numbers, fun client member => ?_, fun number member => ?_,
    fun client member => ?_, ?_,
    fun number member => ?_, fun other member => ?_, fun link => ?_⟩
  · rcases mem_change member with ⟨old, isOld, isNumber, rfl⟩ | ⟨isOld, _⟩
    · rw [same old isOld isNumber, <- isNumber]
      exact inv.known old isOld
    · exact inv.known client isOld
  · rcases List.mem_cons.mp member with rfl | member
    · rcases List.mem_map.mp (inv.live target.client
        (List.mem_map.mpr ⟨target, (migTargetClient_eq_some found).1, rfl⟩))
        with ⟨client, isClient, isNumber⟩
      exact isNumber ▸ inv.known client isClient
    · exact inv.joinedKnown number member
  · rcases mem_change member with ⟨old, isOld, isNumber, rfl⟩ | ⟨isOld, other⟩
    · have isJoined : (changed old).number ∈ target.client :: reds.joined :=
        List.mem_cons.mpr (.inl (same old isOld isNumber))
      refine ⟨channels old isOld isNumber, iff_of_false (fun isTarget => ?_) fun migrates => migrates.2 isJoined,
        fun _ _ _ => isJoined⟩
      exact ((targets _).mp isTarget).1 (same old isOld isNumber)
    · have isOk := inv.ok client isOld
      have joined : client.number ∈ target.client :: reds.joined <-> client.number ∈ reds.joined :=
        List.mem_cons.trans (or_iff_right other)
      refine ⟨isOk.channels, ?_, fun rcc member waits => joined.mpr (isOk.waits rcc member waits)⟩
      exact (targets _).trans ((and_iff_right other).trans
        (isOk.target.trans (and_congr_right' (not_congr joined.symm))))
  · change ((reds.change target.client changed).freeMigTarget target.client).targets.Nodup
    rw [targets_free]
    exact inv.once.erase _
  · exact (numbers_change same).symm ▸ inv.live number ((targets number).mp member).2
  · exact inv.available other (List.mem_of_mem_eraseP member)
  · have before := inv.links link
    rw [count_free found] at before
    rw [List.count_append]
    refine Eq.trans ?_ before
    change (reds.freeMigTarget target.client).pending.count link + (_ + reds.activated.count link) +
      reds.released.count link = _
    omega

/-- The activation of the channels of a client, whatever happened to it before. -/
theorem Inv.linkMigTargetChannels (inv : reds.Inv setup) {number : Nat}
    (same : forall client, client ∈ reds.clients -> client.number = number -> (changed client).number = number)
    (channels : forall client, client ∈ reds.clients -> client.number = number -> (changed client).channels ≠ [])
    (isOk : number ∉ reds.targets -> forall client, client ∈ reds.clients -> client.number = number ->
      (changed client).Ok reds.targets reds.joined) :
    (linkMigTargetChannels setup (reds.change number changed) number).1.Inv setup := by
  unfold MigTarget.linkMigTargetChannels
  have looked : (reds.change number changed).migTargetClient number = reds.migTargetClient number := rfl
  rw [looked]
  cases found : reds.migTargetClient number with
  | none => exact inv.change same (isOk (migTargetClient_eq_none.mp found))
  | some target =>
      rcases migTargetClient_eq_some found with ⟨isTarget, rfl⟩
      have all : target.pendingLinks.filter (fun link => setup.available link.channel) = target.pendingLinks :=
        List.filter_eq_self.mpr (inv.available target isTarget)
      dsimp only
      rw [all, change_change same]
      refine inv.joins found (fun client member isNumber => ?_) fun client member isNumber => ?_
      · exact ((changed client).addChannels_spec target.pendingLinks (channels client member isNumber)).1.trans
          (same client member isNumber)
      · exact ((changed client).addChannels_spec target.pendingLinks (channels client member isNumber)).2

theorem findClient_eq_some {number : Nat} {client : RedClient} (found : reds.findClient number = some client) :
    client ∈ reds.clients ∧ client.number = number :=
  ⟨List.mem_of_find?_eq_some found, by simpa using List.find?_some found⟩

theorem Inv.flag (inv : reds.Inv setup) (flag : Bool) : Inv { reds with dstDoSeamlessMigrate := flag } setup :=
  ⟨inv.numbers, inv.known, inv.joinedKnown, inv.ok, inv.once, inv.live, inv.available, inv.links⟩

/-- The handshake of a seamless migration, from a client that migrates in. -/
theorem Inv.doSeamless (inv : reds.Inv setup) {client : RedClient} (member : client ∈ reds.clients) {srcVersion : Nat}
    (migrates : setup.allowMultipleClients = false -> srcVersion ≤ migrationProtocolVersion ->
      client.duringTargetMigrate = true) :
    Exists fun next => migrateDstSetSeamless setup reds client srcVersion = some next ∧ next.Inv setup := by
  unfold migrateDstSetSeamless
  split
  next => exact ⟨_, rfl, inv.flag false⟩
  next supported =>
    have migrates := migrates (eq_false_of_ne_true fun multiple => supported (.inl multiple))
        (Nat.le_of_not_lt fun new => supported (.inr new))
    have isOk := inv.ok client member
    unfold RedClient.setMigrationSeamless
    rw [if_pos (Or.inr migrates)]
    refine ⟨_, rfl, Inv.flag (inv.linkMigTargetChannels (fun _ _ _ => ?_) (fun _ _ _ => ?_) fun absent _ _ _ => ?_) _⟩
    · rfl
    · exact fun none_ => isOk.channels (List.map_eq_nil_iff.mp none_)
    · exact ⟨fun none_ => isOk.channels (List.map_eq_nil_iff.mp none_), isOk.target,
        fun _ _ _ => @Inv.mem_joined reds setup inv client member migrates absent⟩

theorem Inv.migrateEnd (inv : reds.Inv setup) {client : RedClient}
    (kept : client.duringTargetMigrate = true -> client.semiSeamless = true -> client.seamlessMigrate = false) :
    Exists fun next => handleMigrateEnd setup reds client = some next ∧ next.Inv setup := by
  unfold handleMigrateEnd
  split
  next ends =>
    rw [if_neg (ne_true_of_eq_false (kept ends.1 ends.2))]
    refine ⟨_, rfl, inv.linkMigTargetChannels (fun _ _ isNumber => isNumber)
      (fun other isOther _ => (inv.ok other isOther).channels) ?_⟩
    intro absent other isOther isNumber
    refine ⟨(inv.ok other isOther).channels, iff_of_false (fun isTarget => ?_) fun migrates =>
      Bool.false_ne_true migrates.1, (inv.ok other isOther).waits⟩
    exact absent (isNumber ▸ isTarget)
  next => exact ⟨reds, rfl, inv⟩

/-- The data of a channel, which may be the last. -/
theorem Inv.migrateData (inv : reds.Inv setup) (number : Nat) (channel : ChannelId) :
    (reds.change number fun client => client.seamlessMigrationDone channel).Inv setup := by
  have spec : forall client : RedClient, client ∈ reds.clients ->
      (client.seamlessMigrationDone channel).number = client.number ∧
        (client.seamlessMigrationDone channel).Ok reds.targets reds.joined := by
    intro client member
    have isOk := inv.ok client member
    unfold RedClient.seamlessMigrationDone
    split
    next waits =>
      rcases List.mem_map.mp waits with ⟨rcc, isRcc, same⟩
      have joined := isOk.waits rcc isRcc (congrArg Prod.snd same)
      refine ⟨rfl, fun none_ => isOk.channels (List.map_eq_nil_iff.mp none_),
        iff_of_false (fun isTarget => ?_) fun migrates => migrates.2 joined,
        fun _ _ _ => joined⟩
      exact (isOk.target.mp isTarget).2 joined
    next => exact ⟨rfl, isOk⟩
  exact inv.change (fun client member isNumber => (spec client member).1.trans isNumber) fun client member _ =>
    (spec client member).2

/-- A channel that links, when the flag tells whether the channels of its client are activated. -/
theorem Inv.otherLinks (inv : reds.Inv setup) {connectionId : Nat} {channel : ChannelId}
    (kept : reds.Kept setup (.otherLink connectionId channel)) :
    Exists fun next => handleOtherLinks setup reds connectionId channel = some next ∧ next.Inv setup := by
  unfold handleOtherLinks
  split
  next _ _ client found isAvailable =>
    have member : client ∈ reds.clients := List.mem_of_find?_eq_some found
    have isOk := inv.ok client member
    split
    next waits =>
      have notJoined : client.number ∉ reds.joined := fun joined =>
        absurd ((kept client found isAvailable waits.1).mpr joined) (ne_true_of_eq_false waits.2)
      have isTarget := isOk.target.mpr ⟨waits.1, notJoined⟩
      cases looked : reds.migTargetClient client.number with
      | none => exact absurd isTarget (migTargetClient_eq_none.mp looked)
      | some _ =>
          have targets := @targets_addPendingLink reds client.number ⟨reds.linked, channel⟩
          refine ⟨_, rfl, inv.numbers, inv.known, inv.joinedKnown, fun other isOther => ?_, ?_,
            fun number isNumber => ?_, ?_, fun link => ?_⟩
          · exact targets.symm ▸ inv.ok other isOther
          · exact targets.symm ▸ inv.once
          · exact inv.live number (targets ▸ isNumber)
          · intro target isTarget link isLink
            rcases List.mem_map.mp isTarget with ⟨old, isOld, rfl⟩
            split at isLink
            next =>
              rcases List.mem_cons.mp isLink with rfl | isLink
              · exact isAvailable
              · exact inv.available old isOld link isLink
            next => exact inv.available old isOld link isLink
          · have before := inv.links link
            have added := @count_addPendingLink reds client.number inv.once isTarget ⟨reds.linked, channel⟩ link
            change (reds.addPendingLink client.number ⟨reds.linked, channel⟩).pending.count link +
              reds.activated.count link +
              reds.released.count link = if link < reds.linked + 1 then 1 else 0
            rw [added]
            split at before <;> split <;> split <;> dsimp only at * <;> omega
    next activates =>
      have joined : client.duringTargetMigrate = true -> client.number ∈ reds.joined := fun migrates =>
        (kept client found isAvailable migrates).mp (eq_true_of_ne_false fun flag => activates ⟨migrates, flag⟩)
      have absent : client.number ∉ reds.targets := fun isTarget =>
        (isOk.target.mp isTarget).2 (joined (isOk.target.mp isTarget).1)
      rw [migTargetClient_eq_none.mpr absent]
      have changed : (reds.change client.number fun client => client.addChannel setup channel).Inv setup := by
        refine inv.change (fun other _ isNumber => (@RedClient.addChannel_spec setup other channel).1.trans isNumber)
          fun other isOther isNumber => ?_
        have same : other = client := List.inj_on_of_nodup_map inv.numbers isOther member isNumber
        rcases @RedClient.addChannel_spec setup other channel with ⟨number, migrates, nonempty, waits⟩
        refine ⟨nonempty, ?_, fun rcc isRcc isWaiting => ?_⟩
        · rw [number, migrates]
          exact (inv.ok other isOther).target
        · rw [number]
          rcases waits rcc isRcc isWaiting with old | migrates
          · exact (inv.ok other isOther).waits rcc old isWaiting
          · exact same ▸ joined (same ▸ migrates.1)
      refine ⟨_, rfl, changed.numbers, changed.known, changed.joinedKnown, changed.ok, changed.once, changed.live,
        changed.available, fun link => ?_⟩
      have before := inv.links link
      change reds.pending.count link + (reds.linked :: reds.activated).count link + reds.released.count link =
        if link < reds.linked + 1 then 1 else 0
      rw [List.count_cons, if_congr beq_iff_eq rfl rfl]
      split at before <;> split <;> split <;> omega
  next =>
    refine ⟨_, rfl, inv.numbers, inv.known, inv.joinedKnown, inv.ok, inv.once, inv.live, inv.available, fun link => ?_⟩
    have before := inv.links link
    change reds.pending.count link + reds.activated.count link + (reds.linked :: reds.released).count link =
      if link < reds.linked + 1 then 1 else 0
    rw [List.count_cons, if_congr beq_iff_eq rfl rfl]
    split at before <;> split <;> split <;> omega

/-- A client without pending links goes away. -/
theorem Inv.disconnect (inv : reds.Inv setup) {number : Nat}
    (none_ : forall target, reds.migTargetClient number = some target -> target.pendingLinks = []) :
    (reds.disconnect number).Inv setup := by
  have targets : (reds.disconnect number).targets = reds.targets.erase number := targets_free number
  refine ⟨inv.numbers.sublist (List.filter_sublist.map _), fun client member => ?_, inv.joinedKnown,
    fun client member => ?_,
    targets ▸ inv.once.erase _, fun other member => ?_, fun target member => ?_, fun link => ?_⟩
  · exact inv.known client (List.mem_filter.mp member).1
  · rcases List.mem_filter.mp member with ⟨isClient, other⟩
    have isOk := inv.ok client isClient
    refine ⟨isOk.channels, ?_, isOk.waits⟩
    rw [targets, inv.once.mem_erase_iff, and_iff_right (of_decide_eq_true other)]
    exact isOk.target
  · rw [targets, inv.once.mem_erase_iff] at member
    rcases List.mem_map.mp (inv.live other member.2) with ⟨client, isClient, rfl⟩
    exact List.mem_map.mpr ⟨client, List.mem_filter.mpr ⟨isClient, decide_eq_true member.1⟩, rfl⟩
  · exact inv.available target (List.mem_of_mem_eraseP member)
  · refine Eq.trans ?_ (inv.links link)
    change (reds.freeMigTarget number).pending.count link + _ + _ = _
    cases found : reds.migTargetClient number with
    | none => rw [free_of_none (migTargetClient_eq_none.mp found)]; rfl
    | some target =>
        rw [count_free found, none_ target found, List.map_nil, List.count_nil, Nat.zero_add]
        rfl

/-- What the disconnection of clients leaves. -/
theorem disconnect_spec (numbers : List Nat) (once : reds.targets.Nodup) :
    (numbers.foldl Reds.disconnect reds).clients = reds.clients.filter (fun client => client.number ∉ numbers) ∧
      (forall number, number ∈ (numbers.foldl Reds.disconnect reds).targets <-> number ∈ reds.targets ∧
        number ∉ numbers) ∧
      (numbers.foldl Reds.disconnect reds).dstDoSeamlessMigrate = reds.dstDoSeamlessMigrate ∧
      (numbers.foldl Reds.disconnect reds).allocated = reds.allocated ∧
      (numbers.foldl Reds.disconnect reds).linked = reds.linked ∧
        (numbers.foldl Reds.disconnect reds).joined = reds.joined ∧
      (numbers.foldl Reds.disconnect reds).activated = reds.activated ∧
      (numbers.foldl Reds.disconnect reds).released = reds.released := by
  induction numbers generalizing reds with
  | nil => simp
  | cons first rest ih =>
      have targets : (reds.disconnect first).targets = reds.targets.erase first := targets_free first
      rcases @ih (reds.disconnect first) (targets ▸ once.erase _) with ⟨clients, left, others⟩
      refine ⟨clients.trans ?_, fun number => (left number).trans ?_, others⟩
      · change (reds.clients.filter _).filter _ = _
        rw [List.filter_filter]
        refine List.filter_congr fun client _ => ?_
        rw [Bool.eq_iff_iff]
        simp only [Bool.and_eq_true, decide_eq_true_eq, List.mem_cons, not_or]
        exact and_comm
      · rw [targets, once.mem_erase_iff, List.mem_cons, not_or]
        exact ⟨fun both => ⟨both.1.2, both.1.1, both.2⟩, fun both => ⟨⟨both.2.1, both.1⟩, both.2.2⟩⟩

theorem Inv.disconnectAll (inv : reds.Inv setup) : reds.disconnectAll = { reds with
    clients := []
    migTargetClients := [] } := by
  rcases disconnect_spec (reds.clients.map RedClient.number) inv.once with ⟨clients, left, others⟩
  refine Reds.ext (clients.trans ?_) ?_ others.1 others.2.1 others.2.2.1 others.2.2.2.1 others.2.2.2.2.1
    others.2.2.2.2.2
  · refine List.filter_eq_nil_iff.mpr fun client member isLeft => ?_
    exact of_decide_eq_true isLeft (List.mem_map_of_mem member)
  · refine List.eq_nil_iff_forall_not_mem.mpr fun target member => ?_
    have both := (left target.client).mp (List.mem_map_of_mem member)
    exact both.2 (inv.live _ both.1)

/-- A client comes with its channels. -/
theorem Inv.newClient (inv : reds.Inv setup) {client : RedClient} (number : client.number = reds.allocated)
    (channels : client.channels ≠ []) (waits : forall rcc, rcc ∈ client.channels -> rcc.waitMigrateData = false) :
    Inv { reds with
      clients := client :: reds.clients
      allocated := reds.allocated + 1
      migTargetClients := if client.duringTargetMigrate = true then ⟨reds.allocated, []⟩ :: reds.migTargetClients
        else reds.migTargetClients } setup := by
  have fresh : forall other, other ∈ reds.clients.map RedClient.number -> other < reds.allocated := by
    intro other member
    rcases List.mem_map.mp member with ⟨old, isOld, rfl⟩
    exact inv.known old isOld
  have newTarget : reds.allocated ∉ reds.targets := fun isTarget => Nat.lt_irrefl _ (fresh _ (inv.live _ isTarget))
  have newJoined : reds.allocated ∉ reds.joined := fun isJoined => Nat.lt_irrefl _ (inv.joinedKnown _ isJoined)
  have targets :
      (if client.duringTargetMigrate = true then (⟨reds.allocated, []⟩ : RedsMigTargetClient) :: reds.migTargetClients
      else reds.migTargetClients).map RedsMigTargetClient.client =
        if client.duringTargetMigrate = true then reds.allocated :: reds.targets else reds.targets := by
    split <;> rfl
  have mem_targets : forall other, other ∈ (if client.duringTargetMigrate = true then reds.allocated :: reds.targets
      else reds.targets) <->
      (other = reds.allocated ∧ client.duringTargetMigrate = true) ∨ other ∈ reds.targets := by
    intro other
    split
    next migrates => rw [List.mem_cons, and_iff_left migrates]
    next migrates => simp only [migrates, and_false, false_or, Bool.false_eq_true]
  refine ⟨List.nodup_cons.mpr ⟨fun member => ?_, inv.numbers⟩, fun other member => ?_, fun other member => ?_,
    fun other member => ?_, ?_,
    fun other member => ?_, fun target member link isLink => ?_, fun link => ?_⟩
  · exact absurd (fresh _ member) (number ▸ Nat.lt_irrefl _)
  · rcases List.mem_cons.mp member with rfl | member
    · exact number ▸ Nat.lt_succ_self _
    · exact Nat.lt_succ_of_lt (inv.known other member)
  · exact Nat.lt_succ_of_lt (inv.joinedKnown other member)
  · unfold Reds.targets
    dsimp only
    rw [targets]
    rcases List.mem_cons.mp member with rfl | member
    · refine ⟨channels, ?_, fun rcc isRcc isWaiting => absurd isWaiting (ne_true_of_eq_false (waits rcc isRcc))⟩
      rw [mem_targets, number, or_iff_left newTarget, and_iff_right rfl, and_iff_left newJoined]
    · have isOk := inv.ok other member
      refine ⟨isOk.channels, ?_, isOk.waits⟩
      rw [mem_targets, or_iff_right fun both => Nat.ne_of_lt (inv.known other member) both.1]
      exact isOk.target
  · unfold Reds.targets
    dsimp only
    rw [targets]
    split
    · exact List.nodup_cons.mpr ⟨newTarget, inv.once⟩
    · exact inv.once
  · unfold Reds.targets at member
    dsimp only at member
    rw [targets, mem_targets] at member
    rcases member with ⟨isNew, _⟩ | member
    · exact List.mem_cons.mpr (.inl (isNew.trans number.symm))
    · exact List.mem_cons.mpr (.inr (inv.live other member))
  · dsimp only at member
    split at member
    next =>
      rcases List.mem_cons.mp member with rfl | member
      · exact absurd isLink List.not_mem_nil
      · exact inv.available target member link isLink
    next => exact inv.available target member link isLink
  · refine Eq.trans ?_ (inv.links link)
    refine congrArg (· + _) (congrArg (· + _) ?_)
    unfold pending
    dsimp only
    split <;> rfl

/-- The main channel of a client is linked. -/
theorem Inv.mainLink (inv : reds.Inv setup) (kept : setup.allowMultipleClients = false -> reds.pending = [])
    (connectionId random : Nat) (semiSeamless : Bool) :
    (handleMainLink setup reds connectionId random semiSeamless).Inv setup := by
  have before : (if setup.allowMultipleClients = true then reds else reds.disconnectAll).Inv setup := by
    split
    next => exact inv
    next single =>
      rw [inv.disconnectAll]
      refine ⟨List.nodup_nil, fun _ member => absurd member List.not_mem_nil, inv.joinedKnown,
        fun _ member => absurd member List.not_mem_nil,
        List.nodup_nil, fun _ member => absurd member List.not_mem_nil, fun _ member => absurd member List.not_mem_nil,
          fun link => ?_⟩
      have once := inv.links link
      rw [kept (eq_false_of_ne_true single)] at once
      exact once
  unfold handleMainLink
  dsimp only
  generalize (if setup.allowMultipleClients = true then reds else reds.disconnectAll) = reds at before
  rcases @RedClient.addChannel_spec setup ⟨reds.allocated, if decide (connectionId ≠ 0) = true then connectionId
    else random, semiSeamless,
    decide (connectionId ≠ 0), false, [], 0⟩ mainChannel with ⟨number, migrates, channels, waits⟩
  have added := before.newClient number channels fun rcc member => eq_false_of_ne_true fun isWaiting =>
    (waits rcc member isWaiting).elim List.not_mem_nil fun seamless => Bool.false_ne_true seamless.2
  rw [migrates] at added
  exact added

/-- A message that meets its condition does not end the server, and keeps what holds of it. -/
theorem Inv.step (inv : reds.Inv setup) {op : Op} (kept : reds.Kept setup op) :
    Exists fun next => step setup reds op = some next ∧ next.Inv setup := by
  cases op with
  | mainLink connectionId random semiSeamless => exact ⟨_, rfl, inv.mainLink kept connectionId random semiSeamless⟩
  | otherLink connectionId channel => exact inv.otherLinks kept
  | doSeamless number srcVersion =>
      unfold MigTarget.step
      dsimp only
      cases found : reds.findClient number with
      | none => exact ⟨reds, rfl, inv⟩
      | some client => exact inv.doSeamless (findClient_eq_some found).1 (kept client found)
  | migrateEnd number =>
      unfold MigTarget.step
      dsimp only
      cases found : reds.findClient number with
      | none => exact ⟨reds, rfl, inv⟩
      | some client => exact inv.migrateEnd (kept client found)
  | migrateData number channel => exact ⟨_, rfl, inv.migrateData number channel⟩
  | disconnect number => exact ⟨_, rfl, inv.disconnect kept⟩

/-- Nothing is pending in a list of targets if the links are as before without it. -/
theorem eq_nil_of_count {pending : List Nat} {rest : Nat -> Nat}
    (zero : forall link, pending.count link + rest link = rest link) :
    pending = [] := by
  refine List.eq_nil_iff_forall_not_mem.mpr fun link member => ?_
  have positive := List.count_pos_iff.mpr member
  have zero := zero link
  omega

/-- A step into a sound state has met its condition. -/
theorem Inv.kept (inv : reds.Inv setup) {op : Op} {next : Reds} (stepped : MigTarget.step setup reds op = some next)
    (sound : next.Sound) : reds.Kept setup op := by
  cases op with
  | mainLink connectionId random semiSeamless =>
      intro single
      cases stepped
      refine @eq_nil_of_count _ (fun link => reds.activated.count link + reds.released.count link) fun link => ?_
      have before := inv.links link
      have after := sound.links link
      unfold handleMainLink pending at after
      dsimp only at after
      rw [if_neg (ne_true_of_eq_false single), inv.disconnectAll] at after
      have none_ : (if decide (connectionId ≠ 0) = true then [(⟨reds.allocated, []⟩ : RedsMigTargetClient)]
          else []).flatMap
          (fun target => target.pendingLinks.map PendingLink.number) = [] := by
        split <;> rfl
      rw [none_, List.count_nil] at after
      dsimp only at after
      omega
  | otherLink connectionId channel =>
      intro client found isAvailable migrates
      have isOk := inv.ok client (List.mem_of_find?_eq_some found)
      unfold MigTarget.step handleOtherLinks at stepped
      dsimp only at stepped
      rw [found, isAvailable] at stepped
      dsimp only at stepped
      split at stepped
      next waits =>
        cases looked : reds.migTargetClient client.number with
        | none =>
            rw [looked] at stepped
            contradiction
        | some target =>
            rcases migTargetClient_eq_some looked with ⟨isTarget, same⟩
            have isTarget := isOk.target.mp (List.mem_map.mpr ⟨target, isTarget, same⟩)
            exact iff_of_false (ne_true_of_eq_false waits.2) isTarget.2
      next activates =>
        cases looked : reds.migTargetClient client.number with
        | none =>
            have joined := inv.mem_joined (List.mem_of_find?_eq_some found) migrates (migTargetClient_eq_none.mp looked)
            exact iff_of_true (eq_true_of_ne_false fun flag => activates ⟨migrates, flag⟩) joined
        | some target =>
            rw [looked] at stepped
            contradiction
  | doSeamless number srcVersion =>
      intro client found single known
      have isOk := inv.ok client (findClient_eq_some found).1
      unfold MigTarget.step migrateDstSetSeamless RedClient.setMigrationSeamless at stepped
      dsimp only at stepped
      rw [found] at stepped
      dsimp only at stepped
      rw [if_neg (by rw [single]; exact not_or.mpr ⟨Bool.false_ne_true, Nat.not_lt_of_le known⟩)] at stepped
      by_contra notMigrates
      rw [if_neg (not_or.mpr ⟨isOk.channels, notMigrates⟩)] at stepped
      contradiction
  | migrateEnd number =>
      intro client found migrates semiSeamless
      unfold MigTarget.step handleMigrateEnd at stepped
      dsimp only at stepped
      rw [found] at stepped
      dsimp only at stepped
      rw [if_pos ⟨migrates, semiSeamless⟩] at stepped
      refine eq_false_of_ne_true fun seamless => ?_
      rw [if_pos seamless] at stepped
      contradiction
  | migrateData number channel => trivial
  | disconnect number =>
      intro target found
      cases stepped
      refine List.map_eq_nil_iff.mp (@eq_nil_of_count (target.pendingLinks.map PendingLink.number)
        (fun link => (reds.freeMigTarget number).pending.count link + reds.activated.count link +
          reds.released.count link) fun link => ?_)
      have before := inv.links link
      have after := sound.links link
      rw [count_free found] at before
      change (reds.freeMigTarget number).pending.count link + reds.activated.count link + reds.released.count link =
        if link < reds.linked then 1 else 0 at after
      omega

theorem init_inv : init.Inv setup where
  numbers := List.nodup_nil
  known := fun _ member => absurd member List.not_mem_nil
  joinedKnown := fun _ member => absurd member List.not_mem_nil
  ok := fun _ member => absurd member List.not_mem_nil
  once := List.nodup_nil
  live := fun _ member => absurd member List.not_mem_nil
  available := fun _ member => absurd member List.not_mem_nil
  links := fun _ => rfl

end Reds

/-- The target of migrations is sound all along exactly if the flag of a seamless migration is that of the client that
links, the handshakes come at their time, and no client goes away with links pending. -/
theorem mig_target_iff (setup : Setup) (ops : List Op) :
    AllStates (step setup) (fun _ reds => reds.Sound) [] init ops <->
      Meets (step setup) (fun _ reds op => reds.Kept setup op) [] init ops :=
  @allStates_iff_meets _ _ (step setup) (fun _ reds op => reds.Kept setup op) (fun _ reds => reds.Inv setup)
    (fun _ reds => reds.Sound) (fun _ _ => True) (fun _ _ inv => inv.sound) (fun _ _ _ inv _ kept => inv.step kept)
    (fun _ _ _ _ inv _ stepped sound => inv.kept stepped sound) ops [] init Reds.init_inv fun _ _ _ _ => trivial

/-- After a seamless migration, the first channel of the next client that migrates in ends the server. -/
theorem second_migration_aborts :
    ¬ AllStates (step ⟨false, fun _ => true, fun _ => true⟩) (fun _ reds => reds.Sound) [] init
    [.mainLink 7 0 true, .doSeamless 0 1, .migrateData 0 mainChannel, .disconnect 0, .mainLink 7 0 true,
      .otherLink 7 (2, 0)] := by
  intro sound
  rcases sound _ (List.prefix_refl _) with ⟨final, ran, _⟩
  have aborts : run (step ⟨false, fun _ => true, fun _ => true⟩) init
    [.mainLink 7 0 true, .doSeamless 0 1, .migrateData 0 mainChannel, .disconnect 0, .mainLink 7 0 true,
      .otherLink 7 (2, 0)] = none := rfl
  exact absurd (aborts.symm.trans ran) (Option.some_ne_none _).symm

end MigTarget
end Link
end Spice
