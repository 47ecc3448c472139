import Spice.Lib.Run

namespace Spice
namespace Migration

open Lib

/-!
# Migration on the target side

A client that connects to the target of a migration is in migration mode.  If
the migration is seamless, every channel client whose channel transfers data
waits for a message with that data, and the client counts those that wait; the
mode ends with the last message.

The counter goes up where the flag of a channel client is set and down where
the message arrives.  A channel client that is destroyed takes its flag with
it, but the counter stays; and nothing keeps the request for a seamless
migration from being made twice.
-/

/-- The part of `RedChannel` that matters: whether `migration_flags` has
`SPICE_MIGRATE_NEED_DATA_TRANSFER`, and whether there is a `handle_migrate_data`. -/
structure RedChannel where
  type : Nat
  id : Nat
  needDataTransfer : Bool
  handleMigrateData : Bool
  deriving DecidableEq, Repr

structure RedChannelClient where
  channel : RedChannel
  connected : Bool
  shutdown : Bool
  waitMigrateData : Bool
  deriving DecidableEq, Repr

/-- `RedClient`.  The newest channel client is first. -/
structure RedClient where
  channels : List RedChannelClient
  channelsNum : Nat
  duringTargetMigrate : Bool
  seamlessMigrate : Bool
  numMigratedChannels : Int
  deriving DecidableEq, Repr

def redClientNew (migrated : Bool) : RedClient where
  channels := []
  channelsNum := 0
  duringTargetMigrate := migrated
  seamlessMigrate := false
  numMigratedChannels := 0

def RedChannelClient.isOf (type id : Nat) (rcc : RedChannelClient) : Bool :=
  rcc.channel.type == type && rcc.channel.id == id

namespace RedClient

variable (client : RedClient)

def getChannel (type id : Nat) : Option RedChannelClient := client.channels.find? (RedChannelClient.isOf type id)

def setChannel (type id : Nat) (change : RedChannelClient -> RedChannelClient) : RedClient :=
  { client with channels := client.channels.map (fun rcc => if rcc.isOf type id then change rcc else rcc) }

/-- What `red_channel_client_set_migration_seamless` adds to the counter. -/
def newlyMigrated (rcc : RedChannelClient) : Int := if rcc.channel.needDataTransfer then 1 else 0

/-- `red_channel_client_set_migration_seamless`, the part in the channel client. -/
def markMigrated (rcc : RedChannelClient) : RedChannelClient :=
  if rcc.channel.needDataTransfer then { rcc with waitMigrateData := true } else rcc

def addChannel (rcc : RedChannelClient) : RedClient :=
  let marked := client.duringTargetMigrate && client.seamlessMigrate
  { client with
    channels := (if marked then markMigrated rcc else rcc) :: client.channels
    numMigratedChannels := client.numMigratedChannels + (if marked then newlyMigrated rcc else 0)
    channelsNum := client.channelsNum + 1 }

/-- `red_channel_client_create` and `red_channel_client_create_dummy`: a second
client of a channel is refused. -/
def create (channel : RedChannel) : RedClient :=
  match client.getChannel channel.type channel.id with
  | some _ => client
  | none => client.addChannel { channel := channel, connected := true, shutdown := false, waitMigrateData := false }

/-- `red_client_set_migration_seamless`.  The assertion is made for each channel client. -/
def setMigrationSeamless : Option RedClient :=
  if client.channels ≠ [] ∧ client.duringTargetMigrate = false then none
  else
    some { client with
      seamlessMigrate := true
      channels := client.channels.map markMigrated
      numMigratedChannels := client.numMigratedChannels + (client.channels.map newlyMigrated).sum }

/-- `red_client_semi_seamless_migrate_complete`; an unexpected call is an error. -/
def semiSeamlessMigrateComplete : Option RedClient :=
  if client.duringTargetMigrate = false ∨ client.seamlessMigrate = true then none
  else some { client with duringTargetMigrate := false }

def seamlessMigrationDone (type id : Nat) : RedClient :=
  let done := client.setChannel type id (fun rcc => { rcc with waitMigrateData := false })
  let left := client.numMigratedChannels - 1
  if left = 0 then
    { done with numMigratedChannels := left, duringTargetMigrate := false, seamlessMigrate := false }
  else { done with numMigratedChannels := left }

/-- `red_channel_handle_migrate_data`.  `accepted` is the answer of the channel. -/
def handleMigrateData (type id : Nat) (accepted : Bool) : Option RedClient :=
  match client.getChannel type id with
  | none => none
  | some rcc =>
      if rcc.connected && !rcc.shutdown then
        if rcc.channel.handleMigrateData then
          if rcc.waitMigrateData && accepted then some (client.seamlessMigrationDone type id)
          else some (client.setChannel type id (fun rcc => { rcc with shutdown := true }))
        else some client
      else none

def disconnect (type id : Nat) : RedClient :=
  client.setChannel type id (fun rcc => { rcc with connected := false })

def destroy (type id : Nat) : Option RedClient :=
  match client.getChannel type id with
  | none => none
  | some _ =>
      let gone := client.disconnect type id
      some { gone with
        channels := gone.channels.filter (fun rcc => !rcc.isOf type id)
        channelsNum := gone.channelsNum - 1 }

end RedClient

/-- What happens to a client.  Channels are named by type and id. -/
inductive Op
  | create (channel : RedChannel)
  | migrateData (type id : Nat) (accepted : Bool)
  | disconnect (type id : Nat)
  | destroy (type id : Nat)
  | setMigrationSeamless
  | semiSeamlessMigrateComplete
  deriving DecidableEq, Repr

def RedClient.step (client : RedClient) : Op -> Option RedClient
  | .create channel => some (client.create channel)
  | .migrateData type id accepted => client.handleMigrateData type id accepted
  | .disconnect type id => some (client.disconnect type id)
  | .destroy type id => client.destroy type id
  | .setMigrationSeamless => client.setMigrationSeamless
  | .semiSeamlessMigrateComplete => client.semiSeamlessMigrateComplete

/-- How many channel clients wait for their data. -/
def RedClient.waiting (client : RedClient) : Nat := client.channels.countP (fun rcc => rcc.waitMigrateData)

/-- The counter counts those that wait, and a seamless migration that was requested ends with the last of them:
both of its flags are cleared. -/
structure Accounted (past : List Op) (client : RedClient) : Prop where
  counted : client.numMigratedChannels = client.waiting
  seamlessEnds : client.waiting = 0 -> client.seamlessMigrate = false
  targetEnds : .setMigrationSeamless ∈ past -> client.waiting = 0 -> client.duringTargetMigrate = false

/-- No channel client is destroyed while it waits; a seamless migration is
requested once, when some channel transfers data. -/
def keepsCount (client : RedClient) : Op -> Bool
  | .destroy type id => client.channels.all (fun rcc => !rcc.isOf type id || !rcc.waitMigrateData)
  | .setMigrationSeamless => !client.seamlessMigrate && client.channels.any (fun rcc => rcc.channel.needDataTransfer)
  | _ => true

/-- The invariant behind `Accounted`: a channel has one client, and nobody waits
unless the migration is seamless. -/
structure Inv (client : RedClient) : Prop where
  counted : client.numMigratedChannels = client.waiting
  ends : client.seamlessMigrate = true -> 0 < client.waiting
  begun : client.seamlessMigrate = false -> client.waiting = 0
  distinct : (client.channels.map (fun rcc => (rcc.channel.type, rcc.channel.id))).Nodup

theorem RedChannelClient.isOf_iff {type id : Nat} {rcc : RedChannelClient} :
    rcc.isOf type id = true <-> (rcc.channel.type, rcc.channel.id) = (type, id) := by
  simp only [isOf, Bool.and_eq_true, beq_iff_eq, Prod.mk.injEq]

namespace RedClient

variable {client : RedClient} {type id : Nat}

theorem setChannel_names (client : RedClient) (type id : Nat) (change : RedChannelClient -> RedChannelClient)
    (keeps : forall rcc, (change rcc).channel = rcc.channel) :
    (client.setChannel type id change).channels.map (fun rcc => (rcc.channel.type, rcc.channel.id)) =
      client.channels.map (fun rcc => (rcc.channel.type, rcc.channel.id)) := by
  simp only [setChannel, List.map_map]
  apply List.map_congr_left
  intro rcc _
  simp only [Function.comp]
  split
  · rw [keeps]
  · rfl

theorem setChannel_waiting (client : RedClient) (type id : Nat) (change : RedChannelClient -> RedChannelClient)
    (keeps : forall rcc, (change rcc).waitMigrateData = rcc.waitMigrateData) :
    (client.setChannel type id change).waiting = client.waiting := by
  simp only [waiting, setChannel, List.countP_map]
  apply List.countP_congr
  intro rcc _
  simp only [Function.comp]
  split
  · rw [keeps]
  · rfl

/-- One client less waits for its data. -/
theorem clear_waiting {channels : List RedChannelClient} {rcc : RedChannelClient}
    (distinct : (channels.map (fun rcc => (rcc.channel.type, rcc.channel.id))).Nodup)
    (found : channels.find? (RedChannelClient.isOf type id) = some rcc) (waits : rcc.waitMigrateData = true) :
    (channels.map (fun rcc => if rcc.isOf type id then { rcc with waitMigrateData := false } else rcc)).countP
        (fun rcc => rcc.waitMigrateData) + 1 =
      channels.countP (fun rcc => rcc.waitMigrateData) := by
  induction channels with
  | nil => cases found
  | cons head others ih =>
      simp only [List.map_cons, List.nodup_cons] at distinct
      cases isIt : head.isOf type id with
      | true =>
          rw [List.find?_cons_of_pos isIt] at found
          cases found
          have same : others.map (fun rcc => if rcc.isOf type id then { rcc with waitMigrateData := false } else rcc) =
              others := by
            conv =>
              rhs
              rw [← List.map_id others]
            apply List.map_congr_left
            intro other member
            rw [if_neg]
            · rfl
            · intro alsoIt
              refine distinct.1 (List.mem_map.mpr ⟨other, member, ?_⟩)
              exact (RedChannelClient.isOf_iff.mp alsoIt).trans (RedChannelClient.isOf_iff.mp isIt).symm
          rw [List.map_cons, same, if_pos isIt, List.countP_cons_of_neg (by simp), List.countP_cons_of_pos waits]
      | false =>
          rw [List.find?_cons_of_neg (by rw [isIt]; exact Bool.false_ne_true)] at found
          have rest := ih distinct.2 found
          rw [List.map_cons, isIt, if_neg Bool.false_ne_true, List.countP_cons, List.countP_cons]
          omega

/-- All that transfer data wait. -/
theorem marked_waiting {channels : List RedChannelClient}
    (none : channels.countP (fun rcc => rcc.waitMigrateData) = 0) :
    ((channels.map markMigrated).countP (fun rcc => rcc.waitMigrateData) : Int) = (channels.map newlyMigrated).sum := by
  induction channels with
  | nil => rfl
  | cons head others ih =>
      rw [List.countP_cons] at none
      have rest := ih (by omega)
      rw [List.map_cons, List.map_cons, List.countP_cons, List.sum_cons, Int.natCast_add, rest, Int.add_comm]
      congr 1
      unfold markMigrated newlyMigrated
      cases needs : head.channel.needDataTransfer with
      | true => rfl
      | false =>
          simp only [Bool.false_eq_true, if_false]
          split
          · next waits =>
              rw [if_pos waits] at none
              omega
          · rfl

theorem any_marked {channels : List RedChannelClient}
    (any : channels.any (fun rcc => rcc.channel.needDataTransfer) = true) :
    0 < (channels.map markMigrated).countP (fun rcc => rcc.waitMigrateData) := by
  rcases List.any_eq_true.mp any with ⟨rcc, member, needs⟩
  refine List.countP_pos_iff.mpr ⟨markMigrated rcc, List.mem_map_of_mem member, ?_⟩
  simp only [markMigrated, needs, if_true]

end RedClient

namespace Inv

variable {client next : RedClient} {type id : Nat}

theorem redClientNew (migrated : Bool) : Inv (redClientNew migrated) where
  counted := rfl
  ends := fun absent => by cases absent
  begun := fun _ => rfl
  distinct := List.nodup_nil

/-- A channel that is created during a migration waits with the others. -/
theorem create (inv : Inv client) (channel : RedChannel) : Inv (client.create channel) := by
  unfold RedClient.create
  split
  · exact inv
  · next fresh =>
      have apart : (channel.type, channel.id) ∉ client.channels.map
          (fun rcc => (rcc.channel.type, rcc.channel.id)) := by
        intro member
        rcases List.mem_map.mp member with ⟨rcc, isThere, same⟩
        exact List.find?_eq_none.mp fresh rcc isThere (RedChannelClient.isOf_iff.mpr same)
      have counted := inv.counted
      unfold RedClient.addChannel
      cases marked : client.duringTargetMigrate && client.seamlessMigrate with
      | true =>
          have seamless : client.seamlessMigrate = true := (Bool.and_eq_true_iff.mp marked).2
          have positive := inv.ends seamless
          simp only [if_true]
          refine ⟨?_, fun _ => ?_, fun not => ?_, ?_⟩
          · simp only [RedClient.waiting, List.countP_cons, RedClient.markMigrated,
              RedClient.newlyMigrated] at counted ⊢
            cases channel.needDataTransfer with
            | true =>
                simp only [if_true]
                omega
            | false =>
                simp only [Bool.false_eq_true, if_false]
                omega
          · simp only [RedClient.waiting, List.countP_cons] at positive ⊢
            omega
          · rw [seamless] at not
            cases not
          · simp only [RedClient.markMigrated]
            split <;> exact List.nodup_cons.mpr ⟨apart, inv.distinct⟩
      | false =>
          simp only [Bool.false_eq_true, if_false, Int.add_zero]
          have same : forall rest, RedClient.waiting { client with
              channels := ⟨channel, true, false, false⟩ :: client.channels, channelsNum := rest } = client.waiting := by
            intro rest
            simp only [RedClient.waiting]
            exact List.countP_cons_of_neg (by simp)
          exact ⟨by rw [same]; exact counted, fun seamless => by rw [same]; exact inv.ends seamless,
            fun plain => by rw [same]; exact inv.begun plain, List.nodup_cons.mpr ⟨apart, inv.distinct⟩⟩

theorem setChannel (inv : Inv client) (change : RedChannelClient -> RedChannelClient)
    (channel : forall rcc, (change rcc).channel = rcc.channel)
    (flag : forall rcc, (change rcc).waitMigrateData = rcc.waitMigrateData) :
    Inv (client.setChannel type id change) := by
  have same := RedClient.setChannel_waiting client type id change flag
  exact ⟨by rw [same]; exact inv.counted, fun seamless => by rw [same]; exact inv.ends seamless,
    fun plain => by rw [same]; exact inv.begun plain,
    by rw [RedClient.setChannel_names client type id change channel]; exact inv.distinct⟩

/-- The last channel that is done ends the migration of the client. -/
theorem seamlessMigrationDone (inv : Inv client) {rcc : RedChannelClient} (found : client.getChannel type id = some rcc)
    (waits : rcc.waitMigrateData = true) : Inv (client.seamlessMigrationDone type id) := by
  have fewer := RedClient.clear_waiting inv.distinct found waits
  have counted := inv.counted
  have positive : client.seamlessMigrate = true := by
    cases seamless : client.seamlessMigrate with
    | true => rfl
    | false =>
        have none := inv.begun seamless
        unfold RedClient.waiting at none
        omega
  have distinct := RedClient.setChannel_names client type id
    (fun rcc => { rcc with waitMigrateData := false }) (fun _ => rfl)
  unfold RedClient.seamlessMigrationDone
  simp only
  split
  · next last =>
      refine ⟨?_, fun absent => (by cases absent), fun _ => ?_, by rw [distinct]; exact inv.distinct⟩
      · simp only [RedClient.waiting, RedClient.setChannel] at counted ⊢
        omega
      · simp only [RedClient.waiting, RedClient.setChannel] at counted ⊢
        omega
  · next more =>
      refine ⟨?_, fun _ => ?_, fun plain => ?_, by rw [distinct]; exact inv.distinct⟩
      · simp only [RedClient.waiting, RedClient.setChannel] at counted ⊢
        omega
      · simp only [RedClient.waiting, RedClient.setChannel] at counted ⊢
        omega
      · exact absurd (positive.symm.trans plain) (by decide)

/-- Data that is handled is not waited for any more. -/
theorem handleMigrateData (inv : Inv client) {accepted : Bool}
    (done : client.handleMigrateData type id accepted = some next) : Inv next := by
  unfold RedClient.handleMigrateData at done
  split at done
  · cases done
  · next rcc found =>
      split at done
      · split at done
        · split at done
          · next both =>
              cases done
              exact inv.seamlessMigrationDone found (Bool.and_eq_true_iff.mp both).1
          · cases done
            exact inv.setChannel _ (fun _ => rfl) (fun _ => rfl)
        · cases done
          exact inv
      · cases done

/-- A channel that is destroyed did not wait. -/
theorem destroy (inv : Inv client) (idle : keepsCount client (.destroy type id) = true)
    (done : client.destroy type id = some next) : Inv next := by
  have gone : Inv (client.disconnect type id) := inv.setChannel _ (fun _ => rfl) (fun _ => rfl)
  unfold RedClient.destroy at done
  split at done
  · cases done
  · cases done
    have same : ((client.disconnect type id).channels.filter (fun rcc => !rcc.isOf type id)).countP
        (fun rcc => rcc.waitMigrateData) = (client.disconnect type id).waiting := by
      rw [List.countP_filter]
      refine List.countP_congr (fun rcc member => ?_)
      rcases List.mem_map.mp member with ⟨old, oldMember, result⟩
      have quiet := List.all_eq_true.mp idle old oldMember
      rw [← result]
      split
      · next isIt =>
          rw [isIt] at quiet
          simp only [Bool.not_true, Bool.false_or, Bool.not_eq_true'] at quiet
          simp only [quiet, Bool.false_and]
      · next other =>
          simp only [other, Bool.not_false, Bool.and_true]
    refine ⟨?_, fun seamless => ?_, fun plain => ?_, ?_⟩
    · simp only [RedClient.waiting, same]
      exact gone.counted
    · simp only [RedClient.waiting, same]
      exact gone.ends seamless
    · simp only [RedClient.waiting, same]
      exact gone.begun plain
    · exact gone.distinct.sublist (List.filter_sublist.map _)

/-- The migration of the client starts with all that transfer data. -/
theorem setMigrationSeamless (inv : Inv client) (first : keepsCount client .setMigrationSeamless = true)
    (done : client.setMigrationSeamless = some next) : Inv next := by
  simp only [keepsCount, Bool.and_eq_true, Bool.not_eq_true'] at first
  have none := inv.begun first.1
  have counted := inv.counted
  have marked := RedClient.marked_waiting none
  unfold RedClient.setMigrationSeamless at done
  split at done
  · cases done
  · cases done
    refine ⟨?_, fun _ => RedClient.any_marked first.2, fun absent => (by cases absent), ?_⟩
    · simp only [RedClient.waiting, marked]
      omega
    · have names : (client.channels.map RedClient.markMigrated).map (fun rcc => (rcc.channel.type, rcc.channel.id)) =
          client.channels.map (fun rcc => (rcc.channel.type, rcc.channel.id)) := by
        rw [List.map_map]
        apply List.map_congr_left
        intro rcc _
        simp only [Function.comp, RedClient.markMigrated]
        split <;> rfl
      simp only [names]
      exact inv.distinct

/-- Every operation keeps the count. -/
theorem step (inv : Inv client) {op : Op} (keeps : keepsCount client op = true) (done : client.step op = some next) :
    Inv next := by
  cases op with
  | create channel =>
      cases done
      exact inv.create channel
  | migrateData type id accepted => exact inv.handleMigrateData done
  | disconnect type id =>
      cases done
      exact inv.setChannel _ (fun _ => rfl) (fun _ => rfl)
  | destroy type id => exact inv.destroy keeps done
  | setMigrationSeamless => exact inv.setMigrationSeamless keeps done
  | semiSeamlessMigrateComplete =>
      simp only [RedClient.step, RedClient.semiSeamlessMigrateComplete] at done
      split at done
      · cases done
      · cases done
        exact ⟨inv.counted, inv.ends, inv.begun, inv.distinct⟩

end Inv

/-- The client is in migration mode only while the migration is seamless. -/
def OnlySeamless (client : RedClient) : Prop := client.duringTargetMigrate = true -> client.seamlessMigrate = true

/-- A request for a seamless migration makes it so, and every step keeps it. -/
theorem OnlySeamless.step {client next : RedClient} {op : Op}
    (before : op = .setMigrationSeamless ∨ OnlySeamless client)
    (done : client.step op = some next) : OnlySeamless next := by
  intro target
  cases op with
  | setMigrationSeamless =>
      simp only [RedClient.step, RedClient.setMigrationSeamless] at done
      split at done
      · cases done
      · cases done
        rfl
  | create channel =>
      have only := before.resolve_left Op.noConfusion
      cases done
      revert target
      unfold RedClient.create
      split
      · exact only
      · exact only
  | migrateData type id accepted =>
      have only := before.resolve_left Op.noConfusion
      simp only [RedClient.step, RedClient.handleMigrateData] at done
      split at done
      · cases done
      · split_ifs at done <;> cases done
        · revert target
          unfold RedClient.seamlessMigrationDone
          dsimp only
          split
          · exact fun ended => ended
          · exact only
        · exact only target
        · exact only target
  | disconnect type id =>
      cases done
      exact before.resolve_left Op.noConfusion target
  | destroy type id =>
      have only := before.resolve_left Op.noConfusion
      simp only [RedClient.step, RedClient.destroy] at done
      split at done
      · cases done
      · cases done
        exact only target
  | semiSeamlessMigrateComplete =>
      simp only [RedClient.step, RedClient.semiSeamlessMigrateComplete] at done
      split at done
      · cases done
      · cases done
        cases target

/-- In every run in which no channel client is destroyed while it waits, and a
seamless migration is requested once, the counter is exact and the mode ends
with the last channel client that waits. -/
theorem migration_accounted (migrated : Bool) (ops : List Op) (client : RedClient)
    (keeps : Meets RedClient.step (fun _ client op => keepsCount client op = true) [] (redClientNew migrated) ops)
    (ran : run RedClient.step (redClientNew migrated) ops = some client) : Accounted ops client := by
  have kept : forall (past : List Op) (before : RedClient) (op : Op) (after : RedClient),
      Inv before ∧ (.setMigrationSeamless ∈ past -> OnlySeamless before) -> keepsCount before op = true ->
        before.step op = some after -> Inv after ∧ (.setMigrationSeamless ∈ past ++ [op] -> OnlySeamless after) := by
    intro past before op after both keeps done
    refine ⟨both.1.step keeps done, fun requested => OnlySeamless.step ?_ done⟩
    rcases List.mem_append.mp requested with earlier | now
    · exact .inr (both.2 earlier)
    · exact .inl (List.mem_singleton.mp now).symm
  rcases run_invariant_of_meets kept ops [] _ client
    ⟨Inv.redClientNew migrated, fun none => (by cases none)⟩ keeps ran with
    ⟨inv, only⟩
  have seamless : client.waiting = 0 -> client.seamlessMigrate = false := by
    intro none
    by_contra seamless
    have positive := inv.ends (Bool.not_eq_false _ ▸ seamless)
    omega
  refine ⟨inv.counted, seamless, fun requested none => ?_⟩
  by_contra target
  have still := only requested (Bool.not_eq_false _ ▸ target)
  cases still.symm.trans (seamless none)

/-- The main channel and a port, both with data to transfer. -/
def mainChannel : RedChannel := ⟨1, 0, true, true⟩

def portChannel : RedChannel := ⟨10, 0, true, true⟩

/-- Both channels get their data, and the port is destroyed later. -/
def wholeMigration : List Op :=
  [.create mainChannel, .setMigrationSeamless, .create portChannel, .migrateData 10 0 true, .disconnect 10 0,
    .destroy 10 0, .migrateData 1 0 true]

theorem migration_accounted_whole :
    Exists fun client => run RedClient.step (redClientNew true) wholeMigration = some client ∧
      client.duringTargetMigrate = false ∧ Accounted wholeMigration client := by
  have final : (run RedClient.step (redClientNew true) wholeMigration).map (fun client => client.duringTargetMigrate) =
      some false := by decide
  rcases Option.map_eq_some_iff.mp final with ⟨client, ran, ended⟩
  have met : checkRun RedClient.step keepsCount (redClientNew true) wholeMigration = true := by decide
  exact ⟨client, ran, ended, migration_accounted true wholeMigration client
    (Meets.of_check (fun _ _ _ checked => checked) _ _ _ met) ran⟩

/-- The port is lost while it waits; the data of the main channel does not end
the migration. -/
def portLost : List Op :=
  [.create mainChannel, .setMigrationSeamless, .create portChannel, .disconnect 10 0, .destroy 10 0,
    .migrateData 1 0 true]

theorem lost_channel_stays_counted : Not (forall (migrated : Bool) (ops : List Op) (client : RedClient),
      run RedClient.step (redClientNew migrated) ops = some client -> Accounted ops client) := by
  intro claim
  have final : (run RedClient.step (redClientNew true) portLost).map (fun client =>
      (client.waiting, client.numMigratedChannels)) = some (0, 1) := by decide
  rcases Option.map_eq_some_iff.mp final with ⟨client, ran, counts⟩
  have counted := (claim true portLost client ran).counted
  rw [(Prod.mk.inj counts).1, (Prod.mk.inj counts).2] at counted
  exact absurd counted (by decide)

end Migration
end Spice
