import Spice.Lib.Run

namespace Spice
namespace Inputs
namespace MotionAck

open Lib

/-!
# Acknowledging mouse motion

The client may have a window of motion messages under way, and the server acknowledges a
bunch of them at a time.  Each inputs client counts the messages of the bunch that is not
full.  While the host is the source of a migration the acknowledgements are held back by a
flag of the channel; the count goes to the target with the migration data, and the target
acknowledges what is owed.  Nothing of the channel is called when a migration is cancelled.
-/

def bunch : Nat := 4

inductive Message
  | mouseMotion
  | mousePosition
deriving DecidableEq

/-- The inputs client on the host it is connected to.  `acks`, `handled` and `migrating` are only watched. -/
structure InputsClient where
  motionCount : Nat
  srcDuringMigrate : Bool
  acks : Nat
  handled : Nat
  migrating : Bool
deriving DecidableEq

/-- `inputs_connect` on a host that has not migrated. -/
def inputsConnect : InputsClient := ⟨0, false, 0, 0, false⟩

/-- The counting of `inputs_channel_handle_parsed`, which is the same for both messages; the count has 16 bits. -/
def handleParsed (client : InputsClient) : Message -> InputsClient
  | .mouseMotion | .mousePosition =>
      let count := (client.motionCount + 1) % 2 ^ 16
      if count % bunch = 0 ∧ client.srcDuringMigrate = false then
        { client with
          motionCount := 0
          acks := client.acks + 1
          handled := client.handled + 1 }
      else
        { client with
          motionCount := count
          handled := client.handled + 1 }

def inputsMigrate (client : InputsClient) : InputsClient :=
  { client with
    srcDuringMigrate := true
    migrating := true }

/-- `inputs_channel_send_migrate_data`, with the count it marshalls. -/
def sendMigrateData (client : InputsClient) : InputsClient × Nat :=
  ({ client with
     srcDuringMigrate := false }, client.motionCount)

/-- The loop of `inputs_channel_handle_migrate_data`: the acknowledgements and the count. -/
def ackLoop (acks motionCount : Nat) : Nat × Nat :=
  if bunch ≤ motionCount then ackLoop (acks + 1) (motionCount - bunch) else (acks, motionCount)
termination_by motionCount
decreasing_by all_goals simp only [bunch] at *; omega

/-- `inputs_channel_handle_migrate_data`, on the client that connected to the target. -/
def handleMigrateData (source : InputsClient) (motionCount : Nat) : InputsClient :=
  let (acks, motionCount) := ackLoop source.acks motionCount
  ⟨motionCount, inputsConnect.srcDuringMigrate, acks, source.handled, false⟩

inductive Op
  | message (message : Message)
  | migrate
  | complete
  | cancel
deriving DecidableEq

/-- The client sends nothing between its flush mark and the migration data, so completing is one step. -/
def step (client : InputsClient) : Op -> Option InputsClient
  | .message message => some (handleParsed client message)
  | .migrate => if client.migrating then none else some (inputsMigrate client)
  | .complete =>
      if client.migrating then
        let (source, motionCount) := sendMigrateData client
        some (handleMigrateData source motionCount)
      else none
  | .cancel =>
      if client.migrating then
        some { client with
               migrating := false }
      else none

/-- No message is lost from the count of the acknowledgements. -/
def Acknowledged (client : InputsClient) : Prop :=
  client.acks * bunch + client.motionCount = client.handled ∧ client.motionCount < bunch

/-- A message does not fill a bunch while acknowledgements are held back without a migration, nor the 16 bits while
they are held back, and a migration is not cancelled when a bunch is owed. -/
def Kept (client : InputsClient) : Op -> Prop
  | .message _ => client.srcDuringMigrate = true -> client.motionCount + 1 < if client.migrating then 2 ^ 16 else bunch
  | .migrate => True
  | .complete => True
  | .cancel => client.motionCount < bunch

instance (client : InputsClient) : forall op : Op, Decidable (Kept client op)
  | .message _ => inferInstanceAs (Decidable (_ -> _))
  | .migrate => inferInstanceAs (Decidable True)
  | .complete => inferInstanceAs (Decidable True)
  | .cancel => inferInstanceAs (Decidable (_ < _))

theorem ackLoop_spec (acks motionCount : Nat) :
    (ackLoop acks motionCount).1 * bunch + (ackLoop acks motionCount).2 = acks * bunch + motionCount ∧
      (ackLoop acks motionCount).2 < bunch := by
  fun_induction ackLoop acks motionCount with
  | case1 acks motionCount owed ih =>
      refine ⟨ih.1.trans ?_, ih.2⟩
      rw [Nat.add_mul]
      omega
  | case2 acks motionCount less => exact ⟨rfl, Nat.lt_of_not_le less⟩

/-- While the steps are kept every message counts, and more than a bunch is only owed during a migration. -/
structure Inv (client : InputsClient) : Prop where
  counted : client.acks * bunch + client.motionCount = client.handled
  held : client.migrating = true -> client.srcDuringMigrate = true
  less : client.migrating = false -> client.motionCount < bunch

/-- A message is counted, and acknowledged with its bunch. -/
theorem Inv.handleParsed {client : InputsClient} (inv : Inv client) (message : Message)
    (kept : Kept client (.message message)) : Inv (handleParsed client message) := by
  rcases inv with ⟨counted, held, less⟩
  have small : client.motionCount + 1 < 2 ^ 16 := by
    cases isHeld : client.srcDuringMigrate with
    | true =>
        refine lt_of_lt_of_le (kept isHeld) ?_
        split <;> decide
    | false =>
        have notMigrating : client.migrating = false := by
          by_contra migrating
          exact absurd (isHeld.symm.trans (held (eq_true_of_ne_false migrating))) Bool.false_ne_true
        have less := less notMigrating
        unfold bunch at less
        omega
  have counts : MotionAck.handleParsed client message =
      if (client.motionCount + 1) % bunch = 0 ∧ client.srcDuringMigrate = false then
        { client with
          motionCount := 0
          acks := client.acks + 1
          handled := client.handled + 1 }
      else
        { client with
          motionCount := client.motionCount + 1
          handled := client.handled + 1 } := by
    cases message <;> unfold MotionAck.handleParsed <;> rw [Nat.mod_eq_of_lt small]
  rw [counts]
  unfold bunch at *
  split
  · next full =>
    have notMigrating : client.migrating = false := by
      by_contra migrating
      exact absurd (full.2.symm.trans (held (eq_true_of_ne_false migrating))) Bool.false_ne_true
    have less := less notMigrating
    exact ⟨by simp only [bunch]; omega, held, fun _ => Nat.zero_lt_succ 3⟩
  · next notFull =>
    refine ⟨by simp only [bunch]; omega, held, fun notMigrating => ?_⟩
    have less := less notMigrating
    have notMigrating : client.migrating = false := notMigrating
    cases isHeld : client.srcDuringMigrate with
    | true => simpa [notMigrating] using kept isHeld
    | false =>
        have notFull : ¬ (client.motionCount + 1) % 4 = 0 := fun full => notFull ⟨full, isHeld⟩
        simp only [bunch]
        omega

/-- Every operation under the condition keeps the count. -/
theorem Inv.step {client next : InputsClient} {op : Op} (inv : Inv client) (kept : Kept client op)
    (stepped : step client op = some next) : Inv next := by
  cases op with
  | message message =>
      cases stepped
      exact inv.handleParsed message kept
  | migrate =>
      simp only [MotionAck.step] at stepped
      split at stepped
      · contradiction
      · cases stepped
        exact ⟨inv.counted, fun _ => rfl, fun notMigrating => by contradiction⟩
  | complete =>
      simp only [MotionAck.step] at stepped
      split at stepped
      · cases stepped
        have acked := ackLoop_spec client.acks client.motionCount
        exact ⟨acked.1.trans inv.counted, fun migrating => by contradiction, fun _ => acked.2⟩
      · contradiction
  | cancel =>
      simp only [MotionAck.step] at stepped
      split at stepped
      · cases stepped
        exact ⟨inv.counted, fun migrating => by contradiction, fun _ => kept⟩
      · contradiction

/-- If no bunch is owed when a migration is cancelled, and none gets full after that, all messages are acknowledged
whenever no migration is in progress. -/
theorem motion_acks_kept (ops : List Op) (final : InputsClient) (ran : run step inputsConnect ops = some final)
    (kept : Meets step (fun _ => Kept) [] inputsConnect ops) : final.migrating = false -> Acknowledged final := by
  have inv := @run_invariant_of_meets _ _ step (fun _ => Kept) (fun _ => Inv)
    (fun _ _ _ _ inv kept stepped => inv.step kept stepped) ops [] inputsConnect final
    ⟨rfl, fun migrating => by contradiction, fun _ => by decide⟩ kept ran
  exact fun notMigrating => ⟨inv.counted, inv.less notMigrating⟩

/-- Nine messages around a migration that completes, and one that is cancelled. -/
def twoMigrations : List Op :=
  [.message .mouseMotion, .migrate, .message .mousePosition, .message .mouseMotion, .message .mouseMotion,
    .message .mouseMotion, .message .mouseMotion, .complete, .migrate, .message .mousePosition, .cancel]

theorem motion_acks_kept_twice : Acknowledged ⟨3, true, 1, 7, false⟩ := by
  refine motion_acks_kept twoMigrations ⟨3, true, 1, 7, false⟩ ?_ ?_ rfl
  · simp [twoMigrations, run, step, handleParsed, inputsConnect, inputsMigrate, sendMigrateData, handleMigrateData,
      ackLoop, bunch]
  · refine @Meets.of_check _ _ step (fun _ => Kept) (fun client op => decide (Kept client op))
      (fun _ _ _ checked => of_decide_eq_true checked) twoMigrations [] inputsConnect ?_
    simp [twoMigrations, checkRun, Kept, step, handleParsed, inputsConnect, inputsMigrate, sendMigrateData,
      handleMigrateData, ackLoop, bunch]
    exact ⟨rfl, rfl, rfl⟩

/-- After a migration was cancelled, four messages are not acknowledged. -/
theorem cancelled_acks_lost : ¬ forall (ops : List Op)
    (final : InputsClient), run step inputsConnect ops = some final ->
    final.migrating = false -> Acknowledged final := by
  intro all
  have acknowledged := all [.migrate, .cancel, .message .mouseMotion, .message .mouseMotion, .message .mouseMotion,
    .message .mouseMotion] ⟨4, true, 0, 4, false⟩ (by decide) rfl
  exact absurd acknowledged.2 (by decide)

end MotionAck
end Inputs
end Spice
