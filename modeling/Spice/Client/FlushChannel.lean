import Spice.Lib.Run
import Mathlib.Data.List.Count

namespace Spice
namespace Client
namespace FlushChannel

open Lib

/-!
# Flushing a client channel

Messages are queued by any thread and written by the coroutine of the channel, which takes
one message after the other out of the queue and waits in the middle of one when the socket
is full.  A flush looks at the queue only: it completes at once when the queue is empty, and
otherwise when the coroutine has emptied it or the channel is reset.  The messages are
numbered in the order they were queued in.  The agent messages that the main channel writes
before it looks at the queue are left out.
-/

structure MsgOut where
  roCheck : Bool
  size : Nat

/-- Where the coroutine is; `writing` is a message in `spice_channel_flush_wire` with the bytes left to write. -/
inductive Coroutine
  | outside
  | popping
  | writing (id rest : Nat) (parked : Bool)

/-- `handed` and `abandoned` are the messages the coroutine or a reset is done with, and `completed` the flushes with
the number of messages queued before them. -/
structure Channel where
  xmitQueue : List (Nat × MsgOut)
  xmitQueueBlocked : Bool
  hasError : Bool
  readOnly : Bool
  coroutine : Coroutine
  flushing : List Nat
  queued : Nat
  handed : List Nat
  abandoned : List Nat
  completed : List (Bool × Nat)

def connected : Channel := ⟨[], false, false, false, .outside, [], 0, [], [], []⟩

namespace Channel

variable (channel : Channel)

def flushed (success : Bool) : Channel :=
  { channel with
    completed := channel.completed ++ channel.flushing.map fun before => (success, before)
    flushing := [] }

def send (out : MsgOut) : Channel :=
  if channel.xmitQueueBlocked then channel
  else
    { channel with
      xmitQueue := channel.xmitQueue ++ [(channel.queued, out)]
      queued := channel.queued + 1 }

/-- The main context runs while the coroutine waits or is somewhere else. -/
def mainRuns : Bool :=
  match channel.coroutine with
  | .outside => true
  | .popping => false
  | .writing _ _ parked => parked

def hand : List Nat :=
  match channel.coroutine with
  | .writing id _ _ => [id]
  | _ => []

/-- The loop of `spice_channel_iterate_write`, up to the first write of a message. -/
def pop : Channel :=
  match channel.xmitQueue with
  | [] =>
      { channel.flushed true with
        coroutine := .outside }
  | (id, out) :: rest =>
      if out.roCheck && channel.readOnly then
        { channel with
          xmitQueue := rest
          abandoned := id :: channel.abandoned }
      else
        { channel with
          xmitQueue := rest
          coroutine := .writing id out.size false }

/-- `spice_channel_flush_wire` returns in the middle of a message. -/
def abandon (id : Nat) : Channel :=
  { channel with
    abandoned := id :: channel.abandoned
    coroutine := .popping }

end Channel

/-- What writing to the socket gives: bytes, or waiting, or an error. -/
inductive Written
  | bytes (count : Nat)
  | wouldBlock
  | error

namespace Channel

variable (channel : Channel)

/-- A round of the loop of `spice_channel_flush_wire`. -/
def flushWire (id rest : Nat) (written : Written) : Channel :=
  if rest = 0 then
    { channel with
      handed := id :: channel.handed
      coroutine := .popping }
  else if channel.hasError then channel.abandon id
  else
    match written with
    | .bytes count =>
        if count = 0 then
          { channel.abandon id with
            hasError := true }
        else
          { channel with
            coroutine := .writing id (rest - count) false }
    | .wouldBlock =>
        { channel with
          coroutine := .writing id rest true }
    | .error =>
        { channel.abandon id with
          hasError := true }

def reset : Channel :=
  { channel.flushed channel.xmitQueue.isEmpty with
    xmitQueueBlocked := true
    abandoned := channel.xmitQueue.map Prod.fst ++ channel.abandoned
    xmitQueue := [] }

def flushAsync (ready : Bool) : Channel :=
  if ready = false then
    { channel with
      completed := channel.completed ++ [(false, channel.queued)] }
  else if channel.xmitQueue.isEmpty then
    { channel with
      completed := channel.completed ++ [(true, channel.queued)] }
  else
    { channel with
      flushing := channel.flushing ++ [channel.queued] }

end Channel

inductive Op
  | send (out : MsgOut)
  | iterateWrite
  | pop
  | write (written : Written)
  | resume
  | disconnect
  | setReadOnly (readOnly : Bool)
  | reset
  | connect
  | flushAsync (ready : Bool)

/-- What happens next; what cannot happen changes nothing. -/
def next (channel : Channel) : Op -> Channel
  | .send out => channel.send out
  | .iterateWrite =>
      match channel.coroutine, channel.hasError with
      | .outside, false =>
          { channel with
            coroutine := .popping }
      | _, _ => channel
  | .pop =>
      match channel.coroutine with
      | .popping => channel.pop
      | _ => channel
  | .write written =>
      match channel.coroutine with
      | .writing id rest false => channel.flushWire id rest written
      | _ => channel
  | .resume =>
      match channel.coroutine with
      | .writing id rest true =>
          { channel with
            coroutine := .writing id rest false }
      | _ => channel
  | .disconnect =>
      if channel.mainRuns then
        { channel with
          hasError := true }
      else channel
  | .setReadOnly readOnly =>
      if channel.mainRuns then
        { channel with
          readOnly := readOnly }
      else channel
  | .reset => if channel.mainRuns then channel.reset else channel
  | .connect =>
      match channel.coroutine with
      | .outside =>
          { channel with
            xmitQueueBlocked := false
            hasError := false }
      | _ => channel
  | .flushAsync ready => if channel.mainRuns then channel.flushAsync ready else channel

def step (channel : Channel) (op : Op) : Option Channel := some (next channel op)

namespace Channel

variable (channel : Channel)

/-- When a flush completes with `TRUE`, every message queued before it was handed over. -/
def Flushes : Prop := forall before, (true, before) ∈ channel.completed -> forall id, id < before -> id ∈ channel.handed

/-- The flushes that a step completes with `TRUE`. -/
def succeeding : Op -> List Nat
  | .pop =>
      match channel.coroutine with
      | .popping => if channel.xmitQueue.isEmpty then channel.flushing else []
      | _ => []
  | .reset => if channel.mainRuns && channel.xmitQueue.isEmpty then channel.flushing else []
  | .flushAsync ready => if channel.mainRuns && ready && channel.xmitQueue.isEmpty then [channel.queued] else []
  | _ => []

/-- No message queued before a flush that completes with `TRUE` was abandoned, or is in the hands of the coroutine. -/
def Kept (op : Op) : Prop :=
  forall before, before ∈ channel.succeeding op -> forall id, id ∈ channel.abandoned ++ channel.hand -> before ≤ id

/-- Every message is in one place. -/
structure Inv : Prop where
  once : forall id, channel.handed.count id + channel.abandoned.count id + channel.hand.count id +
    (channel.xmitQueue.map Prod.fst).count id = if id < channel.queued then 1 else 0
  asked : forall before, before ∈ channel.flushing -> before ≤ channel.queued
  flushes : channel.Flushes

end Channel

/-! ## Steps -/

namespace Channel

variable {channel : Channel}

/-- A step that completes nothing with `TRUE` needs to keep the messages only. -/
theorem Inv.of_same {after : Channel} (inv : channel.Inv)
    (once : forall id, after.handed.count id + after.abandoned.count id + after.hand.count id +
      (after.xmitQueue.map Prod.fst).count id = if id < after.queued then 1 else 0)
    (more : channel.queued ≤ after.queued) (handed : channel.handed ⊆ after.handed)
    (flushing : after.flushing ⊆ channel.queued :: channel.flushing)
    (completed : forall before, (true, before) ∈ after.completed -> (true, before) ∈ channel.completed) :
    after.Inv := by
  refine ⟨once, fun before member => ?_,
    fun before member id less => handed (inv.flushes before (completed before member) id less)⟩
  rcases List.mem_cons.mp (flushing member) with rfl | asked
  · exact more
  · exact (inv.asked before asked).trans more

/-- A step that completes flushes with `TRUE` finds the queue empty. -/
theorem Inv.of_succeeding {after : Channel} {op : Op} (inv : channel.Inv) (kept : channel.Kept op)
    (empty : channel.xmitQueue = []) (asked : forall before, before ∈ channel.succeeding op -> before ≤ channel.queued)
    (completed : forall before, (true, before) ∈ after.completed ->
      (true, before) ∈ channel.completed ∨ before ∈ channel.succeeding op)
    (sameHanded : after.handed = channel.handed) (sameAbandoned : after.abandoned = channel.abandoned)
    (sameHand : after.hand = channel.hand) (sameQueue : after.xmitQueue = channel.xmitQueue)
    (sameQueued : after.queued = channel.queued) (flushing : after.flushing ⊆ channel.flushing) : after.Inv := by
  refine ⟨?_, fun before member => ?_, fun before member id less => ?_⟩
  · rw [sameHanded, sameAbandoned, sameHand, sameQueue, sameQueued]
    exact inv.once
  · rw [sameQueued]
    exact inv.asked before (flushing member)
  · rw [sameHanded]
    rcases completed before member with earlier | now
    · exact inv.flushes before earlier id less
    · have once := inv.once id
      rw [empty, if_pos (lt_of_lt_of_le less (asked before now)), List.map_nil, List.count_nil] at once
      by_contra notHanded
      have elsewhere : id ∈ channel.abandoned ++ channel.hand := by
        by_contra nowhere
        rw [List.mem_append, not_or] at nowhere
        rw [List.count_eq_zero_of_not_mem notHanded, List.count_eq_zero_of_not_mem nowhere.1,
          List.count_eq_zero_of_not_mem nowhere.2] at once
        exact absurd once (by decide)
      exact absurd (kept before now id elsewhere) (Nat.not_le_of_lt less)

theorem mem_completed_of_not {before : Nat} {flushing : List Nat} {completed : List (Bool × Nat)}
    (member : (true, before) ∈ completed ++ flushing.map fun before => (false, before)) :
    (true, before) ∈ completed := by
  rcases List.mem_append.mp member with earlier | now
  · exact earlier
  · rcases List.mem_map.mp now with ⟨_, _, same⟩
    exact absurd (congrArg Prod.fst same) Bool.false_ne_true

theorem mem_completed {before : Nat} {flushing : List Nat} {completed : List (Bool × Nat)}
    (member : (true, before) ∈ completed ++ flushing.map fun before => (true, before)) :
    (true, before) ∈ completed ∨ before ∈ flushing := by
  rcases List.mem_append.mp member with earlier | now
  · exact .inl earlier
  · rcases List.mem_map.mp now with ⟨_, asked, same⟩
    cases same
    exact .inr asked

theorem Inv.send (inv : channel.Inv) (out : MsgOut) : (channel.send out).Inv := by
  unfold Channel.send
  split
  · exact inv
  · refine inv.of_same (fun id => ?_) (Nat.le_succ _) (List.Subset.refl _) (List.subset_cons_self _ _) fun _ => id
    have once := inv.once id
    simp only [List.map_append, List.map_cons, List.map_nil, List.count_append, List.count_singleton, beq_iff_eq,
      hand] at once ⊢
    by_cases new : channel.queued = id
    · rw [if_neg (by omega)] at once
      rw [if_pos new, if_pos (by omega)]
      omega
    · rw [if_neg new, Nat.add_zero, once]
      exact if_congr (by omega) rfl rfl

/-- The coroutine takes the next message, or completes the flushes. -/
theorem Inv.pop (inv : channel.Inv) (isPopping : channel.coroutine = .popping) (kept : channel.Kept .pop) :
    channel.pop.Inv := by
  have noHand : channel.hand = [] := by
    unfold hand
    rw [isPopping]
  unfold Channel.pop
  cases isQueue : channel.xmitQueue with
  | nil =>
      have succeeds : channel.succeeding .pop = channel.flushing := by
        unfold succeeding
        rw [isPopping, isQueue]
        rfl
      refine inv.of_succeeding kept isQueue ?_ ?_ rfl rfl noHand.symm rfl rfl (List.nil_subset _)
      · rw [succeeds]
        exact inv.asked
      · rw [succeeds]
        exact fun before => mem_completed
  | cons first rest =>
      rcases first with ⟨number, out⟩
      have moved : forall id, channel.handed.count id + channel.abandoned.count id +
          ([number].count id + (rest.map Prod.fst).count id) = if id < channel.queued then 1 else 0 := by
        intro id
        have once := inv.once id
        rw [noHand, isQueue, List.map_cons, <- List.singleton_append, List.count_append, List.count_nil,
          Nat.add_zero] at once
        exact once
      dsimp only
      split
      · refine inv.of_same (fun id => ?_) le_rfl (List.Subset.refl _) (List.subset_cons_self _ _) fun _ => id
        have moved := moved id
        have same : Channel.hand { channel with
          xmitQueue := rest
          abandoned := number :: channel.abandoned } = [] := noHand
        rw [same]
        dsimp only
        rw [<- List.singleton_append, List.count_append, List.count_nil]
        omega
      · refine inv.of_same (fun id => ?_) le_rfl (List.Subset.refl _) (List.subset_cons_self _ _) fun _ => id
        have moved := moved id
        dsimp only [hand]
        omega

/-- The coroutine is done with its message, one way or the other. -/
theorem Inv.done (inv : channel.Inv) {after : Channel} {number rest : Nat} {parked : Bool}
    (isWriting : channel.coroutine = .writing number rest parked) (isPopping : after.coroutine = .popping)
    (places : (after.handed = number :: channel.handed ∧ after.abandoned = channel.abandoned) ∨
      (after.handed = channel.handed ∧ after.abandoned = number :: channel.abandoned))
    (sameQueue : after.xmitQueue = channel.xmitQueue) (sameQueued : after.queued = channel.queued)
    (sameFlushing : after.flushing = channel.flushing) (sameCompleted : after.completed = channel.completed) :
    after.Inv := by
  have isHand : channel.hand = [number] := by
    unfold hand
    rw [isWriting]
  have noHand : after.hand = [] := by
    unfold hand
    rw [isPopping]
  refine inv.of_same (fun id => ?_) sameQueued.ge ?_ (sameFlushing ▸ List.subset_cons_self _ _)
    (fun _ => sameCompleted ▸ id)
  · have once := inv.once id
    rw [isHand] at once
    rw [noHand, sameQueue, sameQueued, <- once]
    rcases places with ⟨handed, abandoned⟩ | ⟨handed, abandoned⟩
    all_goals
      rw [handed, abandoned, <- List.singleton_append, List.count_append, List.count_nil]
      omega
  · rcases places with ⟨handed, _⟩ | ⟨handed, _⟩
    · rw [handed]
      exact List.subset_cons_self _ _
    · rw [handed]
      exact List.Subset.refl _

/-- A part of a message is written. -/
theorem Inv.flushWire (inv : channel.Inv) {number rest : Nat}
    (isWriting : channel.coroutine = .writing number rest false)
    (written : Written) : (channel.flushWire number rest written).Inv := by
  have goesOn : forall left parked, Channel.Inv { channel with
      coroutine := .writing number left parked } := by
    intro left parked
    refine inv.of_same (fun id => ?_) le_rfl (List.Subset.refl _) (List.subset_cons_self _ _) fun _ => id
    have once := inv.once id
    unfold hand at once
    rw [isWriting] at once
    exact once
  unfold Channel.flushWire
  split
  · exact inv.done isWriting rfl (.inl ⟨rfl, rfl⟩) rfl rfl rfl rfl
  · split
    · exact inv.done isWriting rfl (.inr ⟨rfl, rfl⟩) rfl rfl rfl rfl
    · cases written with
      | bytes count =>
          dsimp only
          split
          · exact inv.done isWriting rfl (.inr ⟨rfl, rfl⟩) rfl rfl rfl rfl
          · exact goesOn _ _
      | wouldBlock => exact goesOn _ _
      | error => exact inv.done isWriting rfl (.inr ⟨rfl, rfl⟩) rfl rfl rfl rfl

/-- A reset drops the queue and completes the flushes. -/
theorem Inv.reset (inv : channel.Inv) (runs : channel.mainRuns = true) (kept : channel.Kept .reset) :
    channel.reset.Inv := by
  unfold Channel.reset
  cases isQueue : channel.xmitQueue with
  | nil =>
      have succeeds : channel.succeeding .reset = channel.flushing := by
        unfold succeeding
        rw [runs, isQueue]
        rfl
      refine inv.of_succeeding kept isQueue ?_ ?_ rfl rfl rfl isQueue.symm rfl (List.nil_subset _)
      · rw [succeeds]
        exact inv.asked
      · rw [succeeds]
        exact fun before => mem_completed
  | cons first rest =>
      refine inv.of_same (fun id => ?_) le_rfl (List.Subset.refl _) (List.nil_subset _) fun before =>
        mem_completed_of_not
      have once := inv.once id
      rw [isQueue] at once
      refine Eq.trans ?_ once
      change channel.handed.count id + ((first :: rest).map Prod.fst ++ channel.abandoned).count id +
        channel.hand.count id + 0 = _
      rw [List.count_append]
      omega

/-- A flush completes at once, or waits. -/
theorem Inv.flushAsync (inv : channel.Inv) (runs : channel.mainRuns = true) {ready : Bool}
    (kept : channel.Kept (.flushAsync ready)) :
    (channel.flushAsync ready).Inv := by
  unfold Channel.flushAsync
  cases ready with
  | false =>
      refine inv.of_same inv.once le_rfl (List.Subset.refl _) (List.subset_cons_self _ _) fun before member => ?_
      exact @mem_completed_of_not before [channel.queued] channel.completed member
  | true =>
      rw [if_neg (by decide)]
      by_cases isQueue : channel.xmitQueue = []
      · have succeeds : channel.succeeding (.flushAsync true) = [channel.queued] := by
          unfold succeeding
          rw [runs, isQueue]
          rfl
        rw [if_pos (List.isEmpty_iff.mpr isQueue)]
        refine inv.of_succeeding kept isQueue ?_ ?_ rfl rfl rfl rfl rfl (List.Subset.refl _)
        · rw [succeeds]
          exact fun before same => (List.mem_singleton.mp same).le
        · rw [succeeds]
          exact fun before => @mem_completed before [channel.queued] channel.completed
      · rw [if_neg fun empty => isQueue (List.isEmpty_iff.mp empty)]
        refine inv.of_same inv.once le_rfl (List.Subset.refl _) ?_ fun _ => id
        exact List.append_subset.mpr ⟨List.subset_cons_self _ _,
          fun _ same => List.mem_cons.mpr (.inl (List.mem_singleton.mp same))⟩

/-- Every step under its condition keeps the invariant. -/
theorem Inv.next (inv : channel.Inv) {op : Op} (kept : channel.Kept op) : (next channel op).Inv := by
  unfold FlushChannel.next
  have moved : forall coroutine hasError readOnly blocked, Channel.hand { channel with
      coroutine := coroutine } = channel.hand -> Channel.Inv { channel with
        coroutine := coroutine
        hasError := hasError
        readOnly := readOnly
        xmitQueueBlocked := blocked } := by
    intro coroutine hasError readOnly blocked sameHand
    refine inv.of_same (fun id => ?_) le_rfl (List.Subset.refl _) (List.subset_cons_self _ _) fun _ => id
    have once := inv.once id
    rw [<- sameHand] at once
    exact once
  cases op with
  | send out => exact inv.send out
  | iterateWrite =>
      dsimp only
      split
      · next isOutside _ => exact moved .popping _ _ _ (by unfold hand; rw [isOutside])
      · exact inv
  | pop =>
      dsimp only
      split
      · next isPopping => exact inv.pop isPopping kept
      · exact inv
  | write written =>
      dsimp only
      split
      · next isWriting => exact inv.flushWire isWriting written
      · exact inv
  | resume =>
      dsimp only
      split
      · next isWriting => exact moved _ _ _ _ (by unfold hand; rw [isWriting])
      · exact inv
  | disconnect =>
      dsimp only
      split
      · exact moved _ _ _ _ rfl
      · exact inv
  | setReadOnly readOnly =>
      dsimp only
      split
      · exact moved _ _ _ _ rfl
      · exact inv
  | reset =>
      dsimp only
      split
      · next runs => exact inv.reset runs kept
      · exact inv
  | connect =>
      dsimp only
      split
      · exact moved _ _ _ _ rfl
      · exact inv
  | flushAsync ready =>
      dsimp only
      split
      · next runs => exact inv.flushAsync runs kept
      · exact inv

/-- The flushes a step completes with `TRUE` are among the completed ones after it, and nothing was handed over. -/
theorem succeeding_completed {op : Op} {before : Nat} (member : before ∈ channel.succeeding op) :
    (true, before) ∈ (FlushChannel.next channel op).completed ∧
      (FlushChannel.next channel op).handed = channel.handed := by
  have inFlushing : before ∈ channel.flushing ->
      (true, before) ∈ channel.completed ++ channel.flushing.map fun before => (true, before) :=
    fun member => List.mem_append_right _ (List.mem_map_of_mem member)
  unfold succeeding at member
  cases op with
  | pop =>
      dsimp only at member
      split at member
      · next isPopping =>
        split at member
        · next isEmpty =>
          unfold FlushChannel.next Channel.pop
          simp only [isPopping, List.isEmpty_iff.mp isEmpty]
          exact ⟨inFlushing member, rfl⟩
        · contradiction
      · contradiction
  | reset =>
      dsimp only at member
      split at member
      · next both =>
        rw [Bool.and_eq_true] at both
        have isNext : FlushChannel.next channel .reset = channel.reset := if_pos both.1
        rw [isNext]
        unfold Channel.reset
        rw [both.2]
        exact ⟨inFlushing member, rfl⟩
      · contradiction
  | flushAsync ready =>
      dsimp only at member
      split at member
      · next all =>
        rw [Bool.and_eq_true, Bool.and_eq_true] at all
        cases List.mem_singleton.mp member
        have isNext : FlushChannel.next channel (.flushAsync ready) = channel.flushAsync ready := if_pos all.1.1
        rw [isNext]
        unfold Channel.flushAsync
        rw [all.1.2, if_neg (by decide), if_pos all.2]
        exact ⟨List.mem_append_right _ List.mem_cons_self, rfl⟩
      · contradiction
  | send | iterateWrite | write | resume | disconnect | setReadOnly | connect => contradiction

/-- A message is in the queue once, so that one that was abandoned or is in the hands of the coroutine was not handed
over. -/
theorem Inv.kept (inv : channel.Inv) {op : Op} (flushes : (FlushChannel.next channel op).Flushes) :
    channel.Kept op := by
  intro before member id elsewhere
  rcases succeeding_completed member with ⟨completed, same⟩
  by_contra less
  have handed := flushes before completed id (Nat.lt_of_not_le less)
  rw [same] at handed
  have once := inv.once id
  have one := List.count_pos_iff.mpr handed
  have other := List.count_pos_iff.mpr elsewhere
  rw [List.count_append] at other
  split at once <;> omega

theorem Inv.start : connected.Inv :=
  ⟨fun _ => rfl, fun _ member => absurd member List.not_mem_nil, fun _ member => absurd member List.not_mem_nil⟩

end Channel

/-- Successful flushes mean that everything was written, exactly if no flush is completed with `TRUE` after a message
queued before it was abandoned or while the coroutine has one in its hands. -/
theorem flushes_iff (ops : List Op) :
    AllStates step (fun _ => Channel.Flushes) [] connected ops <->
      Meets step (fun _ => Channel.Kept) [] connected ops :=
  @allStates_iff_meets _ _ step (fun _ => Channel.Kept) (fun _ => Channel.Inv) (fun _ => Channel.Flushes)
    (fun _ _ => True)
    (fun _ _ inv => inv.flushes) (fun _ channel op inv _ kept => ⟨next channel op, rfl, inv.next kept⟩)
    (fun _ _ _ _ inv _ stepped flushes => inv.kept (Option.some.inj stepped ▸ flushes))
    ops [] connected Channel.Inv.start fun _ _ _ _ => trivial

/-- A flush is asked for while the only message waits for the socket. -/
theorem flushed_in_the_middle : ¬ forall ops : List Op, AllStates step (fun _ => Channel.Flushes) [] connected ops := by
  intro all
  rcases all [.send ⟨false, 10⟩, .iterateWrite, .pop, .write .wouldBlock, .flushAsync true] _ List.prefix_rfl with
    ⟨final, ran, flushes⟩
  cases ran
  exact absurd (flushes 1 (by decide) 0 (by decide)) (by decide)

end FlushChannel
end Client
end Spice
