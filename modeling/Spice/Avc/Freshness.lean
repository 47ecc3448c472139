import Spice.Avc.Model

namespace Spice
namespace Avc

open Lib
open Channel (DataHeader)
open Outgoing (RedChannelClient PipeItem Write)

/-!
# Dropped frames and the final picture

The worker remembers with one flag that a frame was dropped, for all its clients.
The flag is cleared when a frame is sent to any client, and when a client connects.
As long as all other clients have drawables in their pipes when a set flag is cleared, a
client whose pipe is empty shows the last drawable that was taken from it, or the flag
is set.
-/

namespace DisplayChannelClient

variable (client : DisplayChannelClient)

/-- The frame of the last drawable was dropped, and none was sent since. -/
def stale : Bool :=
  match client.dequeued, client.encoded with
  | none, _ => false
  | some _, none => true
  | some dequeued, some encoded => decide (encoded < dequeued)

/-- A drawable is queued. -/
def waits : Bool := client.pipe.any DisplayItem.isDraw

/-- The client shows its last drawable, or another one will follow. -/
def Shown : Prop := client.rcc.connected = true -> client.stale = true -> client.waits = true

end DisplayChannelClient

/-- All connected clients, apart from one perhaps, have a drawable in their pipe. -/
def RedWorker.OthersWait (worker : RedWorker) (index : Option Nat) : Prop :=
  forall (place : Nat) (client : DisplayChannelClient), some place ≠ index -> worker.clients[place]? = some client ->
    client.rcc.connected = true -> client.waits = true

/-- When a set flag is cleared, all other clients have a drawable in their pipe; the encoder makes a frame of what
is not dropped; and while the flag is clear, no client whose last frame was dropped loses the last drawable of its
pipe. -/
def ClearsQueued (worker : RedWorker) (op : Op) : Prop :=
  match op with
  | .connect _ _ _ => worker.inserting = none -> worker.lastDrop = true -> worker.OthersWait none
  | .pipeRemove index position =>
      worker.inserting = none -> worker.lastDrop = false -> forall client : DisplayChannelClient,
        worker.clients[index]? = some client -> client.rcc.connected = true -> client.dropped = true ->
          DisplayChannelClient.waits { client with pipe := client.pipe.eraseIdx position } = true
  | other =>
      forall index encoding, worker.encodesFor other = some (index, encoding) ->
        (Exists fun frame => encoding = .output frame) ∧ (worker.lastDrop = true -> worker.OthersWait (some index))

/-- The drawable was taken from the pipe when its canvas had been painted, and only the frame of a client whose last
one was dropped can be older. -/
structure DisplayChannelClient.Recorded (client : DisplayChannelClient) (canvas : Nat) : Prop where
  painted : forall dequeued, client.dequeued = some dequeued -> dequeued ≤ canvas
  dropped : client.stale = true -> client.dropped = true

structure FlagInv (worker : RedWorker) : Prop where
  shown : worker.lastDrop = false -> forall (place : Nat) (client : DisplayChannelClient),
    worker.clients[place]? = some client -> client.Shown
  recorded : forall (place : Nat) (client : DisplayChannelClient), worker.clients[place]? = some client ->
    client.Recorded worker.canvas

theorem found_set {clients : List DisplayChannelClient} {index place : Nat} {client other : DisplayChannelClient}
    (found : (clients.set index client)[place]? = some other) :
    (place = index ∧ other = client) ∨ (place ≠ index ∧ clients[place]? = some other) := by
  rw [List.getElem?_set] at found
  by_cases same : index = place
  · rw [if_pos same] at found
    split at found
    · exact Or.inl ⟨same.symm, (Option.some.inj found).symm⟩
    · cases found
  · rw [if_neg same] at found
    exact Or.inr ⟨fun isPlace => same isPlace.symm, found⟩

namespace FlagInv

variable {worker : RedWorker}

variable {client : DisplayChannelClient} {index : Nat}

theorem setClient (inv : FlagInv worker) (shown : worker.lastDrop = false -> client.Shown)
    (recorded : client.Recorded worker.canvas) : FlagInv (worker.setClient index client) where
  shown := by
    intro clear place other found
    rcases found_set found with ⟨-, rfl⟩ | ⟨-, old⟩
    · exact shown clear
    · exact inv.shown clear place other old
  recorded := by
    intro place other found
    rcases found_set found with ⟨-, rfl⟩ | ⟨-, old⟩
    · exact recorded
    · exact inv.recorded place other old

theorem modifyClient (inv : FlagInv worker) {change : DisplayChannelClient -> DisplayChannelClient}
    (shown : forall client, worker.clients[index]? = some client -> worker.lastDrop = false -> client.Shown ->
      (change client).Shown)
    (recorded : forall client, client.Recorded worker.canvas -> (change client).Recorded worker.canvas) :
    FlagInv (worker.modifyClient index change) := by
  unfold RedWorker.modifyClient
  cases found : worker.clients[index]? with
  | none => exact inv
  | some client =>
      apply inv.setClient
      · intro clear
        exact shown client found clear (inv.shown clear index client found)
      · exact recorded client (inv.recorded index client found)

theorem drop (inv : FlagInv worker) (recorded : client.Recorded worker.canvas) :
    FlagInv ({ worker with lastDrop := true }.setClient index client) where
  shown := by
    intro clear
    cases clear
  recorded := by
    intro place other found
    rcases found_set found with ⟨-, rfl⟩ | ⟨-, old⟩
    · exact recorded
    · exact inv.recorded place other old

theorem fresh {canvas : Nat} (painted : forall dequeued, client.dequeued = some dequeued -> dequeued ≤ canvas)
    (encoded : client.encoded = some canvas) : client.stale = false := by
  unfold DisplayChannelClient.stale
  rw [encoded]
  cases isDequeued : client.dequeued with
  | none => rfl
  | some dequeued => exact decide_eq_false (Nat.not_lt_of_le (painted dequeued isDequeued))

/-- A frame of the canvas is sent to one client, while the others show their last drawable or wait. -/
theorem clear (inv : FlagInv worker) (now : Timeval)
    (painted : forall dequeued, client.dequeued = some dequeued -> dequeued ≤ worker.canvas)
    (encoded : client.encoded = some worker.canvas)
    (others : worker.lastDrop = true -> worker.OthersWait (some index)) :
    FlagInv ({ worker with lastDrop := false, lastTime := now }.setClient index client) where
  shown := by
    intro _ place other found
    rcases found_set found with ⟨-, rfl⟩ | ⟨different, old⟩
    · intro _ isStale
      rw [fresh painted encoded] at isStale
      cases isStale
    · cases flag : worker.lastDrop with
      | false => exact inv.shown flag place other old
      | true =>
          exact fun connected _ => others flag place other (fun same => different (Option.some.inj same)) old connected
  recorded := by
    intro place other found
    rcases found_set found with ⟨-, rfl⟩ | ⟨-, old⟩
    · refine ⟨painted, fun isStale => ?_⟩
      rw [fresh painted encoded] at isStale
      cases isStale
    · exact inv.recorded place other old

theorem shown_withRcc {rcc : RedChannelClient}
    (waits : rcc.connected = true -> client.stale = true -> client.waits = true) : (client.withRcc rcc).Shown := by
  intro connected isStale
  have connected : rcc.connected = true := connected
  show (if rcc.connected = true then client.pipe else []).any DisplayItem.isDraw = true
  rw [if_pos connected]
  exact waits connected isStale

theorem nextItem_some {item : DisplayItem} {rest : List DisplayItem}
    (taken : client.nextItem = some (item, rest)) : client.rcc.connected = true ∧ client.pipe = item :: rest := by
  unfold DisplayChannelClient.nextItem at taken
  split at taken
  · cases taken
  · next free =>
      refine ⟨?_, ?_⟩
      · cases isConnected : client.rcc.connected with
        | true => rfl
        | false => exact absurd (by rw [isConnected]; rfl) free
      · cases isPipe : client.pipe with
        | nil =>
            rw [isPipe] at taken
            cases taken
        | cons head tail =>
            rw [isPipe] at taken
            cases taken
            rfl

/-- A frame is marshalled for one client: it is dropped and the flag set, or it is sent
and the flag cleared. -/
theorem marshalled (inv : FlagInv worker) {now : Timeval} {encoding : Encoding} {made : RedWorker}
    {next : DisplayChannelClient} {item : PipeItem}
    (painted : forall dequeued, client.dequeued = some dequeued -> dequeued ≤ worker.canvas)
    (others : worker.lastTime.tooNear now = false -> (Exists fun frame => encoding = .output frame) ∧
      (worker.lastDrop = true -> worker.OthersWait (some index)))
    (isMade : worker.marshallStreamH264Data client now encoding = some (made, next, item)) (rcc : RedChannelClient) :
    FlagInv (made.setClient index (next.withRcc rcc)) := by
  unfold RedWorker.marshallStreamH264Data at isMade
  cases near : worker.lastTime.tooNear now with
  | true =>
      rw [near, if_pos rfl] at isMade
      cases isMade
      exact inv.drop ⟨painted, fun _ => rfl⟩
  | false =>
      rcases others near with ⟨⟨frame, rfl⟩, wait⟩
      rw [near, if_neg (by decide)] at isMade
      cases isMade
      exact inv.clear now painted rfl wait

/-- Sending the next item keeps the flag true to the pipes. -/
theorem sendNext (inv : FlagInv worker) {now : Timeval} {encoding : Encoding} {writes : List Write}
    (free : worker.inserting = none) (clears : ClearsQueued worker (.sendNext index now encoding writes))
    {next : RedWorker} (stepped : worker.sendNext index now encoding writes = some next) : FlagInv next := by
  unfold RedWorker.sendNext at stepped
  cases found : worker.clients[index]? with
  | none =>
      rw [found] at stepped
      cases stepped
      exact inv
  | some client =>
      rw [found] at stepped
      cases taken : client.nextItem with
      | none =>
          simp only [taken] at stepped
          cases stepped
          exact inv
      | some pair =>
          rcases pair with ⟨item, rest⟩
          rcases nextItem_some taken with ⟨connected, isPipe⟩
          cases item with
          | draw =>
              simp only [taken] at stepped
              split at stepped
              · cases stepped
                exact ⟨inv.shown, inv.recorded⟩
              · next made marshalled item isMade =>
                  split at stepped
                  · cases stepped
                  · next rcc left sent =>
                      cases stepped
                      refine inv.marshalled ?_ ?_ isMade rcc
                      · intro dequeued isDequeued
                        cases isDequeued
                        exact Nat.le_refl _
                      · exact fun near => clears index encoding
                          (RedWorker.encodesFor_sendNext found free taken near encoding writes)
          | other item =>
              simp only [taken] at stepped
              split at stepped
              · cases stepped
              · next rcc left sent =>
                  cases stepped
                  apply inv.setClient
                  · intro clear
                    apply shown_withRcc
                    intro _ isStale
                    have waits := inv.shown clear index client found connected isStale
                    rw [DisplayChannelClient.waits, isPipe] at waits
                    exact waits
                  · have recorded := inv.recorded index client found
                    exact ⟨recorded.painted, recorded.dropped⟩

theorem resume_connected {rcc next : RedChannelClient} {writes rest : List Write}
    (resumed : rcc.resume writes = some (next, rest)) (connected : next.connected = true) : rcc.connected = true := by
  cases isConnected : rcc.connected with
  | true => rfl
  | false =>
      have same : rcc.resume writes = some (rcc, writes) := by
        unfold RedChannelClient.resume RedChannelClient.handleOutgoing
        rw [isConnected]
        split
        · rfl
        · rfl
      rw [same] at resumed
      cases resumed
      rw [isConnected] at connected
      cases connected

/-- Going on with a message keeps the flag true to the pipes. -/
theorem resume (inv : FlagInv worker) {writes : List Write} {next : RedWorker}
    (stepped : worker.resume index writes = some next) : FlagInv next := by
  unfold RedWorker.resume at stepped
  cases found : worker.clients[index]? with
  | none =>
      rw [found] at stepped
      cases stepped
      exact inv
  | some client =>
      rw [found] at stepped
      simp only at stepped
      split at stepped
      · cases stepped
      · next rcc left resumed =>
          cases stepped
          apply inv.setClient
          · intro clear
            apply shown_withRcc
            intro connected isStale
            have still : rcc.connected = true := by
              split at connected
              · exact connected
              · exact connected
            exact inv.shown clear index client found (resume_connected resumed still) isStale
          · have recorded := inv.recorded index client found
            exact ⟨recorded.painted, recorded.dropped⟩

/-- Inserting a frame for the next client keeps the flag true to the pipes. -/
theorem insertNext (inv : FlagInv worker) {now : Timeval} {encoding : Encoding} {writes : List Write}
    (inserting : worker.inserting = some index) (clears : ClearsQueued worker (.insertNext now encoding writes))
    {next : RedWorker} (stepped : worker.insertNext index now encoding writes = some next) : FlagInv next := by
  unfold RedWorker.insertNext at stepped
  cases found : worker.clients[index]? with
  | none =>
      rw [found] at stepped
      cases stepped
      exact ⟨inv.shown, inv.recorded⟩
  | some client =>
      rw [found] at stepped
      have onward : FlagInv { worker with inserting := some (index + 1) } := ⟨inv.shown, inv.recorded⟩
      cases connected : client.rcc.connected with
      | false =>
          simp only [connected, Bool.false_eq_true, if_false] at stepped
          cases stepped
          exact onward
      | true =>
          simp only [connected, if_true, RedWorker.insertFrame] at stepped
          split at stepped
          · cases stepped
          · next emptied reset =>
              split at stepped
              · cases stepped
                exact ⟨onward.shown, onward.recorded⟩
              · next made marshalled item isMade =>
                  split at stepped
                  · cases stepped
                  · next rcc left sent =>
                      cases stepped
                      refine onward.marshalled ?_ ?_ isMade rcc
                      · exact (inv.recorded index client found).painted
                      · exact fun near => clears index encoding
                          (RedWorker.encodesFor_insertNext found inserting connected near encoding writes)

theorem waits_insert {pipe : List DisplayItem} (waits : pipe.any DisplayItem.isDraw = true) (position : Nat)
    (item : DisplayItem) : (pipe.take position ++ item :: pipe.drop position).any DisplayItem.isDraw = true := by
  rw [<- List.take_append_drop position pipe, List.any_append, Bool.or_eq_true] at waits
  rw [List.any_append, List.any_cons, Bool.or_eq_true, Bool.or_eq_true]
  rcases waits with before | after
  · exact Or.inl before
  · exact Or.inr (Or.inr after)

/-- A client that connects changes nothing for the others. -/
theorem connect (inv : FlagInv worker) (wait : worker.lastDrop = true -> worker.OthersWait none) (header : DataHeader)
    (handleAcks : Bool) (clientWindow : Nat) : FlagInv (worker.connect header handleAcks clientWindow) := by
  have found_append : forall (place : Nat) (client : DisplayChannelClient),
      (worker.connect header handleAcks clientWindow).clients[place]? = some client ->
        worker.clients[place]? = some client ∨ client.dequeued = none := by
    intro place client found
    have found : (worker.clients ++ [_])[place]? = some client := found
    rcases Nat.lt_or_ge place worker.clients.length with old | new
    · rw [List.getElem?_append_left old] at found
      exact Or.inl found
    · rw [List.getElem?_append_right new] at found
      have isNew := List.mem_of_getElem? found
      rw [List.mem_singleton.mp isNew]
      exact Or.inr rfl
  have notStale : forall client : DisplayChannelClient, client.dequeued = none -> client.stale = false := by
    intro client none
    rw [DisplayChannelClient.stale, none]
  refine ⟨fun _ place client found => ?_, fun place client found => ?_⟩
  · rcases found_append place client found with old | new
    · cases flag : worker.lastDrop with
      | false => exact inv.shown flag place client old
      | true => exact fun connected _ => wait flag place client (by simp) old connected
    · intro _ isStale
      rw [notStale client new] at isStale
      cases isStale
  · rcases found_append place client found with old | new
    · exact inv.recorded place client old
    · refine ⟨fun dequeued isDequeued => ?_, fun isStale => ?_⟩
      · rw [new] at isDequeued
        cases isDequeued
      · rw [notStale client new] at isStale
        cases isStale

/-- A step while no frame is being inserted. -/
theorem stepFree (inv : FlagInv worker) (free : worker.inserting = none) {op : Op} (clears : ClearsQueued worker op)
    {next : RedWorker} (stepped : worker.stepFree op = some next) : FlagInv next := by
  cases op with
  | paint =>
      cases stepped
      refine ⟨inv.shown, fun place client found => ?_⟩
      have recorded := inv.recorded place client found
      exact ⟨fun dequeued isDequeued => Nat.le_succ_of_le (recorded.painted dequeued isDequeued), recorded.dropped⟩
  | pipeAdd index position item =>
      cases stepped
      apply inv.modifyClient
      · intro client _ _ shown
        split
        · exact fun connected isStale => waits_insert (shown connected isStale) position item
        · exact shown
      · intro client recorded
        split
        · exact ⟨recorded.painted, recorded.dropped⟩
        · exact recorded
  | pipeRemove index position =>
      cases stepped
      apply inv.modifyClient
      · intro client found clear _ connected isStale
        exact clears free clear client found connected ((inv.recorded index client found).dropped isStale)
      · exact fun _ recorded => ⟨recorded.painted, recorded.dropped⟩
  | sendNext index now encoding writes => exact inv.sendNext free clears stepped
  | resume index writes => exact inv.resume stepped
  | acked index messagesWindow =>
      cases stepped
      exact inv.modifyClient (fun _ _ _ shown => shown) (fun _ recorded => ⟨recorded.painted, recorded.dropped⟩)
  | connect header handleAcks clientWindow =>
      cases stepped
      exact inv.connect (clears free) header handleAcks clientWindow
  | disconnect index =>
      cases stepped
      apply inv.modifyClient
      · intro client _ _ _
        apply shown_withRcc
        intro connected
        cases connected
      · exact fun _ recorded => ⟨recorded.painted, recorded.dropped⟩
  | poll now =>
      cases stepped
      unfold RedWorker.poll
      split
      · exact ⟨inv.shown, inv.recorded⟩
      · exact inv
  | insertNext now encoding writes =>
      cases stepped
      exact inv

/-- Every step that clears the flag with a picture keeps the invariant. -/
theorem step (inv : FlagInv worker) {op : Op} (clears : ClearsQueued worker op) {next : RedWorker}
    (stepped : worker.step op = some next) : FlagInv next := by
  unfold RedWorker.step at stepped
  cases stopped : worker.stopped with
  | true =>
      rw [stopped, if_pos rfl] at stepped
      cases stepped
      exact inv
  | false =>
      rw [stopped, if_neg (by decide)] at stepped
      cases inserting : worker.inserting with
      | none =>
          rw [inserting] at stepped
          exact inv.stepFree inserting clears stepped
      | some index =>
          rw [inserting] at stepped
          cases op with
          | insertNext now encoding writes => exact inv.insertNext inserting clears stepped
          | _ =>
              cases stepped
              exact inv

end FlagInv

/-- When the pipes are empty and no frame was dropped, each client's last frame was made
of the canvas as it was after its last drawable was taken from the pipe. -/
theorem final_picture_sent (ops : List Op) (worker : RedWorker)
    (clears : Meets RedWorker.step (fun _ worker op => ClearsQueued worker op) [] RedWorker.init ops)
    (ran : run RedWorker.step RedWorker.init ops = some worker) (kept : worker.lastDrop = false)
    (client : DisplayChannelClient) (member : client ∈ worker.clients) (connected : client.rcc.connected = true)
    (isEmpty : client.pipe = []) (dequeued : Nat) (isDequeued : client.dequeued = some dequeued) :
    Exists fun encoded => client.encoded = some encoded ∧ dequeued ≤ encoded := by
  have keep : forall (_ : List Op) (worker : RedWorker) (op : Op) (next : RedWorker), FlagInv worker ->
      ClearsQueued worker op -> worker.step op = some next -> FlagInv next :=
    fun _ _ _ _ inv clears stepped => inv.step clears stepped
  have start : FlagInv RedWorker.init :=
    ⟨fun _ _ _ found => absurd found (by simp [RedWorker.init]),
      fun _ _ found => absurd found (by simp [RedWorker.init])⟩
  have inv : FlagInv worker := run_invariant_of_meets keep ops [] RedWorker.init worker start clears ran
  rcases List.mem_iff_getElem?.mp member with ⟨place, found⟩
  have shown := inv.shown kept place client found connected
  have fresh : client.stale = false := by
    cases isStale : client.stale with
    | false => rfl
    | true =>
        have waits := shown isStale
        rw [DisplayChannelClient.waits, isEmpty] at waits
        cases waits
  unfold DisplayChannelClient.stale at fresh
  rw [isDequeued] at fresh
  cases isEncoded : client.encoded with
  | none =>
      rw [isEncoded] at fresh
      cases fresh
  | some encoded =>
      rw [isEncoded] at fresh
      exact ⟨encoded, rfl, Nat.le_of_not_lt (of_decide_eq_false fresh)⟩

/-- `OthersWait`, evaluated. -/
def RedWorker.othersWait (worker : RedWorker) (index : Option Nat) : Bool :=
  (List.range worker.clients.length).all (fun place =>
    decide (some place = index) || worker.clients[place]?.all (fun client => !client.rcc.connected || client.waits))

theorem othersWait_sound {worker : RedWorker} {index : Option Nat} (checked : worker.othersWait index = true) :
    worker.OthersWait index := by
  intro place client different found connected
  have inside : place ∈ List.range worker.clients.length := List.mem_range.mpr (List.getElem?_eq_some_iff.mp found).1
  have waits := List.all_eq_true.mp checked place inside
  rw [decide_eq_false different, Bool.false_or, found, Option.all_some, connected, Bool.not_true,
    Bool.false_or] at waits
  exact waits

/-- `ClearsQueued`, evaluated. -/
def clearsQueued (worker : RedWorker) : Op -> Bool
  | .connect _ _ _ => !worker.lastDrop || worker.othersWait none
  | .pipeRemove index position =>
      worker.lastDrop || worker.clients[index]?.all (fun client => !client.dropped ||
        DisplayChannelClient.waits { client with pipe := client.pipe.eraseIdx position })
  | other =>
      (worker.encodesFor other).all (fun pair =>
        (match pair.2 with
          | .output _ => true
          | _ => false) && (!worker.lastDrop || worker.othersWait (some pair.1)))

/-- The check of a step of the witness. -/
theorem queued_of_encodes {worker : RedWorker} {op : Op} (checked : ((worker.encodesFor op).all (fun pair =>
        (match pair.2 with
          | .output _ => true
          | _ => false) && (!worker.lastDrop || worker.othersWait (some pair.1)))) = true) :
    forall index encoding, worker.encodesFor op = some (index, encoding) ->
      (Exists fun frame => encoding = .output frame) ∧ (worker.lastDrop = true -> worker.OthersWait (some index)) := by
  intro index encoding encodes
  rw [encodes, Option.all_some, Bool.and_eq_true] at checked
  refine ⟨?_, fun flag => ?_⟩
  · cases encoding with
    | output frame => exact ⟨frame, rfl⟩
    | failed => cases checked.1
    | unset stray => cases checked.1
  · have wait := checked.2
    rw [flag, Bool.not_true, Bool.false_or] at wait
    exact othersWait_sound wait

theorem clearsQueued_sound {worker : RedWorker} {op : Op} (checked : clearsQueued worker op = true) :
    ClearsQueued worker op := by
  cases op with
  | connect header handleAcks clientWindow =>
      intro _ flag
      rw [clearsQueued, flag, Bool.not_true, Bool.false_or] at checked
      exact othersWait_sound checked
  | pipeRemove index position =>
      intro _ clear client found _ dropped
      rw [clearsQueued, clear, Bool.false_or, found, Option.all_some, dropped, Bool.not_true, Bool.false_or] at checked
      exact checked
  | _ => exact queued_of_encodes checked

/-- One client: a frame is sent, the next one dropped, and one inserted. -/
def singleRun : List Op :=
  [.connect .mini false 20, .paint, .pipeAdd 0 0 .draw, .sendNext 0 ⟨10, 0⟩ (.output ⟨[1], [2, 3]⟩) [.accept 100],
    .paint, .pipeAdd 0 0 .draw, .sendNext 0 ⟨10, 10000⟩ (.output ⟨[1], [4, 5]⟩) [.accept 100],
    .poll ⟨12, 0⟩, .insertNext ⟨12, 0⟩ (.output ⟨[1], [6, 7]⟩) [.accept 100], .insertNext ⟨12, 0⟩ (.output ⟨[], []⟩) []]

/-- What can be said about the picture of a client. -/
structure Picture where
  connected : Bool
  isEmpty : Bool
  dequeued : Option Nat
  encoded : Option Nat
  deriving DecidableEq

def DisplayChannelClient.picture (client : DisplayChannelClient) : Picture where
  connected := client.rcc.connected
  isEmpty := client.pipe.isEmpty
  dequeued := client.dequeued
  encoded := client.encoded

/-- The flag and the clients after a run. -/
def pictures (ops : List Op) : List Bool × List Picture :=
  match run RedWorker.step RedWorker.init ops with
  | none => ([], [])
  | some worker => ([worker.lastDrop], worker.clients.map DisplayChannelClient.picture)

theorem pictures_of_run {ops : List Op} {worker : RedWorker} {flag : Bool} {shown : List Picture}
    (ran : run RedWorker.step RedWorker.init ops = some worker) (isShown : pictures ops = ([flag], shown)) :
    worker.lastDrop = flag ∧ worker.clients.map DisplayChannelClient.picture = shown := by
  simp only [pictures, ran, Prod.mk.injEq, List.cons.injEq, and_true] at isShown
  exact isShown

theorem final_picture_sent_inserted :
    Exists fun worker => Exists fun client => run RedWorker.step RedWorker.init singleRun = some worker ∧
      client ∈ worker.clients ∧ client.dequeued = some 2 ∧
        Exists fun encoded => client.encoded = some encoded ∧ 2 ≤ encoded := by
  have shape : pictures singleRun = ([false], [⟨true, true, some 2, some 2⟩]) := by decide +kernel
  cases ran : run RedWorker.step RedWorker.init singleRun with
  | none =>
      simp only [pictures, ran] at shape
      cases shape
  | some worker =>
      rcases pictures_of_run ran shape with ⟨kept, isClients⟩
      rcases List.map_eq_cons_iff.mp isClients with ⟨client, others, split, isPicture, -⟩
      have member : client ∈ worker.clients := by
        rw [split]
        exact List.mem_cons_self
      have connected : client.rcc.connected = true := congrArg Picture.connected isPicture
      have isEmpty : client.pipe = [] := List.isEmpty_iff.mp (congrArg Picture.isEmpty isPicture)
      have dequeued : client.dequeued = some 2 := congrArg Picture.dequeued isPicture
      have sound : forall (_ : List Op) (worker : RedWorker) (op : Op), clearsQueued worker op = true ->
          ClearsQueued worker op := fun _ _ _ checked => clearsQueued_sound checked
      have checked : checkRun RedWorker.step clearsQueued RedWorker.init singleRun = true := by decide +kernel
      have meets := Meets.of_check sound singleRun [] RedWorker.init checked
      exact ⟨worker, client, rfl, member, dequeued,
        final_picture_sent singleRun worker meets ran kept client member connected isEmpty 2 dequeued⟩

/-- Two drawables for two clients.  The first client is blocked when the frames of the
second one are dropped, and is sent another frame later. -/
def staleRun : List Op :=
  [.connect .mini false 20, .connect .mini false 20, .paint, .pipeAdd 0 0 .draw, .pipeAdd 1 0 .draw,
    .paint, .pipeAdd 0 1 .draw, .pipeAdd 1 1 .draw, .sendNext 0 ⟨10, 0⟩ (.output ⟨[1], [2, 3]⟩) [.accept 4],
    .sendNext 1 ⟨10, 10000⟩ (.output ⟨[1], [4, 5]⟩) [.accept 100],
      .sendNext 1 ⟨10, 20000⟩ (.output ⟨[1], [4, 5]⟩) [.accept 100],
    .resume 0 [.accept 100], .sendNext 0 ⟨10, 50000⟩ (.output ⟨[1], [6, 7]⟩) [.accept 100]]

/-- The pipes are empty and the flag is clear, and the second client was sent no frame. -/
theorem stale_client_forgotten :
    Exists fun worker => run RedWorker.step RedWorker.init staleRun = some worker ∧ worker.lastDrop = false ∧
      (forall client, client ∈ worker.clients -> client.pipe = [] ∧ client.rcc.connected = true) ∧
      Exists fun client => client ∈ worker.clients ∧ client.dequeued = some 2 ∧ client.encoded = none := by
  have shape : pictures staleRun = ([false], [⟨true, true, some 2, some 2⟩, ⟨true, true, some 2, none⟩]) := by
    decide +kernel
  cases ran : run RedWorker.step RedWorker.init staleRun with
  | none =>
      simp only [pictures, ran] at shape
      cases shape
  | some worker =>
      rcases pictures_of_run ran shape with ⟨kept, isClients⟩
      refine ⟨worker, rfl, kept, ?_, ?_⟩
      · intro client member
        have isPicture := List.mem_map_of_mem (f := DisplayChannelClient.picture) member
        rw [isClients] at isPicture
        have bright : client.picture.isEmpty = true ∧ client.picture.connected = true := by
          rcases List.mem_cons.mp isPicture with first | rest
          · exact ⟨congrArg Picture.isEmpty first, congrArg Picture.connected first⟩
          · have second := List.mem_singleton.mp rest
            exact ⟨congrArg Picture.isEmpty second, congrArg Picture.connected second⟩
        exact ⟨List.isEmpty_iff.mp bright.1, bright.2⟩
      · have isSecond : Picture.mk true true (some 2) none ∈ worker.clients.map DisplayChannelClient.picture := by
          rw [isClients]
          exact List.mem_cons_of_mem _ List.mem_cons_self
        rcases List.mem_map.mp isSecond with ⟨client, member, isPicture⟩
        exact ⟨client, member, congrArg Picture.dequeued isPicture, congrArg Picture.encoded isPicture⟩

end Avc
end Spice
