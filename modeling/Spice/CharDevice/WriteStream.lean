import Spice.CharDevice.WriteTokens

namespace Spice
namespace CharDevice

open Lib

variable {Msg : Type}

/-!
# The stream of written bytes

`spice_char_device_write_to_device` takes buffers from the write queue and
offers them to the device, which may accept any part.  A cursor remembers how
far the current buffer was accepted.  What the device accepted, followed by
the rest of the current buffer and the queue, is always what was added.

The loop tells a completed buffer by the count that `sif->write` returns, and
it looks at that count only when it is positive.  A buffer without bytes is
therefore never completed: the device accepts all of it, zero bytes, and the
loop takes this for a device that accepts nothing.
-/

/-- The bytes of the buffer handed to `spice_char_device_write_buffer_add`. -/
def addedBytes (e : Exec Msg) : Event Msg -> List UInt8
  | .call (.writeBufferAdd key) =>
      match e.held.find? (fun buf => buf.key = key) with
      | none => []
      | some buf => buf.buf
  | _ => []

/-- The bytes that the device accepts when `sif->write` returns. -/
def acceptedBytes (e : Exec Msg) : Event Msg -> List UInt8
  | .wrote n =>
      match e.dev.curWriteBuf with
      | none => []
      | some buf => (buf.buf.drop e.dev.curWriteBufPos).take n.toNat
  | _ => []

/-- The device together with all bytes added and all bytes accepted so far. -/
structure Written (Msg : Type) where
  exec : Exec Msg
  added : List UInt8
  accepted : List UInt8

namespace Written

def step (w : Written Msg) (event : Event Msg) : Option (Written Msg) :=
  (w.exec.step event).map fun next =>
    { exec := next
      added := w.added ++ addedBytes w.exec event
      accepted := w.accepted ++ acceptedBytes w.exec event }

def start (Msg : Type) (clientTokensInterval selfTokens : Nat) : Written Msg where
  exec := stateCreate Msg clientTokensInterval selfTokens
  added := []
  accepted := []

end Written

/-- The events of a run in which no buffer is thrown away: no client is removed
and the device is not reset. -/
def keepsBuffers : Event Msg -> Bool
  | .call (.clientRemove _) => false
  | .call .reset => false
  | _ => true

def addsBytes (e : Exec Msg) : Event Msg -> Bool
  | .call (.writeBufferAdd key) =>
      match e.held.find? (fun buf => buf.key = key) with
      | none => true
      | some buf => !buf.buf.isEmpty
  | _ => true

/-- What is still to be offered: the rest of the current buffer, then the queue. -/
def pending (dev : SpiceCharDeviceState Msg) : List UInt8 :=
  (match dev.curWriteBuf with
    | none => []
    | some buf => buf.buf.drop dev.curWriteBufPos) ++ dev.writeQueue.flatMap (fun buf => buf.buf)

/-- The places that touch the queue or the current buffer. -/
def Frame.isWriting : Frame Msg -> Bool
  | .writeLoop _ => true
  | .writeCall _ _ => true
  | .resetQueue => true
  | .resetCur => true
  | .queueFree _ .remove => true
  | _ => false

def Exec.writing (e : Exec Msg) : List (Frame Msg) := e.stack.filter Frame.isWriting

def Exec.clientIds (e : Exec Msg) : List Nat := e.dev.clients.map (fun devClient => devClient.client)

/-- A step that leaves the writing side alone. -/
structure WriteSame (e next : Exec Msg) : Prop where
  queue : next.dev.writeQueue = e.dev.writeQueue
  cur : next.dev.curWriteBuf = e.dev.curWriteBuf
  pos : next.dev.curWriteBufPos = e.dev.curWriteBufPos
  during : next.dev.duringWriteToDevice = e.dev.duringWriteToDevice
  held : next.held = e.held
  clients : next.clientIds = e.clientIds
  writing : next.writing = e.writing

variable {rest : List (Frame Msg)} {frame : Frame Msg}

namespace WriteSame

variable {e next : Exec Msg}

theorem refl (e : Exec Msg) : WriteSame e e := ⟨rfl, rfl, rfl, rfl, rfl, rfl, rfl⟩

theorem trans {third : Exec Msg} (one : WriteSame e next) (two : WriteSame next third) : WriteSame e third :=
  ⟨two.queue.trans one.queue, two.cur.trans one.cur, two.pos.trans one.pos, two.during.trans one.during,
    two.held.trans one.held, two.clients.trans one.clients, two.writing.trans one.writing⟩

theorem setClient_ids (dev : SpiceCharDeviceState Msg) (key : Nat)
    (change : SpiceCharDeviceClientState Msg -> SpiceCharDeviceClientState Msg)
    (keeps : forall devClient, (change devClient).client = devClient.client) :
    (dev.setClient key change).clients.map (fun devClient => devClient.client) =
      dev.clients.map (fun devClient => devClient.client) := by
  simp only [SpiceCharDeviceState.setClient, List.map_map]
  apply List.map_congr_left
  intro devClient _
  simp only [Function.comp]
  split
  · exact keeps devClient
  · rfl

theorem push (e : Exec Msg) (quiet : frame.isWriting = false) : WriteSame e (e.push frame) := by
  refine ⟨rfl, rfl, rfl, rfl, rfl, rfl, ?_⟩
  simp only [Exec.writing, Exec.push]
  rw [List.filter_cons_of_neg (by rw [quiet]; exact Bool.false_ne_true)]

theorem ret (top : e.stack = frame :: rest) (quiet : frame.isWriting = false) (result : Nat) :
    WriteSame e (e.ret result) := by
  refine ⟨rfl, rfl, rfl, rfl, rfl, rfl, ?_⟩
  simp only [Exec.writing, Exec.ret, top, List.tail_cons]
  rw [List.filter_cons_of_neg (by rw [quiet]; exact Bool.false_ne_true)]

theorem goto (top : e.stack = frame :: rest)
    (quiet : frame.isWriting = false) (other : Frame Msg) (otherQuiet : other.isWriting = false) :
    WriteSame e (e.goto other) := by
  refine ⟨rfl, rfl, rfl, rfl, rfl, rfl, ?_⟩
  simp only [Exec.writing, Exec.goto, top, List.tail_cons]
  rw [List.filter_cons_of_neg (by rw [otherQuiet]; exact Bool.false_ne_true),
    List.filter_cons_of_neg (by rw [quiet]; exact Bool.false_ne_true)]

theorem abort (e : Exec Msg) (reason : Assertion) : WriteSame e (e.abort reason) :=
  ⟨rfl, rfl, rfl, rfl, rfl, rfl, rfl⟩

theorem observe (e : Exec Msg) (obs : Obs Msg) : WriteSame e (e.observe obs) :=
  ⟨rfl, rfl, rfl, rfl, rfl, rfl, rfl⟩

theorem readFromDevice (e : Exec Msg) : WriteSame e e.readFromDevice := by
  unfold Exec.readFromDevice
  split
  · exact ⟨rfl, rfl, rfl, rfl, rfl, rfl, rfl⟩
  · split
    · exact ⟨rfl, rfl, rfl, rfl, rfl, rfl, rfl⟩
    · exact ⟨rfl, rfl, rfl, rfl, rfl, rfl, rfl⟩

theorem readEnd (top : e.stack = frame :: rest)
    (quiet : frame.isWriting = false) (didRead : Bool) : WriteSame e (e.readEnd didRead) := by
  have left := ret top quiet didRead.toNat
  unfold Exec.readEnd
  split
  · exact ⟨rfl, rfl, rfl, rfl, rfl, rfl, left.writing⟩
  · exact ⟨rfl, rfl, rfl, rfl, rfl, rfl, left.writing⟩

theorem readRound {maxSendTokens : Nat} {didRead : Bool}
    (top : e.stack = .readLoop maxSendTokens didRead :: rest) : WriteSame e (e.readRound maxSendTokens didRead) := by
  unfold Exec.readRound
  split
  · exact goto top rfl (.readCall maxSendTokens didRead) rfl
  · exact readEnd top rfl didRead

theorem readOne {maxSendTokens : Nat} {didRead : Bool}
    (top : e.stack = .readCall maxSendTokens didRead :: rest) (msg : Option Msg) :
    WriteSame e (e.readOne msg maxSendTokens didRead) := by
  cases msg with
  | none =>
      unfold Exec.readOne
      simp only
      split
      · have moved := goto top rfl (.readLoop maxSendTokens didRead) rfl
        exact ⟨rfl, rfl, rfl, rfl, rfl, rfl, moved.writing⟩
      · exact readEnd top rfl didRead
  | some msg =>
      have moved := goto top rfl (.readUnref maxSendTokens) rfl
      exact ⟨rfl, rfl, rfl, rfl, rfl, rfl, moved.writing⟩

/-- Sending does not touch what is written. -/
theorem sendRound {msg : Msg} {item : Option Nat}
    (top : e.stack = .sendLoop msg item :: rest) (done : e.sendRound msg item = some next) : WriteSame e next := by
  cases item with
  | none =>
      cases done
      exact ret top rfl 0
  | some key =>
      simp only [Exec.sendRound] at done
      split at done
      · cases done
      · next devClient _ =>
          have moved := (goto top rfl (.sendLoop msg (e.dev.clientAfter key)) rfl).writing
          split at done
          · split at done
            · cases done
              exact ⟨rfl, rfl, rfl, rfl, rfl, setClient_ids e.dev key spendSendToken (fun _ => rfl), moved⟩
            · cases done
              exact ⟨rfl, rfl, rfl, rfl, rfl, setClient_ids e.dev key spendSendToken (fun _ => rfl), moved⟩
          · split at done
            · cases done
              exact ⟨rfl, rfl, rfl, rfl, rfl, rfl, moved⟩
            · cases done
              refine ⟨rfl, rfl, rfl, rfl, rfl, ?_, moved⟩
              apply setClient_ids
              exact fun _ => rfl

theorem pushRound {key : Nat} (top : e.stack = .pushLoop key :: rest)
    (done : e.pushRound key = some next) : WriteSame e next := by
  simp only [Exec.pushRound] at done
  split at done
  · cases done
  · split at done
    · cases done
      exact ret top rfl 0
    · split at done
      · cases done
        refine ⟨rfl, rfl, rfl, rfl, rfl, ?_, (goto top rfl (.pushUnref key) rfl).writing⟩
        apply setClient_ids
        exact fun _ => rfl
      · cases done
        exact ret top rfl 0

theorem pushNext {key : Nat} (top : e.stack = .pushUnref key :: rest) (done : e.pushNext key = some next) :
    WriteSame e next := by
  simp only [Exec.pushNext] at done
  split at done
  · cases done
  · cases done
    refine ⟨rfl, rfl, rfl, rfl, rfl, ?_, (goto top rfl (.pushLoop key) rfl).writing⟩
    apply setClient_ids
    exact fun _ => rfl

theorem tokensAbsorb (e : Exec Msg) (devClient : SpiceCharDeviceClientState Msg) (tokens : Nat) :
    WriteSame e (e.tokensAbsorb devClient tokens) := by
  have clients : (e.dev.setClient devClient.key (fun c =>
      { c with numSendTokens := add64 devClient.numSendTokens tokens })).clients.map (fun c => c.client) =
        e.dev.clients.map (fun c => c.client) := setClient_ids _ _ _ (fun _ => rfl)
  unfold Exec.tokensAbsorb
  simp only
  split
  · exact ⟨rfl, rfl, rfl, rfl, rfl, clients, rfl⟩
  · split
    · exact ⟨rfl, rfl, rfl, rfl, rfl, clients, rfl⟩
    · exact ⟨rfl, rfl, rfl, rfl, rfl, clients, rfl⟩

/-- Granting tokens does not touch what is written. -/
theorem absorbRest {key : Nat} (top : e.stack = .absorbEnd key :: rest)
    (done : e.absorbRest key = some next) : WriteSame e next := by
  have left := (ret top rfl 0).writing
  simp only [Exec.absorbRest] at done
  split at done
  · cases done
  · split at done
    · cases done
      have absorbed : WriteSame e (({ e with dev := e.dev.setClient key (fun c =>
          { c with waitForTokensStarted := false }) } : Exec Msg).ret 0) := by
        refine ⟨rfl, rfl, rfl, rfl, rfl, ?_, left⟩
        apply setClient_ids
        exact fun _ => rfl
      exact absorbed.trans (readFromDevice _)
    · split at done
      · cases done
        refine ⟨rfl, rfl, rfl, rfl, rfl, ?_, left⟩
        apply setClient_ids
        exact fun _ => rfl
      · cases done
        exact ret top rfl 0

theorem queueFreeRound {key : Nat} (top : e.stack = .queueFree key .reset :: rest)
    (done : e.queueFreeRound key .reset = some next) : WriteSame e next := by
  simp only [Exec.queueFreeRound] at done
  split at done
  · cases done
  · split at done
    · cases done
      refine ⟨rfl, rfl, rfl, rfl, rfl, ?_, rfl⟩
      apply setClient_ids
      exact fun _ => rfl
    · cases done
      refine ⟨rfl, rfl, rfl, rfl, rfl, ?_, (goto top rfl (.resetClients _) rfl).writing⟩
      apply setClient_ids
      exact fun _ => rfl

theorem poolAdd (e : Exec Msg) (buf : SpiceCharDeviceWriteBuffer) :
    WriteSame e { e with dev := e.dev.writeBufferPoolAdd buf } := by
  unfold SpiceCharDeviceState.writeBufferPoolAdd
  split <;> exact ⟨rfl, rfl, rfl, rfl, rfl, rfl, rfl⟩

theorem clientTokensAdd (e : Exec Msg) (devClient : SpiceCharDeviceClientState Msg) (numTokens : Nat) :
    WriteSame e { e with dev := (e.dev.clientTokensAdd devClient numTokens).1 } := by
  unfold SpiceCharDeviceState.clientTokensAdd
  simp only
  split
  · split
    · refine ⟨rfl, rfl, rfl, rfl, rfl, ?_, rfl⟩
      apply setClient_ids
      exact fun _ => rfl
    · refine ⟨rfl, rfl, rfl, rfl, rfl, ?_, rfl⟩
      apply setClient_ids
      exact fun _ => rfl
  · exact refl e

theorem writeBufferRelease (e : Exec Msg) (buf : SpiceCharDeviceWriteBuffer) :
    WriteSame e (e.writeBufferRelease buf) := by
  refine (poolAdd e buf).trans ?_
  unfold Exec.writeBufferRelease
  generalize ({ e with dev := e.dev.writeBufferPoolAdd buf } : Exec Msg) = pooled
  cases buf.origin with
  | client =>
      simp only
      split
      · exact abort pooled _
      · next devClient _ =>
          have paid := clientTokensAdd pooled devClient buf.tokenPrice
          split
          · next dev sent =>
              rw [sent] at paid
              exact paid.trans (push _ rfl)
          · next dev notSent =>
              rw [notSent] at paid
              exact paid
  | server => exact ⟨rfl, rfl, rfl, rfl, rfl, rfl, rfl⟩
  | none => exact refl pooled
  | serverNoToken => exact refl pooled

end WriteSame

/-- At most one call of `spice_char_device_write_to_device` is in progress, and
inside `sif->write` the device was offered the rest of the current buffer. -/
inductive WriteFrames (e : Exec Msg) : Prop
  | idle (writing : e.writing = []) (during : e.dev.duringWriteToDevice = 0)
  | loop (total : Nat) (writing : e.writing = [.writeLoop total]) (during : 0 < e.dev.duringWriteToDevice)
  | call (writeLen total : Nat) (buf : SpiceCharDeviceWriteBuffer) (writing : e.writing = [.writeCall writeLen total])
      (during : 0 < e.dev.duringWriteToDevice) (cur : e.dev.curWriteBuf = some buf)
      (offered : writeLen = buf.buf.length - e.dev.curWriteBufPos)

/-- The owner of every outstanding buffer of a client is attached. -/
def Owned (e : Exec Msg) : Prop :=
  forall buf, buf ∈ outstanding e -> buf.origin = .client ->
    Exists fun client => client ∈ e.clientIds ∧ buf.client = some client

/-- Whatever the device is offered has bytes. -/
structure Offers (dev : SpiceCharDeviceState Msg) : Prop where
  queue : forall buf, buf ∈ dev.writeQueue -> buf.buf ≠ []
  cur : forall buf, dev.curWriteBuf = some buf -> dev.curWriteBufPos < buf.buf.length

/-- The accepted bytes and the pending ones are those that were added.  When
`full` holds, all buffers that were added have bytes. -/
structure Streaming (full : Prop) (w : Written Msg) : Prop where
  balance : w.accepted ++ pending w.exec.dev = w.added
  frames : WriteFrames w.exec
  owned : Owned w.exec
  offers : full -> Offers w.exec.dev

/-- A step that moves no bytes. -/
structure DataSame (e next : Exec Msg) : Prop where
  queue : next.dev.writeQueue = e.dev.writeQueue
  cur : next.dev.curWriteBuf = e.dev.curWriteBuf
  pos : next.dev.curWriteBufPos = e.dev.curWriteBufPos
  held : next.held = e.held
  clients : next.clientIds = e.clientIds

theorem WriteSame.data {e next : Exec Msg} (same : WriteSame e next) : DataSame e next :=
  ⟨same.queue, same.cur, same.pos, same.held, same.clients⟩

namespace DataSame

variable {e next : Exec Msg}

theorem pending (same : DataSame e next) : pending next.dev = CharDevice.pending e.dev := by
  rw [CharDevice.pending, same.queue, same.cur, same.pos]
  rfl

theorem owned (same : DataSame e next) (owned : Owned e) : Owned next := by
  intro buf member origin
  rw [outstanding_eq same.held same.queue same.cur] at member
  rw [same.clients]
  exact owned buf member origin

theorem writeToDevice (e : Exec Msg) : DataSame e e.writeToDevice := by
  unfold Exec.writeToDevice
  split
  · exact ⟨rfl, rfl, rfl, rfl, rfl⟩
  · split
    · exact ⟨rfl, rfl, rfl, rfl, rfl⟩
    · exact ⟨rfl, rfl, rfl, rfl, rfl⟩

theorem writeEnd (e : Exec Msg) (total : Nat) : DataSame e (e.writeEnd total) := by
  unfold Exec.writeEnd
  split
  · split
    · exact ⟨rfl, rfl, rfl, rfl, rfl⟩
    · exact ⟨rfl, rfl, rfl, rfl, rfl⟩
  · exact ⟨rfl, rfl, rfl, rfl, rfl⟩

end DataSame

namespace WriteFrames

variable {e next : Exec Msg}

theorem same (frames : WriteFrames e) (same : WriteSame e next) : WriteFrames next := by
  cases frames with
  | idle writing during => exact .idle (same.writing.trans writing) (same.during.trans during)
  | loop total writing during => exact .loop total (same.writing.trans writing) (by rw [same.during]; exact during)
  | call writeLen total buf writing during cur offered =>
      refine .call writeLen total buf (same.writing.trans writing) (by rw [same.during]; exact during)
        (same.cur.trans cur) ?_
      rw [same.pos]
      exact offered

/-- Only one writing is in progress. -/
theorem writeToDevice (frames : WriteFrames e) : WriteFrames e.writeToDevice := by
  unfold Exec.writeToDevice
  split
  · cases frames with
    | idle writing during => exact .idle writing during
    | loop total writing during => exact .loop total writing during
    | call writeLen total buf writing during cur offered =>
        exact .call writeLen total buf writing during cur offered
  · split
    · next entered =>
        cases frames with
        | idle writing during => exact absurd entered (by rw [during]; exact Nat.lt_irrefl 0)
        | loop total writing during => exact .loop total writing (Nat.succ_pos _)
        | call writeLen total buf writing during cur offered =>
            exact .call writeLen total buf writing (Nat.succ_pos _) cur offered
    · next entered =>
        cases frames with
        | idle writing during =>
            refine .loop 0 ?_ (Nat.succ_pos _)
            show List.filter Frame.isWriting (.writeLoop 0 :: e.stack) = [.writeLoop 0]
            rw [List.filter_cons_of_pos rfl]
            exact congrArg _ writing
        | loop total writing during => exact absurd during entered
        | call writeLen total buf writing during cur offered => exact absurd during entered

theorem below (frames : WriteFrames e) (top : e.stack = frame :: rest)
    (writes : frame.isWriting = true) : rest.filter Frame.isWriting = [] ∧ 0 < e.dev.duringWriteToDevice := by
  have split : e.writing = frame :: rest.filter Frame.isWriting := by
    rw [Exec.writing, top, List.filter_cons_of_pos writes]
  cases frames with
  | idle writing during =>
      rw [writing] at split
      cases split
  | loop total writing during =>
      rw [writing] at split
      exact ⟨(List.cons.inj split).2.symm, during⟩
  | call writeLen total buf writing during cur offered =>
      rw [writing] at split
      exact ⟨(List.cons.inj split).2.symm, during⟩

/-- The place where a writing is. -/
theorem top_eq (frames : WriteFrames e) (top : e.stack = frame :: rest) (writes : frame.isWriting = true) :
    (Exists fun total => frame = .writeLoop total) ∨
      Exists fun writeLen => Exists fun total => Exists fun buf => frame = .writeCall writeLen total ∧
        e.dev.curWriteBuf = some buf ∧ writeLen = buf.buf.length - e.dev.curWriteBufPos := by
  have split : e.writing = frame :: rest.filter Frame.isWriting := by
    rw [Exec.writing, top, List.filter_cons_of_pos writes]
  cases frames with
  | idle writing during =>
      rw [writing] at split
      cases split
  | loop total writing during =>
      rw [writing] at split
      exact Or.inl ⟨total, (List.cons.inj split).1.symm⟩
  | call writeLen total buf writing during cur offered =>
      rw [writing] at split
      exact Or.inr ⟨writeLen, total, buf, (List.cons.inj split).1.symm, cur, offered⟩

theorem writeEnd (frames : WriteFrames e) (top : e.stack = frame :: rest)
    (writes : frame.isWriting = true) (total : Nat) : WriteFrames (e.writeEnd total) := by
  have below := (frames.below top writes).1
  have left : e.stack.tail.filter Frame.isWriting = [] := by
    rw [top, List.tail_cons]
    exact below
  unfold Exec.writeEnd
  split
  · split
    · exact frames.same (WriteSame.abort e _)
    · exact .idle left rfl
  · exact .idle left rfl

end WriteFrames

namespace Streaming

variable {full : Prop} {w : Written Msg} {next : Exec Msg}

/-- What does not touch the data keeps the stream. -/
theorem keep (streaming : Streaming full w) (same : DataSame w.exec next) (frames : WriteFrames next) :
    Streaming full ⟨next, w.added, w.accepted⟩ where
  balance := by
    show w.accepted ++ pending next.dev = w.added
    rw [same.pending]
    exact streaming.balance
  frames := frames
  owned := same.owned streaming.owned
  offers := fun holds => by
    have offers := streaming.offers holds
    refine ⟨?_, ?_⟩
    · show forall buf, buf ∈ next.dev.writeQueue -> buf.buf ≠ []
      rw [same.queue]
      exact offers.queue
    · show forall buf, next.dev.curWriteBuf = some buf -> next.dev.curWriteBufPos < buf.buf.length
      rw [same.cur, same.pos]
      exact offers.cur

theorem same (streaming : Streaming full w) (same : WriteSame w.exec next) :
    Streaming full ⟨next, w.added, w.accepted⟩ :=
  streaming.keep same.data (streaming.frames.same same)

theorem writeToDevice (streaming : Streaming full w) : Streaming full ⟨w.exec.writeToDevice, w.added, w.accepted⟩ :=
  streaming.keep (DataSame.writeToDevice w.exec) streaming.frames.writeToDevice

/-- The buffers that callers hold may change. -/
theorem reheld (streaming : Streaming full w) (held : List SpiceCharDeviceWriteBuffer)
    (owners : forall buf, buf ∈ held -> buf.origin = .client ->
      Exists fun client => client ∈ w.exec.clientIds ∧ buf.client = some client) :
    Streaming full ⟨{ w.exec with held := held }, w.added, w.accepted⟩ where
  balance := streaming.balance
  frames := by
    cases streaming.frames with
    | idle writing during => exact .idle writing during
    | loop total writing during => exact .loop total writing during
    | call writeLen total buf writing during cur offered =>
        exact .call writeLen total buf writing during cur offered
  owned := by
    intro buf member origin
    rcases List.mem_append.mp member with inHand | rest
    · exact owners buf inHand origin
    · exact streaming.owned buf (List.mem_append_right _ rest) origin
  offers := fun holds => ⟨(streaming.offers holds).queue, (streaming.offers holds).cur⟩

/-- A round takes the next buffer, or goes on with the current one. -/
theorem writeRound (streaming : Streaming full w) {total : Nat} (top : w.exec.stack = .writeLoop total :: rest) :
    Streaming full ⟨w.exec.writeRound total, w.added, w.accepted⟩ := by
  have below := streaming.frames.below top rfl
  have moved : forall writeLen, List.filter Frame.isWriting (.writeCall writeLen total :: w.exec.stack.tail) =
      [.writeCall writeLen total] := by
    intro writeLen
    rw [List.filter_cons_of_pos rfl, top, List.tail_cons, below.1]
  unfold Exec.writeRound
  split
  · split
    · next buf cur =>
        exact streaming.keep ⟨rfl, rfl, rfl, rfl, rfl⟩ (.call _ total buf (moved _) below.2 cur rfl)
    · next cur =>
        split
        · exact streaming.keep (DataSame.writeEnd w.exec total) (streaming.frames.writeEnd top rfl total)
        · next buf queue queued =>
            refine ⟨?_, .call _ total buf (moved _) below.2 rfl rfl, ?_, fun holds => ⟨?_, ?_⟩⟩
            · have balance := streaming.balance
              simp only [pending, cur, queued, List.nil_append, List.flatMap_cons] at balance
              simpa only [pending, Exec.goto, List.drop_zero] using balance
            · intro other member origin
              refine streaming.owned other ?_ origin
              simp only [outstanding, Exec.goto, List.mem_append, Option.toList, queued, cur, List.mem_cons,
                List.not_mem_nil, or_false] at member ⊢
              rcases member with inHand | inQueue | isCur
              · exact Or.inl inHand
              · exact Or.inr (Or.inr inQueue)
              · exact Or.inr (Or.inl isCur)
            · intro other member
              exact (streaming.offers holds).queue other (by rw [queued]; exact List.mem_cons_of_mem _ member)
            · intro other same
              cases same
              have some := (streaming.offers holds).queue buf (by rw [queued]; exact List.mem_cons_self)
              exact List.length_pos_iff.mpr some
  · exact streaming.keep (DataSame.writeEnd w.exec total) (streaming.frames.writeEnd top rfl total)

/-- `sif->write` returns. -/
theorem wrote (streaming : Streaming full w) {n : Int} {writeLen total : Nat}
    (top : w.exec.stack = .writeCall writeLen total :: rest) (done : w.exec.wrote n writeLen total = some next) :
    Streaming full ⟨next, w.added, w.accepted ++ acceptedBytes w.exec (.wrote n)⟩ := by
  have below := streaming.frames.below top rfl
  rcases streaming.frames.top_eq top rfl with ⟨other, absent⟩ | ⟨len, tot, buf, same, cur, offered⟩
  · cases absent
  · cases same
    have loops : forall total, List.filter Frame.isWriting (.writeLoop total :: w.exec.stack.tail) =
        [.writeLoop total] := by
      intro total
      rw [List.filter_cons_of_pos rfl, top, List.tail_cons, below.1]
    have accepted : acceptedBytes w.exec (.wrote n) = (buf.buf.drop w.exec.dev.curWriteBufPos).take n.toNat := by
      simp only [acceptedBytes, cur]
    rw [accepted]
    have balance := streaming.balance
    simp only [pending, cur] at balance
    unfold Exec.wrote at done
    split at done
    · next none =>
        rw [Int.toNat_of_nonpos none, List.take_zero, List.append_nil]
        split at done
        · cases done
          exact streaming.keep ⟨rfl, rfl, rfl, rfl, rfl⟩ (.loop total (loops total) (Nat.succ_pos 0))
        · cases done
          exact streaming.keep (DataSame.writeEnd w.exec total) (streaming.frames.writeEnd top rfl total)
    · split at done
      · cases done
      · next within =>
          split at done
          · next all =>
              rw [cur] at done
              cases done
              have whole : (buf.buf.drop w.exec.dev.curWriteBufPos).take n.toNat =
                  buf.buf.drop w.exec.dev.curWriteBufPos := by
                refine List.take_of_length_le ?_
                rw [List.length_drop]
                omega
              rw [whole]
              have taken : Streaming full
                  ⟨({ (w.exec.goto (.writeLoop (total + n.toNat))) with
                      dev := { (w.exec.goto (.writeLoop (total + n.toNat))).dev with curWriteBuf := none } } :
                        Exec Msg),
                    w.added, w.accepted ++ buf.buf.drop w.exec.dev.curWriteBufPos⟩ := by
                refine ⟨?_, .loop _ (loops _) below.2, ?_, fun holds => ⟨(streaming.offers holds).queue, ?_⟩⟩
                · simp only [pending, Exec.goto, List.nil_append, List.append_assoc]
                  exact balance
                · intro other member origin
                  refine streaming.owned other ?_ origin
                  simp only [outstanding, Exec.goto, Option.toList, List.append_nil, List.mem_append] at member ⊢
                  rcases member with inHand | inQueue
                  · exact Or.inl inHand
                  · exact Or.inr (Or.inl inQueue)
                · intro other absent
                  cases absent
              exact taken.same (WriteSame.writeBufferRelease _ _)
          · cases done
            refine ⟨?_, .loop _ (loops _) below.2, streaming.owned, fun holds => ⟨(streaming.offers holds).queue, ?_⟩⟩
            · simp only [pending, Exec.goto, cur]
              rw [List.append_assoc, ← List.append_assoc (List.take _ _), ← List.drop_drop, List.take_append_drop]
              exact balance
            · intro other same
              simp only [Exec.goto] at same ⊢
              rw [cur] at same
              cases same
              omega

/-- A buffer that is added is the last one to be written. -/
theorem writeBufferAdd (streaming : Streaming full w) {key : Nat} {buf : SpiceCharDeviceWriteBuffer}
    (found : w.exec.held.find? (fun other => other.key = key) = some buf) (bytes : full -> buf.buf ≠ []) :
    Streaming full ⟨({ w.exec with held := w.exec.held.eraseP (fun other => other.key = key) } :
    Exec Msg).writeBufferAdd buf,
      w.added ++ buf.buf, w.accepted⟩ := by
  have member : buf ∈ w.exec.held := List.mem_of_find?_eq_some found
  have attached : ¬ (buf.origin = .client ∧ buf.client.bind w.exec.dev.clientFind = none) := by
    rintro ⟨origin, missing⟩
    rcases streaming.owned buf (List.mem_append_left _ member) origin with ⟨client, isThere, owner⟩
    rcases List.mem_map.mp isThere with ⟨devClient, clientMember, same⟩
    rw [owner, Option.bind_some] at missing
    have notFound := List.find?_eq_none.mp missing devClient clientMember
    simp [same] at notFound
  unfold Exec.writeBufferAdd
  rw [if_neg attached]
  have queued : Streaming full
      ⟨({ w.exec with
          held := w.exec.held.eraseP (fun other => other.key = key)
          dev := { w.exec.dev with writeQueue := w.exec.dev.writeQueue ++ [buf] } } : Exec Msg),
        w.added ++ buf.buf, w.accepted⟩ := by
    refine ⟨?_, ?_, ?_, fun holds => ⟨?_, (streaming.offers holds).cur⟩⟩
    · show w.accepted ++ (_ ++ (w.exec.dev.writeQueue ++ [buf]).flatMap (fun buf => buf.buf)) = w.added ++ buf.buf
      rw [List.flatMap_append, List.flatMap_singleton, ← List.append_assoc, ← List.append_assoc]
      refine congrArg (· ++ buf.buf) ?_
      rw [List.append_assoc]
      exact streaming.balance
    · cases streaming.frames with
      | idle writing during => exact .idle writing during
      | loop total writing during => exact .loop total writing during
      | call writeLen total buf writing during cur offered =>
          exact .call writeLen total buf writing during cur offered
    · intro other isIn origin
      refine streaming.owned other ?_ origin
      simp only [outstanding, List.mem_append, List.mem_singleton] at isIn ⊢
      rcases isIn with inHand | (inQueue | isNew) | isCur
      · exact Or.inl (List.mem_of_mem_eraseP inHand)
      · exact Or.inr (Or.inl inQueue)
      · subst isNew
        exact Or.inl member
      · exact Or.inr (Or.inr isCur)
    · intro other isIn
      rcases List.mem_append.mp isIn with inQueue | isNew
      · exact (streaming.offers holds).queue other inQueue
      · rw [List.mem_singleton.mp isNew]
        exact bytes holds
  exact queued.writeToDevice

theorem takeBuffer_same (e : Exec Msg) (size : Nat) : WriteSame e (e.takeBuffer size).1 := by
  unfold Exec.takeBuffer
  split
  · exact ⟨rfl, rfl, rfl, rfl, rfl, rfl, rfl⟩
  · exact ⟨rfl, rfl, rfl, rfl, rfl, rfl, rfl⟩

theorem hold (streaming : Streaming full w) (buf : SpiceCharDeviceWriteBuffer)
    (owner : buf.origin = .client -> Exists fun client => client ∈ w.exec.clientIds ∧ buf.client = some client) :
    Streaming full ⟨w.exec.hold buf, w.added, w.accepted⟩ := by
  refine streaming.reheld (buf :: w.exec.held) (fun other member origin => ?_)
  rcases List.mem_cons.mp member with same | inHand
  · subst same
    exact owner origin
  · exact streaming.owned other (List.mem_append_left _ inHand) origin

/-- A buffer is handed out. -/
theorem writeBufferGet (streaming : Streaming full w) (client size : Nat) (origin : WriteBufferOrigin) :
    Streaming full ⟨w.exec.writeBufferGet client size origin, w.added, w.accepted⟩ := by
  unfold Exec.writeBufferGet
  split
  · exact streaming
  · have took := streaming.same (takeBuffer_same w.exec size)
    generalize w.exec.takeBuffer size = pair at took ⊢
    rcases pair with ⟨taken, buf⟩
    simp only at took ⊢
    split
    · exact took.same (WriteSame.abort taken _)
    · cases origin with
      | client =>
          simp only
          split
          · exact took.same ⟨rfl, rfl, rfl, rfl, rfl, rfl, rfl⟩
          · next devClient found =>
              have member : client ∈ taken.clientIds := by
                have same : devClient.client = client := by simpa using List.find?_some found
                rw [← same]
                exact List.mem_map.mpr ⟨devClient, List.mem_of_find?_eq_some found, rfl⟩
              split
              · split
                · exact took.same ⟨rfl, rfl, rfl, rfl, rfl, rfl, rfl⟩
                · have paid : WriteSame taken ({ taken with dev := taken.dev.setClient devClient.key (fun c =>
                      { c with numClientTokens := dec64 c.numClientTokens }) } : Exec Msg) := by
                    refine ⟨rfl, rfl, rfl, rfl, rfl, ?_, rfl⟩
                    apply WriteSame.setClient_ids
                    exact fun _ => rfl
                  refine (took.same paid).hold _ (fun _ => ⟨client, ?_, rfl⟩)
                  show client ∈ _
                  rw [paid.clients]
                  exact member
              · exact took.hold _ (fun _ => ⟨client, member, rfl⟩)
      | server =>
          have paid : WriteSame taken ({ taken with dev := { taken.dev with
              numSelfTokens := dec64 taken.dev.numSelfTokens } } : Exec Msg) := ⟨rfl, rfl, rfl, rfl, rfl, rfl, rfl⟩
          exact (took.same paid).hold _ (fun absent => by cases absent)
      | none => exact took.hold _ (fun absent => by cases absent)
      | serverNoToken => exact took.hold _ (fun absent => by cases absent)

theorem wakeup (streaming : Streaming full w) : Streaming full ⟨w.exec.wakeup, w.added, w.accepted⟩ := by
  have pushed : WriteSame w.exec (w.exec.push .wakeupRead) := WriteSame.push w.exec rfl
  exact (streaming.same pushed).writeToDevice

/-- A client that is added has no buffers. -/
theorem clientAdd (streaming : Streaming full w) (client : Nat) (flow : Bool)
    (maxQueue clientTokens sendTokens : Nat) (wait : Bool) :
    Streaming full ⟨w.exec.clientAdd client flow maxQueue clientTokens sendTokens wait, w.added, w.accepted⟩ := by
  unfold Exec.clientAdd
  split
  · exact streaming.same ⟨rfl, rfl, rfl, rfl, rfl, rfl, rfl⟩
  · simp only
    apply wakeup (w := ⟨_, w.added, w.accepted⟩)
    refine ⟨streaming.balance, ?_, ?_, fun holds => ⟨(streaming.offers holds).queue, (streaming.offers holds).cur⟩⟩
    · cases streaming.frames with
      | idle writing during => exact .idle writing during
      | loop total writing during => exact .loop total writing during
      | call writeLen total buf writing during cur offered =>
          exact .call writeLen total buf writing during cur offered
    · intro buf member origin
      rcases streaming.owned buf member origin with ⟨owner, isThere, same⟩
      exact ⟨owner, List.mem_cons_of_mem _ isThere, same⟩

/-- A call that drops no buffer keeps the stream. -/
theorem callStep (streaming : Streaming full w) {call : Call} (keeps : keepsBuffers (.call call : Event Msg) = true)
    (bytes : full -> addsBytes w.exec (.call call) = true) (done : w.exec.callStep call = some next) :
    Streaming full ⟨next, w.added ++ addedBytes w.exec (.call call), w.accepted⟩ := by
  cases call with
  | writeBufferAdd key =>
      simp only [Exec.callStep] at done
      split at done
      · cases done
      · next buf found =>
          cases done
          have added : addedBytes w.exec (.call (.writeBufferAdd key)) = buf.buf := by
            simp only [addedBytes, found]
          rw [added]
          refine streaming.writeBufferAdd found (fun holds => ?_)
          have some := bytes holds
          simp only [addsBytes, found, Bool.not_eq_true', List.isEmpty_eq_false_iff] at some
          exact some
  | clientAdd client flow maxQueue clientTokens sendTokens wait =>
      cases done
      simp only [addedBytes, List.append_nil]
      exact streaming.clientAdd client flow maxQueue clientTokens sendTokens wait
  | clientRemove client => cases keeps
  | sendToClientTokensAdd client tokens =>
      simp only [addedBytes, List.append_nil]
      simp only [Exec.callStep] at done
      split at done
      · cases done
        exact streaming.same (WriteSame.abort _ _)
      · cases done
        exact streaming.same ((WriteSame.observe _ _).trans (WriteSame.tokensAbsorb _ _ _))
  | sendToClientTokensSet client tokens =>
      simp only [addedBytes, List.append_nil]
      simp only [Exec.callStep] at done
      split at done
      · cases done
        exact streaming.same (WriteSame.abort _ _)
      · cases done
        exact streaming.same ((WriteSame.observe _ _).trans (WriteSame.tokensAbsorb _ _ _))
  | writeBufferGet client size =>
      simp only [addedBytes, List.append_nil]
      cases client with
      | some client =>
          cases done
          exact streaming.writeBufferGet client size .client
      | none =>
          cases done
          exact streaming.writeBufferGet 0 size .server
  | writeBufferGetServerNoToken size =>
      cases done
      simp only [addedBytes, List.append_nil]
      exact streaming.writeBufferGet 0 size .serverNoToken
  | writeBufferRelease key =>
      simp only [addedBytes, List.append_nil]
      simp only [Exec.callStep] at done
      split at done
      · cases done
      · next buf found =>
          cases done
          have released := streaming.reheld (w.exec.held.eraseP (fun other => other.key = key))
            (fun other member origin =>
              streaming.owned other (List.mem_append_left _ (List.mem_of_mem_eraseP member)) origin)
          exact released.same (WriteSame.writeBufferRelease _ _)
  | writeRetry =>
      cases done
      simp only [addedBytes, List.append_nil]
      exact streaming.writeToDevice
  | waitForTokensTimeout key =>
      simp only [addedBytes, List.append_nil]
      simp only [Exec.callStep] at done
      split at done
      · cases done
      · cases done
        exact streaming.same (WriteSame.push _ rfl)
  | start =>
      cases done
      simp only [addedBytes, List.append_nil]
      have started : WriteSame w.exec
          (({ w.exec with dev := { w.exec.dev with running := true } } : Exec Msg).push .startRead) :=
        ⟨rfl, rfl, rfl, rfl, rfl, rfl, rfl⟩
      exact (streaming.same started).writeToDevice
  | stop =>
      cases done
      simp only [addedBytes, List.append_nil]
      exact streaming.same ⟨rfl, rfl, rfl, rfl, rfl, rfl, rfl⟩
  | reset => cases keeps
  | resetDevInstance =>
      cases done
      simp only [addedBytes, List.append_nil]
      exact streaming.same ⟨rfl, rfl, rfl, rfl, rfl, rfl, rfl⟩
  | wakeup =>
      cases done
      simp only [addedBytes, List.append_nil]
      exact streaming.wakeup

/-- Going on with what is in progress keeps the stream. -/
theorem tickStep (streaming : Streaming full w) (done : w.exec.tickStep = some next) :
    Streaming full ⟨next, w.added, w.accepted⟩ := by
  unfold Exec.tickStep at done
  split at done
  · cases done
  · next frame rest top =>
      cases frame with
      | writeLoop total =>
          cases done
          exact streaming.writeRound top
      | writeCall writeLen total => cases done
      | sendTokens =>
          cases done
          exact streaming.same (WriteSame.ret top rfl 0)
      | freeSelfToken =>
          cases done
          exact streaming.same (WriteSame.ret top rfl 0)
      | sendCall =>
          cases done
          exact streaming.same (WriteSame.ret top rfl 0)
      | overflowCall =>
          cases done
          exact streaming.same (WriteSame.ret top rfl 0)
      | freeUnref =>
          cases done
          exact streaming.same (WriteSame.ret top rfl 0)
      | readLoop maxSendTokens didRead =>
          cases done
          exact streaming.same (WriteSame.readRound top)
      | readCall maxSendTokens didRead => cases done
      | readUnref maxSendTokens =>
          cases done
          exact streaming.same (WriteSame.goto top rfl _ rfl)
      | sendLoop msg item => exact streaming.same (WriteSame.sendRound top done)
      | pushLoop key => exact streaming.same (WriteSame.pushRound top done)
      | pushUnref key => exact streaming.same (WriteSame.pushNext top done)
      | absorbEnd key => exact streaming.same (WriteSame.absorbRest top done)
      | resetQueue =>
          rcases streaming.frames.top_eq top rfl with ⟨_, absent⟩ | ⟨_, _, _, absent, _⟩ <;> cases absent
      | resetCur =>
          rcases streaming.frames.top_eq top rfl with ⟨_, absent⟩ | ⟨_, _, _, absent, _⟩ <;> cases absent
      | resetFirst =>
          cases done
          exact streaming.same (WriteSame.goto top rfl _ rfl)
      | resetClients item =>
          cases item with
          | none =>
              cases done
              exact streaming.same ⟨rfl, rfl, rfl, rfl, rfl, rfl, (WriteSame.ret top rfl 0).writing⟩
          | some key =>
              cases done
              exact streaming.same (WriteSame.goto top rfl _ rfl)
      | queueFree key caller =>
          cases caller with
          | reset => exact streaming.same (WriteSame.queueFreeRound top done)
          | remove =>
              rcases streaming.frames.top_eq top rfl with ⟨_, absent⟩ | ⟨_, _, _, absent, _⟩ <;> cases absent
      | clientRemoved =>
          simp only at done
          split at done
          · split at done
            · cases done
              exact streaming.same (WriteSame.abort _ _)
            · cases done
              have left : WriteSame w.exec
                  (({ w.exec with dev := { w.exec.dev with waitForMigrateData := false } } : Exec Msg).ret 0) :=
                ⟨rfl, rfl, rfl, rfl, rfl, rfl, (WriteSame.ret top rfl 0).writing⟩
              exact streaming.same (left.trans (WriteSame.readFromDevice _))
          · cases done
            exact streaming.same (WriteSame.ret top rfl 0)
      | wakeupRead =>
          cases done
          exact streaming.same ((WriteSame.ret top rfl 0).trans (WriteSame.readFromDevice _))
      | startRead =>
          simp only at done
          split at done
          · cases done
            exact streaming.writeToDevice
          · cases done
            exact streaming.same ((WriteSame.goto top rfl _ rfl).trans (WriteSame.readFromDevice _))
      | startCheck =>
          simp only at done
          split at done
          · cases done
            exact (streaming.same (WriteSame.goto top rfl .startRead rfl)).writeToDevice
          · cases done
            exact streaming.same (WriteSame.ret top rfl 0)
      | getError buf =>
          cases done
          exact streaming.same ⟨rfl, rfl, rfl, rfl, rfl, rfl, (WriteSame.ret top rfl 0).writing⟩

theorem fill (streaming : Streaming full w) (key : Nat) (bytes : List UInt8) :
    Streaming full ⟨{ w.exec with held := w.exec.held.map (fun buf =>
      if buf.key = key ∧ bytes.length ≤ buf.bufSize then { buf with buf := bytes } else buf) },
      w.added, w.accepted⟩ := by
  refine streaming.reheld _ (fun buf member origin => ?_)
  rcases List.mem_map.mp member with ⟨old, oldMember, same⟩
  have unchanged : buf.origin = old.origin ∧ buf.client = old.client := by
    rw [← same]
    split
    · exact ⟨rfl, rfl⟩
    · exact ⟨rfl, rfl⟩
  rw [unchanged.1] at origin
  rw [unchanged.2]
  exact streaming.owned old (List.mem_append_left _ oldMember) origin

/-- The device is given the bytes that were added, in order. -/
theorem step (streaming : Streaming full w) {event : Event Msg} (keeps : keepsBuffers event = true)
    (bytes : full -> addsBytes w.exec event = true) {after : Written Msg} (done : w.step event = some after) :
    Streaming full after := by
  rcases Option.map_eq_some_iff.mp done with ⟨next, stepped, result⟩
  subst result
  unfold Exec.step at stepped
  split at stepped
  · cases stepped
  · cases event with
    | call call =>
        simp only at stepped
        split at stepped
        · simp only [acceptedBytes, List.append_nil]
          exact streaming.callStep keeps bytes stepped
        · cases stepped
    | fill key filled =>
        simp only at stepped
        split at stepped
        · cases stepped
          simp only [addedBytes, acceptedBytes, List.append_nil]
          exact streaming.fill key filled
        · cases stepped
    | wrote n =>
        simp only at stepped
        split at stepped
        · next writeLen total rest top =>
            simp only [addedBytes, List.append_nil]
            exact streaming.wrote top stepped
        · cases stepped
    | readOne msg =>
        simp only at stepped
        split at stepped
        · next maxSendTokens didRead rest top =>
            cases stepped
            simp only [addedBytes, acceptedBytes, List.append_nil]
            exact streaming.same (WriteSame.readOne top msg)
        · cases stepped
    | tick =>
        simp only [addedBytes, acceptedBytes, List.append_nil]
        exact streaming.tickStep stepped

end Streaming

/-- The loop of `spice_char_device_write_to_device` runs on, and the device
accepts all that it was offered. -/
def acceptsAll (e : Exec Msg) (event : Event Msg) : Bool :=
  match event, e.stack with
  | .tick, .writeLoop _ :: _ => true
  | .wrote n, .writeCall writeLen _ :: _ => n = writeLen
  | _, _ => false

/-- Nothing is left to be written. -/
def Drained (dev : SpiceCharDeviceState Msg) : Prop := dev.writeQueue = [] ∧ dev.curWriteBuf = none

/-- A call of `spice_char_device_write_to_device` would enter its loop. -/
def canWrite (e : Exec Msg) : Bool :=
  e.aborted.isNone && e.atCallback && e.dev.running && !e.dev.waitForMigrateData && e.dev.sin &&
    e.dev.duringWriteToDevice == 0

/-- What a device does that accepts everything and calls nothing. -/
def accepting (e : Exec Msg) : Event Msg :=
  match e.stack with
  | .writeCall writeLen _ :: _ => .wrote writeLen
  | _ => .tick

/-- Let such a device run for some steps. -/
def serve : Nat -> Written Msg -> Option (Written Msg)
  | 0, w => some w
  | steps + 1, w => (w.step (accepting w.exec)).bind (serve steps)

/-- A device that accepts everything empties the write queue in one call:
whenever the function returns, whatever its callbacks did, and it does return
if they do nothing. -/
structure Drains (w : Written Msg) : Prop where
  returned : forall event after, w.step event = some after -> acceptsAll w.exec event = true ->
    after.exec.stack = w.exec.stack.tail -> after.exec.dev.running = true -> Drained after.exec.dev
  serves : canWrite w.exec = true ->
    Exists fun called => w.step (.call .writeRetry) = some called ∧
      Exists fun steps => Exists fun final => serve steps called = some final ∧
        final.exec.stack = w.exec.stack ∧ Drained final.exec.dev ∧ final.accepted = w.added

theorem writeEnd_running (e : Exec Msg) (total : Nat) : (e.writeEnd total).dev.running = e.dev.running := by
  unfold Exec.writeEnd
  split
  · split <;> rfl
  · rfl

theorem tail_ne_cons : frame :: rest ≠ rest :=
  fun same => Nat.succ_ne_self rest.length (congrArg List.length same)

/-- A call that returns on its own has emptied the queue. -/
theorem writeRound_drained {e : Exec Msg} {total : Nat}
    (top : e.stack = .writeLoop total :: rest) (returned : (e.writeRound total).stack = rest)
    (running : (e.writeRound total).dev.running = true) : Drained (e.writeRound total).dev := by
  unfold Exec.writeRound at returned running ⊢
  split at returned
  · next isRunning =>
      rw [if_pos isRunning] at running ⊢
      split at returned
      · simp only [Exec.goto, top, List.tail_cons] at returned
        exact absurd returned tail_ne_cons
      · next cur =>
          split at returned
          · next queue =>
              have same := DataSame.writeEnd e total
              exact ⟨same.queue.trans queue, same.cur.trans cur⟩
          · simp only [Exec.goto, top, List.tail_cons] at returned
            exact absurd returned tail_ne_cons
  · next stopped =>
      rw [if_neg stopped, writeEnd_running] at running
      exact absurd running stopped

/-- A buffer was released: at most the callback for its token is in progress. -/
structure Released (e next : Exec Msg) : Prop where
  same : WriteSame e next
  running : next.dev.running = e.dev.running
  aborted : next.aborted = e.aborted
  stack : next.stack = e.stack ∨
    Exists fun frame => (frame = .sendTokens ∨ frame = .freeSelfToken) ∧ next.stack = frame :: e.stack

theorem clientTokensAdd_running (dev : SpiceCharDeviceState Msg) (devClient : SpiceCharDeviceClientState Msg)
    (numTokens : Nat) : (dev.clientTokensAdd devClient numTokens).1.running = dev.running := by
  unfold SpiceCharDeviceState.clientTokensAdd
  simp only
  split
  · split <;> rfl
  · rfl

theorem writeBufferPoolAdd_running (dev : SpiceCharDeviceState Msg) (buf : SpiceCharDeviceWriteBuffer) :
    (dev.writeBufferPoolAdd buf).running = dev.running ∧ (dev.writeBufferPoolAdd buf).clients = dev.clients := by
  unfold SpiceCharDeviceState.writeBufferPoolAdd
  split <;> exact ⟨rfl, rfl⟩

/-- A buffer of an attached client goes back to the pool. -/
theorem writeBufferRelease_attached {e : Exec Msg} {buf : SpiceCharDeviceWriteBuffer}
    (attached : buf.origin = .client -> buf.client.bind e.dev.clientFind ≠ none) :
    Released e (e.writeBufferRelease buf) := by
  have same := WriteSame.writeBufferRelease e buf
  have pooled := writeBufferPoolAdd_running e.dev buf
  have find : (e.dev.writeBufferPoolAdd buf).clientFind = e.dev.clientFind := by
    funext client
    unfold SpiceCharDeviceState.clientFind
    rw [pooled.2]
  unfold Exec.writeBufferRelease at same ⊢
  cases origin : buf.origin with
  | client =>
      simp only [origin, find] at same ⊢
      split
      · next missing => exact absurd missing (attached origin)
      · next devClient found =>
          have paid := clientTokensAdd_running (e.dev.writeBufferPoolAdd buf) devClient buf.tokenPrice
          simp only [found] at same
          split
          · next dev sent =>
              rw [sent] at paid
              simp only [sent] at same
              exact ⟨same, paid.trans pooled.1, rfl, Or.inr ⟨.sendTokens, Or.inl rfl, rfl⟩⟩
          · next dev notSent =>
              rw [notSent] at paid
              simp only [notSent] at same
              exact ⟨same, paid.trans pooled.1, rfl, Or.inl rfl⟩
  | server =>
      simp only [origin] at same ⊢
      exact ⟨same, pooled.1, rfl, Or.inr ⟨.freeSelfToken, Or.inr rfl, rfl⟩⟩
  | none =>
      simp only [origin] at same ⊢
      exact ⟨same, pooled.1, rfl, Or.inl rfl⟩
  | serverNoToken =>
      simp only [origin] at same ⊢
      exact ⟨same, pooled.1, rfl, Or.inl rfl⟩

theorem Owned.cur_attached {e : Exec Msg} (owned : Owned e) {buf : SpiceCharDeviceWriteBuffer}
    (cur : e.dev.curWriteBuf = some buf) : buf.origin = .client -> buf.client.bind e.dev.clientFind ≠ none := by
  intro origin missing
  have member : buf ∈ outstanding e := by
    refine List.mem_append_right _ (List.mem_append_right _ ?_)
    rw [cur]
    exact List.mem_singleton.mpr rfl
  rcases owned buf member origin with ⟨client, isThere, owner⟩
  rcases List.mem_map.mp isThere with ⟨devClient, clientMember, same⟩
  rw [owner, Option.bind_some] at missing
  have notFound := List.find?_eq_none.mp missing devClient clientMember
  simp [same] at notFound

/-- The current buffer was accepted, and the loop is to release it. -/
def Exec.completed (e : Exec Msg) (total : Nat) : Exec Msg :=
  { (e.goto (.writeLoop total)) with dev := { e.dev with curWriteBuf := none } }

/-- How many buffers are to be written. -/
def toWrite (dev : SpiceCharDeviceState Msg) : Nat := dev.curWriteBuf.toList.length + dev.writeQueue.length

theorem serve_step {w next final : Written Msg} {steps : Nat} (stepped : w.step (accepting w.exec) = some next)
    (served : serve steps next = some final) : serve (steps + 1) w = some final := by
  rw [serve, stepped, Option.bind_some, served]

theorem step_tick {w : Written Msg} {next : Exec Msg} (going : w.exec.aborted = none)
    (top : w.exec.stack = frame :: rest)
    (noCall : forall writeLen total, frame ≠ .writeCall writeLen total) (ticked : w.exec.tickStep = some next) :
    w.step (accepting w.exec) = some ⟨next, w.added, w.accepted⟩ := by
  have isTick : accepting w.exec = .tick := by
    unfold accepting
    rw [top]
    cases frame with
    | writeCall writeLen total => exact absurd rfl (noCall writeLen total)
    | _ => rfl
  rw [isTick]
  simp only [Written.step, Exec.step, going, Option.isSome_none, Bool.false_eq_true, if_false, ticked, Option.map_some,
    addedBytes, acceptedBytes, List.append_nil]

namespace Streaming

variable {w : Written Msg}

/-- The device accepts the rest of the current buffer: the buffer is released
and the loop goes on. -/
theorem wrote_all (streaming : Streaming True w) {writeLen total : Nat}
    (top : w.exec.stack = .writeCall writeLen total :: rest) :
    Exists fun buf => w.exec.dev.curWriteBuf = some buf ∧
      w.exec.wrote writeLen writeLen total = some ((w.exec.completed (total + writeLen)).writeBufferRelease buf) ∧
      Released (w.exec.completed (total + writeLen))
        ((w.exec.completed (total + writeLen)).writeBufferRelease buf) := by
  rcases streaming.frames.top_eq top rfl with ⟨other, absent⟩ | ⟨len, tot, buf, same, cur, offered⟩
  · cases absent
  · cases same
    have positive : 0 < writeLen := by
      have within := (streaming.offers trivial).cur buf cur
      omega
    have attached := streaming.owned.cur_attached cur
    refine ⟨buf, cur, ?_, writeBufferRelease_attached attached⟩
    unfold Exec.wrote
    rw [if_neg (by omega), if_neg (by omega), if_pos rfl, cur]
    rfl

/-- When it accepts everything, a call leaves nothing behind. -/
theorem returned (streaming : Streaming True w) {event : Event Msg} {after : Written Msg}
    (done : w.step event = some after) (accepts : acceptsAll w.exec event = true)
    (left : after.exec.stack = w.exec.stack.tail) (running : after.exec.dev.running = true) :
    Drained after.exec.dev := by
  rcases Option.map_eq_some_iff.mp done with ⟨next, stepped, result⟩
  subst result
  unfold Exec.step at stepped
  split at stepped
  · cases stepped
  · unfold acceptsAll at accepts
    split at accepts
    · next total rest top =>
        simp only [Exec.tickStep, top] at stepped
        cases stepped
        rw [top, List.tail_cons] at left
        exact writeRound_drained top left running
    · next n writeLen total rest top =>
        have all : n = writeLen := of_decide_eq_true accepts
        subst all
        rcases streaming.wrote_all top with ⟨buf, _, wrote, released⟩
        simp only [top] at stepped
        rw [wrote] at stepped
        cases stepped
        rw [top, List.tail_cons] at left
        have isLoop : (w.exec.completed (total + writeLen)).stack = .writeLoop (total + writeLen) :: rest := by
          simp only [Exec.completed, Exec.goto, top, List.tail_cons]
        exfalso
        rcases released.stack with same | ⟨frame, _, same⟩
        · rw [same, isLoop] at left
          exact tail_ne_cons left
        · rw [same, isLoop] at left
          have long := congrArg List.length left
          simp only [List.length_cons] at long
          omega
    · cases accepts

/-- A round offers what is left of a buffer. -/
theorem writeRound_offers {e : Exec Msg} {total count : Nat}
    (top : e.stack = .writeLoop total :: rest) (running : e.dev.running = true) (some : toWrite e.dev = count + 1) :
    (Exists fun writeLen => (e.writeRound total).stack = .writeCall writeLen total :: rest) ∧
      (e.writeRound total).dev.running = true ∧ (e.writeRound total).aborted = e.aborted ∧
      (e.writeRound total).dev.writeQueue.length = count := by
  unfold Exec.writeRound
  rw [if_pos running]
  split
  · next buf cur =>
      simp only [toWrite, cur, Option.toList, List.length_singleton] at some
      refine ⟨⟨buf.buf.length - e.dev.curWriteBufPos, ?_⟩, running, rfl, ?_⟩
      · simp only [Exec.goto, top, List.tail_cons]
      · simp only [Exec.goto]
        omega
  · next cur =>
      split
      · next queue =>
          simp only [toWrite, cur, queue, Option.toList, List.length_nil] at some
          omega
      · next buf queue queued =>
          simp only [toWrite, cur, queued, Option.toList, List.length_nil, List.length_cons] at some
          refine ⟨⟨buf.buf.length, ?_⟩, running, rfl, ?_⟩
          · simp only [Exec.goto, top, List.tail_cons]
          · simp only [Exec.goto]
            omega

/-- One round less is left after each round. -/
theorem serves_one (streaming : Streaming True w) {total count : Nat}
    (going : w.exec.aborted = none) (top : w.exec.stack = .writeLoop total :: rest)
    (running : w.exec.dev.running = true) (some : toWrite w.exec.dev = count + 1) :
    Exists fun next => Streaming True next ∧ next.added = w.added ∧ next.exec.aborted = none ∧
      (Exists fun total => next.exec.stack = .writeLoop total :: rest) ∧ next.exec.dev.running = true ∧
      toWrite next.exec.dev = count ∧ forall steps final, serve steps next = Option.some final ->
        Exists fun steps => serve steps w = Option.some final := by
  rcases writeRound_offers top running some with ⟨⟨writeLen, isCall⟩, stillRunning, notAborted, left⟩
  have ticked : w.exec.tickStep = Option.some (w.exec.writeRound total) := by
    simp only [Exec.tickStep, top]
  have first := step_tick going top (by rintro _ _ ⟨⟩) ticked
  have offered := streaming.writeRound top
  generalize w.exec.writeRound total = called at isCall stillRunning notAborted left first offered
  rcases offered.wrote_all isCall with ⟨buf, cur, wrote, released⟩
  have completed := offered.wrote isCall wrote
  have second : (⟨called, w.added, w.accepted⟩ : Written Msg).step (accepting called) = Option.some
      ⟨(called.completed (total + writeLen)).writeBufferRelease buf, w.added,
        w.accepted ++ acceptedBytes called (.wrote writeLen)⟩ := by
    have isWrote : accepting called = .wrote writeLen := by simp only [accepting, isCall]
    rw [isWrote]
    simp only [Written.step, Exec.step, notAborted, going, Option.isSome_none, Bool.false_eq_true, if_false,
      isCall, wrote,
      Option.map_some, addedBytes, List.append_nil]
  generalize w.accepted ++ acceptedBytes called (.wrote writeLen) = accepted at completed second
  have isLoop : (called.completed (total + writeLen)).stack = .writeLoop (total + writeLen) :: rest := by
    simp only [Exec.completed, Exec.goto, isCall, List.tail_cons]
  have drained : toWrite ((called.completed (total + writeLen)).writeBufferRelease buf).dev = count := by
    rw [toWrite, released.same.queue, released.same.cur]
    simp only [Exec.completed, Exec.goto, Option.toList, List.length_nil, Nat.zero_add]
    exact left
  have isRunning := released.running.trans stillRunning
  have isGoing := released.aborted.trans (notAborted.trans going)
  rcases released.stack with same | ⟨frame, isToken, same⟩
  · refine ⟨_, completed, rfl, isGoing, ⟨_, same.trans isLoop⟩, isRunning, drained, ?_⟩
    intro steps final served
    exact ⟨steps + 1 + 1, serve_step first (serve_step second served)⟩
  · -- the callback for the token returns before the loop goes on
    generalize (called.completed (total + writeLen)).writeBufferRelease buf = after
      at completed second drained isRunning isGoing same
    have quiet : frame.isWriting = false := by
      rcases isToken with token | token <;> rw [token] <;> rfl
    have back : after.tickStep = Option.some (after.ret 0) := by
      rcases isToken with token | token <;> simp only [Exec.tickStep, same, token]
    have third := step_tick (w := ⟨after, w.added, accepted⟩) isGoing same
      (by rcases isToken with token | token <;> rw [token] <;> rintro _ _ ⟨⟩) back
    refine ⟨_, completed.same (WriteSame.ret same quiet 0), rfl, isGoing, ⟨total + writeLen, ?_⟩, isRunning,
      drained, ?_⟩
    · show after.stack.tail = _
      rw [same, List.tail_cons, isLoop]
    · intro steps final served
      exact ⟨steps + 1 + 1 + 1, serve_step first (serve_step second (serve_step third served))⟩

/-- The induction over the buffers that wait. -/
theorem serves_loop (count : Nat) : forall (w : Written Msg) (total : Nat), Streaming True w -> w.exec.aborted = none ->
      w.exec.stack = .writeLoop total :: rest -> w.exec.dev.running = true -> toWrite w.exec.dev = count ->
      Exists fun steps => Exists fun final => serve steps w = some final ∧ Streaming True final ∧
        final.added = w.added ∧ final.exec.stack = rest ∧ Drained final.exec.dev := by
  induction count with
  | zero =>
      intro w total streaming going top running empty
      have cur : w.exec.dev.curWriteBuf = none := by
        cases isCur : w.exec.dev.curWriteBuf with
        | none => rfl
        | some buf =>
            simp only [toWrite, isCur, Option.toList, List.length_singleton] at empty
            omega
      have queue : w.exec.dev.writeQueue = [] := by
        refine List.length_eq_zero_iff.mp ?_
        unfold toWrite at empty
        omega
      have ends : w.exec.writeRound total = w.exec.writeEnd total := by
        simp only [Exec.writeRound, running, if_true, cur, queue]
      have same := DataSame.writeEnd w.exec total
      have ticked : w.exec.tickStep = some (w.exec.writeEnd total) := by
        simp only [Exec.tickStep, top, ends]
      refine ⟨1, _, serve_step (step_tick going top (by rintro _ _ ⟨⟩) ticked) rfl,
        streaming.keep same (streaming.frames.writeEnd top rfl total), rfl, ?_, same.queue.trans queue,
        same.cur.trans cur⟩
      unfold Exec.writeEnd
      rw [if_pos running, if_neg (fun broken => broken.2 queue)]
      show w.exec.stack.tail = rest
      rw [top, List.tail_cons]
  | succ count ih =>
      intro w total streaming going top running some
      rcases streaming.serves_one going top running some with
        ⟨next, kept, added, stillGoing, ⟨nextTotal, nextTop⟩, stillRunning, fewer, continues⟩
      rcases ih next nextTotal kept stillGoing nextTop stillRunning fewer with
        ⟨steps, final, served, finalKept, finalAdded, returned, drained⟩
      rcases continues steps final served with ⟨all, servedAll⟩
      exact ⟨all, final, servedAll, finalKept, finalAdded.trans added, returned, drained⟩

/-- The call empties the queue. -/
theorem serves (streaming : Streaming True w) (can : canWrite w.exec = true) :
    Exists fun called => w.step (.call .writeRetry) = some called ∧
      Exists fun steps => Exists fun final => serve steps called = some final ∧
        final.exec.stack = w.exec.stack ∧ Drained final.exec.dev ∧ final.accepted = w.added := by
  simp only [canWrite, Bool.and_eq_true, Bool.not_eq_true', Option.isNone_iff_eq_none, beq_iff_eq] at can
  obtain ⟨⟨⟨⟨⟨going, atCallback⟩, running⟩, migrated⟩, sin⟩, idle⟩ := can
  have entered : w.exec.writeToDevice = ({ w.exec with
      dev := { w.exec.dev with duringWriteToDevice := w.exec.dev.duringWriteToDevice + 1 } } : Exec Msg).push
        (.writeLoop 0) := by
    unfold Exec.writeToDevice
    simp only [running, migrated, sin, idle, Bool.not_true, Bool.or_false, Bool.false_eq_true, if_false,
      Nat.lt_irrefl]
  have called : w.step (.call .writeRetry) = some ⟨w.exec.writeToDevice, w.added, w.accepted⟩ := by
    simp only [Written.step, Exec.step, going, Option.isSome_none, Bool.false_eq_true, if_false, atCallback, if_true,
      Exec.callStep, Option.map_some, addedBytes, acceptedBytes, List.append_nil]
  have kept := streaming.writeToDevice
  rw [entered] at called kept
  refine ⟨_, called, ?_⟩
  rcases serves_loop _ _ 0 kept going rfl running rfl with ⟨steps, final, served, finalKept, added, returned, drained⟩
  refine ⟨steps, final, served, returned, drained, ?_⟩
  have balance := finalKept.balance
  rw [pending, drained.1, drained.2, added] at balance
  simpa using balance

theorem start (full : Prop) (interval selfTokens : Nat) : Streaming full (Written.start Msg interval selfTokens) where
  balance := rfl
  frames := .idle rfl rfl
  owned := by
    intro buf member
    cases member
  offers := fun _ => ⟨fun buf member => (List.not_mem_nil member).elim, fun buf absent => by cases absent⟩

theorem of_run {full : Prop} {interval selfTokens : Nat} {events : List (Event Msg)} (meets : Meets Written.step
      (fun _ w event => keepsBuffers event = true ∧ (full -> addsBytes w.exec event = true)) []
      (Written.start Msg interval selfTokens) events)
    (ran : run Written.step (Written.start Msg interval selfTokens) events = some w) : Streaming full w := by
  have keep : forall (_ : List (Event Msg)) (before : Written Msg) (event : Event Msg) (after : Written Msg),
      Streaming full before -> keepsBuffers event = true ∧ (full -> addsBytes before.exec event = true) ->
        before.step event = some after -> Streaming full after :=
    fun _ _ _ _ streaming both done => streaming.step both.1 both.2 done
  exact run_invariant_of_meets keep events [] _ w
    (start full interval selfTokens) meets ran

end Streaming

/-- Whatever the device accepts, and whenever it is called, it gets the bytes of
the buffers in the order they were added; and if they all have bytes, a device
that accepts everything empties the queue in one call. -/
theorem write_stream (interval selfTokens : Nat) (events : List (Event Msg)) (w : Written Msg)
    (keeps : forall event, event ∈ events -> keepsBuffers event = true)
    (ran : run Written.step (Written.start Msg interval selfTokens) events = some w) : w.accepted <+: w.added ∧
      (Meets Written.step (fun _ w event => addsBytes w.exec event = true) []
        (Written.start Msg interval selfTokens) events -> Drains w) := by
  constructor
  · have streaming : Streaming False w :=
      Streaming.of_run (Meets.of_mem (fun _ _ event member => ⟨keeps event member, False.elim⟩)) ran
    exact ⟨pending w.exec.dev, streaming.balance⟩
  · intro bytes
    have kept : Meets Written.step (fun _ _ event => keepsBuffers event = true) []
        (Written.start Msg interval selfTokens) events := Meets.of_mem (fun _ _ event member => keeps event member)
    have streaming : Streaming True w :=
      Streaming.of_run (Meets.mono (fun _ _ _ both => ⟨both.1, fun _ => both.2⟩) (kept.and bytes)) ran
    exact ⟨fun _ _ done accepts left running => streaming.returned done accepts left running, streaming.serves⟩

/-- The device is started and finds nothing to write or to read. -/
def startIdle : List (Event Unit) :=
  [.call .start, .tick, .tick, .tick, .readOne none, .tick]

/-- A buffer is added, and the device accepts the first of its two bytes; then a
second buffer is added. -/
def twoBuffers : List (Event Unit) :=
  startIdle ++ [.call (.writeBufferGetServerNoToken 2), .fill 1 [7, 8], .call (.writeBufferAdd 1), .tick,
    .wrote 1, .tick, .wrote 0, .call (.writeBufferGetServerNoToken 1), .fill 2 [9], .call (.writeBufferAdd 2), .tick]

theorem write_stream_two_buffers : Exists fun w => run Written.step (Written.start Unit 1 1) twoBuffers = some w ∧
      w.accepted = [7] ∧ w.added = [7, 8, 9] ∧ w.accepted <+: w.added ∧ Drains w := by
  have final : (run Written.step (Written.start Unit 1 1) twoBuffers).map (fun w => (w.accepted, w.added)) =
      some ([7], [7, 8, 9]) := by decide
  rcases Option.map_eq_some_iff.mp final with ⟨w, ran, bytes⟩
  simp only [Prod.mk.injEq] at bytes
  have met : checkRun Written.step (fun w event => addsBytes w.exec event) (Written.start Unit 1 1) twoBuffers =
      true := by decide
  have stream := write_stream 1 1 twoBuffers w (by decide) ran
  exact ⟨w, ran, bytes.1, bytes.2, stream.1, stream.2 (Meets.of_check (fun _ _ _ checked => checked) _ _ _ met)⟩

/-- A buffer without bytes is added, then one with a byte; each time the device
is offered nothing and accepts that. -/
def emptyBuffer : List (Event Unit) :=
  startIdle ++ [.call (.writeBufferGetServerNoToken 0), .call (.writeBufferAdd 1), .tick, .wrote 0,
    .call (.writeBufferGetServerNoToken 1), .fill 2 [9], .call (.writeBufferAdd 2), .tick]

/-- The second buffer stays in the queue although the device accepted all it
was offered. -/
theorem empty_buffer_blocks_queue :
    Not (forall (interval selfTokens : Nat) (events : List (Event Unit)) (w : Written Unit),
      (forall event, event ∈ events -> keepsBuffers event = true) ->
        run Written.step (Written.start Unit interval selfTokens) events = some w -> w.accepted <+: w.added ∧
            forall event after, w.step event = some after -> acceptsAll w.exec event = true ->
              after.exec.stack = w.exec.stack.tail -> after.exec.dev.running = true ->
                after.exec.dev.writeQueue = []) := by
  intro claim
  have final : (run Written.step (Written.start Unit 1 1) emptyBuffer).map (fun w =>
      (acceptsAll w.exec (.wrote 0), w.exec.stack.tail.isEmpty,
        (w.step (.wrote 0)).map (fun after =>
          (after.exec.stack.isEmpty, after.exec.dev.running, after.exec.dev.writeQueue.isEmpty)))) =
      some (true, true, some (true, true, false)) := by decide
  rcases Option.map_eq_some_iff.mp final with ⟨w, ran, facts⟩
  simp only [Prod.mk.injEq, Option.map_eq_some_iff] at facts
  rcases facts with ⟨accepts, rest, after, stepped, returned, running, queue⟩
  have empty := (claim 1 1 emptyBuffer w (by decide) ran).2 (.wrote 0) after stepped accepts
    ((List.isEmpty_iff.mp returned).trans (List.isEmpty_iff.mp rest).symm) running
  rw [empty] at queue
  cases queue

end CharDevice
end Spice
