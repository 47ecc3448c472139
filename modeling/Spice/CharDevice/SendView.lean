import Mathlib.Data.List.Nodup
import Spice.CharDevice.Model

namespace Spice
namespace CharDevice

variable {Msg : Type}

/-!
# The sending side

Sending to the clients and writing to the device share the clients, but not
their fields.  This module says what the sending side looks at, and that the
functions of the writing side leave it alone.
-/

/-- The fields of a client that sending looks at. -/
def sendView (devClient : SpiceCharDeviceClientState Msg) : SpiceCharDeviceClientState Msg :=
  { devClient with numClientTokens := 0, numClientTokensFree := 0, waitForTokensStarted := false }

def Frame.isSending : Frame Msg -> Bool
  | .readLoop _ _ => true
  | .readCall _ _ => true
  | .readUnref _ => true
  | .sendLoop _ _ => true
  | .pushLoop _ => true
  | .pushUnref _ => true
  | .queueFree _ _ => true
  | _ => false

/-- The places in `spice_char_device_reset`. -/
def Frame.isReset : Frame Msg -> Bool
  | .resetQueue => true
  | .resetCur => true
  | .resetFirst => true
  | .resetClients _ => true
  | .queueFree _ .reset => true
  | _ => false

def Exec.sending (e : Exec Msg) : List (Frame Msg) := e.stack.filter Frame.isSending

def Assertion.isSending : Assertion -> Bool
  | .sendQueueIsEmpty => true
  | .absorbTokens => true
  | _ => false

namespace SpiceCharDeviceState

theorem clientAt_of_mem {dev : SpiceCharDeviceState Msg}
    (keys : (dev.clients.map (fun devClient => devClient.key)).Nodup)
    {devClient : SpiceCharDeviceClientState Msg}
    (member : devClient ∈ dev.clients) : dev.clientAt devClient.key = some devClient := by
  cases hit : dev.clientAt devClient.key with
  | none =>
      have missed := List.find?_eq_none.mp hit devClient member
      simp at missed
  | some other =>
      have otherMember := List.mem_of_find?_eq_some hit
      have same : other.key = devClient.key := by simpa using List.find?_some hit
      rw [List.inj_on_of_nodup_map keys otherMember member same]

theorem poolAdd_frame (bufs : List SpiceCharDeviceWriteBuffer) (dev : SpiceCharDeviceState Msg) :
    (bufs.foldl writeBufferPoolAdd dev).clients = dev.clients ∧
      (bufs.foldl writeBufferPoolAdd dev).duringReadFromDevice = dev.duringReadFromDevice := by
  induction bufs generalizing dev with
  | nil => exact ⟨rfl, rfl⟩
  | cons buf rest ih =>
      rw [List.foldl_cons, (ih _).1, (ih _).2]
      unfold writeBufferPoolAdd
      split <;> exact ⟨rfl, rfl⟩

theorem clientUnlink_clients (dev : SpiceCharDeviceState Msg) (devClient : SpiceCharDeviceClientState Msg) :
    (dev.clientUnlink devClient).clients = dev.clients.filter (fun other => other.key ≠ devClient.key) := by
  unfold clientUnlink
  simp only [poolAdd_frame]

theorem clientUnlink_setClient (dev : SpiceCharDeviceState Msg) (devClient : SpiceCharDeviceClientState Msg)
    (change : SpiceCharDeviceClientState Msg -> SpiceCharDeviceClientState Msg)
    (keepsKey : forall c, (change c).key = c.key) :
    ((dev.setClient devClient.key change).clientUnlink devClient).clients =
      dev.clients.filter (fun other => other.key ≠ devClient.key) := by
  rw [clientUnlink_clients]
  simp only [setClient]
  induction dev.clients with
  | nil => rfl
  | cons c rest ih =>
      by_cases same : c.key = devClient.key
      · simpa [same, keepsKey] using ih
      · simpa [same] using ih

end SpiceCharDeviceState

/-- A step that leaves the sending side alone. -/
structure SendSame (e next : Exec Msg) : Prop where
  clients : next.dev.clients.map sendView = e.dev.clients.map sendView
  trace : next.trace = e.trace
  fresh : e.fresh ≤ next.fresh
  during : next.dev.duringReadFromDevice = e.dev.duringReadFromDevice
  sending : next.sending = e.sending
  resets : next.stack.any Frame.isReset = true -> e.stack.any Frame.isReset = true
  aborted : forall reason, next.aborted = some reason -> reason.isSending = true -> e.aborted = some reason

namespace SendSame

variable {e next : Exec Msg}

theorem refl (e : Exec Msg) : SendSame e e := ⟨rfl, rfl, Nat.le_refl _, rfl, rfl, id, fun _ same _ => same⟩

theorem trans {third : Exec Msg} (one : SendSame e next) (two : SendSame next third) : SendSame e third :=
  ⟨two.clients.trans one.clients, two.trace.trans one.trace, Nat.le_trans one.fresh two.fresh,
    two.during.trans one.during, two.sending.trans one.sending, fun resets => one.resets (two.resets resets),
    fun reason failed sends => one.aborted reason (two.aborted reason failed sends) sends⟩

variable {rest : List (Frame Msg)}

theorem sending_of_tail {frame : Frame Msg} (top : e.stack = frame :: rest)
    (quiet : frame.isSending = false) : e.sending = rest.filter Frame.isSending := by
  rw [Exec.sending, top, List.filter_cons_of_neg (by rw [quiet]; exact Bool.false_ne_true)]

theorem stayed (stack : next.stack = e.stack) (clients : next.dev.clients.map sendView = e.dev.clients.map sendView)
    (trace : next.trace = e.trace) (fresh : e.fresh ≤ next.fresh)
    (during : next.dev.duringReadFromDevice = e.dev.duringReadFromDevice) (aborted : next.aborted = e.aborted) :
    SendSame e next :=
  ⟨clients, trace, fresh, during, by rw [Exec.sending, stack]; rfl, by rw [stack]; exact id,
    fun _ failed _ => aborted ▸ failed⟩

theorem entered {frame : Frame Msg} (stack : next.stack = frame :: e.stack) (quiet : frame.isSending = false)
    (calm : frame.isReset = false) (clients : next.dev.clients.map sendView = e.dev.clients.map sendView)
    (trace : next.trace = e.trace) (fresh : e.fresh ≤ next.fresh)
    (during : next.dev.duringReadFromDevice = e.dev.duringReadFromDevice) (aborted : next.aborted = e.aborted) :
    SendSame e next := by
  refine ⟨clients, trace, fresh, during, ?_, ?_, fun _ failed _ => aborted ▸ failed⟩
  · rw [Exec.sending, stack, List.filter_cons_of_neg (by rw [quiet]; exact Bool.false_ne_true)]
    rfl
  · rw [stack, List.any_cons, calm, Bool.false_or]
    exact id

theorem left {frame : Frame Msg} (top : e.stack = frame :: rest)
    (quiet : frame.isSending = false) (stack : next.stack = e.stack.tail)
    (clients : next.dev.clients.map sendView = e.dev.clients.map sendView)
    (trace : next.trace = e.trace) (fresh : e.fresh ≤ next.fresh)
    (during : next.dev.duringReadFromDevice = e.dev.duringReadFromDevice) (aborted : next.aborted = e.aborted) :
    SendSame e next := by
  refine ⟨clients, trace, fresh, during, ?_, ?_, fun _ failed _ => aborted ▸ failed⟩
  · rw [sending_of_tail top quiet, Exec.sending, stack, top, List.tail_cons]
  · rw [stack, top, List.tail_cons, List.any_cons]
    intro resets
    rw [resets, Bool.or_true]

theorem moved {frame other : Frame Msg} (top : e.stack = frame :: rest)
    (quiet : frame.isSending = false) (stack : next.stack = other :: e.stack.tail)
    (otherQuiet : other.isSending = false) (calm : other.isReset = frame.isReset)
    (clients : next.dev.clients.map sendView = e.dev.clients.map sendView)
    (trace : next.trace = e.trace) (fresh : e.fresh ≤ next.fresh)
    (during : next.dev.duringReadFromDevice = e.dev.duringReadFromDevice) (aborted : next.aborted = e.aborted) :
    SendSame e next := by
  refine ⟨clients, trace, fresh, during, ?_, ?_, fun _ failed _ => aborted ▸ failed⟩
  · rw [sending_of_tail top quiet, Exec.sending, stack, top, List.tail_cons,
      List.filter_cons_of_neg (by rw [otherQuiet]; exact Bool.false_ne_true)]
  · rw [stack, top, List.tail_cons, List.any_cons, List.any_cons, calm]
    exact id

theorem abort (e : Exec Msg) {reason : Assertion} (quiet : reason.isSending = false) : SendSame e (e.abort reason) := by
  refine ⟨rfl, rfl, Nat.le_refl _, rfl, rfl, id, fun other failed sends => ?_⟩
  cases failed
  rw [quiet] at sends
  cases sends

theorem setClient (dev : SpiceCharDeviceState Msg) (key : Nat)
    (change : SpiceCharDeviceClientState Msg -> SpiceCharDeviceClientState Msg)
    (keeps : forall devClient, sendView (change devClient) = sendView devClient) :
    (dev.setClient key change).clients.map sendView = dev.clients.map sendView := by
  simp only [SpiceCharDeviceState.setClient, List.map_map]
  apply List.map_congr_left
  intro devClient _
  simp only [Function.comp]
  split
  · exact keeps devClient
  · rfl

theorem writeToDevice (e : Exec Msg) : SendSame e e.writeToDevice := by
  unfold Exec.writeToDevice
  split
  · exact stayed rfl rfl rfl (Nat.le_refl _) rfl rfl
  · split
    · exact stayed rfl rfl rfl (Nat.le_refl _) rfl rfl
    · exact entered rfl rfl rfl rfl rfl (Nat.le_refl _) rfl rfl

theorem writeEnd {frame : Frame Msg} (top : e.stack = frame :: rest)
    (quiet : frame.isSending = false) (total : Nat) : SendSame e (e.writeEnd total) := by
  unfold Exec.writeEnd
  split
  · split
    · exact abort e rfl
    · exact left top quiet rfl rfl rfl (Nat.le_refl _) rfl rfl
  · exact left top quiet rfl rfl rfl (Nat.le_refl _) rfl rfl

theorem poolAdd (e : Exec Msg) (buf : SpiceCharDeviceWriteBuffer) :
    SendSame e { e with dev := e.dev.writeBufferPoolAdd buf } := by
  unfold SpiceCharDeviceState.writeBufferPoolAdd
  split <;> exact stayed rfl rfl rfl (Nat.le_refl _) rfl rfl

theorem clientTokensAdd_frame (dev : SpiceCharDeviceState Msg) (devClient : SpiceCharDeviceClientState Msg)
    (numTokens : Nat) :
    (dev.clientTokensAdd devClient numTokens).1.clients.map sendView = dev.clients.map sendView ∧
      (dev.clientTokensAdd devClient numTokens).1.duringReadFromDevice = dev.duringReadFromDevice := by
  unfold SpiceCharDeviceState.clientTokensAdd
  simp only
  split
  · split <;> exact ⟨setClient _ _ _ (fun _ => rfl), rfl⟩
  · exact ⟨rfl, rfl⟩

theorem writeBufferRelease (e : Exec Msg) (buf : SpiceCharDeviceWriteBuffer) :
    SendSame e (e.writeBufferRelease buf) := by
  refine (poolAdd e buf).trans ?_
  unfold Exec.writeBufferRelease
  generalize ({ e with dev := e.dev.writeBufferPoolAdd buf } : Exec Msg) = pooled
  cases buf.origin with
  | client =>
      simp only
      split
      · exact abort pooled rfl
      · next devClient _ =>
          have frame := clientTokensAdd_frame pooled.dev devClient buf.tokenPrice
          split
          · next dev sent =>
              rw [sent] at frame
              exact entered rfl rfl rfl frame.1 rfl (Nat.le_refl _) frame.2 rfl
          · next dev notSent =>
              rw [notSent] at frame
              exact stayed rfl frame.1 rfl (Nat.le_refl _) frame.2 rfl
  | server => exact entered rfl rfl rfl rfl rfl (Nat.le_refl _) rfl rfl
  | none => exact refl pooled
  | serverNoToken => exact refl pooled

theorem writeRound {total : Nat} (top : e.stack = .writeLoop total :: rest) :
    SendSame e (e.writeRound total) := by
  unfold Exec.writeRound
  split
  · split
    · exact moved top rfl rfl rfl rfl rfl rfl (Nat.le_refl _) rfl rfl
    · split
      · exact writeEnd top rfl total
      · exact moved top rfl rfl rfl rfl rfl rfl (Nat.le_refl _) rfl rfl
  · exact writeEnd top rfl total

/-- What is written does not touch the sending. -/
theorem wrote {n : Int} {writeLen total : Nat}
    (top : e.stack = .writeCall writeLen total :: rest) (done : e.wrote n writeLen total = some next) :
    SendSame e next := by
  unfold Exec.wrote at done
  split at done
  · split at done
    · cases done
      exact moved top rfl rfl rfl rfl rfl rfl (Nat.le_refl _) rfl rfl
    · cases done
      exact writeEnd top rfl total
  · split at done
    · cases done
    · split at done
      · split at done
        · cases done
        · cases done
          refine SendSame.trans ?_ (writeBufferRelease _ _)
          exact moved top rfl rfl rfl rfl rfl rfl (Nat.le_refl _) rfl rfl
      · cases done
        exact moved top rfl rfl rfl rfl rfl rfl (Nat.le_refl _) rfl rfl

theorem takeBuffer (e : Exec Msg) (size : Nat) : SendSame e (e.takeBuffer size).1 := by
  unfold Exec.takeBuffer
  split
  · exact stayed rfl rfl rfl (Nat.le_refl _) rfl rfl
  · exact stayed rfl rfl rfl (Nat.le_succ _) rfl rfl

theorem writeBufferGet (e : Exec Msg) (client size : Nat) (origin : WriteBufferOrigin) :
    SendSame e (e.writeBufferGet client size origin) := by
  unfold Exec.writeBufferGet
  split
  · exact refl e
  · refine (takeBuffer e size).trans ?_
    generalize e.takeBuffer size = pair
    rcases pair with ⟨taken, buf⟩
    simp only
    split
    · exact abort taken rfl
    · cases origin with
      | client =>
          simp only
          split
          · exact stayed rfl rfl rfl (Nat.le_refl _) rfl rfl
          · split
            · split
              · have inner : SendSame taken (taken.push (.getError { buf with origin := .client })) :=
                  entered rfl rfl rfl rfl rfl (Nat.le_refl _) rfl rfl
                exact inner.trans (entered rfl rfl rfl rfl rfl (Nat.le_refl _) rfl rfl)
              · refine stayed rfl ?_ rfl (Nat.le_refl _) rfl rfl
                exact setClient _ _ _ (fun _ => rfl)
            · exact stayed rfl rfl rfl (Nat.le_refl _) rfl rfl
      | server => exact stayed rfl rfl rfl (Nat.le_refl _) rfl rfl
      | none => exact stayed rfl rfl rfl (Nat.le_refl _) rfl rfl
      | serverNoToken => exact stayed rfl rfl rfl (Nat.le_refl _) rfl rfl

theorem writeBufferAdd (e : Exec Msg) (buf : SpiceCharDeviceWriteBuffer) : SendSame e (e.writeBufferAdd buf) := by
  unfold Exec.writeBufferAdd
  split
  · exact poolAdd e buf
  · refine SendSame.trans ?_ (writeToDevice _)
    exact stayed rfl rfl rfl (Nat.le_refl _) rfl rfl

theorem resetQueueRound (top : e.stack = .resetQueue :: rest) : SendSame e e.resetQueueRound := by
  unfold Exec.resetQueueRound
  split
  · exact moved top rfl rfl rfl rfl rfl rfl (Nat.le_refl _) rfl rfl
  · refine SendSame.trans ?_ (writeBufferRelease _ _)
    exact stayed rfl rfl rfl (Nat.le_refl _) rfl rfl

theorem resetCurRound (top : e.stack = .resetCur :: rest) : SendSame e e.resetCurRound := by
  unfold Exec.resetCurRound
  split
  · exact moved top rfl rfl rfl rfl rfl rfl (Nat.le_refl _) rfl rfl
  · refine SendSame.trans ?_ (writeBufferRelease _ _)
    exact moved top rfl rfl rfl rfl rfl rfl (Nat.le_refl _) rfl rfl

end SendSame

end CharDevice
end Spice
