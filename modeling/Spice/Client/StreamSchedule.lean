import Mathlib.Data.List.Basic
import Spice.Lib.Int32
import Spice.Lib.Run

namespace Spice
namespace Client

open Lib

/-!
# When the frames of a video stream are rendered

The scheduling of `channel-display.c` for one `display_stream`: frames wait in `msgq`, and a
timeout renders the first of them when its mm-time comes.  The mm-time of the session has 32
bits.  It follows the monotonic clock from the time that was set last.

A stream records how many frames arrived, and what became of them, the newest event first.
Statistics and reports to the server are left out.
-/

/-- The monotonic clock in microseconds, the mm-time that was set last, and the clock then. -/
structure Session where
  clock : Nat
  mmTime : UInt32
  mmTimeAtClock : Nat
deriving DecidableEq

namespace Session

def getMmTime (session : Session) : UInt32 :=
  session.mmTime + UInt32.ofNat ((session.clock - session.mmTimeAtClock) / 1000)

def elapse (session : Session) (micros : Nat) : Session := { session with clock := session.clock + micros }

theorem elapse_elapse (session : Session) (first second : Nat) :
    (session.elapse first).elapse second = session.elapse (first + second) := by
  simp only [elapse, Nat.add_assoc]

/-- `spice_session_set_mm_time` without its signal. -/
def setMmTime (session : Session) (time : UInt32) : Session :=
  { session with mmTime := time, mmTimeAtClock := session.clock }

/-- Whether `spice_session_set_mm_time` emits `mm-time-reset`. -/
def resets (session : Session) (time : UInt32) : Bool :=
  decide (session.getMmTime + 500 < time) || decide (time < session.getMmTime)

end Session

/-- How much later than the mm-time a frame is to be shown, as the code computes it. -/
def latency (time now : UInt32) : Int := int32 (time - now).toNat

def HasCome (time now : UInt32) : Prop := latency time now ≤ 0

instance (time now : UInt32) : Decidable (HasCome time now) := inferInstanceAs (Decidable (_ ≤ _))

/-- A message of the stream: its place in the order of arrival, and `multi_media_time`. -/
structure Frame where
  index : Nat
  time : UInt32
deriving DecidableEq

/-- What became of a frame, and the mm-time then.  The queue is cleared when a frame for an
earlier time than its last one arrives. -/
inductive FrameEvent
  | rendered (frame : Frame) (now : UInt32)
  | dropped (frame : Frame) (now : UInt32)
  | cleared (frame : Frame) (last arriving : UInt32)
deriving DecidableEq

namespace FrameEvent

def frame : FrameEvent -> Frame
  | .rendered frame _ => frame
  | .dropped frame _ => frame
  | .cleared frame _ _ => frame

def renderedIndex : FrameEvent -> Option Nat
  | .rendered frame _ => some frame.index
  | .dropped _ _ => none
  | .cleared _ _ _ => none

end FrameEvent

/-- A `display_stream`.  `timeout` is when the timeout expires, and `mmTimeSet` says whether the
mm-time of the session was set since the timeout was added. -/
structure DisplayStream where
  msgq : List Frame
  timeout : Option Nat
  mmTimeSet : Bool
  arrived : Nat
  log : List FrameEvent
deriving DecidableEq

namespace DisplayStream

/-- A stream that was just created. -/
def init : DisplayStream where
  msgq := []
  timeout := none
  mmTimeSet := false
  arrived := 0
  log := []

def schedule (session : Session) (st : DisplayStream) : DisplayStream × Bool :=
  if st.timeout.isSome then (st, true)
  else
    match st.msgq with
    | [] => (st, true)
    | frame :: rest =>
        if session.getMmTime < frame.time then
          ({ st with
              timeout := some (session.clock + (frame.time - session.getMmTime).toNat * 1000)
              mmTimeSet := false }, true)
        else
          ({ st with msgq := rest, log := .dropped frame session.getMmTime :: st.log }, decide (rest = []))

/-- `while (!display_stream_schedule(st))`. -/
def scheduleLoop (session : Session) : Nat -> DisplayStream -> Option DisplayStream
  | 0, _ => none
  | fuel + 1, st =>
      match st.schedule session with
      | (next, true) => some next
      | (next, false) => scheduleLoop session fuel next

/-- The loop with rounds enough. -/
def scheduleAll (session : Session) (st : DisplayStream) : Option DisplayStream :=
  scheduleLoop session (st.msgq.length + 1) st

def resetRenderingTimer (session : Session) (st : DisplayStream) : Option DisplayStream :=
  scheduleAll session { st with timeout := none }

/-- `g_queue_clear` after all messages were released. -/
def clear (last arriving : UInt32) (st : DisplayStream) : DisplayStream :=
  { st with
    msgq := []
    log := (st.msgq.map fun frame => FrameEvent.cleared frame last arriving).reverse ++ st.log }

def testFramesMmTimeReset (session : Session) (st : DisplayStream) (time : UInt32) : Option DisplayStream :=
  match st.msgq.getLast? with
  | none => some st
  | some tail => if time < tail.time then resetRenderingTimer session (st.clear tail.time time) else some st

/-- The time a message is given: a frame without one is shown 100 milliseconds from now. -/
def frameTime (session : Session) (time : UInt32) : UInt32 :=
  if time = 0 then session.getMmTime + 100 else time

/-- `display_handle_stream_data` for a stream that exists. -/
def handleStreamData (session : Session) (st : DisplayStream) (time : UInt32) : Option DisplayStream :=
  let frame := { index := st.arrived, time := frameTime session time : Frame }
  let counted := { st with arrived := st.arrived + 1 }
  if latency frame.time session.getMmTime < 0 then
    some { counted with log := .dropped frame session.getMmTime :: st.log }
  else
    (counted.testFramesMmTimeReset session frame.time).bind fun tested =>
      scheduleAll session { tested with msgq := tested.msgq ++ [frame] }

/-- The loop of `display_stream_render`; the list has the microseconds it takes to show each
frame. -/
def renderLoop : Nat -> List Nat -> Session -> DisplayStream -> Option (Session × DisplayStream)
  | 0, _, _, _ => none
  | fuel + 1, spent, session, st =>
      match st.msgq with
      -- `g_return_val_if_fail(in != NULL, FALSE)`
      | [] => none
      | frame :: rest =>
          let shown := { st with msgq := rest, log := .rendered frame session.getMmTime :: st.log }
          let later := session.elapse (spent.headD 0)
          if rest = [] then some (later, shown)
          else
            match shown.schedule later with
            | (next, true) => some (later, next)
            | (next, false) => renderLoop fuel spent.tail later next

def render (session : Session) (st : DisplayStream) (spent : List Nat) : Option (Session × DisplayStream) :=
  renderLoop (st.msgq.length + 1) spent session { st with timeout := none }

end DisplayStream

/-- A stream with its session.  `resetPending` says whether `mm-time-reset` was emitted and its
handler not run yet. -/
structure Playing where
  session : Session
  st : DisplayStream
  resetPending : Bool
deriving DecidableEq

/-- What can happen. -/
inductive StreamEvent
  | data (time : UInt32)
  | expire (spent : List Nat)
  | setMmTime (time : UInt32)
  | mmTimeReset
  | elapse (micros : Nat)
deriving DecidableEq

namespace Playing

/-- A stream is created some time after the mm-time of its session was set. -/
def init (mmTime : UInt32) (setAt elapsed : Nat) : Playing where
  session := { clock := setAt + elapsed, mmTime := mmTime, mmTimeAtClock := setAt }
  st := .init
  resetPending := false

def Expired (playing : Playing) : Prop :=
  Exists fun deadline => playing.st.timeout = some deadline ∧ deadline ≤ playing.session.clock

instance (playing : Playing) : Decidable playing.Expired :=
  match isSet : playing.st.timeout with
  | none => isFalse (by
      rintro ⟨deadline, same, _⟩
      rw [isSet] at same
      cases same)
  | some deadline =>
      if come : deadline ≤ playing.session.clock then isTrue ⟨deadline, isSet, come⟩
      else isFalse (by
        rintro ⟨other, same, before⟩
        rw [isSet] at same
        cases same
        exact come before)

/-- One event.  A timeout that has not expired and a signal that was not emitted do nothing. -/
def step (playing : Playing) : StreamEvent -> Option Playing
  | .data time => (playing.st.handleStreamData playing.session time).map fun st => { playing with st := st }
  | .expire spent =>
      if playing.Expired then
        (playing.st.render playing.session spent).map fun result =>
          { playing with session := result.1, st := result.2 }
      else some playing
  | .setMmTime time =>
      some { session := playing.session.setMmTime time
             st := { playing.st with mmTimeSet := true }
             resetPending := playing.resetPending || playing.session.resets time }
  | .mmTimeReset =>
      if playing.resetPending then
        (playing.st.resetRenderingTimer playing.session).map fun st =>
          { playing with st := st, resetPending := false }
      else some playing
  | .elapse micros => some { playing with session := playing.session.elapse micros }

end Playing

/-! ## What is expected of a stream -/

/-- The frame was rendered or dropped when its time had come, or cleared for a frame with an
earlier time. -/
def FrameEvent.Timely : FrameEvent -> Prop
  | .rendered frame now => HasCome frame.time now
  | .dropped frame now => HasCome frame.time now
  | .cleared _ last arriving => arriving < last

/-- Frames are rendered in the order of arrival and each at most once.  Every frame that arrived
was rendered, dropped or cleared, or waits.  As long as frames wait, a timeout is pending. -/
structure DisplayStream.Kept (st : DisplayStream) : Prop where
  inOrder : (st.log.filterMap FrameEvent.renderedIndex).Pairwise (fun newer older => older < newer)
  accounted : forall index, index < st.arrived ->
    (Exists fun frame => frame ∈ st.msgq ∧ frame.index = index) ∨
      Exists fun event => event ∈ st.log ∧ event.frame.index = index
  pending : st.msgq ≠ [] -> st.timeout.isSome = true

/-- Moreover, frames are rendered not before their time, and those that were dropped were late. -/
structure DisplayStream.Scheduled (st : DisplayStream) : Prop extends st.Kept where
  timely : forall event, event ∈ st.log -> event.Timely

/-- The frames behind one that is rendered meet no defect.  A frame the loop drops is late, also
in the modular sense, and then the frame behind it, which is rendered without a look at its
time, has come as well. -/
def BehindFits : List Nat -> Session -> List Frame -> Prop
  | _, _, [] => True
  | spent, session, [dropped] =>
      (session.elapse (spent.headD 0)).getMmTime < dropped.time ∨
        HasCome dropped.time (session.elapse (spent.headD 0)).getMmTime
  | spent, session, dropped :: next :: rest =>
      (session.elapse (spent.headD 0)).getMmTime < dropped.time ∨
        (HasCome dropped.time (session.elapse (spent.headD 0)).getMmTime ∧
          HasCome next.time (session.elapse (spent.headD 0)).getMmTime ∧
            BehindFits spent.tail (session.elapse (spent.headD 0)) rest)

/-- A new frame is for an earlier time than the last one that waits. -/
def DisplayStream.Clears (st : DisplayStream) (time : UInt32) : Prop :=
  Exists fun tail => st.msgq.getLast? = some tail ∧ time < tail.time

/-- A new frame meets no defect.  If it is not late and the only one in the queue then, its time
is not behind the end of the 32-bit range. -/
def DataFits (session : Session) (st : DisplayStream) (time : UInt32) : Prop :=
  0 ≤ latency time session.getMmTime -> st.msgq = [] ∨ st.Clears time ->
    session.getMmTime < time ∨ latency time session.getMmTime = 0

/-- The event meets no defect.  A timeout is handled less than `2 ^ 31` milliseconds late, and the mm-time was not set
since, or the time of the frame has come; and the frames behind fit.  A reset finds no frame that is only less than the
mm-time because the range ended between them. -/
def PlayingFits (playing : Playing) : StreamEvent -> Prop
  | .data time =>
      DataFits playing.session playing.st (DisplayStream.frameTime playing.session time)
  | .expire spent =>
      forall deadline, playing.st.timeout = some deadline -> deadline ≤ playing.session.clock ->
        forall head rest, playing.st.msgq = head :: rest ->
          ((playing.st.mmTimeSet = true ∨ 2 ^ 31 * 1000 ≤ playing.session.clock - deadline) ->
            HasCome head.time playing.session.getMmTime) ∧
          BehindFits spent playing.session rest
  | .mmTimeReset =>
      playing.resetPending = true -> forall frame, frame ∈ playing.st.msgq ->
        playing.session.getMmTime < frame.time ∨ HasCome frame.time playing.session.getMmTime
  | .setMmTime _ => True
  | .elapse _ => True

namespace DisplayStream

/-! ## The queue and the record -/

/-- What holds of the queue and of the record, for the frames up to `count`, also while the
timeout is not set yet. -/
structure Core (count : Nat) (st : DisplayStream) : Prop where
  sorted : st.msgq.Pairwise (fun one other => one.time ≤ other.time)
  ordered : st.msgq.Pairwise (fun one other => one.index < other.index)
  waiting : forall frame, frame ∈ st.msgq -> frame.index < count
  seen : forall index, index ∈ st.log.filterMap FrameEvent.renderedIndex ->
    index < count ∧ forall frame, frame ∈ st.msgq -> index < frame.index
  inOrder : (st.log.filterMap FrameEvent.renderedIndex).Pairwise (fun newer older => older < newer)
  accounted : forall index, index < count ->
    (Exists fun frame => frame ∈ st.msgq ∧ frame.index = index) ∨
      Exists fun event => event ∈ st.log ∧ event.frame.index = index

def AllTimely (st : DisplayStream) : Prop := forall event, event ∈ st.log -> event.Timely

theorem init_core : Core 0 init where
  sorted := List.Pairwise.nil
  ordered := List.Pairwise.nil
  waiting := fun frame member => by cases member
  seen := fun index member => by cases member
  inOrder := List.Pairwise.nil
  accounted := fun index impossible => absurd impossible (Nat.not_lt_zero index)

variable {count : Nat}

theorem Core.withTimeout {st : DisplayStream} (core : st.Core count) (timeout : Option Nat)
    (mmTimeSet : Bool) : Core count { st with timeout := timeout, mmTimeSet := mmTimeSet } :=
  ⟨core.sorted, core.ordered, core.waiting, core.seen, core.inOrder, core.accounted⟩

/-- The first frame leaves the queue, and what became of it is recorded. -/
theorem Core.take {st : DisplayStream} (core : st.Core count) {frame : Frame} {rest : List Frame}
    (queue : st.msgq = frame :: rest) {event : FrameEvent} (about : event.frame = frame) :
    Core count { st with msgq := rest, log := event :: st.log } := by
  have sorted := core.sorted
  have ordered := core.ordered
  have waiting := core.waiting
  have seen := core.seen
  have accounted := core.accounted
  rw [queue] at sorted ordered waiting
  have first : frame.index < count := waiting frame List.mem_cons_self
  have behind := (List.pairwise_cons.mp ordered).1
  refine ⟨(List.pairwise_cons.mp sorted).2, (List.pairwise_cons.mp ordered).2,
    fun other member => waiting other (List.mem_cons_of_mem _ member), ?_, ?_, ?_⟩
  · intro index member
    have cases : index = frame.index ∨ index ∈ st.log.filterMap FrameEvent.renderedIndex := by
      rw [List.filterMap_cons] at member
      cases event with
      | rendered shown now =>
          have same : shown = frame := about
          subst same
          exact List.mem_cons.mp member
      | dropped shown now => exact Or.inr member
      | cleared shown last arriving => exact Or.inr member
    rcases cases with same | old
    · rw [same]
      exact ⟨first, fun other inRest => behind other inRest⟩
    · have before := seen index old
      exact ⟨before.1, fun other inRest => before.2 other (by rw [queue]; exact List.mem_cons_of_mem _ inRest)⟩
  · show ((event :: st.log).filterMap FrameEvent.renderedIndex).Pairwise _
    cases event with
    | rendered shown now =>
        have same : shown = frame := about
        subst same
        refine List.pairwise_cons.mpr ⟨?_, core.inOrder⟩
        exact fun index old => (seen index old).2 shown (by rw [queue]; exact List.mem_cons_self)
    | dropped shown now => exact core.inOrder
    | cleared shown last arriving => exact core.inOrder
  · intro index arrived
    rcases accounted index arrived with ⟨other, member, same⟩ | ⟨old, member, same⟩
    · rw [queue] at member
      rcases List.mem_cons.mp member with isFirst | inRest
      · refine Or.inr ⟨event, List.mem_cons_self, ?_⟩
        rw [about, ← isFirst, same]
      · exact Or.inl ⟨other, inRest, same⟩
    · exact Or.inr ⟨old, List.mem_cons_of_mem _ member, same⟩

theorem allTimely_cons {st : DisplayStream} {msgq : List Frame} {event : FrameEvent} :
    AllTimely { st with msgq := msgq, log := event :: st.log } <-> event.Timely ∧ st.AllTimely :=
  List.forall_mem_cons

/-- The timeout of the first frame, if the mm-time was not set since: the mm-time will be that of
the frame. -/
structure Due (session : Session) (st : DisplayStream) : Prop where
  pending : st.timeout.isSome = true <-> st.msgq ≠ []
  reaches : forall deadline head rest, st.timeout = some deadline -> st.mmTimeSet = false ->
    st.msgq = head :: rest -> session.mmTimeAtClock ≤ deadline ∧
      session.mmTime + UInt32.ofNat ((deadline - session.mmTimeAtClock) / 1000) = head.time

theorem init_due (session : Session) : Due session init where
  pending := ⟨fun impossible => absurd impossible Bool.false_ne_true, fun impossible => absurd rfl impossible⟩
  reaches := fun deadline head rest isSet => by cases isSet

/-- What scheduling leaves: the frames that had come are dropped, and a timeout is pending for
the others. -/
structure Rescheduled (count : Nat) (session : Session) (st next : DisplayStream) : Prop where
  core : next.Core count
  due : Due session next
  arrived : next.arrived = st.arrived
  timely : next.AllTimely <-> st.AllTimely ∧ forall frame, frame ∈ st.msgq ->
    session.getMmTime < frame.time ∨ HasCome frame.time session.getMmTime

variable {session : Session}

theorem mmTime_at_timeout (started : session.mmTimeAtClock ≤ session.clock) (time : UInt32) :
    session.mmTime + UInt32.ofNat ((session.clock + (time - session.getMmTime).toNat * 1000 -
      session.mmTimeAtClock) / 1000) = time := by
  have split : (session.clock + (time - session.getMmTime).toNat * 1000 - session.mmTimeAtClock) / 1000 =
      (session.clock - session.mmTimeAtClock) / 1000 + (time - session.getMmTime).toNat := by
    rw [Nat.sub_add_comm started, Nat.add_mul_div_right _ _ (by decide)]
  rw [split, UInt32.ofNat_add, UInt32.ofNat_toNat, ← UInt32.add_assoc]
  show session.getMmTime + (time - session.getMmTime) = time
  rw [UInt32.add_comm, UInt32.sub_add_cancel]

theorem hasCome_later (time : UInt32) {later : Nat} (soon : later ≤ 2 ^ 31) :
    HasCome time (time + UInt32.ofNat later) := by
  have value : (time - (time + UInt32.ofNat later)).toNat = (2 ^ 32 - later) % 2 ^ 32 := by
    rw [UInt32.toNat_sub, UInt32.toNat_add, UInt32.toNat_ofNat']
    have bound := time.toNat_lt
    omega
  unfold HasCome latency
  rw [value]
  by_cases zero : later = 0
  · subst zero
    decide
  · rw [Nat.mod_eq_of_lt (by omega), int32_of_ge (by omega) (by omega)]
    omega

theorem schedule_cons {st : DisplayStream} {frame : Frame} {rest : List Frame}
    (unset : st.timeout = none) (queue : st.msgq = frame :: rest) :
    st.schedule session =
      if session.getMmTime < frame.time then
        ({ st with
            timeout := some (session.clock + (frame.time - session.getMmTime).toNat * 1000)
            mmTimeSet := false }, true)
      else
        ({ st with msgq := rest, log := .dropped frame session.getMmTime :: st.log }, decide (rest = [])) := by
  cases st
  cases unset
  cases queue
  rfl

/-- `display_stream_schedule` until it returns `TRUE`. -/
theorem scheduleLoop_spec (started : session.mmTimeAtClock ≤ session.clock) :
    forall (fuel : Nat) (st : DisplayStream), st.Core count -> st.timeout = none -> st.msgq.length < fuel ->
      Exists fun next => scheduleLoop session fuel st = some next ∧ Rescheduled count session st next := by
  intro fuel
  induction fuel with
  | zero => intro st _ _ enough; exact absurd enough (Nat.not_lt_zero _)
  | succ fuel ih =>
      intro st core unset enough
      have noTimeout : Not (st.timeout.isSome = true) := by
        rw [unset]
        exact Bool.false_ne_true
      cases queue : st.msgq with
      | nil =>
          have scheduled : st.schedule session = (st, true) := by
            rw [schedule, if_neg noTimeout, queue]
          refine ⟨st, by rw [scheduleLoop, scheduled], core, ⟨?_, ?_⟩, rfl, ?_⟩
          · rw [unset, queue]
            exact ⟨fun impossible => absurd impossible Bool.false_ne_true, fun impossible => absurd rfl impossible⟩
          · intro deadline head rest isSet
            rw [unset] at isSet
            cases isSet
          · refine ⟨fun timely => ⟨timely, ?_⟩, fun both => both.1⟩
            intro frame member
            rw [queue] at member
            cases member
      | cons frame rest =>
          by_cases later : session.getMmTime < frame.time
          · let next := { st with
              timeout := some (session.clock + (frame.time - session.getMmTime).toNat * 1000)
              mmTimeSet := false }
            have scheduled : st.schedule session = (next, true) := by
              rw [schedule_cons unset queue, if_pos later]
            refine ⟨next, by rw [scheduleLoop, scheduled], core.withTimeout _ _, ⟨?_, ?_⟩, rfl, ?_⟩
            · show true = true <-> st.msgq ≠ []
              rw [queue]
              exact ⟨fun _ => List.cons_ne_nil _ _, fun _ => rfl⟩
            · intro deadline head others isSet _ same
              cases isSet
              have heads : frame :: rest = head :: others := queue.symm.trans same
              cases heads
              exact ⟨Nat.le_trans started (Nat.le_add_right _ _), mmTime_at_timeout started frame.time⟩
            · refine ⟨fun timely => ⟨timely, ?_⟩, fun both => both.1⟩
              -- the queue is sorted, so no frame behind this one has come either
              have sorted := core.sorted
              rw [queue] at sorted
              intro other member
              rw [queue] at member
              rcases List.mem_cons.mp member with same | behind
              · rw [same]
                exact Or.inl later
              · exact Or.inl (UInt32.lt_of_lt_of_le later ((List.pairwise_cons.mp sorted).1 other behind))
          · let next := { st with msgq := rest, log := .dropped frame session.getMmTime :: st.log }
            have scheduled : st.schedule session = (next, decide (rest = [])) := by
              rw [schedule_cons unset queue, if_neg later]
            have nextCore : next.Core count := core.take queue rfl
            have shorter : next.msgq.length < fuel := by
              rw [queue, List.length_cons] at enough
              exact Nat.lt_of_succ_lt_succ enough
            have nextTimely : next.AllTimely <-> HasCome frame.time session.getMmTime ∧ st.AllTimely := allTimely_cons
            have split : (forall other, other ∈ frame :: rest ->
                session.getMmTime < other.time ∨ HasCome other.time session.getMmTime) <->
                  HasCome frame.time session.getMmTime ∧ forall other, other ∈ rest ->
                    session.getMmTime < other.time ∨ HasCome other.time session.getMmTime := by
              rw [List.forall_mem_cons]
              exact and_congr_left (fun _ => ⟨fun either => either.resolve_left later, Or.inr⟩)
            have found : Exists fun final => scheduleLoop session (fuel + 1) st = some final ∧
                Rescheduled count session next final := by
              cases empty : rest with
              | nil =>
                  have unsetNext : next.timeout = none := unset
                  have emptyNext : next.msgq = [] := empty
                  refine ⟨next, by rw [scheduleLoop, scheduled, empty]; rfl, nextCore, ⟨?_, ?_⟩, rfl, ?_⟩
                  · rw [unsetNext, emptyNext]
                    exact ⟨fun impossible => absurd impossible Bool.false_ne_true,
                      fun impossible => absurd rfl impossible⟩
                  · intro deadline head others isSet
                    rw [unsetNext] at isSet
                    cases isSet
                  · refine ⟨fun timely => ⟨timely, ?_⟩, fun both => both.1⟩
                    intro other member
                    rw [emptyNext] at member
                    cases member
              | cons second others =>
                  rcases ih next nextCore unset shorter with ⟨final, ran, rescheduled⟩
                  refine ⟨final, ?_, rescheduled⟩
                  rw [scheduleLoop, scheduled, empty]
                  exact ran
            rcases found with ⟨final, ran, rescheduled⟩
            refine ⟨final, ran, rescheduled.core, rescheduled.due, rescheduled.arrived, ?_⟩
            rw [rescheduled.timely, nextTimely, queue, split]
            exact ⟨fun both => ⟨both.1.2, both.1.1, both.2⟩, fun both => ⟨⟨both.2.1, both.1⟩, both.2.2⟩⟩

theorem resetRenderingTimer_spec {st : DisplayStream} (started : session.mmTimeAtClock ≤ session.clock)
    (core : st.Core count) :
    Exists fun next => st.resetRenderingTimer session = some next ∧ Rescheduled count session st next := by
  rcases scheduleLoop_spec started (st.msgq.length + 1) { st with timeout := none }
    (core.withTimeout none st.mmTimeSet) rfl (Nat.lt_succ_self _) with ⟨next, ran, rescheduled⟩
  exact ⟨next, ran, rescheduled.core, rescheduled.due, rescheduled.arrived, rescheduled.timely⟩

/-! ## A message arrives -/

theorem Core.drop {st : DisplayStream} (core : st.Core count) (time now : UInt32) : Core (count + 1)
      { st with log := .dropped { index := count, time := time } now :: st.log, arrived := count + 1 } where
  sorted := core.sorted
  ordered := core.ordered
  waiting := fun frame member => Nat.lt_succ_of_lt (core.waiting frame member)
  seen := fun index member => ⟨Nat.lt_succ_of_lt (core.seen index member).1, (core.seen index member).2⟩
  inOrder := core.inOrder
  accounted := by
    intro index arrived
    rcases Nat.lt_succ_iff_lt_or_eq.mp arrived with before | same
    · rcases core.accounted index before with inQueue | ⟨event, member, about⟩
      · exact Or.inl inQueue
      · exact Or.inr ⟨event, List.mem_cons_of_mem _ member, about⟩
    · exact Or.inr ⟨_, List.mem_cons_self, same.symm⟩

/-- A frame is queued behind the others. -/
theorem Core.push {st : DisplayStream} (core : st.Core count) {time : UInt32}
    (last : forall frame, frame ∈ st.msgq -> frame.time ≤ time) :
    Core (count + 1) { st with msgq := st.msgq ++ [{ index := count, time := time }] } where
  sorted := by
    refine List.pairwise_append.mpr ⟨core.sorted, List.pairwise_singleton _ _, ?_⟩
    intro frame member new isNew
    rw [List.mem_singleton.mp isNew]
    exact last frame member
  ordered := by
    refine List.pairwise_append.mpr ⟨core.ordered, List.pairwise_singleton _ _, ?_⟩
    intro frame member new isNew
    rw [List.mem_singleton.mp isNew]
    exact core.waiting frame member
  waiting := by
    intro frame member
    rcases List.mem_append.mp member with old | new
    · exact Nat.lt_succ_of_lt (core.waiting frame old)
    · rw [List.mem_singleton.mp new]
      exact Nat.lt_succ_self _
  seen := by
    intro index member
    have before := core.seen index member
    refine ⟨Nat.lt_succ_of_lt before.1, ?_⟩
    intro frame inQueue
    rcases List.mem_append.mp inQueue with old | new
    · exact before.2 frame old
    · rw [List.mem_singleton.mp new]
      exact before.1
  inOrder := core.inOrder
  accounted := by
    intro index arrived
    rcases Nat.lt_succ_iff_lt_or_eq.mp arrived with before | same
    · rcases core.accounted index before with ⟨frame, member, about⟩ | seen
      · exact Or.inl ⟨frame, List.mem_append_left _ member, about⟩
      · exact Or.inr seen
    · exact Or.inl ⟨_, List.mem_append_right _ (List.mem_singleton.mpr rfl), same.symm⟩

theorem renderedIndex_cleared (frames : List Frame) (last arriving : UInt32) :
    (frames.map fun frame => FrameEvent.cleared frame last arriving).reverse.filterMap FrameEvent.renderedIndex =
      [] := by
  apply List.filterMap_eq_nil_iff.mpr
  intro event member
  rcases List.mem_map.mp (List.mem_reverse.mp member) with ⟨frame, _, same⟩
  rw [← same]
  rfl

/-- The queue is cleared for an earlier frame. -/
theorem Core.clear {st : DisplayStream} (core : st.Core count) (last arriving : UInt32) :
    Core count (st.clear last arriving) where
  sorted := List.Pairwise.nil
  ordered := List.Pairwise.nil
  waiting := fun frame member => by cases member
  seen := by
    intro index member
    rw [DisplayStream.clear, List.filterMap_append, renderedIndex_cleared, List.nil_append] at member
    exact ⟨(core.seen index member).1, fun frame inQueue => by cases inQueue⟩
  inOrder := by
    rw [DisplayStream.clear, List.filterMap_append, renderedIndex_cleared, List.nil_append]
    exact core.inOrder
  accounted := by
    intro index arrived
    rcases core.accounted index arrived with ⟨frame, member, about⟩ | ⟨event, member, about⟩
    · refine Or.inr ⟨.cleared frame last arriving, List.mem_append_left _ ?_, about⟩
      exact List.mem_reverse.mpr (List.mem_map.mpr ⟨frame, member, rfl⟩)
    · exact Or.inr ⟨event, List.mem_append_right _ member, about⟩

theorem allTimely_clear {st : DisplayStream} {last arriving : UInt32} (earlier : arriving < last) :
    (st.clear last arriving).AllTimely <-> st.AllTimely := by
  constructor
  · exact fun timely event member => timely event (List.mem_append_right _ member)
  · intro timely event member
    rcases List.mem_append.mp member with cleared | old
    · rcases List.mem_map.mp (List.mem_reverse.mp cleared) with ⟨frame, inQueue, same⟩
      rw [← same]
      exact earlier
    · exact timely event old

theorem Core.le_of_not_clears {st : DisplayStream} (core : st.Core count) {time : UInt32}
    (keeps : Not (st.Clears time)) : forall frame, frame ∈ st.msgq -> frame.time ≤ time := by
  intro frame member
  rcases List.eq_nil_or_concat st.msgq with empty | ⟨front, tail, queue⟩
  · rw [empty] at member
    cases member
  · have latest : tail.time ≤ time := by
      apply UInt32.not_lt.mp
      intro earlier
      refine keeps ⟨tail, ?_, earlier⟩
      rw [queue, List.concat_eq_append, List.getLast?_append, List.getLast?_singleton]
      rfl
    have sorted := core.sorted
    rw [queue, List.concat_eq_append] at sorted member
    rcases List.mem_append.mp member with inFront | last
    · exact UInt32.le_trans ((List.pairwise_append.mp sorted).2.2 frame inFront tail (List.mem_singleton.mpr rfl))
        latest
    · rw [List.mem_singleton.mp last]
      exact latest

theorem resetRenderingTimer_nil {st : DisplayStream} (empty : st.msgq = []) :
    st.resetRenderingTimer session = some { st with timeout := none } := by
  cases st
  cases empty
  rfl

theorem scheduleAll_pending {st : DisplayStream} (isSet : st.timeout.isSome = true) :
    scheduleAll session st = some st := by
  have scheduled : st.schedule session = (st, true) := by
    rw [schedule, if_pos isSet]
  rw [scheduleAll, scheduleLoop, scheduled]

theorem testFrames_clears {st : DisplayStream} {time : UInt32} {tail : Frame}
    (isTail : st.msgq.getLast? = some tail) (earlier : time < tail.time) :
    st.testFramesMmTimeReset session time = some { st.clear tail.time time with timeout := none } := by
  rw [testFramesMmTimeReset, isTail]
  show (if time < tail.time then _ else _) = _
  rw [if_pos earlier, resetRenderingTimer_nil rfl]

theorem testFrames_keeps {st : DisplayStream} {time : UInt32} (keeps : Not (st.Clears time)) :
    st.testFramesMmTimeReset session time = some st := by
  unfold testFramesMmTimeReset
  cases isTail : st.msgq.getLast? with
  | none => rfl
  | some tail => exact if_neg (fun earlier => keeps ⟨tail, isTail, earlier⟩)

/-- What an event leaves of a stream; the condition says when it drops and renders no frame
whose time has not come. -/
structure Handled (session : Session) (st next : DisplayStream) (condition : Prop) : Prop where
  core : next.Core next.arrived
  due : Due session next
  timely : next.AllTimely <-> st.AllTimely ∧ condition

/-- The first frame of a queue is scheduled. -/
theorem Core.scheduleOnly {st : DisplayStream}
    (started : session.mmTimeAtClock ≤ session.clock) (core : st.Core count) (empty : st.msgq = [])
    (unset : st.timeout = none) (time : UInt32) :
    Exists fun next =>
      scheduleAll session { st with msgq := st.msgq ++ [{ index := count, time := time }] } = some next ∧
        Rescheduled (count + 1) session
          { st with msgq := st.msgq ++ [{ index := count, time := time }] } next ∧
        (next.AllTimely <-> st.AllTimely ∧ (session.getMmTime < time ∨ HasCome time session.getMmTime)) := by
  have pushed := @Core.push count st core time (by
    rw [empty]
    intro frame member
    cases member)
  rcases scheduleLoop_spec started _ _ pushed unset (Nat.lt_succ_self _) with ⟨next, ran, rescheduled⟩
  refine ⟨next, ran, rescheduled, rescheduled.timely.trans (and_congr Iff.rfl ?_)⟩
  show (forall frame, frame ∈ st.msgq ++ [_] -> _) <-> _
  rw [empty, List.nil_append, List.forall_mem_singleton]

/-- What becomes of a frame that arrives. -/
theorem handleStreamData_spec {st : DisplayStream}
    (started : session.mmTimeAtClock ≤ session.clock) (core : st.Core st.arrived) (due : Due session st)
    (time : UInt32) :
    Exists fun next => st.handleStreamData session time = some next ∧
      Handled session st next (DataFits session st (frameTime session time)) := by
  by_cases late : latency (frameTime session time) session.getMmTime < 0
  · let next := { st with
      log := .dropped { index := st.arrived, time := frameTime session time } session.getMmTime :: st.log
      arrived := st.arrived + 1 }
    refine ⟨next, by simp only [handleStreamData, if_pos late, next], core.drop _ _, ⟨due.pending, due.reaches⟩, ?_⟩
    refine List.forall_mem_cons.trans ⟨fun both => ⟨both.2, ?_⟩, fun both => ⟨Int.le_of_lt late, both.1⟩⟩
    intro notLate
    exact absurd notLate (Int.not_le_of_gt late)
  · have notLate : 0 ≤ latency (frameTime session time) session.getMmTime := Int.not_lt.mp late
    have zeroIff : HasCome (frameTime session time) session.getMmTime <->
        latency (frameTime session time) session.getMmTime = 0 :=
      ⟨fun come => Int.le_antisymm come notLate, fun same => Int.le_of_eq same⟩
    by_cases clears : st.Clears (frameTime session time)
    · rcases clears with ⟨tail, isTail, earlier⟩
      have tested : { st with arrived := st.arrived + 1 }.testFramesMmTimeReset session (frameTime session time) =
          some { st.clear tail.time (frameTime session time) with timeout := none, arrived := st.arrived + 1 } :=
        testFrames_clears isTail earlier
      have cleared := (core.clear tail.time (frameTime session time)).withTimeout none st.mmTimeSet
      have fresh : Core st.arrived
          { st.clear tail.time (frameTime session time) with timeout := none, arrived := st.arrived + 1 } :=
        ⟨cleared.sorted, cleared.ordered, cleared.waiting, cleared.seen, cleared.inOrder, cleared.accounted⟩
      rcases fresh.scheduleOnly started rfl rfl (frameTime session time) with ⟨next, ran, rescheduled, timely⟩
      refine ⟨next, ?_, ?_, rescheduled.due, ?_⟩
      · simp only [handleStreamData, if_neg late, tested, Option.bind_some]
        exact ran
      · rw [rescheduled.arrived]
        exact rescheduled.core
      · refine timely.trans ?_
        have clearedTimely : AllTimely
            { st.clear tail.time (frameTime session time) with timeout := none, arrived := st.arrived + 1 } <->
          st.AllTimely := allTimely_clear earlier
        rw [clearedTimely, zeroIff]
        constructor
        · rintro ⟨timely, soon⟩
          exact ⟨timely, fun _ _ => soon⟩
        · rintro ⟨timely, fits⟩
          exact ⟨timely, fits notLate (Or.inr ⟨tail, isTail, earlier⟩)⟩
    · have tested : { st with arrived := st.arrived + 1 }.testFramesMmTimeReset session (frameTime session time) =
          some { st with arrived := st.arrived + 1 } := testFrames_keeps clears
      have fresh : Core st.arrived { st with arrived := st.arrived + 1 } :=
        ⟨core.sorted, core.ordered, core.waiting, core.seen, core.inOrder, core.accounted⟩
      by_cases empty : st.msgq = []
      · have unset : st.timeout = none :=
          Option.not_isSome_iff_eq_none.mp (fun isSet => due.pending.mp isSet empty)
        rcases fresh.scheduleOnly started empty unset (frameTime session time) with ⟨next, ran, rescheduled, timely⟩
        refine ⟨next, ?_, ?_, rescheduled.due, ?_⟩
        · simp only [handleStreamData, if_neg late, tested, Option.bind_some]
          exact ran
        · rw [rescheduled.arrived]
          exact rescheduled.core
        · refine timely.trans ?_
          have same : AllTimely { st with arrived := st.arrived + 1 } <-> st.AllTimely := Iff.rfl
          rw [zeroIff, same]
          constructor
          · rintro ⟨timely, soon⟩
            exact ⟨timely, fun _ _ => soon⟩
          · rintro ⟨timely, fits⟩
            exact ⟨timely, fits notLate (Or.inl empty)⟩
      · have isSet : st.timeout.isSome = true := due.pending.mpr empty
        have pushed := fresh.push (core.le_of_not_clears clears)
        let next : DisplayStream := { st with
          arrived := st.arrived + 1
          msgq := st.msgq ++ [({ index := st.arrived, time := frameTime session time } : Frame)] }
        have nextCore : next.Core next.arrived := pushed
        refine ⟨next, ?_, nextCore, ⟨?_, ?_⟩, ?_⟩
        · simp only [handleStreamData, if_neg late, tested, Option.bind_some]
          exact @scheduleAll_pending session next isSet
        · refine ⟨fun _ => ?_, fun _ => isSet⟩
          exact List.append_ne_nil_of_right_ne_nil _ (List.cons_ne_nil _ _)
        · intro deadline head rest isDeadline unchanged queue
          cases waiting : st.msgq with
          | nil => exact absurd waiting empty
          | cons first others =>
              have heads : first = head := by
                have same : st.msgq ++ _ = head :: rest := queue
                rw [waiting, List.cons_append] at same
                exact (List.cons.inj same).1
              rw [← heads]
              exact due.reaches deadline first others isDeadline unchanged waiting
        · refine ⟨fun timely => ⟨timely, fun _ => ?_⟩, fun both => both.1⟩
          rintro (impossible | impossible)
          · exact absurd impossible empty
          · exact absurd impossible clears

/-! ## A timeout expires -/

/-- The loop of `display_stream_render` finds a frame in every round. -/
theorem renderLoop_spec : forall (fuel : Nat) (spent : List Nat) (session : Session)
    (st : DisplayStream) (frame : Frame) (rest : List Frame), session.mmTimeAtClock ≤ session.clock ->
      st.Core count -> st.timeout = none -> st.msgq = frame :: rest -> st.msgq.length < fuel ->
        Exists fun total => Exists fun next => renderLoop fuel spent session st = some (session.elapse total, next) ∧
          next.arrived = st.arrived ∧ next.Core count ∧ Due (session.elapse total) next ∧
            (next.AllTimely <-> st.AllTimely ∧
              HasCome frame.time session.getMmTime ∧ BehindFits spent session rest) := by
  intro fuel
  induction fuel with
  | zero => intro _ _ _ _ _ _ _ _ _ enough; exact absurd enough (Nat.not_lt_zero _)
  | succ fuel ih =>
      intro spent session st frame rest started core unset queue enough
      let shown := { st with msgq := rest, log := .rendered frame session.getMmTime :: st.log }
      let later := session.elapse (spent.headD 0)
      have startedLater : later.mmTimeAtClock ≤ later.clock := Nat.le_trans started (Nat.le_add_right _ _)
      have shownCore : shown.Core count := core.take queue rfl
      have shownTimely : shown.AllTimely <-> HasCome frame.time session.getMmTime ∧ st.AllTimely := allTimely_cons
      have unsetShown : shown.timeout = none := unset
      have idle : forall next : DisplayStream, next.timeout = none -> next.msgq = [] -> Due later next := by
        intro next unsetNext emptyNext
        refine ⟨?_, fun deadline head others isSet => ?_⟩
        · rw [unsetNext, emptyNext]
          exact ⟨fun impossible => absurd impossible Bool.false_ne_true, fun impossible => absurd rfl impossible⟩
        · rw [unsetNext] at isSet
          cases isSet
      cases behind : rest with
      | nil =>
          refine ⟨spent.headD 0, shown, ?_, rfl, shownCore, idle shown unsetShown behind, ?_⟩
          · simp only [renderLoop, queue]
            rw [if_pos behind]
          · rw [shownTimely]
            exact ⟨fun both => ⟨both.2, both.1, trivial⟩, fun both => ⟨both.2.1, both.1⟩⟩
      | cons dropped others =>
          have queueShown : shown.msgq = dropped :: others := behind
          have entered : renderLoop (fuel + 1) spent session st =
              match shown.schedule later with
              | (next, true) => some (later, next)
              | (next, false) => renderLoop fuel spent.tail later next := by
            simp only [renderLoop, queue]
            rw [if_neg (by rw [behind]; exact List.cons_ne_nil _ _)]
          by_cases soon : later.getMmTime < dropped.time
          · let next := { shown with
              timeout := some (later.clock + (dropped.time - later.getMmTime).toNat * 1000)
              mmTimeSet := false }
            refine ⟨spent.headD 0, next, ?_, rfl, shownCore.withTimeout _ _, ⟨?_, ?_⟩, ?_⟩
            · rw [entered, schedule_cons unsetShown queueShown, if_pos soon]
            · show true = true <-> shown.msgq ≠ []
              rw [queueShown]
              exact ⟨fun _ => List.cons_ne_nil _ _, fun _ => rfl⟩
            · intro deadline head tail isSet _ same
              cases isSet
              have heads : dropped :: others = head :: tail := queueShown.symm.trans same
              cases heads
              exact ⟨Nat.le_trans startedLater (Nat.le_add_right _ _), mmTime_at_timeout startedLater dropped.time⟩
            · show shown.AllTimely <-> _
              rw [shownTimely]
              refine ⟨fun both => ⟨both.2, both.1, ?_⟩, fun both => ⟨both.2.1, both.1⟩⟩
              cases others with
              | nil => exact Or.inl soon
              | cons second others => exact Or.inl soon
          · let next := { shown with msgq := others, log := .dropped dropped later.getMmTime :: shown.log }
            have nextCore : next.Core count := shownCore.take queueShown rfl
            have nextTimely : next.AllTimely <-> HasCome dropped.time later.getMmTime ∧ shown.AllTimely :=
              allTimely_cons
            cases others with
            | nil =>
                refine ⟨spent.headD 0, next, ?_, rfl, nextCore, idle next unsetShown rfl, ?_⟩
                · rw [entered, schedule_cons unsetShown queueShown, if_neg soon]
                  rfl
                · rw [nextTimely, shownTimely]
                  exact ⟨fun both => ⟨both.2.2, both.2.1, Or.inr both.1⟩,
                    fun both => ⟨both.2.2.resolve_left soon, both.2.1, both.1⟩⟩
            | cons second others =>
                have shorter : next.msgq.length < fuel := by
                  rw [queue, behind, List.length_cons] at enough
                  exact Nat.lt_trans (Nat.lt_succ_self _) (Nat.lt_of_succ_lt_succ enough)
                rcases ih spent.tail later next second others startedLater nextCore unsetShown rfl shorter with
                  ⟨total, final, ran, arrived, finalCore, finalDue, finalTimely⟩
                have summed : later.elapse total = session.elapse (spent.headD 0 + total) :=
                  session.elapse_elapse _ _
                rw [summed] at ran finalDue
                refine ⟨spent.headD 0 + total, final, ?_, arrived, finalCore, finalDue, ?_⟩
                · rw [entered, schedule_cons unsetShown queueShown, if_neg soon]
                  exact ran
                · rw [finalTimely, nextTimely, shownTimely]
                  constructor
                  · rintro ⟨⟨droppedCome, frameCome, timely⟩, secondCome, fits⟩
                    exact ⟨timely, frameCome, Or.inr ⟨droppedCome, secondCome, fits⟩⟩
                  · rintro ⟨timely, frameCome, soonOr⟩
                    have fits := soonOr.resolve_left soon
                    exact ⟨⟨fits.1, frameCome, timely⟩, fits.2.1, fits.2.2⟩

end DisplayStream

namespace Playing

/-! ## Every run -/

/-- The invariant of a stream and its session. -/
structure Inv (playing : Playing) : Prop where
  core : playing.st.Core playing.st.arrived
  due : DisplayStream.Due playing.session playing.st
  started : playing.session.mmTimeAtClock ≤ playing.session.clock

/-- When a timeout expires, the time of its frame has come, unless the mm-time was set since or
the timeout is handled very late. -/
theorem Inv.head_hasCome {playing : Playing} (inv : playing.Inv) {deadline : Nat} {head : Frame} {rest : List Frame}
    (isSet : playing.st.timeout = some deadline) (expired : deadline ≤ playing.session.clock)
    (queue : playing.st.msgq = head :: rest) (unchanged : playing.st.mmTimeSet = false)
    (soon : playing.session.clock - deadline < 2 ^ 31 * 1000) : HasCome head.time playing.session.getMmTime := by
  rcases inv.due.reaches deadline head rest isSet unchanged queue with ⟨before, reaches⟩
  have split : (playing.session.clock - playing.session.mmTimeAtClock) / 1000 =
      (deadline - playing.session.mmTimeAtClock) / 1000 +
        ((playing.session.clock - playing.session.mmTimeAtClock) / 1000 -
          (deadline - playing.session.mmTimeAtClock) / 1000) := by
    have order : (deadline - playing.session.mmTimeAtClock) / 1000 ≤
        (playing.session.clock - playing.session.mmTimeAtClock) / 1000 :=
      Nat.div_le_div_right (Nat.sub_le_sub_right expired _)
    omega
  have now : playing.session.getMmTime = head.time +
      UInt32.ofNat ((playing.session.clock - playing.session.mmTimeAtClock) / 1000 -
        (deadline - playing.session.mmTimeAtClock) / 1000) := by
    rw [Session.getMmTime, split, UInt32.ofNat_add, ← UInt32.add_assoc, reaches, Nat.add_sub_cancel_left]
  rw [now]
  exact DisplayStream.hasCome_later head.time (by omega)

/-- An event is handled, with no failure, and shows and drops no frame whose time has not come
exactly if it meets no defect. -/
theorem Inv.step {playing : Playing} (inv : playing.Inv) (event : StreamEvent) :
    Exists fun next => playing.step event = some next ∧ next.Inv ∧
      (next.st.AllTimely <-> playing.st.AllTimely ∧ PlayingFits playing event) := by
  have started := inv.started
  cases event with
  | data time =>
      rcases DisplayStream.handleStreamData_spec started inv.core inv.due time with ⟨next, handled, spec⟩
      exact ⟨{ playing with st := next }, by rw [Playing.step, handled, Option.map_some],
        ⟨spec.core, spec.due, started⟩, spec.timely⟩
  | expire spent =>
      by_cases expired : playing.Expired
      · rcases expired with ⟨deadline, isSet, come⟩
        have waits : playing.st.msgq ≠ [] := inv.due.pending.mp (by rw [isSet]; rfl)
        cases queue : playing.st.msgq with
        | nil => exact absurd queue waits
        | cons head rest =>
            rcases DisplayStream.renderLoop_spec (playing.st.msgq.length + 1) spent playing.session
              { playing.st with timeout := none } head rest started
              (inv.core.withTimeout none playing.st.mmTimeSet) rfl queue (Nat.lt_succ_self _) with
              ⟨total, next, ran, arrived, core, due, timely⟩
            refine ⟨{ playing with session := playing.session.elapse total, st := next }, ?_,
              ⟨?_, due, Nat.le_trans started (Nat.le_add_right _ _)⟩, ?_⟩
            · rw [Playing.step, if_pos ⟨deadline, isSet, come⟩, DisplayStream.render, ran, Option.map_some]
            · show next.Core next.arrived
              rw [arrived]
              exact core
            · refine timely.trans (and_congr Iff.rfl ⟨?_, ?_⟩)
              · rintro ⟨headCome, fits⟩ other isOther _ front behind same
                rw [queue] at same
                cases same
                exact ⟨fun _ => headCome, fits⟩
              · intro fits
                rcases fits deadline isSet come head rest queue with ⟨orCome, behindFits⟩
                refine ⟨?_, behindFits⟩
                by_cases changed : playing.st.mmTimeSet = true
                · exact orCome (Or.inl changed)
                · by_cases late : 2 ^ 31 * 1000 ≤ playing.session.clock - deadline
                  · exact orCome (Or.inr late)
                  · exact inv.head_hasCome isSet come queue (Bool.eq_false_iff.mpr changed) (Nat.lt_of_not_le late)
      · refine ⟨playing, by rw [Playing.step, if_neg expired], inv, ⟨fun timely => ⟨timely, ?_⟩, fun both => both.1⟩⟩
        intro deadline isSet come
        exact absurd ⟨deadline, isSet, come⟩ expired
  | setMmTime time =>
      refine ⟨_, rfl, ⟨?_, ⟨inv.due.pending, ?_⟩, Nat.le_refl _⟩, ⟨fun timely => ⟨timely, trivial⟩, fun both => both.1⟩⟩
      · exact inv.core.withTimeout playing.st.timeout true
      · intro deadline head rest _ impossible
        cases impossible
  | mmTimeReset =>
      by_cases emitted : playing.resetPending = true
      · rcases DisplayStream.resetRenderingTimer_spec started inv.core with ⟨next, ran, rescheduled⟩
        refine ⟨{ playing with st := next, resetPending := false }, ?_, ⟨?_, rescheduled.due, started⟩, ?_⟩
        · rw [Playing.step, if_pos emitted, ran, Option.map_some]
        · show next.Core next.arrived
          rw [rescheduled.arrived]
          exact rescheduled.core
        · exact rescheduled.timely.trans (and_congr Iff.rfl ⟨fun come _ => come, fun fits => fits emitted⟩)
      · refine ⟨playing, by rw [Playing.step, if_neg emitted], inv, ⟨fun timely => ⟨timely, ?_⟩, fun both => both.1⟩⟩
        exact fun impossible => absurd impossible emitted
  | elapse micros =>
      refine ⟨_, rfl, ⟨inv.core, ⟨inv.due.pending, inv.due.reaches⟩, Nat.le_trans started (Nat.le_add_right _ _)⟩,
        ⟨fun timely => ⟨timely, trivial⟩, fun both => both.1⟩⟩

theorem Inv.kept {playing : Playing} (inv : playing.Inv) : playing.st.Kept where
  inOrder := inv.core.inOrder
  accounted := inv.core.accounted
  pending := inv.due.pending.mpr

theorem init_inv (mmTime : UInt32) (setAt elapsed : Nat) : (init mmTime setAt elapsed).Inv :=
  ⟨DisplayStream.init_core, DisplayStream.init_due _, Nat.le_add_right _ _⟩

end Playing

/-- Whatever happens, no check fails and no frame is lost or rendered out of order.  Moreover the
stream is scheduled as expected all along a run exactly if every event of the run meets no
defect. -/
theorem displayStream_scheduled (mmTime : UInt32) (setAt elapsed : Nat) (events : List StreamEvent) :
    AllStates Playing.step (fun _ playing => playing.st.Kept) [] (Playing.init mmTime setAt elapsed) events ∧
      (AllStates Playing.step (fun _ playing => playing.st.Scheduled) [] (Playing.init mmTime setAt elapsed) events <->
        Meets Playing.step (fun _ playing event => PlayingFits playing event) []
          (Playing.init mmTime setAt elapsed) events) := by
  have begins := Playing.init_inv mmTime setAt elapsed
  constructor
  · have keeps : forall (past : List StreamEvent) (playing : Playing) (event : StreamEvent), playing.Inv -> True ->
        Exists fun next => playing.step event = some next ∧ next.Inv := by
      intro _ playing event inv _
      rcases inv.step event with ⟨next, stepped, nextInv, _⟩
      exact ⟨next, stepped, nextInv⟩
    exact allStates_of_meets (fun _ _ inv => inv.kept) keeps begins
      (Meets.of_forall (fun _ _ _ => trivial) events [] _)
  · apply @allStates_iff_meets Playing StreamEvent Playing.step (fun _ playing event => PlayingFits playing event)
      (fun _ playing => playing.Inv ∧ playing.st.AllTimely) (fun _ playing => playing.st.Scheduled) (fun _ _ => True)
    · exact fun _ _ holds => ⟨holds.1.kept, holds.2⟩
    · rintro _ playing event ⟨inv, timely⟩ _ fits
      rcases inv.step event with ⟨next, stepped, nextInv, nextTimely⟩
      exact ⟨next, stepped, nextInv, nextTimely.mpr ⟨timely, fits⟩⟩
    · rintro _ playing event next ⟨inv, timely⟩ _ stepped scheduled
      rcases inv.step event with ⟨other, steppedOther, _, nextTimely⟩
      have same : other = next := Option.some.inj (steppedOther.symm.trans stepped)
      subst same
      exact (nextTimely.mp scheduled.timely).2
    · exact ⟨begins, fun event member => by cases member⟩
    · exact fun _ _ _ _ => trivial

/-- No frame was taken off the queue because another one arrived. -/
def DisplayStream.NoneCleared (st : DisplayStream) : Prop :=
  forall event, event ∈ st.log -> event.renderedIndex = none ->
    Exists fun frame => Exists fun now => event = .dropped frame now

/-- Three frames wait, and the loop runs when the first two have come. -/
def threeFrames : List StreamEvent := [.data 1010, .data 1020, .data 6000, .elapse 30000, .expire []]

/-- A frame that is not late is cleared when one for an earlier time arrives.  Moreover, in the
run on three frames the second is dropped as late, and the third is rendered right away, five
seconds before its time. -/
theorem displayStream_clears_and_renders_early :
    Not (forall (mmTime : UInt32) (setAt elapsed : Nat) (events : List StreamEvent),
        AllStates Playing.step (fun _ playing => playing.st.Scheduled ∧ playing.st.NoneCleared) []
          (Playing.init mmTime setAt elapsed) events) ∧
      Not (AllStates Playing.step (fun _ playing => playing.st.Scheduled) [] (Playing.init 1000 0 0) threeFrames) := by
  constructor
  · intro all
    rcases all 1000 0 0 [.data 1010, .data 1005] _ (List.prefix_refl _) with ⟨final, ran, _, noneCleared⟩
    have computed : run Playing.step (Playing.init 1000 0 0) [.data 1010, .data 1005] = some
        { session := { clock := 0, mmTime := 1000, mmTimeAtClock := 0 }
          st :=
            { msgq := [{ index := 1, time := 1005 }]
              timeout := some 5000
              mmTimeSet := false
              arrived := 2
              log := [.cleared { index := 0, time := 1010 } 1010 1005] }
          resetPending := false } := by decide +kernel
    rw [computed] at ran
    cases ran
    rcases noneCleared _ List.mem_cons_self rfl with ⟨frame, now, impossible⟩
    cases impossible
  · intro all
    rcases all threeFrames (List.prefix_refl _) with ⟨final, ran, scheduled⟩
    have computed : run Playing.step (Playing.init 1000 0 0) threeFrames = some
        { session := { clock := 30000, mmTime := 1000, mmTimeAtClock := 0 }
          st :=
            { msgq := []
              timeout := none
              mmTimeSet := false
              arrived := 3
              log := [.rendered { index := 2, time := 6000 } 1030, .dropped { index := 1, time := 1020 } 1030,
                .rendered { index := 0, time := 1010 } 1030] }
          resetPending := false } := by decide +kernel
    rw [computed] at ran
    cases ran
    have come : HasCome 6000 1030 := scheduled.timely _ List.mem_cons_self
    exact absurd come (by decide)

end Client
end Spice
