import Mathlib.Data.List.Sort
import Mathlib.Logic.Function.Basic
import Spice.Lib.Run

namespace Spice
namespace Worker

open Lib

/-!
# The timer queue of a worker thread

`spice_timer_queue.c` for the queue of one thread.  The ring `active_timers` is kept in the
order of the expiry times.  `spice_timer_queue_cb` takes the head off the ring as long as it
has expired, and runs its callback, which may edit the ring.

A callback is not modelled as a function: between two rounds of the loop any calls may be
made, also further calls of `spice_timer_queue_cb`.  Every timer has a number of its own, also
when its memory is used again, and a call for a timer that was freed is no call.  The
monotonic clock and the expiry times count milliseconds in 64 bits and do not wrap.
-/

/-- The fields of a `SpiceTimer` that change. -/
structure SpiceTimer where
  isActive : Bool
  ms : UInt32
  expiryTime : Nat
deriving DecidableEq

inductive TimerEvent
  | armed (timer expiry : Nat)
  | stopped (timer : Nat)
  | ran (timer now : Nat)
deriving DecidableEq

namespace TimerEvent

def timer : TimerEvent -> Nat
  | .armed timer _ => timer
  | .stopped timer => timer
  | .ran timer _ => timer

end TimerEvent

/-- A `SpiceTimerQueue` with the timers by their number.  `loops` has the `now_ms` of every
running call of `spice_timer_queue_cb`, the innermost first, and `past` what happened so far,
the newest first. -/
structure TimerQueue where
  timers : List Nat
  activeTimers : List Nat
  timer : Nat -> Option SpiceTimer
  allocated : Nat
  clock : Nat
  loops : List Nat
  past : List TimerEvent

namespace TimerQueue

/-- `spice_timer_queue_create`. -/
def init : TimerQueue where
  timers := []
  activeTimers := []
  timer := fun _ => none
  allocated := 0
  clock := 0
  loops := []
  past := []

def expiry (queue : TimerQueue) (timer : Nat) : Nat := (queue.timer timer).elim 0 SpiceTimer.expiryTime

/-- Change a timer. -/
def put (queue : TimerQueue) (timer : Nat) (value : Option SpiceTimer) : TimerQueue :=
  { queue with timer := Function.update queue.timer timer value }

def record (queue : TimerQueue) (event : TimerEvent) : TimerQueue :=
  { queue with past := event :: queue.past }

def spiceTimerQueueAdd (queue : TimerQueue) : TimerQueue :=
  { queue.put queue.allocated (some { isActive := false, ms := 0, expiryTime := 0 }) with
    timers := queue.allocated :: queue.timers
    allocated := queue.allocated + 1 }

/-- `ring_remove` of the active link. -/
def unlink (queue : TimerQueue) (timer : Nat) : TimerQueue :=
  { queue with activeTimers := queue.activeTimers.erase timer }

def spiceTimerCancel (queue : TimerQueue) (timer : Nat) (value : SpiceTimer) : Option TimerQueue :=
  if timer ∈ queue.activeTimers then
    if value.isActive then some ((queue.unlink timer).put timer (some { value with isActive := false }))
    else none
  else if value.isActive then none else some queue

/-- `ring_add_before` in front of the first timer that does not expire earlier. -/
def link (queue : TimerQueue) (timer : Nat) : TimerQueue :=
  { queue with
    activeTimers := queue.activeTimers.orderedInsert (fun one other => queue.expiry one ≤ queue.expiry other) timer }

/-- `_spice_timer_set`.  `ring_add` asserts that the link is not in a ring. -/
def spiceTimerSetAt (queue : TimerQueue) (timer : Nat) (value : SpiceTimer) (ms : UInt32) (now : Nat) :
    Option TimerQueue :=
  (if value.isActive then queue.spiceTimerCancel timer value else some queue).bind fun queue =>
    if timer ∈ queue.activeTimers then none
    else some
      (((queue.put timer (some { isActive := true, ms := ms, expiryTime := now + ms.toNat })).link timer).record
        (.armed timer (now + ms.toNat)))

/-- `spice_timer_set`, some time after the clock was read last. -/
def spiceTimerSet (queue : TimerQueue) (timer : Nat) (value : SpiceTimer) (ms : UInt32) (elapsed : Nat) :
    Option TimerQueue :=
  { queue with clock := queue.clock + elapsed }.spiceTimerSetAt timer value ms (queue.clock + elapsed)

def spiceTimerRemove (queue : TimerQueue) (timer : Nat) (value : SpiceTimer) : Option TimerQueue :=
  if timer ∈ queue.timers then
    if value.isActive then
      if timer ∈ queue.activeTimers then
        some ({ queue.unlink timer with timers := queue.timers.erase timer }.put timer none)
      else none
    else some ({ queue with timers := queue.timers.erase timer }.put timer none)
  else none

end TimerQueue

inductive TimerCall
  | add
  | set (timer : Nat) (ms : UInt32) (elapsed : Nat)
  | cancel (timer : Nat)
  | remove (timer : Nat)
deriving DecidableEq

namespace TimerQueue

/-- One call; a failed assertion is `none`. -/
def call (queue : TimerQueue) : TimerCall -> Option TimerQueue
  | .add => some queue.spiceTimerQueueAdd
  | .set timer ms elapsed =>
      match queue.timer timer with
      | none => some queue
      | some value => queue.spiceTimerSet timer value ms elapsed
  | .cancel timer =>
      match queue.timer timer with
      | none => some queue
      | some value => (queue.spiceTimerCancel timer value).map (fun next => next.record (.stopped timer))
  | .remove timer =>
      match queue.timer timer with
      | none => some queue
      | some value => (queue.spiceTimerRemove timer value).map (fun next => next.record (.stopped timer))

/-- `spice_timer_queue_cb` up to its loop. -/
def enter (queue : TimerQueue) (elapsed : Nat) : TimerQueue :=
  if queue.activeTimers = [] then queue
  else { queue with clock := queue.clock + elapsed, loops := (queue.clock + elapsed) :: queue.loops }

/-- The innermost call of `spice_timer_queue_cb` tests the head of the ring: it returns, or
runs a callback. -/
def round (queue : TimerQueue) : Option TimerQueue :=
  match queue.loops, queue.activeTimers with
  | [], _ => some queue
  | _ :: rest, [] => some { queue with loops := rest }
  | now :: rest, head :: _ =>
      match queue.timer head with
      | none => none
      | some value =>
          if now < value.expiryTime then some { queue with loops := rest }
          else (queue.spiceTimerCancel head value).map (fun next => next.record (.ran head now))

/-- `spice_timer_queue_get_timeout_ms`, with the conversion to `unsigned int`; -1 is the
largest one. -/
def getTimeoutMs (queue : TimerQueue) (elapsed : Nat) : UInt32 :=
  match queue.activeTimers with
  | [] => 0xffffffff
  | head :: _ => UInt32.ofNat (queue.expiry head - (queue.clock + elapsed))

end TimerQueue

/-- What can happen next. -/
inductive TimerOp
  | call (call : TimerCall)
  | enter (elapsed : Nat)
  | round
deriving DecidableEq

def timerStep (queue : TimerQueue) : TimerOp -> Option TimerQueue
  | .call call => queue.call call
  | .enter elapsed => some (queue.enter elapsed)
  | .round => queue.round

namespace TimerQueue

def calls : TimerQueue -> List TimerCall -> Option TimerQueue
  | queue, [] => some queue
  | queue, call :: rest => (queue.call call).bind fun next => next.calls rest

/-- The loop of `spice_timer_queue_cb` with callbacks that do what `callback` says. -/
def cbLoop (callback : TimerQueue -> List TimerCall) : Nat -> TimerQueue -> Option TimerQueue
  | 0, _ => none
  | fuel + 1, queue =>
      queue.round.bind fun next =>
        if next.loops.length < queue.loops.length then some next
        else (next.calls (callback next)).bind (cbLoop callback fuel)

/-- A whole call of `spice_timer_queue_cb`. -/
def spiceTimerQueueCb (callback : TimerQueue -> List TimerCall) (fuel elapsed : Nat) (queue : TimerQueue) :
    Option TimerQueue :=
  if queue.activeTimers = [] then some queue else cbLoop callback fuel (queue.enter elapsed)

/-! ## What is expected of the queue -/

def Active (queue : TimerQueue) (timer : Nat) (value : SpiceTimer) : Prop :=
  queue.timer timer = some value ∧ value.isActive = true

end TimerQueue

def latestEvent (timer : Nat) (past : List TimerEvent) : Option TimerEvent :=
  past.find? (fun event => event.timer == timer)

/-- Whenever a timer ran, the newest event it had before is that it was armed, for a time that
had come. -/
def Chronicle : List TimerEvent -> Prop
  | [] => True
  | .ran timer now :: past =>
      (Exists fun expiry => latestEvent timer past = some (.armed timer expiry) ∧ expiry ≤ now) ∧ Chronicle past
  | _ :: past => Chronicle past

namespace TimerQueue

inductive Round (queue next : TimerQueue) : Prop
  | idle (none : queue.loops = []) (same : next = queue)
  | returned (now : Nat) (rest : List Nat) (running : queue.loops = now :: rest)
      (left : next = { queue with loops := rest })
      (none : forall timer value, queue.Active timer value -> now < value.expiryTime)
  | ran (now : Nat) (rest : List Nat) (timer : Nat) (value : SpiceTimer) (running : queue.loops = now :: rest)
      (stays : next.loops = queue.loops) (active : queue.Active timer value) (expired : value.expiryTime ≤ now)
      (minimal : forall other found, queue.Active other found -> value.expiryTime ≤ found.expiryTime)
      (recorded : next.past = .ran timer now :: queue.past)

end TimerQueue

def TimerCall.Positive : TimerCall -> Prop
  | .set _ ms _ => 0 < ms.toNat
  | _ => True

namespace TimerQueue

/-- The ring is sorted and holds exactly the active timers, each once.  A timer runs at most
once for each time it was armed, not before it expires, and not after it was cancelled or
removed.  Every round of the loop runs an expired timer of minimal expiry, or returns when no
timer has expired.  With positive delays a whole call ends, and no active timer had expired
when it was made. -/
structure Sound (queue : TimerQueue) : Prop where
  sorted : queue.activeTimers.Pairwise (fun one other => queue.expiry one ≤ queue.expiry other)
  once : queue.activeTimers.Nodup
  holds : forall timer, timer ∈ queue.activeTimers <-> Exists (queue.Active timer)
  runs : Chronicle queue.past
  rounds : forall next, queue.round = some next -> queue.Round next
  ends : forall (callback : TimerQueue -> List TimerCall) (elapsed : Nat),
    (forall state call, call ∈ callback state -> call.Positive) ->
      Exists fun fuel => Exists fun final =>
        queue.spiceTimerQueueCb callback fuel elapsed = some final ∧ final.loops = queue.loops ∧
          forall timer value, final.Active timer value -> queue.clock + elapsed < value.expiryTime

end TimerQueue

namespace TimerQueue

/-! ## The rings -/

/-- What holds of the rings and of the timers in them. -/
structure Linked (queue : TimerQueue) : Prop where
  sorted : queue.activeTimers.Pairwise (fun one other => queue.expiry one ≤ queue.expiry other)
  once : queue.activeTimers.Nodup
  holds : forall timer, timer ∈ queue.activeTimers <-> Exists (queue.Active timer)
  listed : forall timer, timer ∈ queue.timers <-> (queue.timer timer).isSome = true
  listedOnce : queue.timers.Nodup
  fresh : forall timer, timer ∈ queue.timers -> timer < queue.allocated

theorem init_linked : init.Linked where
  sorted := List.Pairwise.nil
  once := List.nodup_nil
  holds := fun timer => by simp [init, Active]
  listed := fun timer => by simp [init]
  listedOnce := List.nodup_nil
  fresh := fun timer member => by cases member

variable {queue : TimerQueue}

theorem Linked.withOther (linked : queue.Linked) (clock : Nat) (loops : List Nat) (past : List TimerEvent) :
    Linked { queue with clock := clock, loops := loops, past := past } :=
  ⟨linked.sorted, linked.once, linked.holds, linked.listed, linked.listedOnce, linked.fresh⟩

theorem put_timer_self (queue : TimerQueue) (timer : Nat) (value : Option SpiceTimer) :
    (queue.put timer value).timer timer = value := by
  show Function.update queue.timer timer value timer = value
  rw [Function.update_self]

theorem put_timer_ne (queue : TimerQueue) {timer other : Nat} (value : Option SpiceTimer)
    (differ : other ≠ timer) : (queue.put timer value).timer other = queue.timer other := by
  show Function.update queue.timer timer value other = queue.timer other
  rw [Function.update_of_ne differ]

theorem put_expiry_ne (queue : TimerQueue) {timer other : Nat} (value : Option SpiceTimer)
    (differ : other ≠ timer) : (queue.put timer value).expiry other = queue.expiry other := by
  rw [expiry, put_timer_ne queue value differ, expiry]

variable {timer : Nat} {value : SpiceTimer}

theorem Active.expiry_eq (active : queue.Active timer value) : queue.expiry timer = value.expiryTime := by
  rw [expiry, active.1]
  rfl

theorem Active.unique {value other : SpiceTimer}
    (active : queue.Active timer value) (found : queue.timer timer = some other) : value = other :=
  Option.some.inj (active.1.symm.trans found)

theorem Linked.mem_iff (linked : queue.Linked)
    (found : queue.timer timer = some value) : timer ∈ queue.activeTimers <-> value.isActive = true := by
  rw [linked.holds timer]
  constructor
  · rintro ⟨other, active⟩
    rw [← active.unique found]
    exact active.2
  · intro isActive
    exact ⟨value, found, isActive⟩

theorem pairwise_put {ring : List Nat} (value : Option SpiceTimer)
    (sorted : ring.Pairwise (fun one other => queue.expiry one ≤ queue.expiry other)) (absent : timer ∉ ring) :
    ring.Pairwise (fun one other => (queue.put timer value).expiry one ≤ (queue.put timer value).expiry other) := by
  refine sorted.imp_of_mem ?_
  intro one other memberOne memberOther ordered
  have differOne : one ≠ timer := ne_of_mem_of_not_mem memberOne absent
  have differOther : other ≠ timer := ne_of_mem_of_not_mem memberOther absent
  rw [put_expiry_ne queue value differOne, put_expiry_ne queue value differOther]
  exact ordered

/-- A timer leaves the ring. -/
theorem Linked.leave (linked : queue.Linked) (timer : Nat) (value : Option SpiceTimer)
    (inactive : forall found, value = some found -> found.isActive = false) :
    (((queue.unlink timer).put timer value).activeTimers.Pairwise
        fun one other => ((queue.unlink timer).put timer value).expiry one ≤
          ((queue.unlink timer).put timer value).expiry other) ∧
            ((queue.unlink timer).put timer value).activeTimers.Nodup ∧
      (forall other, other ∈ ((queue.unlink timer).put timer value).activeTimers <->
        Exists (((queue.unlink timer).put timer value).Active other)) := by
  have absent : timer ∉ queue.activeTimers.erase timer := linked.once.not_mem_erase
  refine ⟨?_, linked.once.erase timer, ?_⟩
  · have rest : (queue.activeTimers.erase timer).Pairwise
        (fun one other => queue.expiry one ≤ queue.expiry other) :=
      linked.sorted.sublist List.erase_sublist
    exact pairwise_put value rest absent
  · intro other
    by_cases same : other = timer
    · subst same
      refine ⟨fun member => absurd member absent, ?_⟩
      rintro ⟨found, isFound, isActive⟩
      rw [put_timer_self] at isFound
      rw [inactive found isFound] at isActive
      cases isActive
    · show other ∈ queue.activeTimers.erase timer <-> _
      rw [List.mem_erase_of_ne same, linked.holds other]
      constructor
      · rintro ⟨found, isFound, isActive⟩
        exact ⟨found, (put_timer_ne _ value same).trans isFound, isActive⟩
      · rintro ⟨found, isFound, isActive⟩
        exact ⟨found, (put_timer_ne _ value same).symm.trans isFound, isActive⟩

theorem Linked.listed_put (linked : queue.Linked) (found : queue.timer timer = some value) (changed : SpiceTimer)
    (other : Nat) :
    other ∈ queue.timers <-> ((queue.put timer (some changed)).timer other).isSome = true := by
  rw [linked.listed other]
  by_cases same : other = timer
  · subst same
    rw [put_timer_self, found]
    exact Iff.rfl
  · rw [put_timer_ne queue _ same]

/-- A timer left the ring, and nothing else changed there. -/
structure Left (queue next : TimerQueue) (timer : Nat) : Prop where
  linked : next.Linked
  ring : next.activeTimers = queue.activeTimers.erase timer
  fewer : forall other found, next.Active other found -> queue.Active other found ∧ other ≠ timer
  expiry : forall other, other ≠ timer -> next.expiry other = queue.expiry other
  clock : next.clock = queue.clock
  loops : next.loops = queue.loops
  past : next.past = queue.past

theorem Left.absent {queue next : TimerQueue} (left : Left queue next timer) : timer ∉ next.activeTimers := by
  intro member
  rcases (left.linked.holds timer).mp member with ⟨found, active⟩
  exact (left.fewer timer found active).2 rfl

/-- `spice_timer_cancel` fails no assertion. -/
theorem Linked.cancel (linked : queue.Linked) (found : queue.timer timer = some value) :
    Exists fun next => queue.spiceTimerCancel timer value = some next ∧ Left queue next timer ∧
      (next.timer timer).isSome = true := by
  cases isActive : value.isActive with
  | true =>
      have member : timer ∈ queue.activeTimers := (linked.mem_iff found).mpr isActive
      have left := linked.leave timer (some { value with isActive := false })
        (fun found same => by cases same; rfl)
      refine ⟨(queue.unlink timer).put timer (some { value with isActive := false }), ?_, ?_, ?_⟩
      · rw [spiceTimerCancel, if_pos member, if_pos isActive]
      · refine
          { linked := ⟨left.1, left.2.1, left.2.2, ?_, linked.listedOnce, linked.fresh⟩
            ring := rfl
            fewer := ?_
            expiry := fun other differ => put_expiry_ne _ _ differ
            clock := rfl
            loops := rfl
            past := rfl }
        · exact fun other => linked.listed_put found { value with isActive := false } other
        · rintro other present ⟨isFound, stillActive⟩
          have differ : other ≠ timer := by
            rintro rfl
            rw [put_timer_self] at isFound
            cases isFound
            cases stillActive
          exact ⟨⟨(put_timer_ne _ _ differ).symm.trans isFound, stillActive⟩, differ⟩
      · rw [put_timer_self]
        rfl
  | false =>
      have absent : timer ∉ queue.activeTimers := fun member => by
        have impossible := (linked.mem_iff found).mp member
        rw [isActive] at impossible
        cases impossible
      refine ⟨queue, ?_, ?_, by rw [found]; rfl⟩
      · rw [spiceTimerCancel, if_neg absent, if_neg (by rw [isActive]; exact Bool.false_ne_true)]
      · refine
          { linked := linked
            ring := (List.erase_of_not_mem absent).symm
            fewer := ?_
            expiry := fun _ _ => rfl
            clock := rfl
            loops := rfl
            past := rfl }
        intro other present active
        refine ⟨active, ?_⟩
        rintro rfl
        exact absent ((linked.holds other).mpr ⟨present, active⟩)

/-- What `_spice_timer_set` leaves. -/
structure Armed (queue next : TimerQueue) (timer time : Nat) : Prop where
  linked : next.Linked
  ring : List.Perm next.activeTimers (timer :: queue.activeTimers.erase timer)
  active : forall other found, next.Active other found ->
    (other = timer ∧ found.expiryTime = time) ∨ (queue.Active other found ∧ other ≠ timer)
  expiry : forall other, other ≠ timer -> next.expiry other = queue.expiry other
  expirySelf : next.expiry timer = time
  clock : next.clock = queue.clock
  loops : next.loops = queue.loops
  past : next.past = .armed timer time :: queue.past

/-- A timer that is not in the ring is linked before the first one that does not expire
earlier. -/
theorem Linked.join (linked : queue.Linked)
    (present : (queue.timer timer).isSome = true) (absent : timer ∉ queue.activeTimers) (value : SpiceTimer)
    (isActive : value.isActive = true) : ((queue.put timer (some value)).link timer).Linked := by
  rcases Option.isSome_iff_exists.mp present with ⟨old, found⟩
  refine ⟨?_, ?_, ?_, ?_, linked.listedOnce, linked.fresh⟩
  · exact List.Pairwise.orderedInsert timer queue.activeTimers (pairwise_put (some value) linked.sorted absent)
  · show (queue.activeTimers.orderedInsert _ timer).Nodup
    rw [(List.perm_orderedInsert _ timer queue.activeTimers).nodup_iff]
    exact List.nodup_cons.mpr ⟨absent, linked.once⟩
  · intro other
    show other ∈ queue.activeTimers.orderedInsert _ timer <-> _
    rw [List.mem_orderedInsert, linked.holds other]
    by_cases same : other = timer
    · subst same
      refine ⟨fun _ => ⟨value, put_timer_self _ _ _, isActive⟩, fun _ => Or.inl rfl⟩
    · constructor
      · rintro (impossible | ⟨here, isHere, active⟩)
        · exact absurd impossible same
        · exact ⟨here, (put_timer_ne _ _ same).trans isHere, active⟩
      · rintro ⟨here, isHere, active⟩
        exact Or.inr ⟨here, (put_timer_ne _ _ same).symm.trans isHere, active⟩
  · exact fun other => linked.listed_put found value other

/-- `_spice_timer_set` fails no assertion. -/
theorem Linked.setAt (linked : queue.Linked) (found : queue.timer timer = some value) (ms : UInt32) (now : Nat) :
    Exists fun next => queue.spiceTimerSetAt timer value ms now = some next ∧
      Armed queue next timer (now + ms.toNat) := by
  have stopped : Exists fun middle =>
      (if value.isActive then queue.spiceTimerCancel timer value else some queue) = some middle ∧
        Left queue middle timer ∧ (middle.timer timer).isSome = true := by
    rcases linked.cancel found with ⟨middle, cancelledEq, cancelled⟩
    cases isActive : value.isActive with
    | true => exact ⟨middle, by rwa [if_pos rfl], cancelled⟩
    | false =>
        have same : middle = queue := by
          rw [spiceTimerCancel, isActive] at cancelledEq
          split at cancelledEq
          · cases cancelledEq
          · exact (Option.some.inj cancelledEq).symm
        subst same
        exact ⟨middle, by rw [if_neg Bool.false_ne_true], cancelled⟩
  rcases stopped with ⟨middle, stoppedEq, cancelled, present⟩
  have absent := cancelled.absent
  have joined := cancelled.linked.join present absent
    { isActive := true, ms := ms, expiryTime := now + ms.toNat } rfl
  refine ⟨_, by rw [spiceTimerSetAt, stoppedEq, Option.bind_some, if_neg absent], ?_⟩
  refine
    { linked := joined.withOther _ _ _
      ring := ?_
      active := ?_
      expiry := fun other differ => (put_expiry_ne _ _ differ).trans (cancelled.expiry other differ)
      expirySelf := ?_
      clock := cancelled.clock
      loops := cancelled.loops
      past := congrArg (List.cons _) cancelled.past }
  · rw [← cancelled.ring]
    exact List.perm_orderedInsert _ timer middle.activeTimers
  · rintro other here ⟨isHere, isActive⟩
    by_cases same : other = timer
    · subst same
      have value := (put_timer_self _ _ _).symm.trans isHere
      cases value
      exact Or.inl ⟨rfl, rfl⟩
    · exact Or.inr (cancelled.fewer other here ⟨(put_timer_ne _ _ same).symm.trans isHere, isActive⟩)
  · show ((middle.put timer _).timer timer).elim 0 SpiceTimer.expiryTime = _
    rw [put_timer_self]
    rfl

/-- `spice_timer_remove` fails no assertion. -/
theorem Linked.remove (linked : queue.Linked) (found : queue.timer timer = some value) :
    Exists fun next => queue.spiceTimerRemove timer value = some next ∧ Left queue next timer := by
  have inTimers : timer ∈ queue.timers := (linked.listed timer).mpr (by rw [found]; rfl)
  have gone := linked.leave timer none (fun found impossible => by cases impossible)
  let next := { queue.unlink timer with timers := queue.timers.erase timer }.put timer none
  have left : Left queue next timer := by
    refine
      { linked := ⟨gone.1, gone.2.1, gone.2.2, ?_, linked.listedOnce.erase timer, ?_⟩
        ring := rfl
        fewer := ?_
        expiry := fun other differ => put_expiry_ne _ _ differ
        clock := rfl
        loops := rfl
        past := rfl }
    · intro other
      by_cases same : other = timer
      · subst same
        refine ⟨fun member => absurd member linked.listedOnce.not_mem_erase, ?_⟩
        rw [put_timer_self]
        intro impossible
        cases impossible
      · rw [put_timer_ne _ _ same]
        show other ∈ queue.timers.erase timer <-> _
        rw [List.mem_erase_of_ne same]
        exact linked.listed other
    · exact fun other member => linked.fresh other (List.mem_of_mem_erase member)
    · rintro other here ⟨isHere, isActive⟩
      have differ : other ≠ timer := by
        rintro rfl
        rw [put_timer_self] at isHere
        cases isHere
      exact ⟨⟨(put_timer_ne _ _ differ).symm.trans isHere, isActive⟩, differ⟩
  refine ⟨next, ?_, left⟩
  rw [spiceTimerRemove, if_pos inTimers]
  cases isActive : value.isActive with
  | true => rw [if_pos rfl, if_pos ((linked.mem_iff found).mpr isActive)]
  | false =>
      have absent : timer ∉ queue.activeTimers := fun member => by
        have impossible := (linked.mem_iff found).mp member
        rw [isActive] at impossible
        cases impossible
      have same : queue.activeTimers.erase timer = queue.activeTimers := List.erase_of_not_mem absent
      rw [if_neg Bool.false_ne_true]
      show some _ = some ({ queue with
        activeTimers := queue.activeTimers.erase timer, timers := queue.timers.erase timer }.put timer none)
      rw [same]

/-- A new timer is in no ring of active timers. -/
theorem Linked.add (linked : queue.Linked) : queue.spiceTimerQueueAdd.Linked ∧
      forall timer found, queue.spiceTimerQueueAdd.Active timer found -> queue.Active timer found := by
  have unused : queue.timer queue.allocated = none := by
    by_contra used
    have listed := (linked.listed queue.allocated).mpr (Option.isSome_iff_ne_none.mpr used)
    exact Nat.lt_irrefl _ (linked.fresh _ listed)
  have absent : queue.allocated ∉ queue.activeTimers := by
    intro member
    rcases (linked.holds _).mp member with ⟨found, active⟩
    rw [active.1] at unused
    cases unused
  have fewer : forall timer found, queue.spiceTimerQueueAdd.Active timer found ->
      queue.Active timer found ∧ timer ≠ queue.allocated := by
    rintro timer found ⟨isFound, isActive⟩
    have differ : timer ≠ queue.allocated := by
      rintro rfl
      have value := (put_timer_self queue _ _).symm.trans isFound
      cases value
      cases isActive
    exact ⟨⟨(put_timer_ne queue _ differ).symm.trans isFound, isActive⟩, differ⟩
  refine ⟨⟨pairwise_put _ linked.sorted absent, linked.once, ?_, ?_, ?_, ?_⟩, fun timer found active =>
    (fewer timer found active).1⟩
  · intro timer
    refine (linked.holds timer).trans ⟨?_, ?_⟩
    · rintro ⟨found, active⟩
      have differ : timer ≠ queue.allocated :=
        ne_of_mem_of_not_mem ((linked.holds timer).mpr ⟨found, active⟩) absent
      exact ⟨found, (put_timer_ne queue _ differ).trans active.1, active.2⟩
    · rintro ⟨found, active⟩
      exact ⟨found, (fewer timer found active).1⟩
  · intro timer
    show timer ∈ queue.allocated :: queue.timers <-> ((queue.put _ _).timer timer).isSome = true
    rw [List.mem_cons]
    by_cases same : timer = queue.allocated
    · subst same
      rw [put_timer_self]
      exact ⟨fun _ => rfl, fun _ => Or.inl rfl⟩
    · rw [put_timer_ne queue _ same, ← linked.listed timer]
      exact ⟨fun either => either.resolve_left same, Or.inr⟩
  · exact List.nodup_cons.mpr ⟨fun member => Nat.lt_irrefl _ (linked.fresh _ member), linked.listedOnce⟩
  · intro timer member
    show timer < queue.allocated + 1
    rcases List.mem_cons.mp member with same | old
    · rw [same]
      exact Nat.lt_succ_self _
    · exact Nat.lt_succ_of_lt (linked.fresh timer old)

/-! ## What was recorded -/

theorem latestEvent_cons_self {event : TimerEvent} (past : List TimerEvent)
    (about : event.timer = timer) : latestEvent timer (event :: past) = some event := by
  rw [latestEvent, List.find?_cons_of_pos (by rw [about]; exact beq_self_eq_true timer)]

theorem latestEvent_cons_ne {event : TimerEvent} (past : List TimerEvent)
    (differ : timer ≠ event.timer) : latestEvent timer (event :: past) = latestEvent timer past := by
  rw [latestEvent, List.find?_cons_of_neg (by
    intro same
    exact differ (eq_of_beq same).symm), latestEvent]

/-- What holds of the record of the past, and of the times. -/
structure Recorded (queue : TimerQueue) : Prop where
  runs : Chronicle queue.past
  latest : forall timer value, queue.Active timer value ->
    latestEvent timer queue.past = some (.armed timer value.expiryTime)
  entered : forall now, now ∈ queue.loops -> now ≤ queue.clock
  bounded : forall timer value, queue.Active timer value -> value.expiryTime < queue.clock + 2 ^ 32

theorem init_recorded : init.Recorded where
  runs := trivial
  latest := fun timer value active => by cases active.1
  entered := fun now member => by cases member
  bounded := fun timer value active => by cases active.1

/-- Its leaving is recorded. -/
theorem Recorded.left {queue next : TimerQueue} (recorded : queue.Recorded)
    (left : Left queue next timer) {event : TimerEvent} (about : event.timer = timer)
    (allowed : Chronicle (event :: queue.past)) : (next.record event).Recorded where
  runs := by
    show Chronicle (event :: next.past)
    rw [left.past]
    exact allowed
  latest := by
    intro other value active
    have before := left.fewer other value active
    show latestEvent other (event :: next.past) = _
    rw [left.past, latestEvent_cons_ne _ (by rw [about]; exact before.2)]
    exact recorded.latest other value before.1
  entered := by
    show forall now, now ∈ next.loops -> now ≤ next.clock
    rw [left.loops, left.clock]
    exact recorded.entered
  bounded := by
    intro other value active
    show value.expiryTime < next.clock + 2 ^ 32
    rw [left.clock]
    exact recorded.bounded other value (left.fewer other value active).1

theorem Recorded.later (recorded : queue.Recorded) (elapsed : Nat) :
    Recorded { queue with clock := queue.clock + elapsed } where
  runs := recorded.runs
  latest := recorded.latest
  entered := fun now member => Nat.le_trans (recorded.entered now member) (Nat.le_add_right _ _)
  bounded := fun timer value active => by
    have before := recorded.bounded timer value active
    show value.expiryTime < queue.clock + elapsed + 2 ^ 32
    omega

/-- The arming of a timer is recorded. -/
theorem Recorded.armed {queue next : TimerQueue} {timer time : Nat} (recorded : queue.Recorded)
    (armed : Armed queue next timer time) (soon : time < queue.clock + 2 ^ 32) : next.Recorded where
  runs := by
    rw [armed.past]
    exact recorded.runs
  latest := by
    intro other value active
    rw [armed.past]
    rcases armed.active other value active with ⟨same, expiry⟩ | ⟨before, differ⟩
    · rw [same, expiry]
      exact latestEvent_cons_self _ rfl
    · rw [latestEvent_cons_ne _ differ]
      exact recorded.latest other value before
  entered := by
    rw [armed.loops, armed.clock]
    exact recorded.entered
  bounded := by
    intro other value active
    rw [armed.clock]
    rcases armed.active other value active with ⟨_, expiry⟩ | ⟨before, _⟩
    · rw [expiry]
      exact soon
    · exact recorded.bounded other value before

/-! ## One operation -/

/-- The invariant of the queue. -/
structure Inv (queue : TimerQueue) : Prop where
  linked : queue.Linked
  recorded : queue.Recorded

/-- The active timers that have expired at a time. -/
def expired (queue : TimerQueue) (now : Nat) : Nat :=
  queue.activeTimers.countP (fun timer => queue.expiry timer ≤ now)

theorem countP_congr_expiry {queue next : TimerQueue} {ring : List Nat} (now : Nat)
    (absent : timer ∉ ring) (expiry : forall other, other ≠ timer -> next.expiry other = queue.expiry other) :
    ring.countP (fun timer => next.expiry timer ≤ now) = ring.countP (fun timer => queue.expiry timer ≤ now) := by
  apply List.countP_congr
  intro other member
  rw [expiry other (ne_of_mem_of_not_mem member absent)]

theorem Left.expired_eq {queue next : TimerQueue} (left : Left queue next timer) (now : Nat) :
    next.expired now = (queue.activeTimers.erase timer).countP (fun timer => queue.expiry timer ≤ now) := by
  have absent := left.absent
  rw [expired, countP_congr_expiry now absent left.expiry, left.ring]

theorem Left.expired_le {queue next : TimerQueue} (left : Left queue next timer) (now : Nat) :
    next.expired now ≤ queue.expired now := by
  rw [left.expired_eq]
  exact List.erase_sublist.countP_le

theorem Armed.expired_le {queue next : TimerQueue} {timer time : Nat} (armed : Armed queue next timer time)
    (once : queue.activeTimers.Nodup) {now : Nat} (later : now < time) : next.expired now ≤ queue.expired now := by
  have notYet : Not (next.expiry timer ≤ now) := by
    rw [armed.expirySelf]
    exact Nat.not_le_of_lt later
  rw [expired, armed.ring.countP_eq, List.countP_cons_of_neg (by rw [decide_eq_true_eq]; exact notYet),
    countP_congr_expiry now once.not_mem_erase armed.expiry]
  exact List.erase_sublist.countP_le

theorem expired_le_of_add (linked : queue.Linked) (now : Nat) :
    queue.spiceTimerQueueAdd.expired now = queue.expired now := by
  have absent : queue.allocated ∉ queue.activeTimers := by
    intro member
    rcases (linked.holds _).mp member with ⟨found, active⟩
    have listed := (linked.listed queue.allocated).mpr (by rw [active.1]; rfl)
    exact Nat.lt_irrefl _ (linked.fresh _ listed)
  exact countP_congr_expiry now absent (fun other differ => put_expiry_ne queue _ differ)

/-- What a call of a client does to the loops that run. -/
structure Called (queue next : TimerQueue) (call : TimerCall) : Prop where
  inv : next.Inv
  loops : next.loops = queue.loops
  clock : queue.clock ≤ next.clock
  expired : call.Positive -> forall now, now ≤ queue.clock -> next.expired now ≤ queue.expired now

/-- Every call fails no assertion, and keeps the invariant. -/
theorem Inv.call (inv : queue.Inv) (call : TimerCall) :
    Exists fun next => queue.call call = some next ∧ Called queue next call := by
  have nothing : Called queue queue call :=
    ⟨inv, rfl, Nat.le_refl _, fun _ _ _ => Nat.le_refl _⟩
  cases call with
  | add =>
      have added := inv.linked.add
      refine ⟨queue.spiceTimerQueueAdd, rfl, ⟨added.1, inv.recorded.runs, ?_, inv.recorded.entered, ?_⟩, rfl,
        Nat.le_refl _, fun _ now _ => Nat.le_of_eq (expired_le_of_add inv.linked now)⟩
      · exact fun timer value active => inv.recorded.latest timer value (added.2 timer value active)
      · exact fun timer value active => inv.recorded.bounded timer value (added.2 timer value active)
  | set timer ms elapsed =>
      cases found : queue.timer timer with
      | none => exact ⟨queue, by rw [TimerQueue.call, found], nothing⟩
      | some value =>
          have later := inv.recorded.later elapsed
          have linked := inv.linked.withOther (queue.clock + elapsed) queue.loops queue.past
          rcases linked.setAt found ms (queue.clock + elapsed) with ⟨next, set, armed⟩
          refine ⟨next,
            by rw [TimerQueue.call, found]; exact set, ⟨armed.linked, later.armed armed ?_⟩, armed.loops, ?_, ?_⟩
          · exact Nat.add_lt_add_left ms.toNat_lt _
          · rw [armed.clock]
            exact Nat.le_add_right _ _
          · intro positive now before
            have late : now < queue.clock + elapsed + ms.toNat := by
              have ahead : 0 < ms.toNat := positive
              omega
            exact armed.expired_le inv.linked.once late
  | cancel timer =>
      cases found : queue.timer timer with
      | none => exact ⟨queue, by rw [TimerQueue.call, found], nothing⟩
      | some value =>
          rcases inv.linked.cancel found with ⟨next, cancelled, left, _⟩
          refine ⟨next.record (.stopped timer), by simp only [TimerQueue.call, found, cancelled, Option.map_some],
            ⟨left.linked.withOther _ _ _, inv.recorded.left left rfl inv.recorded.runs⟩, left.loops, ?_,
            fun _ now _ => left.expired_le now⟩
          exact Nat.le_of_eq left.clock.symm
  | remove timer =>
      cases found : queue.timer timer with
      | none => exact ⟨queue, by rw [TimerQueue.call, found], nothing⟩
      | some value =>
          rcases inv.linked.remove found with ⟨next, removed, left⟩
          refine ⟨next.record (.stopped timer), by simp only [TimerQueue.call, found, removed, Option.map_some],
            ⟨left.linked.withOther _ _ _, inv.recorded.left left rfl inv.recorded.runs⟩, left.loops, ?_,
            fun _ now _ => left.expired_le now⟩
          exact Nat.le_of_eq left.clock.symm

theorem Inv.enter (inv : queue.Inv) (elapsed : Nat) : (queue.enter elapsed).Inv := by
  unfold TimerQueue.enter
  split
  · exact inv
  · have later := inv.recorded.later elapsed
    refine ⟨inv.linked.withOther _ _ _, later.runs, later.latest, ?_, later.bounded⟩
    intro now member
    rcases List.mem_cons.mp member with same | outer
    · exact Nat.le_of_eq same
    · exact later.entered now outer

theorem Inv.leave (inv : queue.Inv) {now : Nat} {rest : List Nat}
    (running : queue.loops = now :: rest) : Inv { queue with loops := rest } :=
  ⟨inv.linked.withOther queue.clock rest queue.past, inv.recorded.runs, inv.recorded.latest,
    fun time member => inv.recorded.entered time (by rw [running]; exact List.mem_cons_of_mem _ member),
    inv.recorded.bounded⟩

/-- The first timer of the ring expires first. -/
theorem Linked.head_minimal (linked : queue.Linked) {head : Nat} {tail : List Nat}
    (ring : queue.activeTimers = head :: tail) (found : queue.timer head = some value)
    {other : Nat} {here : SpiceTimer} (active : queue.Active other here) : value.expiryTime ≤ here.expiryTime := by
  have isActive : value.isActive = true :=
    (linked.mem_iff found).mp (by rw [ring]; exact List.mem_cons_self)
  have headActive : queue.Active head value := ⟨found, isActive⟩
  have member : other ∈ head :: tail := by
    rw [← ring]
    exact (linked.holds other).mpr ⟨here, active⟩
  have sorted := linked.sorted
  rw [ring] at sorted
  rcases List.mem_cons.mp member with same | later
  · subst same
    exact Nat.le_of_eq (congrArg SpiceTimer.expiryTime (headActive.unique active.1))
  · have ordered := (List.pairwise_cons.mp sorted).1 other later
    rwa [headActive.expiry_eq, active.expiry_eq] at ordered

/-- A round fails no assertion, and does what a round is to do.  A callback that is run leaves
one expired timer less. -/
theorem Inv.round (inv : queue.Inv) :
    Exists fun next => queue.round = some next ∧ next.Inv ∧ Round queue next ∧ next.clock = queue.clock ∧
      (forall now rest, queue.loops = now :: rest -> next.loops = rest ∨
        (next.loops = queue.loops ∧ next.expired now < queue.expired now)) := by
  cases running : queue.loops with
  | nil =>
      refine ⟨queue, by rw [TimerQueue.round, running], inv, .idle running rfl, rfl, ?_⟩
      intro now rest impossible
      cases impossible
  | cons now rest =>
      have leaves : forall now' rest', now :: rest = now' :: rest' -> rest = rest' := by
        intro _ _ same
        cases same
        rfl
      cases ring : queue.activeTimers with
      | nil =>
          refine ⟨{ queue with loops := rest }, by simp only [TimerQueue.round, running, ring],
            inv.leave running, .returned now rest running rfl ?_, rfl, fun _ _ same => Or.inl (leaves _ _ same)⟩
          intro timer value active
          have member := (inv.linked.holds timer).mpr ⟨value, active⟩
          rw [ring] at member
          cases member
      | cons head tail =>
          have isMember : head ∈ queue.activeTimers := by
            rw [ring]
            exact List.mem_cons_self
          rcases (inv.linked.holds head).mp isMember with ⟨value, active⟩
          by_cases early : now < value.expiryTime
          · refine ⟨{ queue with loops := rest },
              by simp only [TimerQueue.round, running, ring, active.1, if_pos early],
              inv.leave running, .returned now rest running rfl ?_, rfl, fun _ _ same => Or.inl (leaves _ _ same)⟩
            intro timer here isActive
            exact Nat.lt_of_lt_of_le early (inv.linked.head_minimal ring active.1 isActive)
          · rcases inv.linked.cancel active.1 with ⟨next, cancelled, left, _⟩
            have due : value.expiryTime ≤ now := Nat.le_of_not_lt early
            have latest := inv.recorded.latest head value active
            have allowed : Chronicle (.ran head now :: queue.past) := ⟨⟨_, latest, due⟩, inv.recorded.runs⟩
            refine ⟨next.record (.ran head now),
              by simp only [TimerQueue.round, running, ring, active.1, if_neg early, cancelled, Option.map_some],
              ⟨left.linked.withOther _ _ _, inv.recorded.left left rfl allowed⟩,
              .ran now rest head value running left.loops active due ?_ ?_, left.clock, ?_⟩
            · exact fun other here isActive => inv.linked.head_minimal ring active.1 isActive
            · exact congrArg (List.cons _) left.past
            · intro now' rest' same
              cases same
              refine Or.inr ⟨left.loops.trans running, ?_⟩
              have counted : head ∈ queue.activeTimers -> queue.expiry head ≤ now := fun _ => by
                rw [active.expiry_eq]
                exact due
              show next.expired now < queue.expired now
              rw [left.expired_eq, expired, ring, List.erase_cons_head,
                List.countP_cons_of_pos (by rw [decide_eq_true_eq]; exact counted isMember)]
              exact Nat.lt_succ_self _

/-! ## A whole call -/

/-- The calls of a callback, one after another. -/
theorem Inv.calls (requests : List TimerCall) : forall {queue : TimerQueue}, queue.Inv ->
    (forall request, request ∈ requests -> request.Positive) ->
      Exists fun next => queue.calls requests = some next ∧ next.Inv ∧ next.loops = queue.loops ∧
        forall now, now ≤ queue.clock -> next.expired now ≤ queue.expired now := by
  induction requests with
  | nil =>
      intro queue inv _
      exact ⟨queue, rfl, inv, rfl, fun _ _ => Nat.le_refl _⟩
  | cons request rest ih =>
      intro queue inv positive
      rcases inv.call request with ⟨middle, made, called⟩
      rcases ih called.inv (fun other member => positive other (List.mem_cons_of_mem _ member)) with
        ⟨next, ran, nextInv, loops, fewer⟩
      refine ⟨next, ?_, nextInv, loops.trans called.loops, ?_⟩
      · rw [TimerQueue.calls, made, Option.bind_some, ran]
      · intro now before
        have first := called.expired (positive request List.mem_cons_self) now before
        exact Nat.le_trans (fewer now (Nat.le_trans before called.clock)) first

/-- A loop whose callbacks arm timers for later ends: every round that runs a callback leaves
one expired timer less, and the calls of a callback add none. -/
theorem cbLoop_ends {callback : TimerQueue -> List TimerCall}
    (positive : forall state request, request ∈ callback state -> request.Positive) :
    forall (fuel : Nat) (queue : TimerQueue) (now : Nat) (rest : List Nat), queue.Inv ->
      queue.loops = now :: rest -> queue.expired now < fuel ->
        Exists fun final => cbLoop callback fuel queue = some final ∧ final.loops = rest ∧
          forall timer value, final.Active timer value -> now < value.expiryTime := by
  intro fuel
  induction fuel with
  | zero => intro queue now rest _ _ enough; exact absurd enough (Nat.not_lt_zero _)
  | succ fuel ih =>
      intro queue now rest inv running enough
      rcases inv.round with ⟨next, rounded, nextInv, round, clock, progress⟩
      rcases progress now rest running with left | ⟨stays, fewer⟩
      · have shorter : next.loops.length < queue.loops.length := by
          rw [left, running]
          exact Nat.lt_succ_self _
        refine ⟨next, by rw [cbLoop, rounded, Option.bind_some, if_pos shorter], left, ?_⟩
        cases round with
        | idle none _ =>
            rw [running] at none
            cases none
        | returned time others same leaves none =>
            rw [running] at same
            cases same
            subst leaves
            exact none
        | ran _ _ _ _ _ stays =>
            rw [stays] at shorter
            exact absurd shorter (Nat.lt_irrefl _)
      · have notShorter : Not (next.loops.length < queue.loops.length) := by
          rw [stays]
          exact Nat.lt_irrefl _
        rcases Inv.calls (callback next) nextInv (positive next) with ⟨middle, ran, middleInv, loops, noMore⟩
        have entered := inv.recorded.entered now (by rw [running]; exact List.mem_cons_self)
        have left := noMore now (by rw [clock]; exact entered)
        rcases ih middle now rest middleInv (loops.trans (stays.trans running)) (by omega) with
          ⟨final, ended, finalLoops, none⟩
        refine ⟨final, ?_, finalLoops, none⟩
        rw [cbLoop, rounded, Option.bind_some, if_neg notShorter, ran, Option.bind_some, ended]

/-- A call of the callbacks ends. -/
theorem Inv.ends (inv : queue.Inv) {callback : TimerQueue -> List TimerCall}
    (elapsed : Nat) (positive : forall state request, request ∈ callback state -> request.Positive) :
    Exists fun fuel => Exists fun final =>
      queue.spiceTimerQueueCb callback fuel elapsed = some final ∧ final.loops = queue.loops ∧
        forall timer value, final.Active timer value -> queue.clock + elapsed < value.expiryTime := by
  by_cases empty : queue.activeTimers = []
  · refine ⟨0, queue, by rw [spiceTimerQueueCb, if_pos empty], rfl, ?_⟩
    intro timer value active
    have member := (inv.linked.holds timer).mpr ⟨value, active⟩
    rw [empty] at member
    cases member
  · have running : (queue.enter elapsed).loops = (queue.clock + elapsed) :: queue.loops := by
      rw [TimerQueue.enter, if_neg empty]
    rcases cbLoop_ends positive _ (queue.enter elapsed) _ _ (inv.enter elapsed) running
      (Nat.lt_succ_self _) with ⟨final, ended, loops, none⟩
    exact ⟨_, final, by rw [spiceTimerQueueCb, if_neg empty]; exact ended, loops, none⟩

theorem Inv.sound (inv : queue.Inv) : queue.Sound where
  sorted := inv.linked.sorted
  once := inv.linked.once
  holds := inv.linked.holds
  runs := inv.recorded.runs
  rounds := by
    intro next rounded
    rcases inv.round with ⟨other, roundedOther, _, round, _⟩
    have same : other = next := Option.some.inj (roundedOther.symm.trans rounded)
    rwa [← same]
  ends := fun _ elapsed positive => inv.ends elapsed positive

theorem Inv.getTimeoutMs (inv : queue.Inv) (elapsed : Nat) {head : Nat} {tail : List Nat}
    (ring : queue.activeTimers = head :: tail) :
    (queue.getTimeoutMs elapsed).toNat = queue.expiry head - (queue.clock + elapsed) := by
  rcases (inv.linked.holds head).mp (by rw [ring]; exact List.mem_cons_self) with ⟨value, active⟩
  have bounded := inv.recorded.bounded head value active
  rw [TimerQueue.getTimeoutMs, ring]
  show (UInt32.ofNat (queue.expiry head - (queue.clock + elapsed))).toNat = _
  rw [UInt32.toNat_ofNat', active.expiry_eq]
  exact Nat.mod_eq_of_lt (by omega)

end TimerQueue

/-- Whatever calls are made, also by callbacks, no assertion fails and the queue stays sound. -/
theorem timerQueue_sound (ops : List TimerOp) :
    AllStates timerStep (fun _ queue => queue.Sound) [] TimerQueue.init ops := by
  have begins : TimerQueue.init.Inv := ⟨TimerQueue.init_linked, TimerQueue.init_recorded⟩
  have keeps : forall (past : List TimerOp) (queue : TimerQueue) (op : TimerOp), queue.Inv -> True ->
      Exists fun next => timerStep queue op = some next ∧ next.Inv := by
    intro _ queue op inv _
    cases op with
    | call call =>
        rcases inv.call call with ⟨next, made, called⟩
        exact ⟨next, made, called.inv⟩
    | enter elapsed => exact ⟨queue.enter elapsed, rfl, inv.enter elapsed⟩
    | round =>
        rcases inv.round with ⟨next, rounded, nextInv, _⟩
        exact ⟨next, rounded, nextInv⟩
  exact allStates_of_meets (fun _ _ inv => inv.sound) keeps begins
    (Meets.of_forall (fun _ _ _ => trivial) ops [] TimerQueue.init)

end Worker
end Spice
