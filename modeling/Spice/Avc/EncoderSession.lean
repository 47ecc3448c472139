import Mathlib.Logic.Function.Basic
import Spice.Lib.Run

namespace Spice
namespace EncoderSession

open Lib

/-!
# Sessions of the encoder

Every worker has a context of the encoder, made for one size of frames, and makes a new one
when the size changes.  The size that it compares with is in static variables of
`h264_qsv_encoder_encode`, so all workers share it.  The workers are threads: a call is cut
into its accesses of the static variables, and between any two of them others may run.

Media SDK calls answer with a status, an error if it is negative and a warning if it is
positive.
-/

/-- The calls of `h264_qsv_encoder_init` after its context was allocated, allocations among them. -/
inductive InitCall
  | mfxInitialize
  | encodeQuery
  | encodeQueryIOSurf
  | vppQueryIOSurf
  | allocVPPIn
  | allocVPPOutEnc
  | allocUnused
  | mallocSurfacesVPPIn
  | mallocSurfacesVPPOutEnc
  | mallocAlgList
  | encodeInit
  | vppInit
  | encodeGetVideoParam
  | mallocBitstream
deriving DecidableEq, Repr

def initCalls : List InitCall :=
  [.mfxInitialize, .encodeQuery, .encodeQueryIOSurf, .vppQueryIOSurf, .allocVPPIn, .allocVPPOutEnc, .allocUnused,
    .mallocSurfacesVPPIn, .mallocSurfacesVPPOutEnc, .mallocAlgList, .encodeInit, .vppInit, .encodeGetVideoParam,
    .mallocBitstream]

def errMemoryAlloc : Int := -4

def wrnDeviceBusy : Int := 2

/-- What the Media SDK and the allocator answer.  In the loops it is asked again and again. -/
structure Answers where
  mallocCtx : Bool
  init : InitCall -> Int
  surfaceVPPIn : Bool
  lock : Int
  unlock : Int
  surfaceVPPOutEnc : Bool
  runFrameVPP : List Int
  encodeFrame : List (Int × Bool)
  sync : Int

/-- `h264_qsv_ctx`: whether its initialisation got to the end, the size of its surfaces in the 16 bits that they have,
and the calls whose frames are in the bitstream. -/
structure Ctx where
  complete : Bool
  cropW : UInt16
  cropH : UInt16
  bitstream : List Nat
deriving DecidableEq, Repr

/-- Where a worker is in its call, with the number of the call and the size of the frame. -/
inductive Stage
  | idle
  | compareHeight (call width height : Nat)
  | finalise (call width height : Nat)
  | init (call width height : Nat)
  | rememberWidth (call width height : Nat)
  | rememberHeight (call width height : Nat)
  | encode (call width height : Nat)
deriving DecidableEq, Repr

/-- What a context was used for, and what a call returned: its status, and the frames that `*pFrame` and `*pFrameSize`
describe if they were set. -/
inductive Event
  | finalises (ctx : Ctx)
  | uses (ctx : Ctx)
  | loads (ctx : Ctx) (width height : Nat)
  | returns (status : Int) (call : Nat) (frame : Option (List Nat))
deriving DecidableEq, Repr

/-- `RedWorker`, as far as the encoder goes; `previous` is the size of its last frame, until a call has compared the
sizes. -/
structure RedWorker where
  qsvCtx : Option Ctx
  stage : Stage
  previous : Option (Nat × Nat)
deriving DecidableEq, Repr

/-- All workers, the static variables with the workers that wrote them last, the number of calls, and what has
happened. -/
structure Server where
  lastWidth : Nat
  lastHeight : Nat
  widthBy : Option Nat
  heightBy : Option Nat
  workers : Nat -> RedWorker
  calls : Nat
  log : List Event

inductive Op
  | encode (worker width height : Nat)
  | proceed (worker : Nat) (answers : Answers)
  | newDisplayChannel (worker : Nat)

def Answers.initError (answers : Answers) : Option Int := (initCalls.map answers.init).find? (fun status => status < 0)

/-- The loop around `MFXVideoVPP_RunFrameVPPAsync`; `none` as long as the device is busy. -/
def runFrameVPPLoop : List Int -> Option Int
  | [] => none
  | status :: rest => if status = wrnDeviceBusy then runFrameVPPLoop rest else some status

/-- The loop around `MFXVideoENCODE_EncodeFrameAsync`.  An answer says also whether there is something to synchronise
with; a warning without it is asked again, and one with it is ignored. -/
def encodeFrameLoop : List (Int × Bool) -> Option Int
  | [] => none
  | (status, syncp) :: rest =>
      if 0 < status ∧ syncp = false then encodeFrameLoop rest
      else if 0 < status then some 0
      else some status

/-- `h264_qsv_encoder_encode` after the frame was loaded: the context, the status and the frame. -/
def encodeLoaded (ctx : Ctx) (call : Nat) (answers : Answers) : Option (Ctx × Int × Option (List Nat)) :=
  if answers.unlock < 0 then some (ctx, answers.unlock, none)
  else if answers.surfaceVPPOutEnc = false then some (ctx, errMemoryAlloc, none)
  else
    match runFrameVPPLoop answers.runFrameVPP with
    | none => none
    | some status =>
        if status < 0 then some (ctx, status, none)
        else
          match encodeFrameLoop answers.encodeFrame with
          | none => none
          | some status =>
              if status = 0 then
                if answers.sync < 0 then some ({ ctx with bitstream := ctx.bitstream ++ [call] }, answers.sync, none)
                else
                  -- after a warning the frame is not there yet
                  some ({ ctx with bitstream := [] }, 0,
                    some (if answers.sync = 0 then ctx.bitstream ++ [call] else ctx.bitstream))
              else some (ctx, 0, none)

/-- `h264_qsv_encoder_encode` from where it has its context, with what happens on the way. -/
def encodeFrame (ctx : Ctx) (call width height : Nat) (answers : Answers) : Option (Ctx × List Event) :=
  if answers.surfaceVPPIn = false then some (ctx, [.uses ctx, .returns errMemoryAlloc call none])
  else if answers.lock < 0 then some (ctx, [.uses ctx, .returns answers.lock call none])
  else
    (encodeLoaded ctx call answers).map (fun (next, status, frame) =>
      (next, [.uses ctx, .loads ctx width height, .returns status call frame]))

namespace Server

variable (server : Server)

def setWorker (index : Nat) (worker : RedWorker) : Server :=
  { server with workers := Function.update server.workers index worker }

/-- `h264_qsv_encoder_init` in a call, from where `*pctx` is `NULL`: a context that was allocated is left in place by
every error. -/
def initSession (index call width height : Nat) (answers : Answers) : Server :=
  let worker := { server.workers index with qsvCtx := none, stage := .idle, previous := some (width, height) }
  if answers.mallocCtx = false then
    { server.setWorker index worker with log := server.log ++ [.returns errMemoryAlloc call none] }
  else
    let ctx := { complete := false, cropW := UInt16.ofNat width, cropH := UInt16.ofNat height, bitstream := [] }
    match answers.initError with
    | some status =>
        { server.setWorker index { worker with qsvCtx := some ctx } with
          log := server.log ++ [.returns status call none] }
    | none =>
        server.setWorker index { worker with
          qsvCtx := some { ctx with complete := true }
          stage := .rememberWidth call width height }

/-- The next access of a call. -/
def proceed (index : Nat) (answers : Answers) : Option Server :=
  let worker := server.workers index
  match worker.stage with
  | .idle => none
  | .compareHeight call width height =>
      if height ≠ server.lastHeight then
        some (server.setWorker index { worker with stage := .finalise call width height })
      else
        some (server.setWorker index { worker with
          stage := .encode call width height, previous := some (width, height) })
  | .finalise call width height =>
      worker.qsvCtx.map (fun ctx =>
        { server.setWorker index { worker with qsvCtx := none, stage := .init call width height } with
          log := server.log ++ [.finalises ctx] })
  | .init call width height => some (server.initSession index call width height answers)
  | .rememberWidth call width height =>
      some { server.setWorker index { worker with stage := .rememberHeight call width height } with
        lastWidth := width
        widthBy := some index }
  | .rememberHeight call width height =>
      some { server.setWorker index { worker with stage := .encode call width height } with
        lastHeight := height
        heightBy := some index }
  | .encode call width height =>
      worker.qsvCtx.bind (fun ctx => (encodeFrame ctx call width height answers).map (fun (next, events) =>
        { server.setWorker index { worker with qsvCtx := some next, stage := .idle } with
          log := server.log ++ events }))

/-- A call starts, goes on, or a client connects to a worker that is not in a call. -/
def step : Op -> Option Server
  | .encode index width height =>
      let worker := server.workers index
      match worker.stage with
      | .idle =>
          let stage :=
            if worker.qsvCtx.isNone then .init server.calls width height
            else if width ≠ server.lastWidth then .finalise server.calls width height
            else .compareHeight server.calls width height
          some { server.setWorker index { worker with stage := stage } with calls := server.calls + 1 }
      | _ => none
  | .proceed index answers => server.proceed index answers
  | .newDisplayChannel index =>
      let worker := server.workers index
      match worker.stage, worker.qsvCtx with
      | .idle, none => some server
      | .idle, some ctx =>
          some { server.setWorker index { worker with qsvCtx := none } with log := server.log ++ [.finalises ctx] }
      | _, _ => none

/-- No context, and nothing remembered. -/
def start : Server where
  lastWidth := 0
  lastHeight := 0
  widthBy := none
  heightBy := none
  workers := fun _ => { qsvCtx := none, stage := .idle, previous := none }
  calls := 0
  log := []

end Server

/-! ## What has to hold -/

/-- Only complete contexts are used, frames are loaded into surfaces of their size, and a call that returns 0 gives its
own frame. -/
def Event.Good : Event -> Prop
  | .finalises ctx => ctx.complete = true
  | .uses ctx => ctx.complete = true
  | .loads ctx width height => ctx.complete = true ∧ ctx.cropW.toNat = width ∧ ctx.cropH.toNat = height
  | .returns status call frame => status = 0 -> frame = some [call]

def AllGood (server : Server) : Prop := forall event, event ∈ server.log -> event.Good

/-- No error before the encoder is asked. -/
def Answers.reachEncoder (answers : Answers) : Bool :=
  answers.surfaceVPPIn && decide (0 ≤ answers.lock) && decide (0 ≤ answers.unlock) && answers.surfaceVPPOutEnc &&
    (runFrameVPPLoop answers.runFrameVPP).any (fun status => decide (0 ≤ status))

/-- The answers for a frame: an encoder that is asked gives no error, and the frame is complete and alone in the
bitstream, unless an error of the synchronisation is reported. -/
def Answers.encodes (answers : Answers) (ctx : Ctx) : Bool :=
  !answers.reachEncoder ||
    (encodeFrameLoop answers.encodeFrame == some 0 &&
      (decide (answers.sync < 0) || (answers.sync == 0 && ctx.bitstream.isEmpty)))

/-- The condition on a step.  When a call finds its size remembered, the frame before had it too, or the worker itself
remembered it; no context that was allocated cannot be initialised; sizes fit into 16 bits; and the encoder encodes. -/
def meetsCondition (server : Server) : Op -> Bool
  | .proceed index answers =>
      match (server.workers index).stage with
      | .compareHeight _ width height =>
          height != server.lastHeight || (server.workers index).previous == some (width, height) ||
            (server.widthBy == some index && server.heightBy == some index)
      | .init _ width height =>
          decide (width < 2 ^ 16) && decide (height < 2 ^ 16) && (!answers.mallocCtx || answers.initError.isNone)
      | .encode _ _ _ => (server.workers index).qsvCtx.all (fun ctx => answers.encodes ctx)
      | _ => true
  | _ => true

/-! ## One call -/

/-- A frame that is loaded and encoded is returned. -/
theorem encodeLoaded_returns {ctx next : Ctx} {call : Nat} {answers : Answers} {status : Int}
    {frame : Option (List Nat)}
    (encodes : answers.encodes ctx = true) (surface : answers.surfaceVPPIn = true) (locked : 0 ≤ answers.lock)
    (encoded : encodeLoaded ctx call answers = some (next, status, frame)) (success : status = 0) :
    frame = some [call] := by
  unfold encodeLoaded at encoded
  split at encoded
  · cases encoded
    omega
  · rename_i unlocked
    split at encoded
    · cases encoded
      cases success
    · rename_i free
      split at encoded
      · cases encoded
      · rename_i vpp isVPP
        split at encoded
        · cases encoded
          omega
        · rename_i passed
          have reached : answers.reachEncoder = true := by
            have isFree : answers.surfaceVPPOutEnc = true := Bool.of_not_eq_false free
            unfold Answers.reachEncoder
            rw [surface, isFree, isVPP, Option.any_some, decide_eq_true locked, decide_eq_true (Int.not_lt.mp unlocked),
              decide_eq_true (Int.not_lt.mp passed)]
            rfl
          unfold Answers.encodes at encodes
          rw [reached, Bool.not_true, Bool.false_or, Bool.and_eq_true, beq_iff_eq] at encodes
          rw [encodes.1] at encoded
          dsimp only at encoded
          rw [if_pos rfl] at encoded
          split at encoded
          · cases encoded
            omega
          · rename_i synced
            cases encoded
            have complete := encodes.2
            rw [decide_eq_false synced, Bool.false_or, Bool.and_eq_true, beq_iff_eq, List.isEmpty_iff] at complete
            rw [if_pos complete.1, complete.2]
            rfl

/-- A context for frames of a size. -/
def Ctx.Fits (ctx : Ctx) (width height : Nat) : Prop :=
  ctx.complete = true ∧ ctx.cropW.toNat = width ∧ ctx.cropH.toNat = height

/-- A call with a session that fits returns its own frame. -/
theorem encodeFrame_good {ctx next : Ctx} {call width height : Nat} {answers : Answers} {events : List Event}
    (fits : ctx.Fits width height) (encodes : answers.encodes ctx = true)
    (encoded : encodeFrame ctx call width height answers = some (next, events)) :
    forall event, event ∈ events -> event.Good := by
  unfold encodeFrame at encoded
  split at encoded
  · cases encoded
    intro event member
    rcases List.mem_pair.mp member with same | same
    · rw [same]
      exact fits.1
    · rw [same]
      intro impossible
      cases impossible
  · rename_i surface
    split at encoded
    · rename_i failed
      cases encoded
      intro event member
      rcases List.mem_pair.mp member with same | same
      · rw [same]
        exact fits.1
      · rw [same]
        intro impossible
        omega
    · rename_i locked
      rcases Option.map_eq_some_iff.mp encoded with ⟨⟨after, status, frame⟩, isLoaded, same⟩
      cases same
      have returned := encodeLoaded_returns encodes (Bool.of_not_eq_false surface) (Int.not_lt.mp locked) isLoaded
      intro event member
      simp only [List.mem_cons, List.not_mem_nil, or_false] at member
      rcases member with same | same | same
      · rw [same]
        exact fits.1
      · rw [same]
        exact fits
      · rw [same]
        exact returned

/-- Encoding does not change the size of the context. -/
theorem encodeLoaded_fits {ctx next : Ctx} {call width height : Nat} {answers : Answers} {status : Int}
    {frame : Option (List Nat)} (fits : ctx.Fits width height)
    (encoded : encodeLoaded ctx call answers = some (next, status, frame)) : next.Fits width height := by
  unfold encodeLoaded at encoded
  repeat' split at encoded
  all_goals
    cases encoded
  all_goals exact ⟨fits.1, fits.2⟩

theorem encodeFrame_fits {ctx next : Ctx} {call width height : Nat} {answers : Answers} {events : List Event}
    (fits : ctx.Fits width height) (encoded : encodeFrame ctx call width height answers = some (next, events)) :
    next.Fits width height := by
  unfold encodeFrame at encoded
  split at encoded
  · cases encoded
    exact fits
  · split at encoded
    · cases encoded
      exact fits
    · rcases Option.map_eq_some_iff.mp encoded with ⟨⟨after, status, frame⟩, isLoaded, same⟩
      cases same
      exact encodeLoaded_fits fits isLoaded

/-! ## All calls -/

section Stages

variable (server : Server) (index : Nat)

/-- What a worker itself remembered is this size. -/
structure Server.Remembers (width height : Nat) : Prop where
  width : server.widthBy = some index -> server.lastWidth = width
  height : server.heightBy = some index -> server.lastHeight = height

/-- The worker's context, if it has one, is for this size, which is the one of its last frame. -/
structure Server.Made (width height : Nat) : Prop where
  previous : (server.workers index).previous = some (width, height)
  fits : forall ctx, (server.workers index).qsvCtx = some ctx -> ctx.Fits width height

/-- Between two calls: a context is for the last frame, and its size was remembered. -/
def Server.Settled : Prop :=
  forall ctx, (server.workers index).qsvCtx = some ctx -> Exists fun width => Exists fun height =>
    server.Made index width height ∧ server.Remembers index width height

/-- The context of a worker, where it is in a call. -/
def Server.Ready : Prop :=
  match (server.workers index).stage with
  | .idle => server.Settled index
  | .compareHeight _ width _ => server.Settled index ∧ (server.widthBy = some index -> server.lastWidth = width)
  | .finalise _ _ _ => server.Settled index
  | .init _ _ _ => True
  | .rememberWidth _ width height => server.Made index width height
  | .rememberHeight _ width height =>
      server.Made index width height ∧ (server.widthBy = some index -> server.lastWidth = width)
  | .encode _ width height => server.Made index width height ∧ server.Remembers index width height

end Stages

section Same

variable {server next : Server} {index : Nat} {worker : RedWorker} (changed : next.workers index = worker)
variable (previous : worker.previous = (server.workers index).previous)
variable (ctx : worker.qsvCtx = (server.workers index).qsvCtx)

include changed previous ctx

theorem Server.Made.of_same {width height : Nat} (made : server.Made index width height) :
    next.Made index width height := by
  refine ⟨?_, ?_⟩
  · rw [changed, previous]
    exact made.previous
  · rw [changed, ctx]
    exact made.fits

theorem Server.Settled.of_same (settled : server.Settled index)
    (remembers : forall width height, server.Remembers index width height -> next.Remembers index width height) :
    next.Settled index := by
  intro other isCtx
  rw [changed, ctx] at isCtx
  rcases settled other isCtx with ⟨width, height, made, same⟩
  exact ⟨width, height, made.of_same changed previous ctx, remembers width height same⟩

end Same

/-- What others did leaves a worker as it is, and remembers nothing in its name. -/
structure Server.Keeps (server next : Server) (index : Nat) : Prop where
  worker : next.workers index = server.workers index
  width : next.widthBy = some index -> server.widthBy = some index ∧ next.lastWidth = server.lastWidth
  height : next.heightBy = some index -> server.heightBy = some index ∧ next.lastHeight = server.lastHeight

namespace Server.Keeps

variable {server next : Server} {index width height : Nat}

theorem remembersWidth (keeps : server.Keeps next index)
    (before : server.widthBy = some index -> server.lastWidth = width) :
    next.widthBy = some index -> next.lastWidth = width := by
  intro own
  rw [(keeps.width own).2]
  exact before (keeps.width own).1

theorem remembers (keeps : server.Keeps next index) (before : server.Remembers index width height) :
    next.Remembers index width height := by
  refine ⟨keeps.remembersWidth before.width, fun own => ?_⟩
  rw [(keeps.height own).2]
  exact before.height (keeps.height own).1

theorem made (keeps : server.Keeps next index) (before : server.Made index width height) :
    next.Made index width height :=
  before.of_same keeps.worker rfl rfl

theorem settled (keeps : server.Keeps next index) (before : server.Settled index) : next.Settled index :=
  before.of_same keeps.worker rfl rfl (fun _ _ => keeps.remembers)

/-- Other workers do not touch the session. -/
theorem ready (keeps : server.Keeps next index) (before : server.Ready index) : next.Ready index := by
  unfold Server.Ready at before ⊢
  rw [keeps.worker]
  cases isStage : (server.workers index).stage with
  | idle =>
      rw [isStage] at before
      exact keeps.settled before
  | compareHeight call width height =>
      rw [isStage] at before
      exact ⟨keeps.settled before.1, keeps.remembersWidth before.2⟩
  | finalise call width height =>
      rw [isStage] at before
      exact keeps.settled before
  | init call width height => trivial
  | rememberWidth call width height =>
      rw [isStage] at before
      exact keeps.made before
  | rememberHeight call width height =>
      rw [isStage] at before
      exact ⟨keeps.made before.1, keeps.remembersWidth before.2⟩
  | encode call width height =>
      rw [isStage] at before
      exact ⟨keeps.made before.1, keeps.remembers before.2⟩

/-- Only another worker changes. -/
theorem of_ne {other : Nat} (different : other ≠ index) (worker : RedWorker) (calls : Nat) (log : List Event) :
    server.Keeps { server.setWorker index worker with calls := calls, log := log } other :=
  ⟨Function.update_of_ne different _ _, fun own => ⟨own, rfl⟩, fun own => ⟨own, rfl⟩⟩

end Server.Keeps

/-- The invariant. -/
structure Sound (server : Server) : Prop where
  good : AllGood server
  ready : forall index, server.Ready index

namespace Sound

variable {server next : Server}

/-- The worker that makes a step is ready behind it, and the others are as before. -/
theorem of_step (sound : Sound server) {index : Nat} (good : AllGood next) (ready : next.Ready index)
    (keeps : forall other, other ≠ index -> server.Keeps next other) : Sound next := by
  refine ⟨good, fun other => ?_⟩
  by_cases same : other = index
  · rw [same]
    exact ready
  · exact (keeps other same).ready (sound.ready other)

theorem log (sound : Sound server) {events : List Event} (good : forall event, event ∈ events -> event.Good) :
    forall event, event ∈ server.log ++ events -> event.Good := by
  intro event member
  rcases List.mem_append.mp member with old | new
  · exact sound.good event old
  · exact good event new

theorem log_one (sound : Sound server) {event : Event} (good : event.Good) :
    forall other, other ∈ server.log ++ [event] -> other.Good :=
  sound.log (fun _ member => List.mem_singleton.mp member ▸ good)

/-- Between two calls, the context of a worker is complete. -/
theorem complete_of_settled {index : Nat} {ctx : Ctx} (settled : server.Settled index)
    (isCtx : (server.workers index).qsvCtx = some ctx) : ctx.complete = true := by
  rcases settled ctx isCtx with ⟨width, height, made, -⟩
  exact (made.fits ctx isCtx).1

/-- Only a worker and the log change. -/
theorem setWorker (sound : Sound server) {index : Nat} {worker : RedWorker} {log : List Event}
    (good : forall event, event ∈ log -> event.Good)
    (ready : Server.Ready { server.setWorker index worker with log := log } index) :
    Sound { server.setWorker index worker with log := log } :=
  sound.of_step good ready (fun _ different => .of_ne different _ _ _)

/-- A session that is initialised fits the frame it was made for. -/
theorem initSession (sound : Sound server) (index call : Nat) {width height : Nat} {answers : Answers}
    (narrow : width < 2 ^ 16) (low : height < 2 ^ 16)
    (initialises : answers.mallocCtx = true -> answers.initError = none) :
    Sound (server.initSession index call width height answers) := by
  unfold Server.initSession
  dsimp only
  split
  · have failed : errMemoryAlloc ≠ 0 := by decide
    refine sound.setWorker (sound.log_one (fun success => absurd success failed)) ?_
    unfold Server.Ready Server.setWorker
    dsimp only
    rw [Function.update_self]
    intro ctx isCtx
    rw [show Server.workers _ index = _ from Function.update_self _ _ _] at isCtx
    cases isCtx
  · rename_i allocated
    rw [initialises (Bool.of_not_eq_false allocated)]
    apply sound.setWorker sound.good
    unfold Server.Ready Server.setWorker
    dsimp only
    rw [Function.update_self]
    refine ⟨?_, fun ctx isCtx => ?_⟩
    · rw [show Server.workers _ index = _ from Function.update_self _ _ _]
    · rw [show Server.workers _ index = _ from Function.update_self _ _ _] at isCtx
      cases isCtx
      exact ⟨rfl, UInt16.toNat_ofNat_of_lt' narrow, UInt16.toNat_ofNat_of_lt' low⟩

/-- A call that finds its size remembered has a context for it. -/
theorem fits_of_remembered {index width height : Nat} (settled : server.Settled index)
    (compared : server.widthBy = some index -> server.lastWidth = width) (same : height = server.lastHeight)
    (known : (server.workers index).previous = some (width, height) ∨
      server.widthBy = some index ∧ server.heightBy = some index) {ctx : Ctx}
    (isCtx : (server.workers index).qsvCtx = some ctx) : ctx.Fits width height := by
  rcases settled ctx isCtx with ⟨wide, high, made, remembers⟩
  have size : wide = width ∧ high = height := by
    rcases known with previous | ⟨ownWidth, ownHeight⟩
    · rw [made.previous] at previous
      cases previous
      exact ⟨rfl, rfl⟩
    · rw [<- remembers.width ownWidth, compared ownWidth, same, <- remembers.height ownHeight]
      exact ⟨rfl, rfl⟩
  rcases size with ⟨rfl, rfl⟩
  exact made.fits ctx isCtx

/-- A worker goes on with its call. -/
theorem proceed (sound : Sound server) {index : Nat} {answers : Answers}
    (condition : meetsCondition server (.proceed index answers) = true)
    (stepped : server.proceed index answers = some next) :
    Sound next := by
  have ready := sound.ready index
  unfold Server.Ready at ready
  unfold meetsCondition at condition
  unfold Server.proceed at stepped
  dsimp only at stepped condition
  have changed : forall (worker : RedWorker) (log : List Event),
      ({ server.setWorker index worker with log := log } : Server).workers index = worker :=
    fun _ _ => Function.update_self _ _ _
  cases isStage : (server.workers index).stage with
  | idle =>
      rw [isStage] at stepped
      cases stepped
  | compareHeight call width height =>
      rw [isStage] at stepped condition ready
      dsimp only at stepped condition
      by_cases same : height = server.lastHeight
      · rw [if_neg (fun different => different same)] at stepped
        cases stepped
        refine sound.setWorker sound.good ?_
        unfold Server.Ready
        rw [changed]
        refine ⟨⟨?_, fun ctx isCtx => ?_⟩, ready.2, fun _ => same.symm⟩
        · rw [changed]
        · rw [changed] at isCtx
          rw [Bool.or_eq_true, Bool.or_eq_true, bne_iff_ne, beq_iff_eq, Bool.and_eq_true, beq_iff_eq, beq_iff_eq,
            or_assoc] at condition
          exact fits_of_remembered ready.1 ready.2 same (condition.resolve_left (fun different => different same)) isCtx
      · rw [if_pos same] at stepped
        cases stepped
        refine sound.setWorker sound.good ?_
        unfold Server.Ready
        rw [changed]
        exact ready.1.of_same (Function.update_self _ _ _) rfl rfl (fun _ _ same => ⟨same.1, same.2⟩)
  | finalise call width height =>
      rw [isStage] at stepped ready
      rcases Option.map_eq_some_iff.mp stepped with ⟨ctx, isCtx, rfl⟩
      refine sound.setWorker (sound.log_one (complete_of_settled ready isCtx)) ?_
      unfold Server.Ready
      rw [changed]
      trivial
  | init call width height =>
      rw [isStage] at stepped condition
      cases stepped
      dsimp only at condition
      rw [Bool.and_eq_true, Bool.and_eq_true, decide_eq_true_eq, decide_eq_true_eq] at condition
      refine sound.initSession index call condition.1.1 condition.1.2 (fun allocated => ?_)
      have initialises := condition.2
      rw [allocated, Bool.not_true, Bool.false_or, Option.isNone_iff_eq_none] at initialises
      exact initialises
  | rememberWidth call width height =>
      rw [isStage] at stepped ready
      cases stepped
      refine sound.of_step sound.good ?_ (fun other different =>
        ⟨Function.update_of_ne different _ _, fun own => ?_, fun own => ⟨own, rfl⟩⟩)
      · unfold Server.Ready
        rw [show Server.workers _ index = _ from Function.update_self _ _ _]
        refine ⟨ready.of_same (Function.update_self _ _ _) ?_ ?_, fun _ => rfl⟩
        · rfl
        · rfl
      · exact absurd (Option.some.inj own).symm different
  | rememberHeight call width height =>
      rw [isStage] at stepped ready
      cases stepped
      refine sound.of_step sound.good ?_ (fun other different =>
        ⟨Function.update_of_ne different _ _, fun own => ⟨own, rfl⟩, fun own => ?_⟩)
      · unfold Server.Ready
        rw [show Server.workers _ index = _ from Function.update_self _ _ _]
        refine ⟨ready.1.of_same (Function.update_self _ _ _) ?_ ?_, ready.2, fun _ => rfl⟩
        · rfl
        · rfl
      · exact absurd (Option.some.inj own).symm different
  | encode call width height =>
      rw [isStage] at stepped condition ready
      rcases Option.bind_eq_some_iff.mp stepped with ⟨ctx, isCtx, encoded⟩
      rcases Option.map_eq_some_iff.mp encoded with ⟨⟨after, events⟩, isEncoded, rfl⟩
      dsimp only at condition
      rw [isCtx, Option.all_some] at condition
      have fits := ready.1.fits ctx isCtx
      refine sound.setWorker (sound.log (encodeFrame_good fits condition isEncoded)) ?_
      unfold Server.Ready
      rw [changed]
      intro other isOther
      rw [changed] at isOther
      cases isOther
      refine ⟨width, height, ⟨?_, fun other isOther => ?_⟩, ready.2.width, ready.2.height⟩
      · rw [changed]
        exact ready.1.previous
      · rw [changed] at isOther
        cases isOther
        exact encodeFrame_fits fits isEncoded

/-- Every step that meets the condition keeps the sessions sound. -/
theorem step (sound : Sound server) {op : Op} (condition : meetsCondition server op = true)
    (stepped : server.step op = some next) : Sound next := by
  cases op with
  | proceed index answers => exact sound.proceed condition stepped
  | encode index width height =>
      have ready := sound.ready index
      unfold Server.Ready at ready
      unfold Server.step at stepped
      dsimp only at stepped
      split at stepped
      · rename_i isIdle
        cases stepped
        rw [isIdle] at ready
        have settled : forall worker : RedWorker, worker.previous = (server.workers index).previous ->
            worker.qsvCtx = (server.workers index).qsvCtx ->
              Server.Settled { server.setWorker index worker with calls := server.calls + 1 } index := by
          intro worker previous ctx
          exact ready.of_same (Function.update_self _ _ _) previous ctx (fun _ _ same => ⟨same.1, same.2⟩)
        refine @of_step server _ sound index sound.good ?_ (fun _ different => .of_ne different _ _ _)
        unfold Server.Ready
        rw [show Server.workers _ index = _ from Function.update_self _ _ _]
        dsimp only
        by_cases absent : (server.workers index).qsvCtx.isNone = true
        · rw [if_pos absent]
          trivial
        · rw [if_neg absent]
          by_cases different : width ≠ server.lastWidth
          · rw [if_pos different]
            exact settled _ rfl rfl
          · rw [if_neg different]
            exact ⟨settled _ rfl rfl, fun _ => (not_ne_iff.mp different).symm⟩
      · cases stepped
  | newDisplayChannel index =>
      have ready := sound.ready index
      unfold Server.Ready at ready
      unfold Server.step at stepped
      dsimp only at stepped
      split at stepped
      · cases stepped
        exact sound
      · rename_i ctx isStage isCtx
        cases stepped
        rw [isStage] at ready
        refine sound.setWorker (sound.log_one (complete_of_settled ready isCtx)) ?_
        unfold Server.Ready
        rw [show Server.workers _ index = _ from Function.update_self _ _ _]
        dsimp only
        rw [isStage]
        intro other isOther
        rw [show Server.workers _ index = _ from Function.update_self _ _ _] at isOther
        cases isOther
      · cases stepped

end Sound

theorem Sound.start : Sound Server.start :=
  ⟨fun _ member => absurd member List.not_mem_nil, fun _ _ isCtx => by cases isCtx⟩

/-- In every run whose steps meet the condition, contexts are only used when they are complete, frames are only loaded
into surfaces of their size, and a call that returns 0 gives its own frame. -/
theorem sessions_match_frames {ops : List Op} {server : Server}
    (meets : Meets Server.step (fun _ state op => meetsCondition state op = true) [] Server.start ops)
    (ran : run Server.step Server.start ops = some server) : AllGood server := by
  have keep : forall (_ : List Op) (state : Server) (op : Op) (next : Server), Sound state ->
      meetsCondition state op = true -> Server.step state op = some next -> Sound next :=
    fun _ _ _ _ sound condition stepped => sound.step condition stepped
  have sound : Sound server := run_invariant_of_meets keep ops [] Server.start server Sound.start meets ran
  exact sound.good

/-- Answers without errors. -/
def successful : Answers where
  mallocCtx := true
  init := fun _ => 0
  surfaceVPPIn := true
  lock := 0
  unlock := 0
  surfaceVPPOutEnc := true
  runFrameVPP := [wrnDeviceBusy, 0]
  encodeFrame := [(wrnDeviceBusy, false), (0, true)]
  sync := 0

/-- A call that makes a new context where there was none. -/
def firstCall (index width height : Nat) (answers : Answers) : List Op :=
  [.encode index width height, .proceed index answers, .proceed index answers, .proceed index answers,
    .proceed index answers]

/-- Two workers with frames of one size each, the second of them interrupted by the first; then a client connects. -/
def twoDisplays : List Op :=
  firstCall 0 1024 768 successful ++
    [.encode 1 800 600, .proceed 1 successful, .proceed 1 successful,
      .encode 0 1024 768, .proceed 0 successful, .proceed 0 successful, .proceed 0 successful, .proceed 0 successful,
      .proceed 0 successful, .proceed 1 successful, .proceed 1 successful, .newDisplayChannel 0]

theorem sessions_match_frames_two_displays : Exists fun server =>
    Meets Server.step (fun _ state op => meetsCondition state op = true) [] Server.start twoDisplays ∧
      run Server.step Server.start twoDisplays = some server ∧ server.log.length = 11 ∧ AllGood server := by
  have checked : checkRun Server.step meetsCondition Server.start twoDisplays = true := by decide +kernel
  have meets : Meets Server.step (fun _ state op => meetsCondition state op = true) [] Server.start twoDisplays :=
    Meets.of_check (fun _ _ _ isTrue => isTrue) twoDisplays [] Server.start checked
  have length : (run Server.step Server.start twoDisplays).map (fun server => server.log.length) = some 11 :=
    by decide +kernel
  rcases Option.map_eq_some_iff.mp length with ⟨server, ran, isLength⟩
  exact ⟨server, meets, ran, isLength, sessions_match_frames meets ran⟩

/-- The second worker remembers its size for the first, which then changes to it. -/
def borrowedSize : List Op :=
  firstCall 0 1024 768 successful ++ firstCall 1 800 600 successful ++
    [.encode 0 800 600, .proceed 0 successful, .proceed 0 successful]

/-- A new size cannot be initialised, and the frames have their old size again. -/
def failedChange : List Op :=
  firstCall 0 1024 768 successful ++
    [.encode 0 800 600, .proceed 0 successful, .proceed 0 { successful with init := fun _ => -1 },
      .encode 0 1024 768, .proceed 0 successful, .proceed 0 successful]

def smallBuffer : List Op := firstCall 0 1024 768 { successful with encodeFrame := [(-5, false)] }

theorem sessions_mismatch :
    (Exists fun server => run Server.step Server.start borrowedSize = some server ∧
      Event.loads { complete := true, cropW := 1024, cropH := 768, bitstream := [] } 800 600 ∈ server.log ∧
        ¬ AllGood server) ∧
    (Exists fun server => run Server.step Server.start failedChange = some server ∧
      Event.uses { complete := false, cropW := 800, cropH := 600, bitstream := [] } ∈ server.log ∧ ¬ AllGood server) ∧
    (Exists fun server => run Server.step Server.start smallBuffer = some server ∧
      Event.returns 0 0 none ∈ server.log ∧ ¬ AllGood server) := by
  refine ⟨?_, ?_, ?_⟩
  · have checked : (run Server.step Server.start borrowedSize).map (fun server =>
        decide (Event.loads { complete := true, cropW := 1024, cropH := 768, bitstream := [] } 800 600 ∈ server.log)) =
          some true := by
      decide +kernel
    rcases Option.map_eq_some_iff.mp checked with ⟨server, ran, isTrue⟩
    have logged := of_decide_eq_true isTrue
    refine ⟨server, ran, logged, fun good => ?_⟩
    have fits := good _ logged
    exact absurd fits.2.1 (by decide)
  · have checked : (run Server.step Server.start failedChange).map (fun server =>
        decide (Event.uses { complete := false, cropW := 800, cropH := 600, bitstream := [] } ∈ server.log)) =
          some true := by
      decide +kernel
    rcases Option.map_eq_some_iff.mp checked with ⟨server, ran, isTrue⟩
    have logged := of_decide_eq_true isTrue
    refine ⟨server, ran, logged, fun good => ?_⟩
    have complete : (false : Bool) = true := good _ logged
    cases complete
  · have checked : (run Server.step Server.start smallBuffer).map (fun server =>
        decide (Event.returns 0 0 none ∈ server.log)) = some true := by
      decide +kernel
    rcases Option.map_eq_some_iff.mp checked with ⟨server, ran, isTrue⟩
    have logged := of_decide_eq_true isTrue
    refine ⟨server, ran, logged, fun good => ?_⟩
    have frame := good _ logged rfl
    cases frame

end EncoderSession
end Spice
