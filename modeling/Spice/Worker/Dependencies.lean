import Spice.Lib.Run
import Mathlib.Data.List.Nodup
import Mathlib.Logic.Function.Basic

namespace Spice
namespace Worker

open Lib

/-!
# Surfaces that drawables depend on

A drawable may take its image from up to three other surfaces.  Each of them
lists the drawables that depend on it, so that they can be rendered before the
surface is drawn over or destroyed.  In the compiled configuration drawables
are rendered when they are queued, and the function that would render the
dependents of a surface, `surface_flush`, is empty; the loop that calls it
expects the list to become shorter.

What keeps a drawable alive is a count of references: the command being
processed, the current tree, the items in the pipes of the clients, and items
that are half sent, streams and the like.  When these take and drop their
references is left open here, but that a surface that is destroyed takes its
drawables out of the tree and the pipes.
-/

/-- `Drawable`.  `linked` says which of the `depend_items` are in a list. -/
structure Drawable where
  key : Nat
  surfaceId : Nat
  surfacesDest : Fin 3 -> Option Nat
  linked : Fin 3 -> Bool
  refs : Nat
  inTree : Bool

/-- `RedSurface`.  The newest dependent is first. -/
structure RedSurface where
  canvas : Bool
  refs : Nat
  dependOnMe : List (Nat × Fin 3)

/-- `DrawablePipeItem`, or `UpgradeItem`, with the key of its drawable. -/
structure PipeItem where
  key : Nat
  upgrade : Bool
deriving DecidableEq

/-- `RedWorker`, with the drawables that are alive, the one that
`red_process_drawable` is working on, and the pipe of each client, in which the
newest item is first. -/
structure RedWorker where
  surfaces : Nat -> RedSurface
  drawables : List Drawable
  processing : Option Nat
  fresh : Nat
  pipes : List (List PipeItem)

namespace RedWorker

variable (worker : RedWorker)

def setSurface (id : Nat) (change : RedSurface -> RedSurface) : RedWorker :=
  { worker with surfaces := Function.update worker.surfaces id (change (worker.surfaces id)) }

def drawableAt (key : Nat) : Option Drawable := worker.drawables.find? (fun drawable => drawable.key = key)

def setDrawable (key : Nat) (change : Drawable -> Drawable) : RedWorker :=
  { worker with
    drawables := worker.drawables.map (fun drawable => if drawable.key = key then change drawable else drawable) }

def redDestroySurface (id : Nat) : RedWorker :=
  worker.setSurface id (fun surface =>
    { surface with
      refs := if surface.refs = 0 then 2 ^ 32 - 1 else surface.refs - 1
      canvas := surface.canvas && surface.refs != 1 })

/-- `surface_flush`: `red_update_area` is empty. -/
def surfaceFlush (_surfaceId : Nat) : RedWorker := worker

/-- One round of the loop of `red_handle_depends_on_target_surface`; nothing
behind the last. -/
def dependsRound (surfaceId : Nat) : Option RedWorker :=
  match (worker.surfaces surfaceId).dependOnMe.getLast? with
  | none => none
  | some item =>
      match worker.drawableAt item.1 with
      | none => some worker
      | some drawable => some (worker.surfaceFlush drawable.surfaceId)

def dependsLoop (surfaceId : Nat) : Nat -> RedWorker -> Option RedWorker
  | 0, _ => none
  | rounds + 1, worker =>
      match worker.dependsRound surfaceId with
      | none => some worker
      | some next => dependsLoop surfaceId rounds next

/-- `red_handle_depends_on_target_surface`: a round for every dependent. -/
def handleDependsOnTargetSurface (surfaceId : Nat) : Option RedWorker :=
  dependsLoop surfaceId ((worker.surfaces surfaceId).dependOnMe.length + 1) worker

/-- `add_to_surface_dependency` of the source in one place, unless it is the
target itself. -/
def addToSurfaceDependency (drawable : Drawable) (place : Fin 3) : RedWorker :=
  match drawable.surfacesDest place with
  | none => worker
  | some source =>
      if source = drawable.surfaceId then worker
      else
        (worker.setSurface source (fun surface =>
          { surface with dependOnMe := (drawable.key, place) :: surface.dependOnMe })).setDrawable drawable.key
            (fun drawable => { drawable with linked := Function.update drawable.linked place true })

def handleSurfacesDependencies (drawable : Drawable) : RedWorker :=
  ((worker.addToSurfaceDependency drawable 0).addToSurfaceDependency drawable 1).addToSurfaceDependency drawable 2

/-- `remove_depended_item` of one place, if it is linked. -/
def removeDependedItem (drawable : Drawable) (place : Fin 3) : RedWorker :=
  match drawable.surfacesDest place with
  | none => worker
  | some source =>
      if drawable.linked place then
        worker.setSurface source (fun surface =>
          { surface with dependOnMe := surface.dependOnMe.filter (fun item => item ≠ (drawable.key, place)) })
      else worker

def removeDrawableDependencies (drawable : Drawable) : RedWorker :=
  ((worker.removeDependedItem drawable 0).removeDependedItem drawable 1).removeDependedItem drawable 2

/-- Change the references of the source in one place. -/
def forSource (drawable : Drawable) (change : Nat -> RedWorker -> RedWorker) (place : Fin 3) : RedWorker :=
  match drawable.surfacesDest place with
  | none => worker
  | some source => change source worker

def incSurfacesDependencies (drawable : Drawable) : RedWorker :=
  let inc := fun id (worker : RedWorker) =>
    worker.setSurface id (fun surface => { surface with refs := surface.refs + 1 })
  ((worker.forSource drawable inc 0).forSource drawable inc 1).forSource drawable inc 2

def decSurfacesDependencies (drawable : Drawable) : RedWorker :=
  let dec := fun id (worker : RedWorker) => worker.redDestroySurface id
  ((worker.forSource drawable dec 0).forSource drawable dec 1).forSource drawable dec 2

def releaseDrawable (key : Nat) : RedWorker :=
  match worker.drawableAt key with
  | none => worker
  | some drawable =>
      if drawable.refs = 1 then
        let worker := (worker.removeDrawableDependencies drawable).decSurfacesDependencies drawable
        let worker := worker.redDestroySurface drawable.surfaceId
        { worker with drawables := worker.drawables.filter (fun other => other.key ≠ key) }
      else worker.setDrawable key (fun drawable => { drawable with refs := drawable.refs - 1 })

def currentRemoveDrawable (key : Nat) : RedWorker :=
  (worker.setDrawable key (fun drawable => { drawable with inTree := false })).releaseDrawable key

/-- Items that were taken out of a pipe drop their references. -/
def releaseItems (items : List PipeItem) : RedWorker :=
  (items.map (fun item => item.key)).foldl releaseDrawable worker

def isDraw (key : Nat) (item : PipeItem) : Bool := item.key == key && !item.upgrade

def pipesRemoveDrawable (key : Nat) : RedWorker :=
  { worker with pipes := worker.pipes.map (List.filter (fun item => !isDraw key item)) }.releaseItems
    (worker.pipes.flatten.filter (isDraw key))

def removeDrawable (key : Nat) : RedWorker := (worker.pipesRemoveDrawable key).currentRemoveDrawable key

def currentClear (surfaceId : Nat) : RedWorker :=
  ((worker.drawables.filter (fun drawable => drawable.inTree && drawable.surfaceId == surfaceId)).map
    (fun drawable => drawable.key)).foldl removeDrawable worker

/-- A pipe without the drawables of a surface, up to one that takes an image from it: what is taken out, and
what is left. -/
def clearedFromPipe (surfaceId : Nat) : List PipeItem -> List PipeItem × List PipeItem
  | [] => ([], [])
  | item :: rest =>
      match worker.drawableAt item.key with
      | none => ([], item :: rest)
      | some drawable =>
          if drawable.surfaceId = surfaceId then
            (item :: (clearedFromPipe surfaceId rest).1, (clearedFromPipe surfaceId rest).2)
          else if Exists fun place => drawable.surfacesDest place = some surfaceId then ([], item :: rest)
          else ((clearedFromPipe surfaceId rest).1, item :: (clearedFromPipe surfaceId rest).2)

/-- `red_clear_surface_drawables_from_pipes`, up to the waiting. -/
def clearSurfaceDrawablesFromPipes (surfaceId : Nat) : RedWorker :=
  let cleared := worker.pipes.map (worker.clearedFromPipe surfaceId)
  { worker with pipes := cleared.map Prod.snd }.releaseItems (cleared.flatMap Prod.fst)

def redCreateSurface (id : Nat) : RedWorker :=
  worker.setSurface id (fun _ => { canvas := true, refs := 1, dependOnMe := [] })

/-- `VALIDATE_SURFACE_RETVAL` of the source in one place fails. -/
def sourceMissing (surfacesDest : Fin 3 -> Option Nat) (place : Fin 3) : Bool :=
  match surfacesDest place with
  | none => false
  | some source => !(worker.surfaces source).canvas

/-- `get_drawable` refuses the command. -/
def refused (surfaceId : Nat) (surfacesDest : Fin 3 -> Option Nat) : Bool :=
  !(worker.surfaces surfaceId).canvas || worker.sourceMissing surfacesDest 0 ||
    worker.sourceMissing surfacesDest 1 || worker.sourceMissing surfacesDest 2

/-- The references a new drawable takes. -/
def addDrawable (drawable : Drawable) : RedWorker :=
  let worker := { worker with drawables := drawable :: worker.drawables, fresh := worker.fresh + 1 }
  let worker := worker.setSurface drawable.surfaceId (fun surface => { surface with refs := surface.refs + 1 })
  worker.incSurfacesDependencies drawable

/-- `red_process_drawable` up to the current tree.  A command for a missing surface
is dropped, and a drawable with an empty region is released at once. -/
def processDrawable (surfaceId : Nat) (surfacesDest : Fin 3 -> Option Nat) (emptyRegion : Bool) : Option RedWorker :=
  if worker.refused surfaceId surfacesDest then some worker
  else
    let drawable : Drawable :=
      { key := worker.fresh, surfaceId := surfaceId, surfacesDest := surfacesDest, linked := fun _ => false
        refs := 1, inTree := false }
    let worker := worker.addDrawable drawable
    if emptyRegion then some (worker.releaseDrawable drawable.key)
    else
      (worker.handleDependsOnTargetSurface surfaceId).map (fun worker =>
        { worker.handleSurfacesDependencies drawable with processing := some drawable.key })

end RedWorker

/-- A command of the guest, or a reference taken or dropped.  `insert` and `remove`
are the current tree's, `finish` is the end of `red_process_drawable`.  An item
is added to the pipe of a client, sent from its end, or removed from a place; one
that was sent keeps its reference until it is released. -/
inductive Op
  | createSurface (id : Nat)
  | destroySurface (id : Nat)
  | destroySurfaceWait (id : Nat)
  | process (surfaceId : Nat) (surfacesDest : Fin 3 -> Option Nat) (emptyRegion : Bool)
  | insert (key : Nat)
  | remove (key : Nat)
  | hold (key : Nat)
  | release (key : Nat)
  | finish
  | connect
  | pipeAdd (client : Nat) (item : PipeItem)
  | pipeSend (client : Nat)
  | pipeRemove (client place : Nat)

namespace RedWorker

def setPipe (worker : RedWorker) (client : Nat) (pipe : List PipeItem) : RedWorker :=
  { worker with pipes := worker.pipes.set client pipe }

/-- The references of a drawable that the tree, the command and the pipes hold. -/
def accounted (worker : RedWorker) (drawable : Drawable) : Nat :=
  drawable.inTree.toNat + (decide (worker.processing = some drawable.key)).toNat +
    worker.pipes.flatten.countP (fun item => item.key == drawable.key)

def step (worker : RedWorker) : Op -> Option RedWorker
  | .createSurface id =>
      if (worker.surfaces id).refs ≠ 0 then some worker else some (worker.redCreateSurface id)
  | .destroySurface id =>
      if (worker.surfaces id).refs = 0 then some worker
      else
        (worker.handleDependsOnTargetSurface id).map (fun worker =>
          ((worker.currentClear id).clearSurfaceDrawablesFromPipes id).redDestroySurface id)
  | .destroySurfaceWait id =>
      if (worker.surfaces id).canvas then
        (worker.handleDependsOnTargetSurface id).map (fun worker =>
          (worker.currentClear id).clearSurfaceDrawablesFromPipes id)
      else some worker
  | .process surfaceId surfacesDest emptyRegion =>
      match worker.processing with
      | some _ => none
      | none => worker.processDrawable surfaceId surfacesDest emptyRegion
  | .insert key =>
      if worker.processing = some key then
        some (worker.setDrawable key (fun drawable => { drawable with inTree := true, refs := drawable.refs + 1 }))
      else none
  | .remove key =>
      match worker.drawableAt key with
      | none => none
      | some drawable => if drawable.inTree then some (worker.currentRemoveDrawable key) else none
  | .hold key =>
      match worker.drawableAt key with
      | none => none
      | some _ => some (worker.setDrawable key (fun drawable => { drawable with refs := drawable.refs + 1 }))
  | .release key =>
      match worker.drawableAt key with
      | none => none
      | some drawable =>
          if worker.accounted drawable < drawable.refs then
            some (worker.releaseDrawable key)
          else none
  | .finish =>
      match worker.processing with
      | none => none
      | some key => some ({ worker with processing := none }.releaseDrawable key)
  | .connect => some { worker with pipes := worker.pipes ++ [[]] }
  | .pipeAdd client item =>
      match worker.pipes[client]?, worker.drawableAt item.key with
      | some pipe, some _ =>
          some ((worker.setPipe client (item :: pipe)).setDrawable item.key
            (fun drawable => { drawable with refs := drawable.refs + 1 }))
      | _, _ => none
  | .pipeSend client =>
      match worker.pipes[client]? with
      | some pipe => if pipe = [] then none else some (worker.setPipe client pipe.dropLast)
      | none => none
  | .pipeRemove client place =>
      match worker.pipes[client]? with
      | some pipe =>
          match pipe[place]? with
          | some item => some ((worker.setPipe client (pipe.eraseIdx place)).releaseDrawable item.key)
          | none => none
      | none => none

/-- A worker without surfaces. -/
def init : RedWorker where
  surfaces := fun _ => { canvas := false, refs := 0, dependOnMe := [] }
  drawables := []
  processing := none
  fresh := 1
  pipes := []

end RedWorker

/-- The loop of `red_handle_depends_on_target_surface` ends. -/
def LoopEnds (worker : RedWorker) (surfaceId : Nat) : Prop :=
  Exists fun rounds => Exists fun last => RedWorker.dependsLoop surfaceId rounds worker = some last

/-- A drawable is in the list of a surface it takes an image from. -/
def Drawable.dependsOn (drawable : Drawable) (place : Fin 3) (surfaceId : Nat) : Prop :=
  drawable.linked place = true ∧ drawable.surfacesDest place = some surfaceId ∧ drawable.surfaceId ≠ surfaceId

/-- The lists hold only drawables that are alive. -/
structure Inv (worker : RedWorker) : Prop where
  distinct : (worker.drawables.map (fun drawable => drawable.key)).Nodup
  below : forall drawable, drawable ∈ worker.drawables -> drawable.key < worker.fresh
  alive : forall drawable, drawable ∈ worker.drawables -> 0 < drawable.refs
  entries : forall surfaceId item, item ∈ (worker.surfaces surfaceId).dependOnMe ->
    Exists fun drawable => drawable ∈ worker.drawables ∧ drawable.key = item.1 ∧ drawable.dependsOn item.2 surfaceId

namespace RedWorker

variable {worker next : RedWorker} {surfaceId key : Nat}

theorem dependsRound_eq (listed : (worker.surfaces surfaceId).dependOnMe ≠ []) :
    worker.dependsRound surfaceId = some worker := by
  unfold dependsRound
  cases isLast : (worker.surfaces surfaceId).dependOnMe.getLast? with
  | none => exact absurd (List.getLast?_eq_none_iff.mp isLast) listed
  | some item =>
      simp only
      split <;> rfl

theorem dependsLoop_stuck (listed : (worker.surfaces surfaceId).dependOnMe ≠ []) (rounds : Nat) :
    dependsLoop surfaceId rounds worker = none := by
  induction rounds with
  | zero => rfl
  | succ rounds ih =>
      rw [dependsLoop, dependsRound_eq listed]
      exact ih

theorem dependsLoop_empty (none : (worker.surfaces surfaceId).dependOnMe = []) (rounds : Nat) :
    dependsLoop surfaceId (rounds + 1) worker = some worker := by
  rw [dependsLoop, dependsRound, none]
  rfl

theorem handleDependsOnTargetSurface_eq (done : worker.handleDependsOnTargetSurface surfaceId = some next) :
    next = worker ∧ (worker.surfaces surfaceId).dependOnMe = [] := by
  unfold handleDependsOnTargetSurface at done
  by_cases listed : (worker.surfaces surfaceId).dependOnMe = []
  · rw [dependsLoop_empty listed] at done
    cases done
    exact ⟨rfl, listed⟩
  · rw [dependsLoop_stuck listed] at done
    cases done

end RedWorker

/-- What one step does, with the guards that it passed. -/
inductive Stepped (worker : RedWorker) : Op -> RedWorker -> Prop
  | keptSurface {id : Nat} (used : (worker.surfaces id).refs ≠ 0) : Stepped worker (.createSurface id) worker
  | created {id : Nat} (unused : (worker.surfaces id).refs = 0) :
      Stepped worker (.createSurface id) (worker.redCreateSurface id)
  | noSurface {id : Nat} (unused : (worker.surfaces id).refs = 0) : Stepped worker (.destroySurface id) worker
  | destroyed {id : Nat} (used : (worker.surfaces id).refs ≠ 0) (listed : (worker.surfaces id).dependOnMe = []) :
      Stepped worker (.destroySurface id)
        (((worker.currentClear id).clearSurfaceDrawablesFromPipes id).redDestroySurface id)
  | noCanvas {id : Nat} (absent : ¬ (worker.surfaces id).canvas) : Stepped worker (.destroySurfaceWait id) worker
  | cleared {id : Nat} (canvas : (worker.surfaces id).canvas) (listed : (worker.surfaces id).dependOnMe = []) :
      Stepped worker (.destroySurfaceWait id) ((worker.currentClear id).clearSurfaceDrawablesFromPipes id)
  | processed {surfaceId : Nat} {surfacesDest : Fin 3 -> Option Nat} {emptyRegion : Bool} {next : RedWorker}
      (idle : worker.processing = none)
      (done : worker.processDrawable surfaceId surfacesDest emptyRegion = some next) :
      Stepped worker (.process surfaceId surfacesDest emptyRegion) next
  | inserted {key : Nat} (processing : worker.processing = some key) : Stepped worker (.insert key)
      (worker.setDrawable key (fun drawable => { drawable with inTree := true, refs := drawable.refs + 1 }))
  | removed {key : Nat} {drawable : Drawable} (found : worker.drawableAt key = some drawable)
      (inTree : drawable.inTree) : Stepped worker (.remove key) (worker.currentRemoveDrawable key)
  | held {key : Nat} {drawable : Drawable} (found : worker.drawableAt key = some drawable) :
      Stepped worker (.hold key) (worker.setDrawable key (fun drawable => { drawable with refs := drawable.refs + 1 }))
  | released {key : Nat} {drawable : Drawable} (found : worker.drawableAt key = some drawable)
      (free : worker.accounted drawable < drawable.refs) : Stepped worker (.release key) (worker.releaseDrawable key)
  | finished {key : Nat} (processing : worker.processing = some key) :
      Stepped worker .finish ({ worker with processing := none }.releaseDrawable key)
  | connected : Stepped worker .connect { worker with pipes := worker.pipes ++ [[]] }
  | added {client : Nat} {item : PipeItem} {pipe : List PipeItem} {drawable : Drawable}
      (isPipe : worker.pipes[client]? = some pipe) (found : worker.drawableAt item.key = some drawable) :
      Stepped worker (.pipeAdd client item) ((worker.setPipe client (item :: pipe)).setDrawable item.key
        (fun drawable => { drawable with refs := drawable.refs + 1 }))
  | sent {client : Nat} {pipe : List PipeItem} (isPipe : worker.pipes[client]? = some pipe) (waits : pipe ≠ []) :
      Stepped worker (.pipeSend client) (worker.setPipe client pipe.dropLast)
  | dropped {client place : Nat} {pipe : List PipeItem} {item : PipeItem}
      (isPipe : worker.pipes[client]? = some pipe) (isItem : pipe[place]? = some item) :
      Stepped worker (.pipeRemove client place)
        ((worker.setPipe client (pipe.eraseIdx place)).releaseDrawable item.key)

theorem RedWorker.stepped {worker next : RedWorker} {op : Op} (step : worker.step op = some next) :
    Stepped worker op next := by
  cases op with
  | createSurface id =>
      simp only [RedWorker.step] at step
      split at step
      · next used =>
          cases step
          exact .keptSurface used
      · next unused =>
          cases step
          exact .created (not_not.mp unused)
  | destroySurface id =>
      simp only [RedWorker.step] at step
      split at step
      · next unused =>
          cases step
          exact .noSurface unused
      · next used =>
          rcases Option.map_eq_some_iff.mp step with ⟨flushed, handled, rfl⟩
          rcases RedWorker.handleDependsOnTargetSurface_eq handled with ⟨rfl, listed⟩
          exact .destroyed used listed
  | destroySurfaceWait id =>
      simp only [RedWorker.step] at step
      split at step
      · next canvas =>
          rcases Option.map_eq_some_iff.mp step with ⟨flushed, handled, rfl⟩
          rcases RedWorker.handleDependsOnTargetSurface_eq handled with ⟨rfl, listed⟩
          exact .cleared canvas listed
      · next absent =>
          cases step
          exact .noCanvas absent
  | process surfaceId surfacesDest emptyRegion =>
      simp only [RedWorker.step] at step
      split at step
      · cases step
      · next idle => exact .processed idle step
  | insert key =>
      simp only [RedWorker.step] at step
      split at step
      · next processing =>
          cases step
          exact .inserted processing
      · cases step
  | remove key =>
      simp only [RedWorker.step] at step
      split at step
      · cases step
      · next drawable found =>
          split at step
          · next inTree =>
              cases step
              exact .removed found inTree
          · cases step
  | hold key =>
      simp only [RedWorker.step] at step
      split at step
      · cases step
      · next drawable found =>
          cases step
          exact .held found
  | release key =>
      simp only [RedWorker.step] at step
      split at step
      · cases step
      · next drawable found =>
          split at step
          · next free =>
              cases step
              exact .released found free
          · cases step
  | finish =>
      simp only [RedWorker.step] at step
      split at step
      · cases step
      · next key processing =>
          cases step
          exact .finished processing
  | connect =>
      cases step
      exact .connected
  | pipeAdd client item =>
      simp only [RedWorker.step] at step
      split at step
      · next pipe drawable isPipe found =>
          cases step
          exact .added isPipe found
      · cases step
  | pipeSend client =>
      simp only [RedWorker.step] at step
      split at step
      · next pipe isPipe =>
          split at step
          · cases step
          · next waits =>
              cases step
              exact .sent isPipe waits
      · cases step
  | pipeRemove client place =>
      simp only [RedWorker.step] at step
      split at step
      · next pipe isPipe =>
          split at step
          · next item isItem =>
              cases step
              exact .dropped isPipe isItem
          · cases step
      · cases step

theorem loopEnds_iff (worker : RedWorker) (surfaceId : Nat) :
    LoopEnds worker surfaceId <-> (worker.surfaces surfaceId).dependOnMe = [] := by
  constructor
  · rintro ⟨rounds, last, ended⟩
    by_contra listed
    rw [RedWorker.dependsLoop_stuck listed] at ended
    cases ended
  · intro none
    exact ⟨1, worker, RedWorker.dependsLoop_empty none 0⟩

/-- The drawables are the same, and the lists not longer. -/
structure Fewer (worker next : RedWorker) : Prop where
  drawables : next.drawables = worker.drawables
  fresh : next.fresh = worker.fresh
  lists : forall surfaceId item, item ∈ (next.surfaces surfaceId).dependOnMe ->
    item ∈ (worker.surfaces surfaceId).dependOnMe

namespace Fewer

variable {worker next : RedWorker}

theorem refl (worker : RedWorker) : Fewer worker worker := ⟨rfl, rfl, fun _ _ member => member⟩

theorem trans {third : RedWorker} (one : Fewer worker next) (two : Fewer next third) : Fewer worker third :=
  ⟨two.drawables.trans one.drawables, two.fresh.trans one.fresh,
    fun surfaceId item member => one.lists surfaceId item (two.lists surfaceId item member)⟩

theorem inv (fewer : Fewer worker next) (inv : Inv worker) : Inv next := by
  refine ⟨?_, ?_, ?_, ?_⟩
  · rw [fewer.drawables]
    exact inv.distinct
  · rw [fewer.drawables, fewer.fresh]
    exact inv.below
  · rw [fewer.drawables]
    exact inv.alive
  · intro surfaceId item member
    rw [fewer.drawables]
    exact inv.entries surfaceId item (fewer.lists surfaceId item member)

theorem setSurface (worker : RedWorker) (id : Nat) (change : RedSurface -> RedSurface)
    (shorter : forall item, item ∈ (change (worker.surfaces id)).dependOnMe -> item ∈ (worker.surfaces id).dependOnMe) :
    Fewer worker (worker.setSurface id change) := by
  refine ⟨rfl, rfl, fun surfaceId item member => ?_⟩
  simp only [RedWorker.setSurface] at member
  by_cases same : surfaceId = id
  · subst same
    rw [Function.update_self] at member
    exact shorter item member
  · rw [Function.update_of_ne same] at member
    exact member

theorem redDestroySurface (worker : RedWorker) (id : Nat) : Fewer worker (worker.redDestroySurface id) :=
  setSurface worker id _ (fun _ member => member)

theorem forSource (worker : RedWorker) (drawable : Drawable) {change : Nat -> RedWorker -> RedWorker}
    (each : forall id worker, Fewer worker (change id worker)) (place : Fin 3) :
    Fewer worker (worker.forSource drawable change place) := by
  unfold RedWorker.forSource
  split
  · exact refl worker
  · exact each _ worker

theorem decSurfacesDependencies (worker : RedWorker) (drawable : Drawable) :
    Fewer worker (worker.decSurfacesDependencies drawable) := by
  have each : forall (id : Nat) (worker : RedWorker), Fewer worker (worker.redDestroySurface id) :=
    fun id worker => redDestroySurface worker id
  exact ((forSource worker drawable each 0).trans (forSource _ drawable each 1)).trans (forSource _ drawable each 2)

theorem incSurfacesDependencies (worker : RedWorker) (drawable : Drawable) :
    Fewer worker (worker.incSurfacesDependencies drawable) := by
  have each : forall (id : Nat) (worker : RedWorker),
      Fewer worker (worker.setSurface id (fun surface => { surface with refs := surface.refs + 1 })) :=
    fun id worker => setSurface worker id _ (fun _ member => member)
  exact ((forSource worker drawable each 0).trans (forSource _ drawable each 1)).trans (forSource _ drawable each 2)

theorem removeDependedItem (worker : RedWorker) (drawable : Drawable) (place : Fin 3) :
    Fewer worker (worker.removeDependedItem drawable place) := by
  unfold RedWorker.removeDependedItem
  split
  · exact refl worker
  · split
    · exact setSurface worker _ _ (fun item member => (List.mem_filter.mp member).1)
    · exact refl worker

theorem removeDrawableDependencies (worker : RedWorker) (drawable : Drawable) :
    Fewer worker (worker.removeDrawableDependencies drawable) :=
  ((removeDependedItem worker drawable 0).trans (removeDependedItem _ drawable 1)).trans
    (removeDependedItem _ drawable 2)

end Fewer

variable {drawable : Drawable}

theorem removeDependedItem_gone {worker : RedWorker} {place : Fin 3} {surfaceId : Nat}
    (depends : drawable.dependsOn place surfaceId) :
    (drawable.key, place) ∉ ((worker.removeDependedItem drawable place).surfaces surfaceId).dependOnMe := by
  unfold RedWorker.removeDependedItem
  rw [depends.2.1]
  simp only [depends.1, if_true, RedWorker.setSurface, Function.update_self]
  intro member
  exact absurd rfl (of_decide_eq_true (List.mem_filter.mp member).2)

theorem removeDrawableDependencies_gone {worker : RedWorker} {place : Fin 3} {surfaceId : Nat}
    (depends : drawable.dependsOn place surfaceId) :
    (drawable.key, place) ∉ ((worker.removeDrawableDependencies drawable).surfaces surfaceId).dependOnMe := by
  unfold RedWorker.removeDrawableDependencies
  intro member
  have second := (Fewer.removeDependedItem _ drawable 2).lists surfaceId _ member
  have first := (Fewer.removeDependedItem _ drawable 1).lists surfaceId _ second
  match place, depends with
  | 0, depends => exact removeDependedItem_gone depends first
  | 1, depends => exact removeDependedItem_gone depends second
  | 2, depends => exact removeDependedItem_gone depends member

namespace Inv

variable {worker next : RedWorker} {key surfaceId : Nat}

/-- A drawable keeps its identity, a reference and its links. -/
structure Keeps (worker : RedWorker) (key : Nat) (change : Drawable -> Drawable) : Prop where
  sameKey : forall drawable, (change drawable).key = drawable.key
  alive : forall drawable, drawable ∈ worker.drawables -> drawable.key = key -> 0 < (change drawable).refs
  depends : forall drawable place surfaceId, drawable.dependsOn place surfaceId ->
    (change drawable).dependsOn place surfaceId

/-- A change that keeps the dependencies. -/
theorem setDrawable (inv : Inv worker) {change : Drawable -> Drawable} (keeps : Keeps worker key change) :
    Inv (worker.setDrawable key change) := by
  have keys : forall drawable, (if drawable.key = key then change drawable else drawable).key = drawable.key := by
    intro drawable
    split
    · exact keeps.sameKey drawable
    · rfl
  refine ⟨?_, ?_, ?_, ?_⟩
  · simp only [RedWorker.setDrawable, List.map_map]
    have same : ((fun drawable : Drawable => drawable.key) ∘
        fun drawable => if drawable.key = key then change drawable else drawable) = fun drawable => drawable.key :=
      funext keys
    rw [same]
    exact inv.distinct
  · intro drawable member
    rcases List.mem_map.mp member with ⟨old, isThere, rfl⟩
    rw [keys]
    exact inv.below old isThere
  · intro drawable member
    rcases List.mem_map.mp member with ⟨old, isThere, rfl⟩
    split
    · next isKey => exact keeps.alive old isThere isKey
    · exact inv.alive old isThere
  · intro surfaceId item member
    rcases inv.entries surfaceId item member with ⟨drawable, isThere, same, depends⟩
    refine ⟨_, List.mem_map_of_mem isThere, (keys drawable).trans same, ?_⟩
    split
    · exact keeps.depends drawable _ _ depends
    · exact depends

theorem hold (inv : Inv worker) (inTree : Drawable -> Bool) : Inv (worker.setDrawable key (fun drawable =>
      { drawable with inTree := inTree drawable, refs := drawable.refs + 1 })) := by
  apply inv.setDrawable
  exact ⟨fun _ => rfl, fun drawable _ _ => Nat.succ_pos drawable.refs, fun _ _ _ depends => depends⟩

theorem unique (inv : Inv worker) {drawable other : Drawable} (found : drawable ∈ worker.drawables)
    (foundOther : other ∈ worker.drawables) (same : drawable.key = other.key) : drawable = other :=
  List.inj_on_of_nodup_map inv.distinct found foundOther same

/-- A drawable that is freed takes its dependencies along. -/
theorem freeDrawable (inv : Inv worker) (found : drawable ∈ worker.drawables)
    (gone : Fewer (worker.removeDrawableDependencies drawable) next) :
    Inv { next with drawables := next.drawables.filter (fun other => other.key ≠ drawable.key) } := by
  have fewer := (Fewer.removeDrawableDependencies worker drawable).trans gone
  have kept := fewer.inv inv
  refine ⟨?_, ?_, ?_, ?_⟩
  · exact kept.distinct.sublist (List.filter_sublist.map _)
  · exact fun other member => kept.below other (List.mem_filter.mp member).1
  · exact fun other member => kept.alive other (List.mem_filter.mp member).1
  · intro surfaceId item member
    rcases kept.entries surfaceId item member with ⟨other, isThere, same, depends⟩
    refine ⟨other, List.mem_filter.mpr ⟨isThere, ?_⟩, same, depends⟩
    apply decide_eq_true
    intro sameKey
    have isIt : other = drawable := by
      rw [fewer.drawables] at isThere
      exact inv.unique isThere found sameKey
    subst isIt
    have listed := gone.lists surfaceId item member
    rw [show item = (other.key, item.2) from Prod.ext same.symm rfl] at listed
    exact removeDrawableDependencies_gone depends listed

/-- A reference of a drawable is given back. -/
theorem releaseDrawable (inv : Inv worker) : Inv (worker.releaseDrawable key) := by
  unfold RedWorker.releaseDrawable
  cases found : worker.drawableAt key with
  | none => exact inv
  | some drawable =>
      have isThere : drawable ∈ worker.drawables := List.mem_of_find?_eq_some found
      have isKey : drawable.key = key := by simpa using List.find?_some found
      simp only
      split
      · rw [<- isKey]
        exact inv.freeDrawable isThere
          ((Fewer.decSurfacesDependencies _ drawable).trans (Fewer.redDestroySurface _ drawable.surfaceId))
      · next shared =>
          apply inv.setDrawable
          refine ⟨fun _ => rfl, fun other isOther sameKey => ?_, fun _ _ _ depends => depends⟩
          have same := inv.unique isOther isThere (sameKey.trans isKey.symm)
          subst same
          have alive := inv.alive other isOther
          show 0 < other.refs - 1
          omega

theorem currentRemoveDrawable (inv : Inv worker) : Inv (worker.currentRemoveDrawable key) := by
  apply releaseDrawable
  apply inv.setDrawable
  exact ⟨fun _ => rfl, fun drawable member _ => inv.alive drawable member, fun _ _ _ depends => depends⟩

theorem setPipes (inv : Inv worker) (pipes : List (List PipeItem)) : Inv { worker with pipes := pipes } :=
  ⟨inv.distinct, inv.below, inv.alive, inv.entries⟩

theorem releaseItems (inv : Inv worker) (items : List PipeItem) : Inv (worker.releaseItems items) := by
  unfold RedWorker.releaseItems
  generalize List.map _ _ = keys
  induction keys generalizing worker with
  | nil => exact inv
  | cons key rest ih => exact ih inv.releaseDrawable

theorem removeDrawable (inv : Inv worker) : Inv (worker.removeDrawable key) :=
  ((inv.setPipes _).releaseItems _).currentRemoveDrawable

theorem currentClear (inv : Inv worker) : Inv (worker.currentClear surfaceId) := by
  unfold RedWorker.currentClear
  generalize List.map _ _ = keys
  induction keys generalizing worker with
  | nil => exact inv
  | cons key rest ih => exact ih inv.removeDrawable

theorem clearSurfaceDrawables (inv : Inv worker) :
    Inv ((worker.currentClear surfaceId).clearSurfaceDrawablesFromPipes surfaceId) :=
  (inv.currentClear.setPipes _).releaseItems _

theorem redCreateSurface (inv : Inv worker) : Inv (worker.redCreateSurface surfaceId) :=
  (Fewer.setSurface worker surfaceId _ (fun _ member => by cases member)).inv inv

/-- A new drawable comes behind the others. -/
theorem newDrawable (inv : Inv worker) (isFresh : drawable.key = worker.fresh) (alive : 0 < drawable.refs) :
    Inv { worker with drawables := drawable :: worker.drawables, fresh := worker.fresh + 1 } := by
  refine ⟨?_, ?_, ?_, ?_⟩
  · refine List.nodup_cons.mpr ⟨?_, inv.distinct⟩
    intro member
    rcases List.mem_map.mp member with ⟨other, isThere, same⟩
    have before := inv.below other isThere
    have same : other.key = drawable.key := same
    omega
  · intro other member
    show other.key < worker.fresh + 1
    rcases List.mem_cons.mp member with rfl | isThere
    · omega
    · exact Nat.lt_succ_of_lt (inv.below other isThere)
  · intro other member
    rcases List.mem_cons.mp member with rfl | isThere
    · exact alive
    · exact inv.alive other isThere
  · intro surfaceId item member
    rcases inv.entries surfaceId item member with ⟨other, isThere, same, depends⟩
    exact ⟨other, List.mem_cons_of_mem _ isThere, same, depends⟩

theorem fewer_addDrawable (worker : RedWorker) (drawable : Drawable) :
    Fewer { worker with drawables := drawable :: worker.drawables, fresh := worker.fresh + 1 }
      (worker.addDrawable drawable) :=
  (Fewer.setSurface _ drawable.surfaceId _ (fun _ member => member)).trans
    (Fewer.incSurfacesDependencies _ drawable)

theorem addDrawable (inv : Inv worker) (isFresh : drawable.key = worker.fresh)
    (alive : 0 < drawable.refs) : Inv (worker.addDrawable drawable) :=
  (fewer_addDrawable worker drawable).inv (inv.newDrawable isFresh alive)

/-- The drawable is among the live ones, whatever its links and references. -/
def Present (worker : RedWorker) (drawable : Drawable) : Prop :=
  Exists fun found => found ∈ worker.drawables ∧ found.key = drawable.key ∧
    found.surfaceId = drawable.surfaceId ∧ found.surfacesDest = drawable.surfacesDest

/-- A source other than the target: the item is linked and listed. -/
theorem addToSurfaceDependency (place : Fin 3) (inv : Inv worker) (present : Present worker drawable) :
    Inv (worker.addToSurfaceDependency drawable place) ∧
      Present (worker.addToSurfaceDependency drawable place) drawable := by
  unfold RedWorker.addToSurfaceDependency
  cases isSource : drawable.surfacesDest place with
  | none => exact ⟨inv, present⟩
  | some source =>
      simp only
      by_cases target : source = drawable.surfaceId
      · rw [if_pos target]
        exact ⟨inv, present⟩
      · rw [if_neg target]
        rcases present with ⟨found, isThere, sameKey, sameTarget, sameSources⟩
        have linked : Inv (worker.setDrawable drawable.key
            (fun drawable => { drawable with linked := Function.update drawable.linked place true })) := by
          apply inv.setDrawable
          refine ⟨fun _ => rfl, fun other member _ => inv.alive other member, ?_⟩
          rintro other at_ surfaceId ⟨isLinked, rest⟩
          refine ⟨?_, rest⟩
          by_cases same : at_ = place
          · subst same
            exact Function.update_self at_ true other.linked
          · exact (Function.update_of_ne same true other.linked).trans isLinked
        have isLinked : { found with linked := Function.update found.linked place true } ∈
            (worker.setDrawable drawable.key
              (fun drawable => { drawable with linked := Function.update drawable.linked place true })).drawables := by
          refine List.mem_map.mpr ⟨found, isThere, ?_⟩
          rw [if_pos sameKey]
        refine ⟨⟨linked.distinct, linked.below, linked.alive, ?_⟩, ⟨_, isLinked, sameKey, sameTarget, sameSources⟩⟩
        intro surfaceId item member
        simp only [RedWorker.setDrawable, RedWorker.setSurface] at member
        by_cases same : surfaceId = source
        · subst same
          rw [Function.update_self] at member
          rcases List.mem_cons.mp member with rfl | old
          · refine ⟨_, isLinked, sameKey, Function.update_self place true found.linked, ?_, ?_⟩
            · exact (congrFun sameSources place).trans isSource
            · exact fun itself => target (itself.symm.trans sameTarget)
          · exact linked.entries surfaceId item old
        · rw [Function.update_of_ne same] at member
          exact linked.entries surfaceId item member

theorem handleSurfacesDependencies (inv : Inv worker) (present : Present worker drawable) :
    Inv (worker.handleSurfacesDependencies drawable) := by
  have first := addToSurfaceDependency 0 inv present
  have second := addToSurfaceDependency 1 first.1 first.2
  exact (addToSurfaceDependency 2 second.1 second.2).1

/-- A drawable is processed, and its dependencies with it. -/
theorem processDrawable {surfacesDest : Fin 3 -> Option Nat} {emptyRegion : Bool} (inv : Inv worker)
    (processed : worker.processDrawable surfaceId surfacesDest emptyRegion = some next) : Inv next := by
  unfold RedWorker.processDrawable at processed
  split at processed
  · cases processed
    exact inv
  · have added : Inv (worker.addDrawable (Drawable.mk worker.fresh surfaceId surfacesDest (fun _ => false) 1 false)) :=
      inv.addDrawable rfl Nat.one_pos
    simp only at processed
    split at processed
    · cases processed
      exact added.releaseDrawable
    · rcases Option.map_eq_some_iff.mp processed with ⟨flushed, handled, rfl⟩
      rcases RedWorker.handleDependsOnTargetSurface_eq handled with ⟨rfl, -⟩
      have present :
          Present (worker.addDrawable (Drawable.mk worker.fresh surfaceId surfacesDest (fun _ => false) 1 false))
          (Drawable.mk worker.fresh surfaceId surfacesDest (fun _ => false) 1 false) := by
        refine ⟨_, ?_, rfl, rfl, rfl⟩
        rw [(fewer_addDrawable worker _).drawables]
        exact List.mem_cons_self
      have linked := handleSurfacesDependencies added present
      exact ⟨linked.distinct, linked.below, linked.alive, linked.entries⟩

/-- Every command and every reference keeps the invariant. -/
theorem step {op : Op} (inv : Inv worker) (stepped : worker.step op = some next) : Inv next := by
  cases RedWorker.stepped stepped with
  | keptSurface used => exact inv
  | created unused => exact inv.redCreateSurface
  | noSurface unused => exact inv
  | destroyed used listed => exact (Fewer.redDestroySurface _ _).inv inv.clearSurfaceDrawables
  | noCanvas absent => exact inv
  | cleared canvas listed => exact inv.clearSurfaceDrawables
  | processed idle done => exact inv.processDrawable done
  | inserted processing => exact inv.hold (fun _ => true)
  | removed found inTree => exact inv.currentRemoveDrawable
  | held found => exact inv.hold (fun drawable => drawable.inTree)
  | released found free => exact inv.releaseDrawable
  | finished processing =>
      apply releaseDrawable
      exact ⟨inv.distinct, inv.below, inv.alive, inv.entries⟩
  | connected => exact inv.setPipes _
  | added isPipe found => exact (inv.setPipes _).hold (fun drawable => drawable.inTree)
  | sent isPipe waits => exact inv.setPipes _
  | dropped isPipe isItem => exact (inv.setPipes _).releaseDrawable

theorem init : Inv RedWorker.init :=
  ⟨List.nodup_nil, fun _ member => absurd member List.not_mem_nil, fun _ member => absurd member List.not_mem_nil,
    fun _ _ member => absurd member List.not_mem_nil⟩

theorem of_run {ops : List Op} (ran : run RedWorker.step RedWorker.init ops = some worker) : Inv worker :=
  have keep : forall (_ : List Op) (worker : RedWorker) (op : Op) (next : RedWorker), Inv worker ->
      worker.step op = some next -> Inv next := fun _ _ _ _ inv stepped => inv.step stepped
  run_invariant keep ops [] RedWorker.init worker init ran

end Inv

/-- Each iteration removes the dependent it looked at. -/
def RoundRemoves (worker : RedWorker) (surfaceId : Nat) : Prop :=
  forall item next, (worker.surfaces surfaceId).dependOnMe.getLast? = some item ->
    worker.dependsRound surfaceId = some next -> item ∉ (next.surfaces surfaceId).dependOnMe

theorem roundRemoves_iff (worker : RedWorker) (surfaceId : Nat) :
    RoundRemoves worker surfaceId <-> (worker.surfaces surfaceId).dependOnMe = [] := by
  constructor
  · intro removes
    by_contra listed
    have isLast := List.getLast?_eq_some_getLast listed
    exact removes _ worker isLast (RedWorker.dependsRound_eq listed) (List.getLast_mem listed)
  · intro isEmpty item next isLast
    rw [isEmpty] at isLast
    cases isLast

/-- In every reachable state the loop ends, removing what it looks at, exactly for
the surfaces that no drawable is listed under; and what is listed is a drawable
that is still referenced and takes an image from the surface. -/
theorem flush_dependents_ends (ops : List Op) (worker : RedWorker) (surfaceId : Nat)
    (ran : run RedWorker.step RedWorker.init ops = some worker) :
    (LoopEnds worker surfaceId ∧ RoundRemoves worker surfaceId <-> (worker.surfaces surfaceId).dependOnMe = []) ∧
      ((worker.surfaces surfaceId).dependOnMe ≠ [] -> Exists fun drawable => Exists fun place =>
        drawable ∈ worker.drawables ∧ 0 < drawable.refs ∧ drawable.dependsOn place surfaceId) := by
  refine ⟨?_, ?_⟩
  · rw [loopEnds_iff, roundRemoves_iff]
    exact and_self_iff
  · intro listed
    have inv := Inv.of_run ran
    rcases List.exists_mem_of_ne_nil _ listed with ⟨item, member⟩
    rcases inv.entries surfaceId item member with ⟨drawable, isThere, -, depends⟩
    exact ⟨drawable, item.2, isThere, inv.alive drawable isThere, depends⟩

/-- Two surfaces, and a drawable of the first one that takes its image from the second. -/
def sourceRun : List Op :=
  [.createSurface 0, .createSurface 1, .process 0 (fun place => if place = 0 then some 1 else none) false, .insert 1,
    .finish]

/-- When the drawable has left the tree, nothing depends on the second surface. -/
theorem flush_dependents_ends_removed :
    Exists fun worker => run RedWorker.step RedWorker.init (sourceRun ++ [.remove 1]) = some worker ∧
      LoopEnds worker 1 ∧ RoundRemoves worker 1 := by
  have ran : (run RedWorker.step RedWorker.init (sourceRun ++ [.remove 1])).isSome = true := by decide
  rcases Option.isSome_iff_exists.mp ran with ⟨worker, isWorker⟩
  have list : (run RedWorker.step RedWorker.init (sourceRun ++ [.remove 1])).map
      (fun worker => (worker.surfaces 1).dependOnMe) = some [] := by decide
  rw [isWorker] at list
  exact ⟨worker, isWorker, (flush_dependents_ends _ worker 1 isWorker).1.mpr (Option.some.inj list)⟩

/-- While it is in the tree, the second surface can be neither drawn to nor destroyed:
the loop over its dependents does not end. -/
theorem queued_dependent_blocks : Not (forall (ops : List Op) (worker : RedWorker) (surfaceId : Nat),
    run RedWorker.step RedWorker.init ops = some worker -> LoopEnds worker surfaceId ∧
      RoundRemoves worker surfaceId) := by
  intro always
  have ran : (run RedWorker.step RedWorker.init sourceRun).isSome = true := by decide
  rcases Option.isSome_iff_exists.mp ran with ⟨worker, isWorker⟩
  have list : (run RedWorker.step RedWorker.init sourceRun).map (fun worker => (worker.surfaces 1).dependOnMe) =
      some [(1, 0)] := by decide
  rw [isWorker] at list
  have isEmpty := (loopEnds_iff worker 1).mp (always sourceRun worker 1 isWorker).1
  rw [Option.map_some, isEmpty] at list
  cases list

end Worker
end Spice
