import Spice.Lib.Run
import Mathlib.Logic.Function.Basic

namespace Spice
namespace OnDemand

open Lib

/-!
# Surfaces that are sent to a client on demand

A surface that was restored with its content is not sent to the clients.  When a
drawable that draws to it or takes an image from it is queued for a client that does
not have it, `red_handle_drawable_surfaces_client_synced` queues the creation of the
surface and an image of its canvas before the drawable.

Drawables are painted when they are queued: `red_pipes_add_drawable` paints first and
then goes through the clients.  There are two ways around it, which `red_current_add_equal`
takes when a drawable covers another one exactly: the drawable that reverts an equal one is
queued only for the clients that do not have the other one in their pipe any more, and the
drawable that follows one with a stream is queued in its place.  What a drawable paints is
an arbitrary function of the content of its target and of its sources.  `red_current_flush`
neither paints nor touches the pipes in this configuration, and is left out; so are
drawables that are otherwise taken out of a pipe before they are sent.
-/

variable {Shape Content : Type}

/-- `Drawable`: its surfaces, and what it paints. -/
structure Drawable (Content : Type) where
  surfaceId : Nat
  surfacesDest : Fin 3 -> Option Nat
  paint : Content -> (Fin 3 -> Option Content) -> Content

inductive Item (Shape Content : Type)
  | createSurface (id : Nat) (shape : Shape)
  | image (id : Nat) (content : Content)
  | draw (drawable : Drawable Content)
  | destroySurface (id : Nat)

/-- `DisplayChannelClient`: `surface_client_created`, the pipe with the oldest item first,
and the surfaces that the client has at the other end. -/
structure Client (Shape Content : Type) where
  created : Nat -> Bool
  pipe : List (Item Shape Content)
  copies : Nat -> Option Content

/-- The canvases of the worker, with their width, height and format, and the clients. -/
structure Worker (Shape Content : Type) where
  surfaces : Nat -> Option (Shape × Content)
  clients : List (Client Shape Content)

namespace Drawable

variable (drawable : Drawable Content)

/-- Paint on the surfaces of the server, or of a client. -/
def paintOn (surfaces : Nat -> Option Content) : Option Content :=
  (surfaces drawable.surfaceId).map (fun content =>
    drawable.paint content (fun place => (drawable.surfacesDest place).bind surfaces))

def paintAll (surfaces : Nat -> Option Content) : Nat -> Option Content :=
  Function.update surfaces drawable.surfaceId (drawable.paintOn surfaces)

end Drawable

/-- What a client does with an item.  A new surface is blank. -/
def Item.apply (blank : Shape -> Content) (copies : Nat -> Option Content) : Item Shape Content -> Nat -> Option Content
  | .createSurface id shape => Function.update copies id (some (blank shape))
  | .image id content => Function.update copies id ((copies id).map (fun _ => content))
  | .draw drawable => drawable.paintAll copies
  | .destroySurface id => Function.update copies id none

/-- The surfaces of the client when it has received what is in its pipe. -/
def Client.final (blank : Shape -> Content) (client : Client Shape Content) : Nat -> Option Content :=
  client.pipe.foldl (Item.apply blank) client.copies

namespace Worker

variable (worker : Worker Shape Content) (blank : Shape -> Content)

def canvas (id : Nat) : Option Content := (worker.surfaces id).map Prod.snd

def createSurfaceItem (id : Nat) (client : Client Shape Content) : Client Shape Content :=
  if client.created id then client
  else
    match worker.surfaces id with
    | none => client
    | some surface =>
        { client with
          created := Function.update client.created id true
          pipe := client.pipe ++ [.createSurface id surface.1] }

def pushSurfaceImage (id : Nat) (client : Client Shape Content) : Client Shape Content :=
  match worker.canvas id with
  | none => client
  | some content => { client with pipe := client.pipe ++ [.image id content] }

/-- A surface in `red_handle_drawable_surfaces_client_synced`. -/
def syncSurface (id : Nat) (client : Client Shape Content) : Client Shape Content :=
  if client.created id then client else worker.pushSurfaceImage id (worker.createSurfaceItem id client)

def syncSource (drawable : Drawable Content) (place : Fin 3) (client : Client Shape Content) : Client Shape Content :=
  match drawable.surfacesDest place with
  | none => client
  | some source => worker.syncSurface source client

def handleDrawableSurfacesClientSynced (drawable : Drawable Content) (client : Client Shape Content) :
    Client Shape Content :=
  worker.syncSurface drawable.surfaceId (worker.syncSource drawable 2 (worker.syncSource drawable 1
    (worker.syncSource drawable 0 client)))

def pipeAddDrawable (drawable : Drawable Content) (client : Client Shape Content) : Client Shape Content :=
  let client := worker.handleDrawableSurfacesClientSynced drawable client
  { client with pipe := client.pipe ++ [.draw drawable] }

def drawQxlDrawable (drawable : Drawable Content) : Worker Shape Content :=
  { worker with
    surfaces := Function.update worker.surfaces drawable.surfaceId
      ((worker.surfaces drawable.surfaceId).map (fun surface =>
        (surface.1, drawable.paint surface.2 (fun place => (drawable.surfacesDest place).bind worker.canvas)))) }

def pipesAddDrawable (drawable : Drawable Content) : Worker Shape Content :=
  let painted := worker.drawQxlDrawable drawable
  { painted with clients := painted.clients.map (painted.pipeAddDrawable drawable) }

/-- A client with the other drawable at some place of its pipe. -/
def linked (places : Nat -> Option Nat) : Bool :=
  (List.range worker.clients.length).any (fun index => (places index).isSome)

/-- `red_pipes_add_drawable_after`, and `red_pipes_remove_drawable` of the other drawable: the drawable is painted only
if no client has the other one. -/
def pipesAddDrawableAfter (drawable : Drawable Content) (places : Nat -> Option Nat) : Worker Shape Content :=
  if worker.linked places then
    { worker with
      clients := worker.clients.mapIdx (fun index client =>
        match places index with
        | none => worker.pipeAddDrawable drawable client
        | some place =>
            let client := worker.handleDrawableSurfacesClientSynced drawable client
            { client with pipe := client.pipe.set place (.draw drawable) }) }
  else worker.pipesAddDrawable drawable

/-- `QXL_EFFECT_REVERT_ON_DUP` in `red_current_add_equal`: nothing is painted. -/
def revertOnDup (drawable : Drawable Content) (places : Nat -> Option Nat) : Worker Shape Content :=
  { worker with
    clients := worker.clients.mapIdx (fun index client =>
      match places index with
      | none => worker.pipeAddDrawable drawable client
      | some place => { client with pipe := client.pipe.eraseIdx place }) }

/-- `get_drawable` accepts a drawable whose surfaces exist. -/
def accepts (drawable : Drawable Content) : Bool :=
  (worker.surfaces drawable.surfaceId).isSome &&
    (drawable.surfacesDest 0).all (fun source => (worker.surfaces source).isSome) &&
    (drawable.surfacesDest 1).all (fun source => (worker.surfaces source).isSome) &&
    (drawable.surfacesDest 2).all (fun source => (worker.surfaces source).isSome)

def createSurface (id : Nat) (shape : Shape) (data : Content) (dataIsValid sendClient : Bool) : Worker Shape Content :=
  let content := if dataIsValid then data else blank shape
  let worker := { worker with surfaces := Function.update worker.surfaces id (some (shape, content)) }
  if sendClient then
    { worker with
      clients := worker.clients.map (fun client =>
        let client := worker.createSurfaceItem id client
        if dataIsValid then worker.pushSurfaceImage id client else client) }
  else worker

def destroySurfaceItem (id : Nat) (client : Client Shape Content) : Client Shape Content :=
  if client.created id then
    { client with
      created := Function.update client.created id false
      pipe := client.pipe ++ [.destroySurface id] }
  else client

/-- `red_destroy_surface` of the last reference. -/
def destroySurface (id : Nat) : Worker Shape Content :=
  { surfaces := Function.update worker.surfaces id none, clients := worker.clients.map (destroySurfaceItem id) }

/-- `on_new_display_channel_client`: only the primary surface is sent. -/
def newClient : Client Shape Content :=
  let client : Client Shape Content := { created := fun _ => false, pipe := [], copies := fun _ => none }
  worker.pushSurfaceImage 0 (worker.createSurfaceItem 0 client)

/-- A client that comes from another host, where it has received some of the surfaces. -/
def restoredClient (has : Nat -> Bool) : Client Shape Content where
  created := fun id => has id && (worker.surfaces id).isSome
  pipe := []
  copies := fun id => if has id then worker.canvas id else none

/-- The oldest item of a pipe reaches its client. -/
def send (client : Client Shape Content) : Client Shape Content :=
  match client.pipe with
  | [] => client
  | item :: rest => { client with pipe := rest, copies := item.apply blank client.copies }

end Worker

/-- A command, a client that connects, or an item that is received. -/
inductive Op (Shape Content : Type)
  | createSurface (id : Nat) (shape : Shape) (data : Content) (dataIsValid sendClient : Bool)
  | destroySurface (id : Nat)
  | draw (drawable : Drawable Content)
  | drawAfter (drawable : Drawable Content) (places : Nat -> Option Nat)
  | revert (drawable : Drawable Content) (places : Nat -> Option Nat)
  | connect
  | restore (has : Nat -> Bool)
  | send (place : Nat)

/-- A surface is created only where there is none, and a drawable only drawn to surfaces that
exist. -/
def Worker.step (blank : Shape -> Content) (worker : Worker Shape Content) :
    Op Shape Content -> Option (Worker Shape Content)
  | .createSurface id shape data dataIsValid sendClient =>
      if (worker.surfaces id).isSome then some worker
      else some (worker.createSurface blank id shape data dataIsValid sendClient)
  | .destroySurface id => some (worker.destroySurface id)
  | .draw drawable => if worker.accepts drawable then some (worker.pipesAddDrawable drawable) else some worker
  | .drawAfter drawable places =>
      if worker.accepts drawable then some (worker.pipesAddDrawableAfter drawable places) else some worker
  | .revert drawable places =>
      if worker.accepts drawable then some (worker.revertOnDup drawable places) else some worker
  | .connect => some { worker with clients := worker.newClient :: worker.clients }
  | .restore has => some { worker with clients := worker.restoredClient has :: worker.clients }
  | .send place => some { worker with clients := worker.clients.modify place (Worker.send blank) }

/-- No surfaces, and no clients. -/
def Worker.init : Worker Shape Content where
  surfaces := fun _ => none
  clients := []

/-- A drawable finds its target at every client, or painting it once more over its own result
makes no difference. -/
def Worker.PaintedOnce (worker : Worker Shape Content) (drawable : Drawable Content) : Prop :=
  (Exists fun client => client ∈ worker.clients ∧ client.created drawable.surfaceId = false) ->
    drawable.paintOn (drawable.paintAll worker.canvas) = drawable.paintOn worker.canvas

/-- No drawable is queued twice painted, or not painted at all. -/
def PaintsOnce (worker : Worker Shape Content) : Op Shape Content -> Prop
  | .draw drawable => worker.accepts drawable = true -> worker.PaintedOnce drawable
  | .drawAfter drawable places => worker.accepts drawable = true ->
      worker.linked places = false ∧ worker.PaintedOnce drawable
  | .revert drawable _ => worker.accepts drawable = true -> worker.clients = []
  | _ => True

variable {blank : Shape -> Content} {worker : Worker Shape Content} {client : Client Shape Content} {id target : Nat}

variable {drawable : Drawable Content}

namespace Drawable

theorem paintOn_congr {one two : Nat -> Option Content} (target : one drawable.surfaceId = two drawable.surfaceId)
    (sources : forall place id, drawable.surfacesDest place = some id -> one id = two id) :
    drawable.paintOn one = drawable.paintOn two := by
  have same : (fun place => (drawable.surfacesDest place).bind one) =
      (fun place => (drawable.surfacesDest place).bind two) := by
    funext place
    cases isSource : drawable.surfacesDest place with
    | none => rfl
    | some id => exact sources place id isSource
  unfold paintOn
  rw [target, same]

end Drawable

theorem Client.final_snoc (blank : Shape -> Content) (client : Client Shape Content) (item : Item Shape Content) :
    Client.final blank { client with pipe := client.pipe ++ [item] } = item.apply blank (client.final blank) := by
  simp only [Client.final, List.foldl_append, List.foldl_cons, List.foldl_nil]

namespace Worker

theorem canvas_drawQxlDrawable (worker : Worker Shape Content) (drawable : Drawable Content) :
    (worker.drawQxlDrawable drawable).canvas = drawable.paintAll worker.canvas := by
  funext id
  simp only [canvas, drawQxlDrawable, Drawable.paintAll, Drawable.paintOn]
  by_cases same : id = drawable.surfaceId
  · subst same
    rw [Function.update_self, Function.update_self]
    cases worker.surfaces drawable.surfaceId with
    | none => rfl
    | some surface => rfl
  · rw [Function.update_of_ne same, Function.update_of_ne same]
    rfl

theorem syncSurface_none (missing : worker.surfaces id = none) (client : Client Shape Content) :
    worker.syncSurface id client = client := by
  simp only [syncSurface, pushSurfaceImage, createSurfaceItem, canvas, missing, Option.map_none, ite_self]

theorem syncSurface_created {surface : Shape × Content} (isThere : worker.surfaces id = some surface)
    (client : Client Shape Content) :
    (worker.syncSurface id client).created = Function.update client.created id true := by
  unfold syncSurface
  cases isCreated : client.created id with
  | true => rw [if_pos rfl, <- isCreated, Function.update_eq_self]
  | false =>
      have isCanvas : worker.canvas id = some surface.2 := by rw [canvas, isThere, Option.map_some]
      simp only [createSurfaceItem, isCreated, isThere, pushSurfaceImage, isCanvas, Bool.false_eq_true, if_false]

theorem syncSurface_final {surface : Shape × Content} (isThere : worker.surfaces id = some surface)
    (client : Client Shape Content) : (worker.syncSurface id client).final blank =
      if client.created id then client.final blank else Function.update (client.final blank) id (worker.canvas id) := by
  unfold syncSurface
  cases isCreated : client.created id with
  | true => rfl
  | false =>
      have isCanvas : worker.canvas id = some surface.2 := by rw [canvas, isThere, Option.map_some]
      simp only [createSurfaceItem, isCreated, isThere, pushSurfaceImage, isCanvas, Bool.false_eq_true, if_false]
      simp only [Client.final, List.foldl_append, List.foldl_cons, List.foldl_nil, Item.apply, Function.update_self,
        Option.map_some, Function.update_idem]

end Worker

/-- The client has the canvases, with `content` in place of the target. -/
structure Ready (blank : Shape -> Content) (worker : Worker Shape Content) (target : Nat) (content : Option Content)
    (client : Client Shape Content) : Prop where
  others : forall id, id ≠ target -> client.created id = true -> client.final blank id = worker.canvas id
  onTarget : client.created target = true -> client.final blank target = content
  settled : client.created target = true ∨ content = worker.canvas target

namespace Ready

variable {content : Option Content}

theorem syncSurface {surface : Shape × Content} (ready : Ready blank worker target content client)
    (isThere : worker.surfaces id = some surface) :
    Ready blank worker target content (worker.syncSurface id client) := by
  have created := worker.syncSurface_created isThere client
  have final : (worker.syncSurface id client).final blank = _ := worker.syncSurface_final isThere client
  cases isCreated : client.created id with
  | true =>
      rw [isCreated, if_pos rfl] at final
      rw [<- isCreated, Function.update_eq_self] at created
      exact ⟨by rw [created, final]; exact ready.others, by rw [created, final]; exact ready.onTarget,
        by rw [created]; exact ready.settled⟩
  | false =>
      rw [isCreated, if_neg Bool.false_ne_true] at final
      refine ⟨fun other different isOther => ?_, fun isTarget => ?_, ?_⟩
      · rw [final]
        by_cases same : other = id
        · rw [same, Function.update_self]
        · rw [created, Function.update_of_ne same] at isOther
          rw [Function.update_of_ne same]
          exact ready.others other different isOther
      · rw [final]
        by_cases same : target = id
        · subst same
          rw [Function.update_self]
          rcases ready.settled with had | same
          · exact absurd had (by rw [isCreated]; exact Bool.false_ne_true)
          · exact same.symm
        · rw [created, Function.update_of_ne same] at isTarget
          rw [Function.update_of_ne same]
          exact ready.onTarget isTarget
      · rw [created]
        by_cases same : target = id
        · exact Or.inl (by rw [same, Function.update_self])
        · rw [Function.update_of_ne same]
          exact ready.settled

theorem syncSource (ready : Ready blank worker target content client) (place : Fin 3)
    (exist : forall id, drawable.surfacesDest place = some id ->
      Exists fun surface => worker.surfaces id = some surface) :
    Ready blank worker target content (worker.syncSource drawable place client) := by
  unfold Worker.syncSource
  cases isSource : drawable.surfacesDest place with
  | none => exact ready
  | some id =>
      rcases exist id isSource with ⟨surface, isThere⟩
      exact ready.syncSurface isThere

end Ready

namespace Worker

def Exist (worker : Worker Shape Content) (drawable : Drawable Content) : Prop :=
  (Exists fun surface => worker.surfaces drawable.surfaceId = some surface) ∧
    forall place id, drawable.surfacesDest place = some id -> Exists fun surface => worker.surfaces id = some surface

theorem exist_of_accepts (accepted : worker.accepts drawable = true) : worker.Exist drawable := by
  simp only [accepts, Bool.and_eq_true] at accepted
  rcases accepted with ⟨⟨⟨target, first⟩, second⟩, third⟩
  refine ⟨Option.isSome_iff_exists.mp target, fun place id isSource => ?_⟩
  have all : (drawable.surfacesDest place).all (fun source => (worker.surfaces source).isSome) = true := by
    match place with
    | 0 => exact first
    | 1 => exact second
    | 2 => exact third
  rw [isSource] at all
  exact Option.isSome_iff_exists.mp all

theorem Exist.drawQxlDrawable (exist : worker.Exist drawable) : (worker.drawQxlDrawable drawable).Exist drawable := by
  have kept : forall id, (Exists fun surface => worker.surfaces id = some surface) ->
      Exists fun surface => (worker.drawQxlDrawable drawable).surfaces id = some surface := by
    rintro id ⟨surface, isThere⟩
    simp only [Worker.drawQxlDrawable]
    by_cases same : id = drawable.surfaceId
    · subst same
      rw [Function.update_self, isThere]
      exact ⟨_, rfl⟩
    · rw [Function.update_of_ne same]
      exact ⟨surface, isThere⟩
  exact ⟨kept _ exist.1, fun place id isSource => kept id (exist.2 place id isSource)⟩

theorem created_syncSurface (isThere : Exists fun surface => worker.surfaces id = some surface)
    (client : Client Shape Content) : (worker.syncSurface id client).created id = true := by
  rcases isThere with ⟨surface, isThere⟩
  rw [worker.syncSurface_created isThere client, Function.update_self]

theorem created_mono (created : client.created id = true) (other : Nat) :
    (worker.syncSurface other client).created id = true := by
  cases isThere : worker.surfaces other with
  | none =>
      rw [worker.syncSurface_none isThere]
      exact created
  | some surface =>
      rw [worker.syncSurface_created isThere client]
      by_cases same : id = other
      · rw [same, Function.update_self]
      · rw [Function.update_of_ne same]
        exact created

theorem created_syncSource (created : client.created id = true) (place : Fin 3) :
    (worker.syncSource drawable place client).created id = true := by
  unfold syncSource
  split
  · exact created
  · exact created_mono created _

theorem created_source (exist : worker.Exist drawable) {place : Fin 3}
    (isSource : drawable.surfacesDest place = some id) (client : Client Shape Content) :
    (worker.syncSource drawable place client).created id = true := by
  simp only [syncSource, isSource]
  exact created_syncSurface (exist.2 place id isSource) client

theorem handleDrawableSurfacesClientSynced_created (exist : worker.Exist drawable) (client : Client Shape Content) :
    (worker.handleDrawableSurfacesClientSynced drawable client).created drawable.surfaceId = true ∧
      forall place id, drawable.surfacesDest place = some id ->
        (worker.handleDrawableSurfacesClientSynced drawable client).created id = true := by
  refine ⟨created_syncSurface exist.1 _, fun place id isSource => ?_⟩
  apply created_mono
  match place with
  | 0 => exact created_syncSource (created_syncSource (created_source exist isSource _) 1) 2
  | 1 => exact created_syncSource (created_source exist isSource _) 2
  | 2 => exact created_source exist isSource _

end Worker

theorem Ready.handleDrawableSurfacesClientSynced {content : Option Content}
    (ready : Ready blank worker target content client) (exist : worker.Exist drawable) :
    Ready blank worker target content (worker.handleDrawableSurfacesClientSynced drawable client) := by
  rcases exist.1 with ⟨surface, isThere⟩
  apply Ready.syncSurface _ isThere
  exact ((ready.syncSource 0 (exist.2 0)).syncSource 1 (exist.2 1)).syncSource 2 (exist.2 2)

/-- The client has the canvases of the surfaces it has, and these exist. -/
structure Synced (blank : Shape -> Content) (worker : Worker Shape Content) (client : Client Shape Content) : Prop where
  copies : forall id, client.created id = true -> client.final blank id = worker.canvas id
  exist : forall id, client.created id = true -> (worker.surfaces id).isSome = true

namespace Synced

variable {drawable : Drawable Content}

/-- Before the surfaces are synchronised: a client that has the target has it as it was before
the drawable was painted. -/
theorem ready (synced : Synced blank worker client) (drawable : Drawable Content) :
    Ready blank (worker.drawQxlDrawable drawable) drawable.surfaceId
      (if client.created drawable.surfaceId then worker.canvas drawable.surfaceId
        else (worker.drawQxlDrawable drawable).canvas drawable.surfaceId) client := by
  refine ⟨fun id different isCreated => ?_, fun isCreated => ?_, ?_⟩
  · rw [synced.copies id isCreated, Worker.canvas_drawQxlDrawable, Drawable.paintAll, Function.update_of_ne different]
  · rw [if_pos isCreated]
    exact synced.copies _ isCreated
  · cases isCreated : client.created drawable.surfaceId with
    | true => exact Or.inl rfl
    | false => exact Or.inr rfl

/-- The client ends with what the worker has painted. -/
theorem final_target (synced : Synced blank worker client) (exist : worker.Exist drawable) :
    ((worker.drawQxlDrawable drawable).pipeAddDrawable drawable client).final blank drawable.surfaceId =
      if client.created drawable.surfaceId then drawable.paintOn worker.canvas
      else drawable.paintOn (drawable.paintAll worker.canvas) := by
  have exist := exist.drawQxlDrawable
  have ready := (synced.ready drawable).handleDrawableSurfacesClientSynced exist
  rcases Worker.handleDrawableSurfacesClientSynced_created exist client with ⟨hasTarget, hasSources⟩
  have isFinal := Client.final_snoc blank
    ((worker.drawQxlDrawable drawable).handleDrawableSurfacesClientSynced drawable client) (.draw drawable)
  rw [Worker.pipeAddDrawable, isFinal]
  simp only [Item.apply, Drawable.paintAll, Function.update_self]
  have target := ready.onTarget hasTarget
  cases isCreated : client.created drawable.surfaceId with
  | true =>
      rw [isCreated, if_pos rfl] at target
      rw [if_pos rfl]
      apply Drawable.paintOn_congr target
      intro place id isSource
      by_cases same : id = drawable.surfaceId
      · rw [same]
        exact target
      · rw [ready.others id same (hasSources place id isSource), Worker.canvas_drawQxlDrawable, Drawable.paintAll,
          Function.update_of_ne same]
  | false =>
      rw [isCreated, if_neg Bool.false_ne_true, Worker.canvas_drawQxlDrawable] at target
      rw [if_neg Bool.false_ne_true]
      apply Drawable.paintOn_congr target
      intro place id isSource
      by_cases same : id = drawable.surfaceId
      · rw [same]
        exact target
      · rw [ready.others id same (hasSources place id isSource), Worker.canvas_drawQxlDrawable]

theorem final_other (synced : Synced blank worker client) (exist : worker.Exist drawable)
    (different : id ≠ drawable.surfaceId)
    (isCreated : ((worker.drawQxlDrawable drawable).pipeAddDrawable drawable client).created id = true) :
    ((worker.drawQxlDrawable drawable).pipeAddDrawable drawable client).final blank id =
      (worker.drawQxlDrawable drawable).canvas id := by
  have ready := (synced.ready drawable).handleDrawableSurfacesClientSynced exist.drawQxlDrawable
  have isFinal := Client.final_snoc blank
    ((worker.drawQxlDrawable drawable).handleDrawableSurfacesClientSynced drawable client) (.draw drawable)
  rw [Worker.pipeAddDrawable, isFinal]
  simp only [Item.apply, Drawable.paintAll, Function.update_of_ne different]
  exact ready.others id different isCreated

theorem exist_syncSurface (exist : forall id, client.created id = true -> (worker.surfaces id).isSome = true)
    (other : Nat) (isCreated : (worker.syncSurface other client).created id = true) :
    (worker.surfaces id).isSome = true := by
  cases isThere : worker.surfaces other with
  | none =>
      rw [worker.syncSurface_none isThere] at isCreated
      exact exist id isCreated
  | some surface =>
      rw [worker.syncSurface_created isThere client] at isCreated
      by_cases same : id = other
      · rw [same, isThere]
        rfl
      · rw [Function.update_of_ne same] at isCreated
        exact exist id isCreated

theorem exist_syncSource (exist : forall id, client.created id = true -> (worker.surfaces id).isSome = true)
    (place : Fin 3) : forall id, (worker.syncSource drawable place client).created id = true ->
      (worker.surfaces id).isSome = true := by
  unfold Worker.syncSource
  split
  · exact exist
  · exact fun _ isCreated => exist_syncSurface exist _ isCreated

theorem isSome_drawQxlDrawable (worker : Worker Shape Content) (drawable : Drawable Content) (id : Nat) :
    ((worker.drawQxlDrawable drawable).surfaces id).isSome = (worker.surfaces id).isSome := by
  simp only [Worker.drawQxlDrawable]
  by_cases same : id = drawable.surfaceId
  · rw [same, Function.update_self, Option.isSome_map]
  · rw [Function.update_of_ne same]

/-- A drawable is queued behind the surfaces that it needs. -/
theorem pipeAddDrawable (synced : Synced blank worker client) (exist : worker.Exist drawable)
    (once : client.created drawable.surfaceId = false ->
      drawable.paintOn (drawable.paintAll worker.canvas) = drawable.paintOn worker.canvas) :
    Synced blank (worker.drawQxlDrawable drawable)
      ((worker.drawQxlDrawable drawable).pipeAddDrawable drawable client) := by
  refine ⟨fun id isCreated => ?_, fun id isCreated => ?_⟩
  · by_cases same : id = drawable.surfaceId
    · rw [same, synced.final_target exist, Worker.canvas_drawQxlDrawable, Drawable.paintAll, Function.update_self]
      cases had : client.created drawable.surfaceId with
      | true => rfl
      | false => exact once had
    · exact synced.final_other exist same isCreated
  · have start : forall id, client.created id = true ->
        ((worker.drawQxlDrawable drawable).surfaces id).isSome = true := by
      intro id isCreated
      rw [isSome_drawQxlDrawable]
      exact synced.exist id isCreated
    exact exist_syncSurface (exist_syncSource (exist_syncSource (exist_syncSource start 0) 1) 2) _ isCreated

theorem createSurface (synced : Synced blank worker client) (isNew : worker.surfaces id = none) (shape : Shape)
    (content : Content) :
    Synced blank { worker with surfaces := Function.update worker.surfaces id (some (shape, content)) } client := by
  have different : forall other, client.created other = true -> other ≠ id := by
    intro other isCreated same
    have isThere := synced.exist other isCreated
    rw [same, isNew] at isThere
    cases isThere
  refine ⟨fun other isCreated => ?_, fun other isCreated => ?_⟩
  · rw [synced.copies other isCreated]
    simp only [Worker.canvas, Function.update_of_ne (different other isCreated)]
  · simp only [Function.update_of_ne (different other isCreated)]
    exact synced.exist other isCreated

/-- The client gets a surface that it lacks. -/
theorem syncSurface (synced : Synced blank worker client) (id : Nat) :
    Synced blank worker (worker.syncSurface id client) := by
  refine ⟨fun other isCreated => ?_, fun other isCreated => exist_syncSurface synced.exist id isCreated⟩
  cases isThere : worker.surfaces id with
  | none =>
      rw [worker.syncSurface_none isThere] at isCreated ⊢
      exact synced.copies other isCreated
  | some surface =>
      rw [worker.syncSurface_created isThere client] at isCreated
      rw [worker.syncSurface_final isThere client]
      cases had : client.created id with
      | true =>
          have same : Function.update client.created id true = client.created := by
            rw [<- had, Function.update_eq_self]
          rw [same] at isCreated
          exact synced.copies other isCreated
      | false =>
          rw [if_neg Bool.false_ne_true]
          by_cases same : other = id
          · rw [same, Function.update_self]
          · rw [Function.update_of_ne same] at isCreated ⊢
            exact synced.copies other isCreated

/-- A new surface is created at the client, too. -/
theorem createSurfaceItem (synced : Synced blank worker client) {shape : Shape}
    (isBlank : worker.surfaces id = some (shape, blank shape)) :
    Synced blank worker (worker.createSurfaceItem id client) := by
  cases had : client.created id with
  | true =>
      simp only [Worker.createSurfaceItem, had, if_true]
      exact synced
  | false =>
      simp only [Worker.createSurfaceItem, had, isBlank, Bool.false_eq_true, if_false]
      have final := Client.final_snoc blank client (.createSurface id shape)
      refine ⟨fun other (isCreated : Function.update client.created id true other = true) => ?_,
        fun other (isCreated : Function.update client.created id true other = true) => ?_⟩
      · show Client.final blank { client with pipe := client.pipe ++ [.createSurface id shape] } other = _
        rw [final]
        simp only [Item.apply]
        by_cases same : other = id
        · rw [same, Function.update_self, Worker.canvas, isBlank]
          rfl
        · rw [Function.update_of_ne same] at isCreated ⊢
          exact synced.copies other isCreated
      · by_cases same : other = id
        · rw [same, isBlank]
          rfl
        · rw [Function.update_of_ne same] at isCreated
          exact synced.exist other isCreated

/-- A surface is destroyed at both ends. -/
theorem destroySurface (synced : Synced blank worker client) (id : Nat) :
    Synced blank (worker.destroySurface id) (Worker.destroySurfaceItem id client) := by
  cases had : client.created id with
  | false =>
      simp only [Worker.destroySurfaceItem, had, Bool.false_eq_true, if_false]
      have different : forall other, client.created other = true -> other ≠ id := by
        intro other isCreated same
        rw [same, had] at isCreated
        cases isCreated
      refine ⟨fun other isCreated => ?_, fun other isCreated => ?_⟩
      · rw [synced.copies other isCreated]
        simp only [Worker.canvas, Worker.destroySurface, Function.update_of_ne (different other isCreated)]
      · simp only [Worker.destroySurface, Function.update_of_ne (different other isCreated)]
        exact synced.exist other isCreated
  | true =>
      simp only [Worker.destroySurfaceItem, had, if_true]
      have final := Client.final_snoc blank client (.destroySurface id)
      have different : forall other, Function.update client.created id false other = true -> other ≠ id := by
        intro other isCreated same
        rw [same, Function.update_self] at isCreated
        cases isCreated
      refine ⟨fun other (isCreated : Function.update client.created id false other = true) => ?_,
        fun other (isCreated : Function.update client.created id false other = true) => ?_⟩
      · have notIt := different other isCreated
        rw [Function.update_of_ne notIt] at isCreated
        show Client.final blank { client with pipe := client.pipe ++ [.destroySurface id] } other = _
        rw [final]
        simp only [Item.apply, Worker.canvas, Worker.destroySurface, Function.update_of_ne notIt]
        exact synced.copies other isCreated
      · have notIt := different other isCreated
        rw [Function.update_of_ne notIt] at isCreated
        simp only [Worker.destroySurface, Function.update_of_ne notIt]
        exact synced.exist other isCreated

theorem newClient (blank : Shape -> Content) (worker : Worker Shape Content) :
    Synced blank worker worker.newClient := by
  have empty : Synced blank worker { created := fun _ => false, pipe := [], copies := fun _ => none } :=
    ⟨fun _ isCreated => absurd isCreated Bool.false_ne_true, fun _ isCreated => absurd isCreated Bool.false_ne_true⟩
  exact empty.syncSurface 0

theorem restoredClient (blank : Shape -> Content) (worker : Worker Shape Content) (has : Nat -> Bool) :
    Synced blank worker (worker.restoredClient has) := by
  refine ⟨fun id isCreated => ?_, fun id isCreated => (Bool.and_eq_true_iff.mp isCreated).2⟩
  have isThere : has id = true := (Bool.and_eq_true_iff.mp isCreated).1
  simp only [Client.final, Worker.restoredClient, List.foldl_nil, isThere, if_true]

theorem send (synced : Synced blank worker client) : Synced blank worker (Worker.send blank client) := by
  unfold Worker.send
  split
  · exact synced
  · next item rest isPipe =>
      refine ⟨fun id isCreated => ?_, synced.exist⟩
      rw [<- synced.copies id isCreated]
      simp only [Client.final, isPipe, List.foldl_cons]

end Synced

/-- Every client is synchronised. -/
def Inv (blank : Shape -> Content) (worker : Worker Shape Content) : Prop :=
  forall client, client ∈ worker.clients -> Synced blank worker client

namespace Inv

variable {next : Worker Shape Content}

theorem map {surfaces : Nat -> Option (Shape × Content)} {change : Client Shape Content -> Client Shape Content}
    (changed : forall client, client ∈ worker.clients -> Synced blank
    { worker with surfaces := surfaces } (change client)) :
    Inv blank { surfaces := surfaces, clients := worker.clients.map change } := by
  intro client member
  rcases List.mem_map.mp member with ⟨old, isOld, rfl⟩
  have synced := changed old isOld
  exact ⟨synced.copies, synced.exist⟩

/-- A surface is created for all clients. -/
theorem createSurface (inv : Inv blank worker) {shape : Shape} {data : Content} {dataIsValid sendClient : Bool}
    (isNew : worker.surfaces id = none) :
    Inv blank (worker.createSurface blank id shape data dataIsValid sendClient) := by
  unfold Worker.createSurface
  have made := fun client member content => (inv client member).createSurface isNew shape content
  cases sendClient with
  | false =>
      intro client member
      have synced := made client member (if dataIsValid then data else blank shape)
      exact ⟨synced.copies, synced.exist⟩
  | true =>
      apply map
      intro client member
      cases dataIsValid with
      | false =>
          have synced := made client member (blank shape)
          exact synced.createSurfaceItem (Function.update_self _ _ _)
      | true =>
          have synced := made client member data
          have uncreated : client.created id = false := by
            cases isCreated : client.created id with
            | false => rfl
            | true =>
                have isThere := (inv client member).exist id isCreated
                rw [isNew] at isThere
                cases isThere
          have sent := synced.syncSurface id
          rw [Worker.syncSurface, uncreated, if_neg Bool.false_ne_true] at sent
          exact sent

theorem pipesAddDrawable (inv : Inv blank worker)
    (once : worker.PaintedOnce drawable) (accepted : worker.accepts drawable = true) :
    Inv blank (worker.pipesAddDrawable drawable) := by
  intro client member
  rcases List.mem_map.mp member with ⟨old, isOld, rfl⟩
  have isOld : old ∈ worker.clients := isOld
  have synced := (inv old isOld).pipeAddDrawable (Worker.exist_of_accepts accepted)
    (fun uncreated => once ⟨old, isOld, uncreated⟩)
  exact ⟨synced.copies, synced.exist⟩

/-- Every operation that paints once keeps the clients in step. -/
theorem step {op : Op Shape Content} (inv : Inv blank worker) (once : PaintsOnce worker op) :
    Exists fun next => worker.step blank op = some next ∧ Inv blank next := by
  cases op with
  | createSurface id shape data dataIsValid sendClient =>
      simp only [Worker.step]
      cases isThere : worker.surfaces id with
      | some surface => exact ⟨worker, rfl, inv⟩
      | none => exact ⟨_, rfl, inv.createSurface isThere⟩
  | destroySurface id =>
      refine ⟨_, rfl, fun client member => ?_⟩
      rcases List.mem_map.mp member with ⟨old, isOld, rfl⟩
      exact (inv old isOld).destroySurface id
  | draw drawable =>
      simp only [Worker.step]
      cases accepted : worker.accepts drawable with
      | false => exact ⟨worker, rfl, inv⟩
      | true => exact ⟨_, rfl, inv.pipesAddDrawable (once accepted) accepted⟩
  | drawAfter drawable places =>
      simp only [Worker.step]
      cases accepted : worker.accepts drawable with
      | false => exact ⟨worker, rfl, inv⟩
      | true =>
          refine ⟨_, rfl, ?_⟩
          rcases once accepted with ⟨alone, painted⟩
          rw [Worker.pipesAddDrawableAfter, alone, if_neg Bool.false_ne_true]
          exact inv.pipesAddDrawable painted accepted
  | revert drawable places =>
      simp only [Worker.step]
      cases accepted : worker.accepts drawable with
      | false => exact ⟨worker, rfl, inv⟩
      | true =>
          refine ⟨_, rfl, fun client member => ?_⟩
          rw [Worker.revertOnDup, once accepted] at member
          cases member
  | connect =>
      refine ⟨_, rfl, fun client member => ?_⟩
      rcases List.mem_cons.mp member with rfl | isOld
      · have synced := Synced.newClient blank worker
        exact ⟨synced.copies, synced.exist⟩
      · have synced := inv client isOld
        exact ⟨synced.copies, synced.exist⟩
  | restore has =>
      refine ⟨_, rfl, fun client member => ?_⟩
      rcases List.mem_cons.mp member with rfl | isOld
      · have synced := Synced.restoredClient blank worker has
        exact ⟨synced.copies, synced.exist⟩
      · have synced := inv client isOld
        exact ⟨synced.copies, synced.exist⟩
  | send place =>
      refine ⟨_, rfl, fun client member => ?_⟩
      rcases List.mem_iff_getElem?.mp member with ⟨index, isThere⟩
      rw [List.getElem?_modify] at isThere
      rcases Option.map_eq_some_iff.mp isThere with ⟨old, isOld, same⟩
      have synced := inv old (List.mem_of_getElem? isOld)
      split at same
      · subst same
        exact ⟨synced.send.copies, synced.send.exist⟩
      · subst same
        exact ⟨synced.copies, synced.exist⟩

end Inv

def fill : Drawable Bool where
  surfaceId := 1
  surfacesDest := fun _ => none
  paint := fun _ _ => true

end OnDemand
end Spice
