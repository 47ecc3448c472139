import Spice.Lib.Run
import Spice.Lib.Sweep
import Spice.Worker.Tree

namespace Spice
namespace Resend

open Lib
open Spice.Tree (Rect)

/-!
# Replacing rendered drawables by images

`red_add_lossless_drawable_dependencies` and `red_pipe_replace_rendered_drawables_with_images`
of `red_worker.c`.  A drawable that was rendered already and needs areas that the client has
only lossy is sent as an image of its area; drawables in the pipe that were rendered too and
depend on such an area become images as well.  The areas are kept in tables with as many
entries as `MAX_PIPE_SIZE`.

A pipe is the list of its items, the next one to be sent first.  Commands are taken from the
guest as long as the shortest pipe is not longer than `MAX_PIPE_SIZE`.
-/

def maxPipeSize : Nat := 50

/-- A rectangle of a surface. -/
structure Area where
  surfaceId : Int
  rect : Rect
deriving DecidableEq

/-- What is read of a `RedDrawable`; `surfaces_dest` is -1 where there is no surface. -/
structure RedDrawable where
  surfaceId : Int
  bbox : Rect
  isOpaque : Bool
  copyBits : Option (Int × Int)
  surfacesDest : List (Int × Rect)
deriving DecidableEq

def rectIntersects (one two : Rect) : Bool :=
  decide (one.left < two.right ∧ two.left < one.right ∧ one.top < two.bottom ∧ two.top < one.bottom)

namespace RedDrawable

def area (drawable : RedDrawable) : Area where
  surfaceId := drawable.surfaceId
  rect := drawable.bbox

/-- The rectangle that `QXL_COPY_BITS` copies from. -/
def shadowRect (drawable : RedDrawable) (src : Int × Int) : Rect where
  left := src.1
  top := src.2
  right := drawable.bbox.right + (src.1 - drawable.bbox.left)
  bottom := drawable.bbox.bottom + (src.2 - drawable.bbox.top)

/-- `drawable_depends_on_areas` for one area. -/
def dependsOn (drawable : RedDrawable) (area : Area) : Bool :=
  drawable.surfacesDest.any (fun dest => decide (dest.1 = area.surfaceId) && rectIntersects area.rect dest.2) ||
    (decide (area.surfaceId = drawable.surfaceId) &&
      (drawable.copyBits.any (fun src => rectIntersects area.rect (drawable.shadowRect src)) ||
        (!drawable.isOpaque && rectIntersects area.rect drawable.bbox)))

/-- `drawable_intersects_with_areas` for one area. -/
def intersects (drawable : RedDrawable) (area : Area) : Bool :=
  decide (area.surfaceId = drawable.surfaceId) && rectIntersects area.rect drawable.bbox

end RedDrawable

inductive PipeItem
  | draw (id : Nat) (drawable : RedDrawable)
  | image (area : Area)
  | other
deriving DecidableEq

/-- Whether an item is a drawable that was rendered: it is no longer in the list of current ones. -/
def PipeItem.rendered (current : List Nat) : PipeItem -> Option RedDrawable
  | .draw id drawable => if id ∈ current then none else some drawable
  | _ => none

/-- The loop of `red_pipe_replace_rendered_drawables_with_images` with the areas that were resent so far; `none` when
one more does not fit in the tables. -/
def replaceRendered (current : List Nat) : List Area -> List PipeItem -> Option (List PipeItem)
  | _, [] => some []
  | resent, item :: rest =>
      match item.rendered current with
      | none => (replaceRendered current resent rest).map (fun pipe => item :: pipe)
      | some drawable =>
          if resent.any drawable.dependsOn then
            if resent.length < maxPipeSize then
              (replaceRendered current (resent ++ [drawable.area]) rest).map (fun pipe => .image drawable.area :: pipe)
            else none
          else (replaceRendered current resent rest).map (fun pipe => item :: pipe)

/-- `pipe_rendered_drawables_intersect_with_areas` for one area. -/
def pipeRenderedIntersects (current : List Nat) (area : Area) (pipe : List PipeItem) : Bool :=
  pipe.any (fun item => (item.rendered current).any (fun drawable => drawable.intersects area))

/-- A replacement that was made: the pipe before and after, and what had not been rendered. -/
structure Replacement where
  current : List Nat
  first : Area
  before : List PipeItem
  after : List PipeItem
deriving DecidableEq

/-- What is left of the worker here: the pipes of the clients, the drawables that were not rendered yet, and the
replacements. -/
structure RedWorker where
  pipes : List (List PipeItem)
  current : List Nat
  nextId : Nat
  replacements : List Replacement
deriving DecidableEq

def RedWorker.new : RedWorker where
  pipes := []
  current := []
  nextId := 0
  replacements := []

/-- Commands of the guest, rendering, and what happens to the pipe of a client.  A drawable is sent as it is, or with
areas that it needs lossless; `till` is what `red_update_area_till` renders for it. -/
inductive Op
  | connect
  | disconnect (client : Nat)
  | draw (drawable : RedDrawable)
  | render (id : Nat)
  | push (client : Nat) (item : Option Area)
  | drop (client : Nat) (place : Nat)
  | send (client : Nat) (deps : Option (List Area)) (till : List Nat)
deriving DecidableEq

namespace RedWorker

def minPipeSize (worker : RedWorker) : Nat := ((worker.pipes.map List.length).min?).getD 0

/-- The condition of the loop of `red_process_commands`. -/
def takesCommands (worker : RedWorker) : Bool := worker.pipes.isEmpty || decide (worker.minPipeSize ≤ maxPipeSize)

def setPipe (worker : RedWorker) (client : Nat) (pipe : List PipeItem) : RedWorker :=
  { worker with pipes := worker.pipes.set client pipe }

/-- `red_add_lossless_drawable_dependencies` for a drawable that was taken from the pipe. -/
def addLosslessDrawableDependencies (worker : RedWorker) (client id : Nat) (drawable : RedDrawable)
    (rest : List PipeItem)
    (deps : List Area) (till : List Nat) : Option RedWorker :=
  if id ∈ worker.current then
    let pipe := deps.foldl (fun pipe area => .image area :: pipe) (.draw id drawable :: rest)
    some { worker.setPipe client pipe with current := worker.current.filter (fun other => decide (other ∉ till)) }
  else if pipeRenderedIntersects worker.current drawable.area rest then
    match replaceRendered worker.current [drawable.area] rest with
    | none => none
    | some after =>
        let replacement : Replacement :=
          { current := worker.current, first := drawable.area, before := rest, after := after }
        some { worker.setPipe client (.image drawable.area :: after) with
          replacements := replacement :: worker.replacements }
  else some (worker.setPipe client (.image drawable.area :: rest))

def sendItem (worker : RedWorker) (client : Nat) (deps : Option (List Area)) (till : List Nat) :
    List PipeItem -> Option RedWorker
  | [] => some worker
  | .draw id drawable :: rest =>
      match deps with
      | none => some (worker.setPipe client rest)
      | some deps => worker.addLosslessDrawableDependencies client id drawable rest deps till
  | _ :: rest => some (worker.setPipe client rest)

def step (worker : RedWorker) : Op -> Option RedWorker
  | .connect => some { worker with pipes := worker.pipes ++ [[]] }
  | .disconnect client => some { worker with pipes := worker.pipes.eraseIdx client }
  | .draw drawable =>
      if worker.takesCommands then
        some { worker with
          pipes := worker.pipes.map (fun pipe => pipe ++ [.draw worker.nextId drawable])
          current := worker.nextId :: worker.current
          nextId := worker.nextId + 1 }
      else some worker
  | .render id => some { worker with current := worker.current.filter (fun other => decide (other ≠ id)) }
  | .push client item =>
      some (worker.setPipe client (worker.pipes.getD client [] ++ [item.elim .other .image]))
  | .drop client place => some (worker.setPipe client ((worker.pipes.getD client []).eraseIdx place))
  | .send client deps till => worker.sendItem client deps till (worker.pipes.getD client [])

end RedWorker

/-! ## What a replacement may leave -/

/-- No drawable that was rendered and is left depends on the area that is resent first, or on one that was resent in the
place of a drawable before it. -/
def Replacement.Sound (replacement : Replacement) : Prop :=
  forall (index : Nat) item drawable, replacement.after[index]? = some item ->
    item.rendered replacement.current = some drawable ->
    drawable.dependsOn replacement.first = false ∧
      forall (older : Nat) source other, older < index -> replacement.before[older]? = some source ->
        source.rendered replacement.current = some other -> replacement.after[older]? = some (.image other.area) ->
        drawable.dependsOn other.area = false

/-- All replacements that were made are sound. -/
def Sound (worker : RedWorker) : Prop :=
  forall replacement, replacement ∈ worker.replacements -> replacement.Sound

def dependsRendered (current : List Nat) (item : PipeItem) (area : Area) : Bool :=
  (item.rendered current).any (fun drawable => drawable.dependsOn area)

def PipeItem.area : PipeItem -> Area
  | .draw _ drawable => drawable.area
  | .image area => area
  | .other => ⟨0, ⟨0, 0, 0, 0⟩⟩

/-- The areas of a replacement fit in the tables: fewer than `MAX_PIPE_SIZE` rendered drawables of the pipe are reached
from the first area along dependencies on drawables before them. -/
def Fits (worker : RedWorker) : Op -> Prop
  | .send client deps _ =>
      forall id drawable rest, worker.pipes.getD client [] = .draw id drawable :: rest -> deps.isSome = true ->
        id ∉ worker.current -> pipeRenderedIntersects worker.current drawable.area rest = true ->
        ReachesAtMost (dependsRendered worker.current) PipeItem.area [drawable.area] rest (maxPipeSize - 1)
  | _ => True

section Replace

variable {current : List Nat}

theorem PipeItem.area_of_rendered {item : PipeItem} {drawable : RedDrawable}
    (isRendered : item.rendered current = some drawable) :
    item.area = drawable.area := by
  cases item with
  | draw id other =>
      unfold PipeItem.rendered at isRendered
      dsimp only at isRendered
      split at isRendered
      · cases isRendered
      · cases isRendered
        rfl
  | image area => cases isRendered
  | other => cases isRendered

theorem dependsRendered_of_none {item : PipeItem} (notRendered : item.rendered current = none) (resent : List Area) :
    resent.any (dependsRendered current item) = false := by
  rw [List.any_eq_false]
  intro area _
  unfold dependsRendered
  rw [notRendered]
  exact Bool.false_ne_true

theorem dependsRendered_of_some {item : PipeItem} {drawable : RedDrawable}
    (isRendered : item.rendered current = some drawable)
    (resent : List Area) : resent.any (dependsRendered current item) = resent.any drawable.dependsOn := by
  have same : dependsRendered current item = drawable.dependsOn := by
    funext area
    unfold dependsRendered
    rw [isRendered]
    rfl
  rw [same]

/-- Areas that fit replace what was rendered. -/
theorem replaceRendered_isSome (resent : List Area) (fits : resent.length ≤ maxPipeSize) (start : Nat)
    (pipe : List PipeItem) :
    (replaceRendered current resent pipe).isSome = true <->
      resent.length + (marked (dependsRendered current) PipeItem.area resent start pipe).length ≤ maxPipeSize := by
  induction pipe generalizing resent start with
  | nil => exact ⟨fun _ => fits, fun _ => rfl⟩
  | cons item rest ih =>
      unfold replaceRendered marked
      cases isRendered : item.rendered current with
      | none =>
          rw [if_neg (ne_true_of_eq_false (dependsRendered_of_none isRendered resent))]
          dsimp only
          rw [Option.isSome_map]
          exact ih resent fits (start + 1)
      | some drawable =>
          rw [dependsRendered_of_some isRendered resent, PipeItem.area_of_rendered isRendered]
          dsimp only
          by_cases depends : resent.any drawable.dependsOn = true
          · rw [if_pos depends, if_pos depends, List.length_cons]
            by_cases room : resent.length < maxPipeSize
            · have grown : (resent ++ [drawable.area]).length = resent.length + 1 := List.length_append
              have rest := ih (resent ++ [drawable.area]) (by omega) (start + 1)
              rw [grown] at rest
              rw [if_pos room, Option.isSome_map, rest]
              omega
            · rw [if_neg room]
              exact ⟨fun impossible => (by cases impossible), fun short => absurd short (by omega)⟩
          · rw [if_neg depends, if_neg depends, Option.isSome_map]
            exact ih resent fits (start + 1)

/-- What is left does not depend on what was resent before it. -/
theorem replaceRendered_sound {resent : List Area} {before after : List PipeItem}
    (replaced : replaceRendered current resent before = some after) :
    forall (index : Nat) item drawable, after[index]? = some item -> item.rendered current = some drawable ->
      (forall area, area ∈ resent -> drawable.dependsOn area = false) ∧
        forall (older : Nat) source other, older < index -> before[older]? = some source ->
          source.rendered current = some other -> after[older]? = some (.image other.area) ->
          drawable.dependsOn other.area = false := by
  induction before generalizing resent after with
  | nil =>
      cases replaced
      intro index item drawable impossible
      cases impossible
  | cons head rest ih =>
      -- a head that is kept is no image in the place of a drawable
      have kept (tail : List PipeItem) (isTail : replaceRendered current resent rest = some tail)
          (isAfter : head :: tail = after)
          (independent : forall drawable, head.rendered current = some drawable ->
            resent.any drawable.dependsOn = false) :
          forall (index : Nat) item drawable, after[index]? = some item -> item.rendered current = some drawable ->
            (forall area, area ∈ resent -> drawable.dependsOn area = false) ∧
              forall (older : Nat) source other, older < index -> (head :: rest)[older]? = some source ->
                source.rendered current = some other -> after[older]? = some (.image other.area) ->
                drawable.dependsOn other.area = false := by
        intro index item drawable isItem isRendered
        rw [<- isAfter] at isItem
        cases index with
        | zero =>
            cases isItem
            have none := List.any_eq_false.mp (independent drawable isRendered)
            exact ⟨fun area member => eq_false_of_ne_true (none area member), fun older source other impossible =>
              absurd impossible (Nat.not_lt_zero _)⟩
        | succ index =>
            rw [List.getElem?_cons_succ] at isItem
            rcases ih isTail index item drawable isItem isRendered with ⟨first, later⟩
            refine ⟨first, fun older source other less isSource isOther isImage => ?_⟩
            rw [<- isAfter] at isImage
            cases older with
            | zero =>
                cases isSource
                cases isImage
                cases isOther
            | succ older =>
                rw [List.getElem?_cons_succ] at isSource isImage
                exact later older source other (Nat.lt_of_succ_lt_succ less) isSource isOther isImage
      unfold replaceRendered at replaced
      cases headRendered : head.rendered current with
      | none =>
          rw [headRendered] at replaced
          rcases Option.map_eq_some_iff.mp replaced with ⟨tail, isTail, isAfter⟩
          exact kept tail isTail isAfter
            (fun drawable impossible => by rw [headRendered] at impossible; cases impossible)
      | some source =>
          rw [headRendered] at replaced
          dsimp only at replaced
          by_cases depends : resent.any source.dependsOn = true
          · rw [if_pos depends] at replaced
            split at replaced
            · rcases Option.map_eq_some_iff.mp replaced with ⟨tail, isTail, isAfter⟩
              intro index item drawable isItem isRendered
              rw [<- isAfter] at isItem
              cases index with
              | zero =>
                  cases isItem
                  cases isRendered
              | succ index =>
                  rw [List.getElem?_cons_succ] at isItem
                  rcases ih isTail index item drawable isItem isRendered with ⟨first, later⟩
                  refine ⟨fun area member => first area (List.mem_append_left _ member), ?_⟩
                  intro older found replacedDrawable less isSource isOther isImage
                  rw [<- isAfter] at isImage
                  cases older with
                  | zero =>
                      cases isSource
                      rw [headRendered] at isOther
                      cases isOther
                      exact first source.area (List.mem_append_right _ List.mem_cons_self)
                  | succ older =>
                      rw [List.getElem?_cons_succ] at isSource isImage
                      exact later older found replacedDrawable (Nat.lt_of_succ_lt_succ less) isSource isOther isImage
            · cases replaced
          · rw [if_neg depends] at replaced
            rcases Option.map_eq_some_iff.mp replaced with ⟨tail, isTail, isAfter⟩
            refine kept tail isTail isAfter (fun drawable isDrawable => ?_)
            rw [headRendered] at isDrawable
            cases isDrawable
            exact eq_false_of_ne_true depends

end Replace

/-! ## Runs -/

theorem RedWorker.addLosslessDrawableDependencies_keeps {worker : RedWorker} (sound : Sound worker) (client id : Nat)
    (drawable : RedDrawable) (rest : List PipeItem) (deps : List Area) (till : List Nat) :
    match worker.addLosslessDrawableDependencies client id drawable rest deps till with
    | none => id ∉ worker.current ∧ pipeRenderedIntersects worker.current drawable.area rest = true ∧
        ¬ ReachesAtMost (dependsRendered worker.current) PipeItem.area [drawable.area] rest (maxPipeSize - 1)
    | some next =>
        Sound next ∧ (id ∉ worker.current -> pipeRenderedIntersects worker.current drawable.area rest = true ->
        ReachesAtMost (dependsRendered worker.current) PipeItem.area [drawable.area] rest (maxPipeSize - 1)) := by
  have enough := @replaceRendered_isSome worker.current [drawable.area] (Nat.succ_le_of_lt (Nat.succ_pos _)) 0 rest
  rw [List.length_singleton] at enough
  have room : ReachesAtMost (dependsRendered worker.current) PipeItem.area [drawable.area] rest (maxPipeSize - 1) <->
      (replaceRendered worker.current [drawable.area] rest).isSome = true := by
    rw [reachesAtMost_iff, enough]
    have size : maxPipeSize = 50 := rfl
    omega
  unfold RedWorker.addLosslessDrawableDependencies
  by_cases waits : id ∈ worker.current
  · rw [if_pos waits]
    exact ⟨sound, fun rendered => absurd waits rendered⟩
  · rw [if_neg waits]
    cases meets : pipeRenderedIntersects worker.current drawable.area rest with
    | false =>
        rw [if_neg Bool.false_ne_true]
        exact ⟨sound, fun _ impossible => by cases impossible⟩
    | true =>
        rw [if_pos rfl]
        cases replaced : replaceRendered worker.current [drawable.area] rest with
        | none =>
            refine ⟨waits, rfl, fun most => ?_⟩
            have impossible := room.mp most
            rw [replaced] at impossible
            cases impossible
        | some after =>
            refine ⟨?_, fun _ _ => room.mpr (by rw [replaced]; rfl)⟩
            intro replacement member
            rcases List.mem_cons.mp member with isNew | isOld
            · rw [isNew]
              intro index item left isItem isRendered
              rcases replaceRendered_sound replaced index item left isItem isRendered with ⟨first, later⟩
              exact ⟨first _ List.mem_cons_self, later⟩
            · exact sound replacement isOld

/-- An item is sent, with what it depends on before it. -/
theorem RedWorker.sendItem_spec {worker : RedWorker} (sound : Sound worker) (client : Nat) (deps : Option (List Area))
    (till : List Nat) {pipe : List PipeItem} (isPipe : worker.pipes.getD client [] = pipe) :
    match worker.sendItem client deps till pipe with
    | none => ¬ Fits worker (.send client deps till)
    | some next => Sound next ∧ Fits worker (.send client deps till) := by
  -- there is nothing to fit unless a drawable comes next
  have nothing (noDraw : forall id drawable rest, pipe ≠ .draw id drawable :: rest) :
      Fits worker (.send client deps till) :=
    fun id drawable rest isSame => absurd (isPipe.symm.trans isSame) (noDraw id drawable rest)
  cases pipe with
  | nil => exact ⟨sound, nothing (fun _ _ _ impossible => by cases impossible)⟩
  | cons item rest =>
      cases item with
      | image area => exact ⟨sound, nothing (fun _ _ _ impossible => by cases impossible)⟩
      | other => exact ⟨sound, nothing (fun _ _ _ impossible => by cases impossible)⟩
      | draw id drawable =>
          cases deps with
          | none => exact ⟨sound, fun _ _ _ _ impossible => by cases impossible⟩
          | some deps =>
              have keeps := RedWorker.addLosslessDrawableDependencies_keeps sound client id drawable rest deps till
              unfold RedWorker.sendItem
              dsimp only
              cases next : worker.addLosslessDrawableDependencies client id drawable rest deps till with
              | none =>
                  rw [next] at keeps
                  exact fun fits => keeps.2.2 (fits id drawable rest isPipe rfl keeps.1 keeps.2.1)
              | some after =>
                  rw [next] at keeps
                  refine ⟨keeps.1, fun _ _ _ isSame _ rendered intersects => ?_⟩
                  cases isPipe.symm.trans isSame
                  exact keeps.2 rendered intersects

/-- A step fails exactly when what it sends does not fit. -/
theorem step_spec {worker : RedWorker} (sound : Sound worker) (op : Op) :
    match worker.step op with
    | none => ¬ Fits worker op
    | some next => Sound next ∧ Fits worker op := by
  cases op with
  | connect => exact ⟨sound, trivial⟩
  | disconnect client => exact ⟨sound, trivial⟩
  | draw drawable =>
      unfold RedWorker.step
      dsimp only
      by_cases takes : worker.takesCommands = true
      · rw [if_pos takes]
        exact ⟨sound, trivial⟩
      · rw [if_neg takes]
        exact ⟨sound, trivial⟩
  | render id => exact ⟨sound, trivial⟩
  | push client item => exact ⟨sound, trivial⟩
  | drop client place => exact ⟨sound, trivial⟩
  | send client deps till => exact RedWorker.sendItem_spec sound client deps till rfl

/-- Exactly when a run replaces drawables without leaving the tables; what it leaves in the pipes then never depends on
what was resent before it. -/
theorem replacements_contained (ops : List Op) : AllStates RedWorker.step (fun _ worker => Sound worker) [] .new ops <->
      Meets RedWorker.step (fun _ worker op => Fits worker op) [] .new ops := by
  have start : Sound .new := fun replacement impossible => by cases impossible
  have keep (past : List Op) (worker : RedWorker) (op : Op) (sound : Sound worker) (_ : True) (fits : Fits worker op) :
      Exists fun next => worker.step op = some next ∧ Sound next := by
    have spec := step_spec sound op
    cases stepped : worker.step op with
    | none =>
        rw [stepped] at spec
        exact absurd fits spec
    | some next =>
        rw [stepped] at spec
        exact ⟨next, rfl, spec.1⟩
  have needed (past : List Op) (worker : RedWorker) (op : Op) (next : RedWorker) (sound : Sound worker) (_ : True)
      (stepped : worker.step op = some next) (_ : Sound next) : Fits worker op := by
    have spec := step_spec sound op
    rw [stepped] at spec
    exact spec.2
  exact allStates_iff_meets (fun _ _ sound => sound) keep needed ops [] .new start (fun _ _ _ _ => trivial)

/-- A drawable that draws over what is there, on a rectangle of the first surface. -/
def blended : RedDrawable where
  surfaceId := 0
  bbox := { left := 0, top := 0, right := 8, bottom := 8 }
  isOpaque := false
  copyBits := none
  surfacesDest := [(-1, ⟨0, 0, 0, 0⟩), (-1, ⟨0, 0, 0, 0⟩), (-1, ⟨0, 0, 0, 0⟩)]

/-- Commands for one client, until its pipe is longer than what is allowed; then all are rendered, and the first one
needs its area lossless. -/
def oneClient : List Op :=
  .connect :: List.replicate 51 (.draw blended) ++ (List.range 51).map .render ++ [.send 0 (some [blended.area]) []]

/-- The same with a client that keeps up, and one that does not. -/
def twoClients : List Op :=
  .connect :: .connect :: (List.replicate 60 [.draw blended, .send 0 none []]).flatten ++ (List.range 60).map .render ++
    [.send 1 (some [blended.area]) []]

/-- The tables are left with one client, and with a client that is slower than another. -/
theorem replacements_escape : Not (AllStates RedWorker.step (fun _ worker => Sound worker) [] .new oneClient) ∧
    Not (AllStates RedWorker.step (fun _ worker => Sound worker) [] .new twoClients) := by
  have one : run RedWorker.step .new oneClient = none := by decide +kernel
  have two : run RedWorker.step .new twoClients = none := by decide +kernel
  constructor
  · intro all
    rcases all oneClient (List.prefix_refl _) with ⟨worker, ran, _⟩
    rw [one] at ran
    cases ran
  · intro all
    rcases all twoClients (List.prefix_refl _) with ⟨worker, ran, _⟩
    rw [two] at ran
    cases ran

end Resend
end Spice
