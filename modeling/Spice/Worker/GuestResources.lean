import Spice.Lib.Run
import Mathlib.Algebra.BigOperators.Group.Finset.Basic
import Mathlib.Algebra.BigOperators.Ring.Finset
import Mathlib.Algebra.Order.BigOperators.Group.Finset
import Mathlib.Logic.Function.Basic

namespace Spice
namespace Resources

open Lib

/-!
# Resources of the guest

The commands of the two rings lie in memory of the guest, which gets it back when
the worker passes the release info of the command to `release_resource`.  Until
then the command may be used by a drawable and what the image compression keeps of
it, by a cursor that is shown or queued, or by a surface, which keeps the release
infos of the commands that created and destroyed it.

Commands are numbered as they are fetched.  Who holds a drawable (the current
tree, pipe items, streams, upgrades) is a list, which grows and shrinks at any
time, also while a command is processed.

The parser takes surface and cursor commands of any type.  The worker reports the
types it does not know with `spice_error`, and `aborts` is whether that ends the
server, as it does unless the abort level is lowered.
-/

/-- `RedSurface`, with the commands behind `create` and `destroy`. -/
structure RedSurface where
  canvas : Bool
  refs : Nat
  create : Option Nat
  destroy : Option Nat

/-- `RedWorker`.  The counts of references are by command, none for what is freed. -/
structure RedWorker where
  nSurfaces : Nat
  surfaces : Nat -> RedSurface
  /-- `RedDrawable.refs`. -/
  redDrawables : Nat -> Nat
  /-- `Drawable.refs`, and the surfaces of the drawable. -/
  drawables : Nat -> Nat
  target : Nat -> Nat
  surfacesDest : Nat -> Fin 3 -> Option Nat
  /-- `CursorItem.refs`. -/
  cursorItems : Nat -> Nat
  freeCursorItems : Nat
  cursor : Option Nat
  /-- Who holds a drawable, a `RedGlzDrawable`, a `CursorPipeItem`. -/
  holders : List Nat
  glzDrawables : List Nat
  cursorPipeItems : List Nat
  /-- The command that `red_process_drawable` is working on. -/
  processing : Option Nat
  fetched : Nat
  released : List Nat

inductive CursorType
  | set
  | move
  | hide
  | trail
  | unknown
deriving DecidableEq

def numCursors : Nat := 100

/-- `--refs`. -/
def countDown (refs : Nat) : Nat := if refs = 0 then 2 ^ 32 - 1 else refs - 1

namespace RedWorker

variable (worker : RedWorker)

def releaseResource (command : Nat) : RedWorker := { worker with released := command :: worker.released }

def releaseInfo (info : Option Nat) : RedWorker :=
  match info with
  | none => worker
  | some command => worker.releaseResource command

def validateSurface (id : Nat) : Bool := decide (id < worker.nSurfaces) && (worker.surfaces id).canvas

def setSurface (id : Nat) (surface : RedSurface) : RedWorker :=
  { worker with surfaces := Function.update worker.surfaces id surface }

/-- `red_destroy_surface`; nothing when its assertion fails. -/
def redDestroySurface (id : Nat) : Option RedWorker :=
  let surface := worker.surfaces id
  let counted := { surface with refs := countDown surface.refs }
  if counted.refs = 0 then
    if surface.canvas then
      some (((worker.releaseInfo surface.create).releaseInfo surface.destroy).setSurface id
        { counted with canvas := false })
    else none
  else some (worker.setSurface id counted)

def putRedDrawable (command : Nat) : RedWorker :=
  let refs := countDown (worker.redDrawables command)
  let counted := { worker with redDrawables := Function.update worker.redDrawables command refs }
  if refs = 0 then counted.releaseResource command else counted

/-- The source in one place, in `red_dec_surfaces_drawable_dependencies`. -/
def decSource (command : Nat) (place : Fin 3) : Option RedWorker :=
  match worker.surfacesDest command place with
  | none => some worker
  | some source => worker.redDestroySurface source

def freeDrawable (command : Nat) : Option RedWorker :=
  (worker.decSource command 0).bind (fun worker =>
    (worker.decSource command 1).bind (fun worker =>
      (worker.decSource command 2).bind (fun worker =>
        (worker.redDestroySurface (worker.target command)).map (fun worker => worker.putRedDrawable command))))

def releaseDrawable (command : Nat) : Option RedWorker :=
  let refs := countDown (worker.drawables command)
  let counted := { worker with drawables := Function.update worker.drawables command refs }
  if refs = 0 then counted.freeDrawable command else some counted

def redReleaseCursor (command : Nat) : RedWorker :=
  let refs := countDown (worker.cursorItems command)
  let counted := { worker with cursorItems := Function.update worker.cursorItems command refs }
  if refs = 0 then { counted.releaseResource command with freeCursorItems := worker.freeCursorItems + 1 } else counted

/-- The reference of `worker->cursor`. -/
def releaseShown : RedWorker :=
  match worker.cursor with
  | none => worker
  | some shown => { worker.redReleaseCursor shown with cursor := none }

def redSetCursor (command : Nat) : RedWorker :=
  let worker := worker.releaseShown
  { worker with
    cursorItems := Function.update worker.cursorItems command (worker.cursorItems command + 1)
    cursor := some command }

/-- `new_cursor_pipe_item`, for each client. -/
def newCursorPipeItems (command count : Nat) : RedWorker :=
  { worker with
    cursorItems := Function.update worker.cursorItems command (worker.cursorItems command + count)
    cursorPipeItems := List.replicate count command ++ worker.cursorPipeItems }

/-- `qxl_process_cursor`.  Without a free item the pointer is NULL. -/
def qxlProcessCursor (aborts : Bool) (type : CursorType) (clients : Nat) : Option RedWorker :=
  let command := worker.fetched
  if worker.freeCursorItems = 0 then none
  else if type = .unknown ∧ aborts then none
  else
    let worker := { worker with
      fetched := worker.fetched + 1
      freeCursorItems := worker.freeCursorItems - 1
      cursorItems := Function.update worker.cursorItems command 1 }
    let worker := if type = .set then worker.redSetCursor command else worker
    some ((worker.newCursorPipeItems command clients).redReleaseCursor command)

/-- A surface that a drawable refers to gets a reference. -/
def incSurface (id : Nat) : RedWorker :=
  worker.setSurface id { worker.surfaces id with refs := (worker.surfaces id).refs + 1 }

/-- The source in one place, in `red_inc_surfaces_drawable_dependencies`. -/
def incSource (command : Nat) (place : Fin 3) : RedWorker :=
  match worker.surfacesDest command place with
  | none => worker
  | some source => worker.incSurface source

/-- `VALIDATE_SURFACE_RETVAL` of the source in one place. -/
def validateSource (surfacesDest : Fin 3 -> Option Nat) (place : Fin 3) : Bool :=
  match surfacesDest place with
  | none => true
  | some source => worker.validateSurface source

/-- `get_drawable` accepts the command. -/
def accepts (surfaceId : Nat) (surfacesDest : Fin 3 -> Option Nat) (validBox : Bool) : Bool :=
  worker.validateSurface surfaceId && validBox && worker.validateSource surfacesDest 0 &&
    worker.validateSource surfacesDest 1 && worker.validateSource surfacesDest 2

/-- `QXL_CMD_DRAW` up to the current tree.  When there is no drawable, the command is
done. -/
def beginDraw (surfaceId : Nat) (surfacesDest : Fin 3 -> Option Nat) (validBox : Bool) : RedWorker :=
  let command := worker.fetched
  let accepted := worker.accepts surfaceId surfacesDest validBox
  let worker := { worker with
    fetched := worker.fetched + 1
    redDrawables := Function.update worker.redDrawables command 1 }
  if accepted then
    let worker := { worker with
      redDrawables := Function.update worker.redDrawables command 2
      drawables := Function.update worker.drawables command 1
      target := Function.update worker.target command surfaceId
      surfacesDest := Function.update worker.surfacesDest command surfacesDest
      processing := some command }
    (((worker.incSurface surfaceId).incSource command 0).incSource command 1).incSource command 2
  else worker.putRedDrawable command

def update (surfaceId : Nat) : RedWorker :=
  let command := worker.fetched
  let valid := worker.validateSurface surfaceId
  let worker := { worker with fetched := worker.fetched + 1 }
  if valid then worker.releaseResource command else worker

def message : RedWorker :=
  { worker with fetched := worker.fetched + 1 }.releaseResource worker.fetched

/-- `red_process_surface`, `QXL_SURFACE_CMD_CREATE`. -/
def createSurface (id : Nat) : RedWorker :=
  let command := worker.fetched
  let worker := { worker with fetched := worker.fetched + 1 }
  if id ≥ worker.nSurfaces then worker
  else if (worker.surfaces id).refs ≠ 0 then worker
  else worker.setSurface id { canvas := true, refs := 1, create := some command, destroy := none }

def dropHolder (command : Nat) : Option RedWorker :=
  if command ∈ worker.holders then
    { worker with holders := worker.holders.erase command }.releaseDrawable command
  else none

/-- `red_current_clear` and `red_clear_surface_drawables_from_pipes` drop some holders. -/
def dropHolders : RedWorker -> List Nat -> Option RedWorker
  | worker, [] => some worker
  | worker, command :: rest => (worker.dropHolder command).bind (fun worker => dropHolders worker rest)

/-- `red_process_surface`, `QXL_SURFACE_CMD_DESTROY`. -/
def destroySurface (id : Nat) (dropped : List Nat) : Option RedWorker :=
  let command := worker.fetched
  let worker := { worker with fetched := worker.fetched + 1 }
  if id ≥ worker.nSurfaces then some worker
  else if (worker.surfaces id).refs = 0 then some worker
  else
    let worker := worker.setSurface id { worker.surfaces id with destroy := some command }
    (worker.dropHolders dropped).bind (fun worker => worker.redDestroySurface id)

/-- `red_process_surface` of another type. -/
def unknownSurface (aborts : Bool) (id : Nat) : Option RedWorker :=
  if id < worker.nSurfaces ∧ aborts then none else some { worker with fetched := worker.fetched + 1 }

end RedWorker

/-- A command of a ring (`draw` to `cursor`), or what happens to the things that use one. -/
inductive Op
  | draw (surfaceId : Nat) (surfacesDest : Fin 3 -> Option Nat) (validBox : Bool)
  | finishDraw
  | update (surfaceId : Nat)
  | message
  | createSurface (id : Nat)
  | destroySurface (id : Nat) (dropped : List Nat)
  | unknownSurface (id : Nat)
  | cursor (type : CursorType) (clients : Nat)
  | hold (command : Nat)
  | drop (command : Nat)
  | holdGlz (command : Nat)
  | dropGlz (command : Nat)
  | putCursorPipeItem (command : Nat)
  | resetCursor

namespace RedWorker

/-- A command is fetched only when the one before is done. -/
def idle (worker next : RedWorker) : Option RedWorker := if worker.processing = none then some next else none

def step (aborts : Bool) (worker : RedWorker) : Op -> Option RedWorker
  | .draw surfaceId surfacesDest validBox => worker.idle (worker.beginDraw surfaceId surfacesDest validBox)
  | .finishDraw =>
      match worker.processing with
      | none => none
      | some command =>
          (RedWorker.releaseDrawable { worker with processing := none } command).map
            (fun worker => worker.putRedDrawable command)
  | .update surfaceId => worker.idle (worker.update surfaceId)
  | .message => worker.idle worker.message
  | .createSurface id => worker.idle (worker.createSurface id)
  | .destroySurface id dropped => (worker.idle worker).bind (fun worker => worker.destroySurface id dropped)
  | .unknownSurface id => (worker.idle worker).bind (fun worker => worker.unknownSurface aborts id)
  | .cursor type clients => (worker.idle worker).bind (fun worker => worker.qxlProcessCursor aborts type clients)
  | .hold command =>
      if worker.drawables command = 0 then none
      else
        some { worker with
          drawables := Function.update worker.drawables command (worker.drawables command + 1)
          holders := command :: worker.holders }
  | .drop command => worker.dropHolder command
  | .holdGlz command =>
      if worker.drawables command = 0 then none
      else
        some { worker with
          redDrawables := Function.update worker.redDrawables command (worker.redDrawables command + 1)
          glzDrawables := command :: worker.glzDrawables }
  | .dropGlz command =>
      if command ∈ worker.glzDrawables then
        some ({ worker with glzDrawables := worker.glzDrawables.erase command }.putRedDrawable command)
      else none
  | .putCursorPipeItem command =>
      if command ∈ worker.cursorPipeItems then
        some ({ worker with cursorPipeItems := worker.cursorPipeItems.erase command }.redReleaseCursor command)
      else none
  | .resetCursor => some worker.releaseShown

/-- A worker with room for some surfaces.  The device has created the first ones, of
which the guest has sent no command. -/
def init (nSurfaces devices : Nat) : RedWorker where
  nSurfaces := nSurfaces
  surfaces := fun id =>
    let present := decide (id < devices ∧ id < nSurfaces)
    { canvas := present, refs := present.toNat, create := none, destroy := none }
  redDrawables := fun _ => 0
  drawables := fun _ => 0
  target := fun _ => 0
  surfacesDest := fun _ _ => none
  cursorItems := fun _ => 0
  freeCursorItems := numCursors
  cursor := none
  holders := []
  glzDrawables := []
  cursorPipeItems := []
  processing := none
  fetched := 0
  released := []

end RedWorker

/-- A command is used by the drawable being processed or held, by what the compression
keeps, by a cursor that is shown or queued, or by a surface. -/
def InUse (worker : RedWorker) (command : Nat) : Prop :=
  worker.processing = some command ∨ command ∈ worker.holders ∨ command ∈ worker.glzDrawables ∨
    worker.cursor = some command ∨ command ∈ worker.cursorPipeItems ∨
    Exists fun id => (worker.surfaces id).canvas = true ∧
      ((worker.surfaces id).create = some command ∨ (worker.surfaces id).destroy = some command)

/-- A command that was fetched is released once when it is not used any more, and not before. -/
def ReleasedOnce (worker : RedWorker) : Prop :=
  forall command, command < worker.fetched ->
    (InUse worker command -> worker.released.count command = 0) ∧
      (Not (InUse worker command) -> worker.released.count command = 1)

/-- The commands that name a surface name one that fits them, the surface and cursor commands have a known type, and a
cursor command finds a free item. -/
def Known (worker : RedWorker) : Op -> Prop
  | .update surfaceId => worker.validateSurface surfaceId = true
  | .createSurface id => id < worker.nSurfaces ∧ (worker.surfaces id).refs = 0
  | .destroySurface id _ => worker.validateSurface id = true ∧ (worker.surfaces id).destroy = none
  | .unknownSurface _ => False
  | .cursor type _ => type ≠ .unknown ∧ worker.freeCursorItems ≠ 0
  | _ => True

/-- The release infos that a surface with a canvas keeps of a command. -/
def RedSurface.owns (surface : RedSurface) (command : Nat) : Nat :=
  if surface.canvas then
    (if surface.create = some command then 1 else 0) + if surface.destroy = some command then 1 else 0
  else 0

namespace RedWorker

/-- How often the surfaces keep a command. -/
def owned (worker : RedWorker) (command : Nat) : Nat :=
  Finset.sum (Finset.range worker.nSurfaces) (fun id => (worker.surfaces id).owns command)

/-- A command is released, or in a drawable, a cursor or a surface. -/
def ledger (worker : RedWorker) (command : Nat) : Nat :=
  worker.released.count command + min (worker.redDrawables command) 1 + min (worker.cursorItems command) 1 +
    worker.owned command

variable {worker next : RedWorker} {id command : Nat} {surface : RedSurface}

theorem ledger_setSurface_same (same : surface.owns command = (worker.surfaces id).owns command) :
    (worker.setSurface id surface).ledger command = worker.ledger command := by
  have owned : (worker.setSurface id surface).owned command = worker.owned command := by
    apply Finset.sum_congr rfl
    intro other _
    simp only [setSurface]
    by_cases isIt : other = id
    · rw [isIt, Function.update_self, same]
    · rw [Function.update_of_ne isIt]
  exact congrArg (fun count => worker.released.count command + min (worker.redDrawables command) 1 +
    min (worker.cursorItems command) 1 + count) owned

/-- A change of a surface moves what the surfaces own. -/
theorem ledger_setSurface (inside : id < worker.nSurfaces) (surface : RedSurface) (command : Nat) :
    (worker.setSurface id surface).ledger command + (worker.surfaces id).owns command =
      worker.ledger command + surface.owns command := by
  have member : id ∈ Finset.range worker.nSurfaces := Finset.mem_range.mpr inside
  have others : Finset.sum ((Finset.range worker.nSurfaces).erase id)
        (fun other => (Function.update worker.surfaces id surface other).owns command) =
      Finset.sum ((Finset.range worker.nSurfaces).erase id) (fun other => (worker.surfaces other).owns command) := by
    apply Finset.sum_congr rfl
    intro other isOther
    rw [Function.update_of_ne (Finset.ne_of_mem_erase isOther)]
  have before := Finset.sum_erase_add _ (fun other => (worker.surfaces other).owns command) member
  have after := Finset.sum_erase_add _
    (fun other => (Function.update worker.surfaces id surface other).owns command) member
  rw [others, Function.update_self] at after
  simp only [ledger, owned, setSurface]
  omega

theorem ledger_released (worker : RedWorker) (released : List Nat) (command : Nat) :
    { worker with released := released }.ledger command + worker.released.count command =
      worker.ledger command + released.count command := by
  simp only [ledger, owned]
  omega

/-- Only surfaces that exist have canvases, and they have references. -/
def Within (worker : RedWorker) : Prop :=
  forall id, (worker.surfaces id).canvas = true -> id < worker.nSurfaces ∧ 0 < (worker.surfaces id).refs

theorem within_setSurface (within : Within worker)
    (stays : surface.canvas = true -> id < worker.nSurfaces ∧ 0 < surface.refs) :
    Within (worker.setSurface id surface) := by
  intro other
  simp only [setSurface]
  by_cases same : other = id
  · rw [same, Function.update_self]
    exact stays
  · rw [Function.update_of_ne same]
    exact within other

end RedWorker

/-- Surfaces may be freed, and nothing is lost. -/
structure Settles (worker next : RedWorker) : Prop where
  rest : next = { worker with surfaces := next.surfaces, released := next.released }
  ledger : forall command, next.ledger command = worker.ledger command
  within : RedWorker.Within next

namespace Settles

variable {worker next : RedWorker} {id : Nat}

theorem refl (within : RedWorker.Within worker) : Settles worker worker := ⟨rfl, fun _ => rfl, within⟩

/-- Release infos are passed back. -/
theorem releaseInfos (worker : RedWorker) (create destroy : Option Nat) :
    Exists fun released => (worker.releaseInfo create).releaseInfo destroy = { worker with released := released } ∧
      forall command, released.count command = worker.released.count command +
        ((if create = some command then 1 else 0) + if destroy = some command then 1 else 0) := by
  cases create with
  | none =>
      cases destroy with
      | none => exact ⟨worker.released, rfl, fun _ => rfl⟩
      | some second =>
          refine ⟨second :: worker.released, rfl, fun command => ?_⟩
          simp [List.count_cons]
  | some first =>
      cases destroy with
      | none =>
          refine ⟨first :: worker.released, rfl, fun command => ?_⟩
          simp [List.count_cons]
      | some second =>
          refine ⟨second :: first :: worker.released, rfl, fun command => ?_⟩
          simp only [List.count_cons, beq_iff_eq, Option.some.injEq, Nat.add_assoc]

/-- A surface passes its commands back with its last reference. -/
theorem redDestroySurface (within : RedWorker.Within worker) (done : worker.redDestroySurface id = some next) :
    Settles worker next := by
  simp only [RedWorker.redDestroySurface] at done
  split at done
  · split at done
    · next isZero isCanvas =>
        have inside := (within id isCanvas).1
        rcases releaseInfos worker (worker.surfaces id).create (worker.surfaces id).destroy with
          ⟨released, isReleased, counts⟩
        rw [isReleased] at done
        cases done
        refine ⟨rfl, fun command => ?_, ?_⟩
        · have surfaces := @RedWorker.ledger_setSurface { worker with released := released } id inside
            (RedSurface.mk false (countDown (worker.surfaces id).refs) (worker.surfaces id).create
              (worker.surfaces id).destroy) command
          have history := worker.ledger_released released command
          have counted := counts command
          simp only [RedSurface.owns, isCanvas, if_true, Bool.false_eq_true, if_false] at surfaces
          omega
        · apply @RedWorker.within_setSurface { worker with released := released } id _ within
          intro isCanvas
          cases isCanvas
    · cases done
  · next counted =>
      cases done
      refine ⟨rfl, fun command => ?_, ?_⟩
      · apply RedWorker.ledger_setSurface_same
        rfl
      · apply RedWorker.within_setSurface within
        intro isCanvas
        exact ⟨(within id isCanvas).1, Nat.pos_of_ne_zero counted⟩

theorem incSurface (id : Nat) (within : RedWorker.Within worker) : Settles worker (worker.incSurface id) := by
  refine ⟨rfl, fun command => ?_, ?_⟩
  · apply RedWorker.ledger_setSurface_same
    rfl
  · apply RedWorker.within_setSurface within
    intro isCanvas
    exact ⟨(within id isCanvas).1, Nat.succ_pos _⟩

theorem decSource {command : Nat} {place : Fin 3} (within : RedWorker.Within worker)
    (done : worker.decSource command place = some next) : Settles worker next := by
  unfold RedWorker.decSource at done
  split at done
  · cases done
    exact refl within
  · exact redDestroySurface within done

theorem incSource (command : Nat) (place : Fin 3) (within : RedWorker.Within worker) :
    Settles worker (worker.incSource command place) := by
  unfold RedWorker.incSource
  split
  · exact refl within
  · exact incSurface _ within

end Settles

/-- One of something. -/
def single (key : Nat) (other : Nat) : Nat := if other = key then 1 else 0

@[simp] theorem single_self (key : Nat) : single key key = 1 := if_pos rfl

theorem single_of_ne {key other : Nat} (different : other ≠ key) : single key other = 0 := if_neg different

/-- No command is lost, and the references are those of the holders; `draw`, `red` and
`cursor` are references that were given up and are still counted. -/
structure Inv (worker : RedWorker) (draw red cursor : Nat -> Nat) : Prop where
  ledger : forall command, worker.ledger command = if command < worker.fetched then 1 else 0
  within : RedWorker.Within worker
  draws : forall command, worker.drawables command =
    (if worker.processing = some command then 1 else 0) + worker.holders.count command + draw command
  reds : forall command, worker.redDrawables command = (if worker.processing = some command then 1 else 0) +
    min (worker.drawables command) 1 + worker.glzDrawables.count command + red command
  cursors : forall command, worker.cursorItems command =
    (if worker.cursor = some command then 1 else 0) + worker.cursorPipeItems.count command + cursor command

namespace Inv

variable {worker next : RedWorker} {draw red cursor : Nat -> Nat} {key : Nat}

theorem settle (inv : Inv worker draw red cursor) (settles : Settles worker next) : Inv next draw red cursor := by
  refine ⟨fun command => ?_, settles.within, fun command => ?_, fun command => ?_, fun command => ?_⟩
  · rw [settles.ledger, inv.ledger, settles.rest]
  · rw [settles.rest]
    exact inv.draws command
  · rw [settles.rest]
    exact inv.reds command
  · rw [settles.rest]
    exact inv.cursors command

/-- The last reference is the one that passes the command back. -/
theorem ledger_put {counts : Nat -> Nat} (held : 0 < counts key) (released : List Nat) (command : Nat) :
    (if countDown (counts key) = 0 then key :: released else released).count command +
        min (Function.update counts key (countDown (counts key)) command) 1 =
      released.count command + min (counts command) 1 := by
  have isDown : countDown (counts key) = counts key - 1 := if_neg (Nat.pos_iff_ne_zero.mp held)
  rw [isDown]
  by_cases same : command = key
  · rw [same, Function.update_self]
    by_cases last : counts key - 1 = 0
    · rw [if_pos last, List.count_cons_self]
      omega
    · rw [if_neg last]
      omega
  · rw [Function.update_of_ne same]
    by_cases last : counts key - 1 = 0
    · rw [if_pos last, List.count_cons_of_ne (fun isKey => same isKey.symm)]
    · rw [if_neg last]

theorem countDown_update {counts expected surplus : Nat -> Nat}
    (counted : forall command, counts command = expected command + (surplus command + single key command))
    (command : Nat) :
    Function.update counts key (countDown (counts key)) command = expected command + surplus command := by
  have held := counted key
  rw [single_self, <- Nat.add_assoc] at held
  by_cases same : command = key
  · rw [same, Function.update_self, countDown, held, if_neg (Nat.succ_ne_zero _), Nat.add_sub_cancel]
  · rw [Function.update_of_ne same, counted command, single_of_ne same, Nat.add_zero]

theorem count_erase {holders : List Nat} (member : key ∈ holders) (command : Nat) (surplus : Nat -> Nat)
    {base : Nat} : base + holders.count command + surplus command =
      base + (holders.erase key).count command + (surplus command + single key command) := by
  by_cases same : command = key
  · subst same
    have some := List.count_pos_iff.mpr member
    rw [List.count_erase_self, single_self]
    omega
  · rw [List.count_erase_of_ne same, single_of_ne same]
    rfl

/-- A reference to the command of a drawable is given back. -/
theorem putRedDrawable (inv : Inv worker draw (fun command => red command + single key command) cursor) :
    Inv (worker.putRedDrawable key) draw red cursor := by
  have held : 0 < worker.redDrawables key := by
    have counted := inv.reds key
    simp only [single_self] at counted
    omega
  have isPut : worker.putRedDrawable key = { worker with
      redDrawables := Function.update worker.redDrawables key (countDown (worker.redDrawables key))
      released := if countDown (worker.redDrawables key) = 0 then key :: worker.released else worker.released } := by
    simp only [RedWorker.putRedDrawable]
    split
    · rfl
    · rfl
  rw [isPut]
  refine ⟨fun command => ?_, inv.within, inv.draws, fun command => ?_, inv.cursors⟩
  · have put := ledger_put held worker.released command
    have kept := inv.ledger command
    simp only [RedWorker.ledger, RedWorker.owned] at kept ⊢
    omega
  · exact countDown_update inv.reds command

/-- A reference to a cursor is given back. -/
theorem redReleaseCursor (inv : Inv worker draw red (fun command => cursor command + single key command)) :
    Inv (worker.redReleaseCursor key) draw red cursor := by
  have held : 0 < worker.cursorItems key := by
    have counted := inv.cursors key
    simp only [single_self] at counted
    omega
  have isPut : Exists fun free => worker.redReleaseCursor key = { worker with
      cursorItems := Function.update worker.cursorItems key (countDown (worker.cursorItems key))
      released := if countDown (worker.cursorItems key) = 0 then key :: worker.released else worker.released
      freeCursorItems := free } := by
    simp only [RedWorker.redReleaseCursor]
    split
    · exact ⟨_, rfl⟩
    · exact ⟨_, rfl⟩
  rcases isPut with ⟨free, isPut⟩
  rw [isPut]
  refine ⟨fun command => ?_, inv.within, inv.draws, inv.reds, fun command => ?_⟩
  · have put := ledger_put held worker.released command
    have kept := inv.ledger command
    simp only [RedWorker.ledger, RedWorker.owned] at kept ⊢
    omega
  · exact countDown_update inv.cursors command

theorem freeDrawable (inv : Inv worker draw (fun command => red command + single key command) cursor)
    (freed : worker.freeDrawable key = some next) : Inv next draw red cursor := by
  unfold RedWorker.freeDrawable at freed
  rcases Option.bind_eq_some_iff.mp freed with ⟨one, first, freed⟩
  rcases Option.bind_eq_some_iff.mp freed with ⟨two, second, freed⟩
  rcases Option.bind_eq_some_iff.mp freed with ⟨three, third, freed⟩
  rcases Option.map_eq_some_iff.mp freed with ⟨four, target, rfl⟩
  have one := inv.settle (Settles.decSource inv.within first)
  have two := one.settle (Settles.decSource one.within second)
  have three := two.settle (Settles.decSource two.within third)
  exact (three.settle (Settles.redDestroySurface three.within target)).putRedDrawable

/-- A reference to a drawable is given back. -/
theorem releaseDrawable (inv : Inv worker (fun command => draw command + single key command) red cursor)
    (done : worker.releaseDrawable key = some next) : Inv next draw red cursor := by
  have held := inv.draws key
  simp only [single_self] at held
  have isDown : countDown (worker.drawables key) = worker.drawables key - 1 := if_neg (by omega)
  have draws : forall command, Function.update worker.drawables key (countDown (worker.drawables key)) command =
      (if worker.processing = some command then 1 else 0) + worker.holders.count command + draw command :=
    countDown_update inv.draws
  simp only [RedWorker.releaseDrawable] at done
  split at done
  · next last =>
      have counted : Inv { worker with
          drawables := Function.update worker.drawables key (countDown (worker.drawables key)) }
          draw (fun command => red command + single key command) cursor := by
        refine ⟨inv.ledger, inv.within, draws, fun command => ?_, inv.cursors⟩
        have counted := inv.reds command
        by_cases same : command = key
        · subst same
          simp only [Function.update_self, single_self, last]
          omega
        · simp only [Function.update_of_ne same, single_of_ne same]
          omega
      exact counted.freeDrawable done
  · next shared =>
      cases done
      refine ⟨inv.ledger, inv.within, draws, fun command => ?_, inv.cursors⟩
      have counted := inv.reds command
      by_cases same : command = key
      · subst same
        simp only [Function.update_self]
        omega
      · simp only [Function.update_of_ne same]
        exact counted

theorem dropHolder (inv : Inv worker draw red cursor) (done : worker.dropHolder key = some next) :
    Inv next draw red cursor := by
  unfold RedWorker.dropHolder at done
  split at done
  · next member =>
      have given : Inv { worker with holders := worker.holders.erase key }
          (fun command => draw command + single key command) red cursor := by
        refine ⟨inv.ledger, inv.within, fun command => ?_, inv.reds, inv.cursors⟩
        rw [inv.draws command]
        exact count_erase member command draw
      exact given.releaseDrawable done
  · cases done

theorem dropHolders {dropped : List Nat} (inv : Inv worker draw red cursor)
    (done : worker.dropHolders dropped = some next) : Inv next draw red cursor := by
  induction dropped generalizing worker with
  | nil =>
      cases done
      exact inv
  | cons key rest ih =>
      rcases Option.bind_eq_some_iff.mp done with ⟨middle, first, others⟩
      exact ih (inv.dropHolder first) others

/-- The cursor that was shown is released. -/
theorem releaseShown (inv : Inv worker draw red cursor) :
    Inv worker.releaseShown draw red cursor ∧ worker.releaseShown.cursor = none := by
  unfold RedWorker.releaseShown
  cases shown : worker.cursor with
  | none => exact ⟨inv, shown⟩
  | some key =>
      refine ⟨?_, rfl⟩
      have given : Inv { worker with cursor := none } draw red
          (fun command => cursor command + single key command) := by
        refine ⟨inv.ledger, inv.within, inv.draws, inv.reds, fun command => ?_⟩
        have counted := inv.cursors command
        rw [shown] at counted
        simp only [Option.some.injEq, reduceCtorEq, if_false] at counted ⊢
        by_cases same : command = key
        · rw [same, if_pos rfl] at counted
          rw [same, single_self]
          omega
        · rw [if_neg (fun isKey => same isKey.symm)] at counted
          rw [single_of_ne same]
          exact counted
      have released := given.redReleaseCursor
      have commutes : ({ worker with cursor := none } : RedWorker).redReleaseCursor key =
          { worker.redReleaseCursor key with cursor := none } := by
        simp only [RedWorker.redReleaseCursor]
        split
        · rfl
        · rfl
      rw [commutes] at released
      exact released

theorem fresh (inv : Inv worker draw red cursor) : worker.released.count worker.fetched = 0 ∧
    worker.redDrawables worker.fetched = 0 ∧ worker.cursorItems worker.fetched = 0 ∧
      worker.owned worker.fetched = 0 := by
  have none := inv.ledger worker.fetched
  rw [if_neg (Nat.lt_irrefl _)] at none
  simp only [RedWorker.ledger] at none
  omega

theorem ledger_fetched (inv : Inv worker draw red cursor) (fetched : next.fetched = worker.fetched + 1)
    (used : forall command, next.ledger command = worker.ledger command + single worker.fetched command)
    (command : Nat) : next.ledger command = if command < next.fetched then 1 else 0 := by
  rw [used, inv.ledger, fetched]
  by_cases same : command = worker.fetched
  · rw [same, single_self, if_neg (Nat.lt_irrefl _), if_pos (Nat.lt_succ_self _)]
  · rw [single_of_ne same]
    by_cases before : command < worker.fetched
    · rw [if_pos before, if_pos (Nat.lt_succ_of_lt before)]
    · rw [if_neg before, if_neg (by omega)]

theorem message (inv : Inv worker draw red cursor) : Inv worker.message draw red cursor := by
  refine ⟨inv.ledger_fetched rfl (fun command => ?_), inv.within, inv.draws, inv.reds, inv.cursors⟩
  have history := worker.ledger_released (worker.fetched :: worker.released) command
  show RedWorker.ledger { worker with released := worker.fetched :: worker.released } command = _
  simp only [List.count_cons, beq_iff_eq] at history
  simp only [single]
  by_cases same : command = worker.fetched
  · rw [if_pos same]
    rw [if_pos same.symm] at history
    omega
  · rw [if_neg same]
    rw [if_neg (fun isIt => same isIt.symm)] at history
    omega

theorem update {surfaceId : Nat} (inv : Inv worker draw red cursor)
    (valid : worker.validateSurface surfaceId = true) : Inv (worker.update surfaceId) draw red cursor := by
  simp only [RedWorker.update, valid, if_true]
  exact inv.message

/-- A surface keeps the command that created it. -/
theorem createSurface {id : Nat} (inv : Inv worker draw red cursor) (inside : id < worker.nSurfaces)
    (unused : (worker.surfaces id).refs = 0) : Inv (worker.createSurface id) draw red cursor := by
  have noCanvas : (worker.surfaces id).canvas = false := by
    cases isCanvas : (worker.surfaces id).canvas with
    | false => rfl
    | true => exact absurd unused (Nat.pos_iff_ne_zero.mp (inv.within id isCanvas).2)
  have created : worker.createSurface id = { worker with fetched := worker.fetched + 1 }.setSurface id
      { canvas := true, refs := 1, create := some worker.fetched, destroy := none } := by
    simp only [RedWorker.createSurface, unused, if_neg (Nat.not_le.mpr inside), ne_eq, not_true_eq_false, if_false]
  rw [created]
  refine ⟨inv.ledger_fetched rfl (fun command => ?_), ?_, inv.draws, inv.reds, inv.cursors⟩
  · have changed := RedWorker.ledger_setSurface inside
      { canvas := true, refs := 1, create := some worker.fetched, destroy := none } command
    have before : (worker.surfaces id).owns command = 0 :=
      by simp only [RedSurface.owns, noCanvas, Bool.false_eq_true, if_false]
    have after : RedSurface.owns { canvas := true, refs := 1, create := some worker.fetched, destroy := none } command =
        single worker.fetched command := by
      simp [RedSurface.owns, single, eq_comm]
    rw [before, after, Nat.add_zero] at changed
    exact changed
  · apply @RedWorker.within_setSurface { worker with fetched := worker.fetched + 1 } id _ inv.within
    intro _
    exact ⟨inside, Nat.one_pos⟩

/-- A surface keeps the command that destroyed it until its last reference. -/
theorem destroySurface {id : Nat} {dropped : List Nat} (inv : Inv worker draw red cursor)
    (valid : worker.validateSurface id = true) (first : (worker.surfaces id).destroy = none)
    (done : worker.destroySurface id dropped = some next) : Inv next draw red cursor := by
  rcases Bool.and_eq_true_iff.mp valid with ⟨inside, isCanvas⟩
  have inside : id < worker.nSurfaces := of_decide_eq_true inside
  have used : (worker.surfaces id).refs ≠ 0 := Nat.pos_iff_ne_zero.mp (inv.within id isCanvas).2
  simp only [RedWorker.destroySurface, if_neg (Nat.not_le.mpr inside), if_neg used] at done
  rcases Option.bind_eq_some_iff.mp done with ⟨cleared, drops, destroyed⟩
  have named : Inv ({ worker with fetched := worker.fetched + 1 }.setSurface id
      { worker.surfaces id with destroy := some worker.fetched }) draw red cursor := by
    refine ⟨inv.ledger_fetched rfl (fun command => ?_), ?_, inv.draws, inv.reds, inv.cursors⟩
    · have changed := RedWorker.ledger_setSurface inside
        { worker.surfaces id with destroy := some worker.fetched } command
      have after : RedSurface.owns { worker.surfaces id with destroy := some worker.fetched } command =
          (worker.surfaces id).owns command + single worker.fetched command := by
        simp [RedSurface.owns, isCanvas, first, single, eq_comm]
      rw [after] at changed
      have changed : RedWorker.ledger ({ worker with fetched := worker.fetched + 1 }.setSurface id
          { worker.surfaces id with destroy := some worker.fetched }) command + _ = _ := changed
      omega
    · apply @RedWorker.within_setSurface { worker with fetched := worker.fetched + 1 } id _ inv.within
      exact inv.within id
  have cleared := named.dropHolders drops
  exact cleared.settle (Settles.redDestroySurface cleared.within destroyed)

/-- A command for a drawable is fetched. -/
theorem newRedDrawable (inv : Inv worker draw red cursor) :
    Inv { worker with
        fetched := worker.fetched + 1
        redDrawables := Function.update worker.redDrawables worker.fetched 1 }
      draw (fun command => red command + single worker.fetched command) cursor := by
  rcases inv.fresh with ⟨-, noRed, -, -⟩
  refine ⟨inv.ledger_fetched rfl (fun command => ?_), inv.within, inv.draws, fun command => ?_, inv.cursors⟩
  · simp only [RedWorker.ledger, RedWorker.owned]
    by_cases same : command = worker.fetched
    · rw [same, Function.update_self, single_self, noRed]
      omega
    · rw [Function.update_of_ne same, single_of_ne same]
      rfl
  · have counted := inv.reds command
    by_cases same : command = worker.fetched
    · rw [same] at counted
      simp only [same, Function.update_self, single_self]
      omega
    · simp only [Function.update_of_ne same, single_of_ne same]
      exact counted

/-- The drawable takes a reference to it. -/
theorem newDrawable (inv : Inv worker draw red cursor) (surfaceId : Nat) (surfacesDest : Fin 3 -> Option Nat)
    (idle : worker.processing = none) :
    Inv { worker with
        fetched := worker.fetched + 1
        redDrawables := Function.update (Function.update worker.redDrawables worker.fetched 1) worker.fetched 2
        drawables := Function.update worker.drawables worker.fetched 1
        target := Function.update worker.target worker.fetched surfaceId
        surfacesDest := Function.update worker.surfacesDest worker.fetched surfacesDest
        processing := some worker.fetched }
      draw red cursor := by
  rcases inv.fresh with ⟨-, noRed, -, -⟩
  have reds := inv.reds worker.fetched
  have draws := inv.draws worker.fetched
  refine ⟨inv.ledger_fetched rfl (fun command => ?_), inv.within, fun command => ?_, fun command => ?_, inv.cursors⟩
  · simp only [RedWorker.ledger, RedWorker.owned]
    by_cases same : command = worker.fetched
    · rw [same, Function.update_self, single_self, noRed]
      omega
    · rw [Function.update_of_ne same, Function.update_of_ne same, single_of_ne same]
      rfl
  · have counted := inv.draws command
    by_cases same : command = worker.fetched
    · simp only [same, Function.update_self, if_true]
      omega
    · simp only [Function.update_of_ne same]
      rw [if_neg (fun isIt => same (Option.some.inj isIt).symm)]
      rw [if_neg (by rw [idle]; exact nofun)] at counted
      exact counted
  · have counted := inv.reds command
    by_cases same : command = worker.fetched
    · simp only [same, Function.update_self, if_true]
      omega
    · simp only [Function.update_of_ne same]
      rw [if_neg (fun isIt => same (Option.some.inj isIt).symm)]
      rw [if_neg (by rw [idle]; exact nofun)] at counted
      exact counted

theorem beginDraw {surfaceId : Nat} {surfacesDest : Fin 3 -> Option Nat} {validBox : Bool}
    (inv : Inv worker draw red cursor) (idle : worker.processing = none) :
    Inv (worker.beginDraw surfaceId surfacesDest validBox) draw red cursor := by
  simp only [RedWorker.beginDraw]
  split
  · have start := inv.newDrawable surfaceId surfacesDest idle
    have target := start.settle (Settles.incSurface surfaceId start.within)
    have one := target.settle (Settles.incSource worker.fetched 0 target.within)
    have two := one.settle (Settles.incSource worker.fetched 1 one.within)
    exact two.settle (Settles.incSource worker.fetched 2 two.within)
  · exact inv.newRedDrawable.putRedDrawable

/-- A command for a cursor is fetched. -/
theorem newCursorItem (inv : Inv worker draw red cursor) (free : Nat) :
    Inv { worker with
        fetched := worker.fetched + 1
        freeCursorItems := free
        cursorItems := Function.update worker.cursorItems worker.fetched 1 }
      draw red (fun command => cursor command + single worker.fetched command) := by
  rcases inv.fresh with ⟨-, -, noItem, -⟩
  refine ⟨inv.ledger_fetched rfl (fun command => ?_), inv.within, inv.draws, inv.reds, fun command => ?_⟩
  · simp only [RedWorker.ledger, RedWorker.owned]
    by_cases same : command = worker.fetched
    · rw [same, Function.update_self, single_self, noItem]
      omega
    · rw [Function.update_of_ne same, single_of_ne same]
      rfl
  · have counted := inv.cursors command
    by_cases same : command = worker.fetched
    · rw [same] at counted
      simp only [same, Function.update_self, single_self]
      omega
    · simp only [Function.update_of_ne same, single_of_ne same]
      exact counted

theorem ledger_cursorItems (held : 0 < worker.cursorItems key) (more command : Nat) :
    RedWorker.ledger { worker with
        cursorItems := Function.update worker.cursorItems key (worker.cursorItems key + more) } command =
      worker.ledger command := by
  simp only [RedWorker.ledger, RedWorker.owned]
  by_cases same : command = key
  · rw [same, Function.update_self]
    omega
  · rw [Function.update_of_ne same]

theorem held_cursor (inv : Inv worker draw red (fun command => cursor command + single key command)) :
    0 < worker.cursorItems key := by
  have counted := inv.cursors key
  simp only [single_self] at counted
  omega

/-- The cursor is shown. -/
theorem redSetCursor (inv : Inv worker draw red (fun command => cursor command + single key command)) :
    Inv (worker.redSetCursor key) draw red (fun command => cursor command + single key command) := by
  rcases inv.releaseShown with ⟨given, noCursor⟩
  refine ⟨fun command => ?_, given.within, given.draws, given.reds, fun command => ?_⟩
  · exact (ledger_cursorItems given.held_cursor 1 command).trans (given.ledger command)
  · have counted := given.cursors command
    rw [noCursor] at counted
    simp only [reduceCtorEq, if_false] at counted
    show Function.update worker.releaseShown.cursorItems key (worker.releaseShown.cursorItems key + 1) command =
      (if some key = some command then 1 else 0) + worker.releaseShown.cursorPipeItems.count command + _
    by_cases same : command = key
    · rw [same] at counted
      rw [same, Function.update_self, if_pos rfl]
      omega
    · rw [Function.update_of_ne same, if_neg (fun isIt => same (Option.some.inj isIt).symm)]
      exact counted

/-- The cursor is queued for the clients. -/
theorem newCursorPipeItems (inv : Inv worker draw red (fun command => cursor command + single key command))
    (clients : Nat) :
    Inv (worker.newCursorPipeItems key clients) draw red (fun command => cursor command + single key command) := by
  refine ⟨fun command => ?_, inv.within, inv.draws, inv.reds, fun command => ?_⟩
  · exact (ledger_cursorItems inv.held_cursor clients command).trans (inv.ledger command)
  · have counted := inv.cursors command
    show Function.update worker.cursorItems key (worker.cursorItems key + clients) command =
      (if worker.cursor = some command then 1 else 0) +
        (List.replicate clients key ++ worker.cursorPipeItems).count command + _
    rw [List.count_append]
    by_cases same : command = key
    · rw [same] at counted
      rw [same, Function.update_self, List.count_replicate_self]
      omega
    · have noItems : (List.replicate clients key).count command = 0 :=
        List.count_eq_zero_of_not_mem (fun member => same (List.eq_of_mem_replicate member))
      rw [Function.update_of_ne same, noItems, Nat.zero_add]
      exact counted

theorem qxlProcessCursor {aborts : Bool} {type : CursorType} {clients : Nat} (inv : Inv worker draw red cursor)
    (done : worker.qxlProcessCursor aborts type clients = some next) : Inv next draw red cursor := by
  simp only [RedWorker.qxlProcessCursor] at done
  split at done
  · cases done
  · split at done
    · cases done
    · cases done
      have start := inv.newCursorItem (worker.freeCursorItems - 1)
      split
      · exact (start.redSetCursor.newCursorPipeItems clients).redReleaseCursor
      · exact (start.newCursorPipeItems clients).redReleaseCursor

/-- The worker is done with a drawable. -/
theorem finishDraw (inv : Inv worker draw red cursor) (isProcessing : worker.processing = some key)
    {freed : RedWorker} (released : RedWorker.releaseDrawable { worker with processing := none } key = some freed) :
    Inv (freed.putRedDrawable key) draw red cursor := by
  have given : Inv { worker with processing := none } (fun command => draw command + single key command)
      (fun command => red command + single key command) cursor := by
    refine ⟨inv.ledger, inv.within, fun command => ?_, fun command => ?_, inv.cursors⟩
    · have counted := inv.draws command
      rw [isProcessing] at counted
      simp only [Option.some.injEq, reduceCtorEq, if_false, single] at counted ⊢
      simp only [eq_comm (a := command)]
      omega
    · have counted := inv.reds command
      rw [isProcessing] at counted
      simp only [Option.some.injEq, reduceCtorEq, if_false, single] at counted ⊢
      simp only [eq_comm (a := command)]
      omega
  exact (given.releaseDrawable released).putRedDrawable

/-- A holder takes a reference to a drawable. -/
theorem hold (inv : Inv worker draw red cursor) (alive : worker.drawables key ≠ 0) :
    Inv { worker with
        drawables := Function.update worker.drawables key (worker.drawables key + 1)
        holders := key :: worker.holders } draw red cursor := by
  refine ⟨inv.ledger, inv.within, fun command => ?_, fun command => ?_, inv.cursors⟩
  · have counted := inv.draws command
    by_cases same : command = key
    · subst same
      simp only [Function.update_self, List.count_cons_self]
      omega
    · simp only [Function.update_of_ne same, List.count_cons_of_ne (fun isKey => same isKey.symm)]
      exact counted
  · have counted := inv.reds command
    by_cases same : command = key
    · subst same
      simp only [Function.update_self]
      omega
    · simp only [Function.update_of_ne same]
      exact counted

/-- The image compression takes one to its command. -/
theorem holdGlz (inv : Inv worker draw red cursor) (alive : worker.drawables key ≠ 0) :
    Inv { worker with
        redDrawables := Function.update worker.redDrawables key (worker.redDrawables key + 1)
        glzDrawables := key :: worker.glzDrawables } draw red cursor := by
  refine ⟨fun command => ?_, inv.within, inv.draws, fun command => ?_, inv.cursors⟩
  · have counted := inv.reds command
    rw [<- inv.ledger command]
    simp only [RedWorker.ledger, RedWorker.owned]
    by_cases same : command = key
    · subst same
      rw [Function.update_self]
      omega
    · rw [Function.update_of_ne same]
  · have counted := inv.reds command
    by_cases same : command = key
    · subst same
      simp only [Function.update_self, List.count_cons_self]
      omega
    · simp only [Function.update_of_ne same, List.count_cons_of_ne (fun isKey => same isKey.symm)]
      exact counted

theorem dropGlz (inv : Inv worker draw red cursor) (member : key ∈ worker.glzDrawables) :
    Inv (RedWorker.putRedDrawable { worker with glzDrawables := worker.glzDrawables.erase key } key) draw red
      cursor := by
  apply putRedDrawable
  refine ⟨inv.ledger, inv.within, inv.draws, fun command => ?_, inv.cursors⟩
  rw [inv.reds command]
  exact count_erase member command red

theorem putCursorPipeItem (inv : Inv worker draw red cursor) (member : key ∈ worker.cursorPipeItems) :
    Inv (RedWorker.redReleaseCursor { worker with cursorPipeItems := worker.cursorPipeItems.erase key } key) draw red
      cursor := by
  apply redReleaseCursor
  refine ⟨inv.ledger, inv.within, inv.draws, inv.reds, fun command => ?_⟩
  rw [inv.cursors command]
  exact count_erase member command cursor

theorem idle_eq {other : RedWorker} (done : worker.idle other = some next) :
    worker.processing = none ∧ next = other := by
  unfold RedWorker.idle at done
  split at done
  · next isIdle => exact ⟨isIdle, (Option.some.inj done).symm⟩
  · cases done

/-- Every step keeps the ledger, if the commands name surfaces that fit them. -/
theorem step {aborts : Bool} {op : Op} (inv : Inv worker draw red cursor) (known : Known worker op)
    (stepped : worker.step aborts op = some next) : Inv next draw red cursor := by
  cases op with
  | draw surfaceId surfacesDest validBox =>
      rcases idle_eq stepped with ⟨isIdle, rfl⟩
      exact inv.beginDraw isIdle
  | finishDraw =>
      simp only [RedWorker.step] at stepped
      split at stepped
      · cases stepped
      · next command isProcessing =>
          rcases Option.map_eq_some_iff.mp stepped with ⟨freed, released, rfl⟩
          exact inv.finishDraw isProcessing released
  | update surfaceId =>
      rcases idle_eq stepped with ⟨-, rfl⟩
      exact inv.update known
  | message =>
      rcases idle_eq stepped with ⟨-, rfl⟩
      exact inv.message
  | createSurface id =>
      rcases idle_eq stepped with ⟨-, rfl⟩
      exact inv.createSurface known.1 known.2
  | destroySurface id dropped =>
      rcases Option.bind_eq_some_iff.mp stepped with ⟨same, isIdle, destroyed⟩
      rcases idle_eq isIdle with ⟨-, rfl⟩
      exact inv.destroySurface known.1 known.2 destroyed
  | unknownSurface id => exact known.elim
  | cursor type clients =>
      rcases Option.bind_eq_some_iff.mp stepped with ⟨same, isIdle, processed⟩
      rcases idle_eq isIdle with ⟨-, rfl⟩
      exact inv.qxlProcessCursor processed
  | hold command =>
      simp only [RedWorker.step] at stepped
      split at stepped
      · cases stepped
      · next alive =>
          cases stepped
          exact inv.hold alive
  | drop command => exact inv.dropHolder stepped
  | holdGlz command =>
      simp only [RedWorker.step] at stepped
      split at stepped
      · cases stepped
      · next alive =>
          cases stepped
          exact inv.holdGlz alive
  | dropGlz command =>
      simp only [RedWorker.step] at stepped
      split at stepped
      · next member =>
          cases stepped
          exact inv.dropGlz member
      · cases stepped
  | putCursorPipeItem command =>
      simp only [RedWorker.step] at stepped
      split at stepped
      · next member =>
          cases stepped
          exact inv.putCursorPipeItem member
      · cases stepped
  | resetCursor =>
      cases stepped
      exact inv.releaseShown.1

theorem init (nSurfaces devices : Nat) :
    Inv (RedWorker.init nSurfaces devices) (fun _ => 0) (fun _ => 0) (fun _ => 0) := by
  refine ⟨fun command => ?_, fun id isCanvas => ?_, fun _ => rfl, fun _ => rfl, fun _ => rfl⟩
  · have none : RedWorker.owned (RedWorker.init nSurfaces devices) command = 0 := by
      apply Finset.sum_eq_zero
      intro id _
      simp [RedWorker.init, RedSurface.owns]
    simp only [RedWorker.ledger, none]
    rfl
  · simp only [RedWorker.init] at isCanvas ⊢
    rw [isCanvas]
    exact ⟨(of_decide_eq_true isCanvas).2, Nat.one_pos⟩

end Inv

/-- When a surface owns a command. -/
theorem RedWorker.owned_pos_iff {worker : RedWorker} (within : RedWorker.Within worker) (command : Nat) :
    0 < worker.owned command <-> Exists fun id => (worker.surfaces id).canvas = true ∧
      ((worker.surfaces id).create = some command ∨ (worker.surfaces id).destroy = some command) := by
  have owns : forall surface : RedSurface, 0 < surface.owns command <->
      surface.canvas = true ∧ (surface.create = some command ∨ surface.destroy = some command) := by
    intro surface
    unfold RedSurface.owns
    split
    · next isCanvas =>
        split
        · next isCreate => simp [isCanvas, isCreate]
        · next notCreate =>
            by_cases isDestroy : surface.destroy = some command
            · simp [isCanvas, isDestroy]
            · simp [isCanvas, notCreate, isDestroy]
    · next noCanvas => simp [noCanvas]
  constructor
  · intro positive
    rcases Finset.exists_ne_zero_of_sum_ne_zero (Nat.pos_iff_ne_zero.mp positive) with ⟨id, -, kept⟩
    exact ⟨id, (owns _).mp (Nat.pos_of_ne_zero kept)⟩
  · rintro ⟨id, isCanvas, kept⟩
    have member : id ∈ Finset.range worker.nSurfaces := Finset.mem_range.mpr (within id isCanvas).1
    have one := Finset.single_le_sum
        (f := fun id => (worker.surfaces id).owns command) (fun _ _ => Nat.zero_le _) member
    exact Nat.lt_of_lt_of_le ((owns _).mpr ⟨isCanvas, kept⟩) one

/-- When a command is in use. -/
theorem Inv.inUse_iff {worker : RedWorker} (inv : Inv worker (fun _ => 0) (fun _ => 0) (fun _ => 0)) (command : Nat) :
    InUse worker command <-> 0 < worker.redDrawables command ∨ 0 < worker.cursorItems command ∨
      0 < worker.owned command := by
  have draws := inv.draws command
  have reds := inv.reds command
  have cursors := inv.cursors command
  have holders : command ∈ worker.holders <-> 0 < worker.holders.count command := List.count_pos_iff.symm
  have glz : command ∈ worker.glzDrawables <-> 0 < worker.glzDrawables.count command := List.count_pos_iff.symm
  have pipes : command ∈ worker.cursorPipeItems <-> 0 < worker.cursorPipeItems.count command := List.count_pos_iff.symm
  rw [RedWorker.owned_pos_iff inv.within, InUse, holders, glz, pipes]
  have red : 0 < worker.redDrawables command <-> worker.processing = some command ∨
      0 < worker.holders.count command ∨ 0 < worker.glzDrawables.count command := by
    by_cases isProcessing : worker.processing = some command
    · rw [if_pos isProcessing] at reds
      exact ⟨fun _ => Or.inl isProcessing, fun _ => by omega⟩
    · rw [if_neg isProcessing] at reds draws
      simp only [isProcessing, false_or]
      omega
  have shown : 0 < worker.cursorItems command <-> worker.cursor = some command ∨
      0 < worker.cursorPipeItems.count command := by
    by_cases isShown : worker.cursor = some command
    · rw [if_pos isShown] at cursors
      exact ⟨fun _ => Or.inl isShown, fun _ => by omega⟩
    · rw [if_neg isShown] at cursors
      simp only [isShown, false_or]
      omega
  rw [red, shown]
  simp only [or_assoc]

theorem Inv.releasedOnce {worker : RedWorker} (inv : Inv worker (fun _ => 0) (fun _ => 0) (fun _ => 0)) :
    ReleasedOnce worker := by
  intro command fetched
  have one := inv.ledger command
  rw [if_pos fetched, RedWorker.ledger] at one
  rw [inv.inUse_iff command]
  omega

/-- As long as every command that names a surface fits it and the types are known, what the guest
sent is released once, when nothing uses it any more. -/
theorem guest_resources_released_once (aborts : Bool) (nSurfaces devices : Nat) (ops : List Op) (worker : RedWorker)
    (known : Meets (RedWorker.step aborts) (fun _ worker op => Known worker op) []
      (RedWorker.init nSurfaces devices) ops)
    (ran : run (RedWorker.step aborts) (RedWorker.init nSurfaces devices) ops = some worker) : ReleasedOnce worker := by
  have keep : forall (_ : List Op) (worker : RedWorker) (op : Op) (next : RedWorker),
      Inv worker (fun _ => 0) (fun _ => 0) (fun _ => 0) -> Known worker op -> worker.step aborts op = some next ->
        Inv next (fun _ => 0) (fun _ => 0) (fun _ => 0) := fun _ _ _ _ inv known stepped => inv.step known stepped
  have inv := run_invariant_of_meets keep ops [] _ worker (Inv.init nSurfaces devices) known ran
  exact inv.releasedOnce

/-- A surface with a drawable that waits in a pipe, a cursor, and the surface destroyed. -/
def surfaceRun : List Op :=
  [.createSurface 1, .draw 1 (fun _ => none) true, .hold 1, .finishDraw, .cursor .set 2, .update 0,
    .destroySurface 1 [],
    .drop 1]

/-- The drawable is the last to use the surface: its command and those of the surface are
released when it is dropped. -/
theorem guest_resources_released_once_surface : Exists fun worker =>
    run (RedWorker.step true) (RedWorker.init 4 1) surfaceRun = some worker ∧ worker.released = [1, 4, 0, 3] ∧
      ReleasedOnce worker := by
  have ran : (run (RedWorker.step true) (RedWorker.init 4 1) surfaceRun).map (fun worker => worker.released) =
      some [1, 4, 0, 3] := by decide
  rcases Option.map_eq_some_iff.mp ran with ⟨worker, isWorker, isReleased⟩
  refine ⟨worker, isWorker, isReleased, guest_resources_released_once true 4 1 surfaceRun worker ?_ isWorker⟩
  have sound : forall (_ : List Op) (worker : RedWorker) (op : Op),
      (match op with
        | .update surfaceId => worker.validateSurface surfaceId
        | .createSurface id => decide (id < worker.nSurfaces) && decide ((worker.surfaces id).refs = 0)
        | .destroySurface id _ => worker.validateSurface id && (worker.surfaces id).destroy.isNone
        | .unknownSurface _ => false
        | .cursor type _ => decide (type ≠ .unknown ∧ worker.freeCursorItems ≠ 0)
        | _ => true) = true -> Known worker op := by
    intro _ worker op checked
    cases op with
    | update surfaceId => exact checked
    | createSurface id =>
        have both := Bool.and_eq_true_iff.mp checked
        exact ⟨of_decide_eq_true both.1, of_decide_eq_true both.2⟩
    | destroySurface id dropped =>
        have both := Bool.and_eq_true_iff.mp checked
        exact ⟨both.1, Option.isNone_iff_eq_none.mp both.2⟩
    | unknownSurface id => cases checked
    | cursor type clients =>
        have both : type ≠ .unknown ∧ worker.freeCursorItems ≠ 0 := of_decide_eq_true checked
        exact both
    | _ => trivial
  exact Meets.of_check sound surfaceRun [] _ (by decide)

/-- A command that updates a surface that does not exist is never released. -/
theorem missing_surface_keeps_command : Not (forall (aborts : Bool) (nSurfaces devices : Nat) (ops : List Op)
    (worker : RedWorker),
    run (RedWorker.step aborts) (RedWorker.init nSurfaces devices) ops = some worker -> ReleasedOnce worker) := by
  intro always
  have once := always true 4 1 [.update 2] _ rfl 0 (by decide)
  have unused : Not (InUse ((RedWorker.init 4 1).update 2) 0) := by
    rintro (isProcessing | isHeld | isGlz | isShown | isQueued | ⟨id, -, isCreate | isDestroy⟩)
    · cases isProcessing
    · cases isHeld
    · cases isGlz
    · cases isShown
    · cases isQueued
    · cases isCreate
    · cases isDestroy
  have counted := once.2 unused
  revert counted
  decide

end Resources
end Spice
