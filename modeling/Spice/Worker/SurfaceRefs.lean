import Spice.Worker.Dependencies
import Mathlib.Algebra.Order.BigOperators.Group.List
import Mathlib.Algebra.Order.Ring.Nat

namespace Spice
namespace Worker

open Lib

/-!
# References of surfaces

A surface is kept by its creation and by the drawables that target it or take an
image from it.  A command that destroys it drops the reference of the creation;
whether it still has that reference is not recorded, and `refs` does not say it.
-/

/-- The references a drawable holds on a surface. -/
def Drawable.uses (drawable : Drawable) (id : Nat) : Nat :=
  (if drawable.surfaceId = id then 1 else 0) + (if drawable.surfacesDest 0 = some id then 1 else 0) +
    (if drawable.surfacesDest 1 = some id then 1 else 0) + (if drawable.surfacesDest 2 = some id then 1 else 0)

/-- The references of all drawables that are alive. -/
def RedWorker.references (worker : RedWorker) (id : Nat) : Nat :=
  (worker.drawables.map (fun drawable => drawable.uses id)).sum

/-- A worker, and the surfaces that were created and not destroyed by a command since. -/
structure Tracked where
  worker : RedWorker
  created : Nat -> Bool

namespace Tracked

/-- The commands that create and destroy a surface, unless they are avoided. -/
def nextCreated (tracked : Tracked) : Op -> Nat -> Bool
  | .createSurface id =>
      if (tracked.worker.surfaces id).refs ≠ 0 then tracked.created else Function.update tracked.created id true
  | .destroySurface id =>
      if (tracked.worker.surfaces id).refs = 0 then tracked.created else Function.update tracked.created id false
  | _ => tracked.created

def step (tracked : Tracked) (op : Op) : Option Tracked :=
  (tracked.worker.step op).map (fun worker => { worker := worker, created := tracked.nextCreated op })

def init : Tracked where
  worker := RedWorker.init
  created := fun _ => false

end Tracked

/-- A surface is destroyed by a command only once for each creation. -/
def DestroysCreated (tracked : Tracked) : Op -> Prop
  | .destroySurface id => (tracked.worker.surfaces id).refs ≠ 0 -> tracked.created id = true
  | _ => True

/-- The references of a surface are the creation's and the drawables', it has a canvas
while it has references, and no drawable refers to a surface without a canvas. -/
structure Referenced (tracked : Tracked) : Prop where
  refs : forall id, (tracked.worker.surfaces id).refs = (tracked.created id).toNat + tracked.worker.references id
  canvas : forall id, (tracked.worker.surfaces id).canvas = true <-> 0 < (tracked.worker.surfaces id).refs
  target : forall drawable, drawable ∈ tracked.worker.drawables ->
    (tracked.worker.surfaces drawable.surfaceId).canvas = true
  source : forall drawable place id, drawable ∈ tracked.worker.drawables -> drawable.surfacesDest place = some id ->
    (tracked.worker.surfaces id).canvas = true

/-- The surfaces have these references. -/
structure Balanced (worker : RedWorker) (count : Nat -> Nat) : Prop where
  refs : forall id, (worker.surfaces id).refs = count id
  canvas : forall id, (worker.surfaces id).canvas = decide (0 < count id)

variable {drawable : Drawable}

namespace Balanced

variable {worker : RedWorker} {count : Nat -> Nat}

theorem congr {other : Nat -> Nat} (balanced : Balanced worker count) (same : forall id, count id = other id) :
    Balanced worker other :=
  ⟨fun id => (balanced.refs id).trans (same id), fun id => by rw [balanced.canvas, same]⟩

theorem keep {next : RedWorker} (balanced : Balanced worker count)
    (refs : forall id, (next.surfaces id).refs = (worker.surfaces id).refs)
    (canvas : forall id, (next.surfaces id).canvas = (worker.surfaces id).canvas) : Balanced next count :=
  ⟨fun id => (refs id).trans (balanced.refs id), fun id => (canvas id).trans (balanced.canvas id)⟩

/-- A reference to a surface is given back. -/
theorem redDestroySurface {id : Nat}
    (balanced : Balanced worker (fun other => count other + if id = other then 1 else 0)) :
    Balanced (worker.redDestroySurface id) count := by
  have refs := balanced.refs
  have canvas := balanced.canvas
  refine ⟨fun other => ?_, fun other => ?_⟩
  · by_cases same : other = id
    · subst same
      have now := refs other
      simp only [if_true] at now
      simp only [RedWorker.redDestroySurface, RedWorker.setSurface, Function.update_self, now]
      rw [if_neg (Nat.succ_ne_zero _)]
      exact Nat.add_sub_cancel (count other) 1
    · have now := refs other
      rw [if_neg (fun isOther => same isOther.symm)] at now
      simp only [RedWorker.redDestroySurface, RedWorker.setSurface, Function.update_of_ne same]
      exact now
  · by_cases same : other = id
    · subst same
      have now := refs other
      have isCanvas := canvas other
      simp only [if_true] at now isCanvas
      simp only [RedWorker.redDestroySurface, RedWorker.setSurface, Function.update_self, now, isCanvas]
      cases count other with
      | zero => rfl
      | succ rest => simp
    · have isCanvas := canvas other
      rw [if_neg (fun isOther => same isOther.symm)] at isCanvas
      simp only [RedWorker.redDestroySurface, RedWorker.setSurface, Function.update_of_ne same]
      exact isCanvas

/-- A reference to a surface is taken. -/
theorem take {id : Nat} (balanced : Balanced worker count) (held : 0 < count id) :
    Balanced (worker.setSurface id (fun surface => { surface with refs := surface.refs + 1 }))
      (fun other => count other + if id = other then 1 else 0) := by
  refine ⟨fun other => ?_, fun other => ?_⟩
  · by_cases same : other = id
    · subst same
      simp only [RedWorker.setSurface, Function.update_self, balanced.refs, if_true]
    · simp only [RedWorker.setSurface, Function.update_of_ne same, balanced.refs]
      rw [if_neg (fun isOther => same isOther.symm)]
      rfl
  · by_cases same : other = id
    · subst same
      simp only [RedWorker.setSurface, Function.update_self, balanced.canvas, if_true]
      rw [decide_eq_true held, decide_eq_true (Nat.succ_pos _)]
    · simp only [RedWorker.setSurface, Function.update_of_ne same, balanced.canvas]
      rw [if_neg (fun isOther => same isOther.symm)]
      rfl

/-- A drawable gives back the surface in one place. -/
theorem dropSource {place : Fin 3}
    (balanced : Balanced worker (fun other => count other + if drawable.surfacesDest place = some other then 1
      else 0)) :
    Balanced (worker.forSource drawable (fun id worker => worker.redDestroySurface id) place) count := by
  unfold RedWorker.forSource
  cases isSource : drawable.surfacesDest place with
  | none =>
      rw [isSource] at balanced
      exact balanced.congr (fun _ => rfl)
  | some source =>
      rw [isSource] at balanced
      apply redDestroySurface
      apply balanced.congr
      intro other
      simp only [Option.some.injEq]

theorem takeSource (balanced : Balanced worker count) (drawable : Drawable) (place : Fin 3)
    (held : forall id, drawable.surfacesDest place = some id -> 0 < count id) :
    Balanced (worker.forSource drawable
        (fun id worker => worker.setSurface id (fun surface => { surface with refs := surface.refs + 1 })) place)
      (fun other => count other + if drawable.surfacesDest place = some other then 1 else 0) := by
  unfold RedWorker.forSource
  cases isSource : drawable.surfacesDest place with
  | none => exact balanced.congr (fun _ => rfl)
  | some source =>
      apply (balanced.take (held source isSource)).congr
      intro other
      simp only [Option.some.injEq]

theorem dropUses (balanced : Balanced worker (fun other => count other + drawable.uses other)) :
    Balanced ((worker.decSurfacesDependencies drawable).redDestroySurface drawable.surfaceId) count := by
  apply redDestroySurface
  apply dropSource
  apply dropSource
  apply dropSource
  apply balanced.congr
  intro other
  simp only [Drawable.uses]
  omega

/-- A drawable takes references to its surfaces. -/
theorem takeUses (balanced : Balanced worker count) (target : 0 < count drawable.surfaceId)
    (source : forall place id, drawable.surfacesDest place = some id -> 0 < count id) :
    Balanced ((worker.setSurface drawable.surfaceId (fun surface =>
        { surface with refs := surface.refs + 1 })).incSurfacesDependencies drawable)
      (fun other => count other + drawable.uses other) := by
  have first := (balanced.take target).takeSource drawable 0
    (fun id isSource => Nat.lt_of_lt_of_le (source 0 id isSource) (Nat.le_add_right _ _))
  have second := first.takeSource drawable 1
    (fun id isSource => Nat.lt_of_lt_of_le (source 1 id isSource) (by omega))
  have third := second.takeSource drawable 2
    (fun id isSource => Nat.lt_of_lt_of_le (source 2 id isSource) (by omega))
  apply third.congr
  intro other
  simp only [Drawable.uses]
  omega

/-- A change that keeps the count of references. -/
theorem setSurface (balanced : Balanced worker count) (id : Nat) {change : RedSurface -> RedSurface}
    (refs : forall surface, (change surface).refs = surface.refs)
    (canvas : forall surface, (change surface).canvas = surface.canvas) :
    Balanced (worker.setSurface id change) count := by
  apply balanced.keep
  · intro other
    simp only [RedWorker.setSurface]
    by_cases same : other = id
    · rw [same, Function.update_self, refs]
    · rw [Function.update_of_ne same]
  · intro other
    simp only [RedWorker.setSurface]
    by_cases same : other = id
    · rw [same, Function.update_self, canvas]
    · rw [Function.update_of_ne same]

theorem removeDependedItem (balanced : Balanced worker count) (drawable : Drawable) (place : Fin 3) :
    Balanced (worker.removeDependedItem drawable place) count := by
  unfold RedWorker.removeDependedItem
  split
  · exact balanced
  · split
    · exact balanced.setSurface _ (fun _ => rfl) (fun _ => rfl)
    · exact balanced

theorem removeDrawableDependencies (balanced : Balanced worker count) (drawable : Drawable) :
    Balanced (worker.removeDrawableDependencies drawable) count :=
  ((balanced.removeDependedItem drawable 0).removeDependedItem drawable 1).removeDependedItem drawable 2

theorem addToSurfaceDependency (balanced : Balanced worker count) (drawable : Drawable) (place : Fin 3) :
    Balanced (worker.addToSurfaceDependency drawable place) count := by
  unfold RedWorker.addToSurfaceDependency
  cases drawable.surfacesDest place with
  | none => exact balanced
  | some source =>
      simp only
      split
      · exact balanced
      · have listed : Balanced (worker.setSurface source (fun surface =>
            { surface with dependOnMe := (drawable.key, place) :: surface.dependOnMe })) count :=
          balanced.setSurface source (fun _ => rfl) (fun _ => rfl)
        exact listed.keep (fun _ => rfl) (fun _ => rfl)

end Balanced

theorem references_setDrawable {worker : RedWorker} {key : Nat} {change : Drawable -> Drawable}
    (same : forall drawable id, (change drawable).uses id = drawable.uses id) (id : Nat) :
    (worker.setDrawable key change).references id = worker.references id := by
  simp only [RedWorker.references, RedWorker.setDrawable, List.map_map]
  congr 1
  apply List.map_congr_left
  intro drawable _
  simp only [Function.comp_apply]
  split
  · exact same drawable id
  · rfl

/-- What one drawable counts for. -/
theorem sum_without {drawables : List Drawable} (member : drawable ∈ drawables)
    (distinct : (drawables.map (fun drawable => drawable.key)).Nodup) (id : Nat) :
    (drawables.map (fun other => other.uses id)).sum =
      ((drawables.filter (fun other => other.key ≠ drawable.key)).map (fun other => other.uses id)).sum +
        drawable.uses id := by
  induction drawables with
  | nil => cases member
  | cons head rest ih =>
      have distinct := List.nodup_cons.mp distinct
      rcases List.mem_cons.mp member with rfl | inside
      · have others : rest.filter (fun other => other.key ≠ drawable.key) = rest := by
          rw [List.filter_eq_self]
          intro other isOther
          apply decide_eq_true
          intro same
          exact distinct.1 (List.mem_map.mpr ⟨other, isOther, same⟩)
        rw [List.filter_cons_of_neg (by simp), others, List.map_cons, List.sum_cons, Nat.add_comm]
      · have different : head.key ≠ drawable.key := by
          intro same
          exact distinct.1 (List.mem_map.mpr ⟨drawable, inside, same.symm⟩)
        rw [List.filter_cons_of_pos (by simpa using different), List.map_cons, List.sum_cons, List.map_cons,
          List.sum_cons, ih inside distinct.2, Nat.add_assoc]

/-- The surfaces have the references of their creations and of the drawables. -/
def Counted (worker : RedWorker) (created : Nat -> Bool) : Prop :=
  Balanced worker (fun id => (created id).toNat + worker.references id)

namespace Counted

variable {worker next : RedWorker} {created : Nat -> Bool} {key : Nat}

theorem keep (counted : Counted worker created) (surfaces : next.surfaces = worker.surfaces)
    (references : forall id, next.references id = worker.references id) : Counted next created := by
  apply (Balanced.keep counted (fun id => by rw [surfaces]) (fun id => by rw [surfaces])).congr
  intro id
  rw [references]

theorem of_drawables {drawables : List Drawable} (balanced : Balanced worker
      (fun id => (created id).toNat + (drawables.map (fun other => other.uses id)).sum)) :
    Counted { worker with drawables := drawables } created :=
  balanced.keep (fun _ => rfl) (fun _ => rfl)

theorem setDrawable (counted : Counted worker created) {change : Drawable -> Drawable}
    (same : forall drawable id, (change drawable).uses id = drawable.uses id) :
    Counted (worker.setDrawable key change) created :=
  counted.keep rfl (references_setDrawable same)

/-- A drawable is freed, with its references. -/
theorem releaseDrawable (counted : Counted worker created) (inv : Inv worker) :
    Counted (worker.releaseDrawable key) created := by
  unfold RedWorker.releaseDrawable
  cases found : worker.drawableAt key with
  | none => exact counted
  | some drawable =>
      have isThere : drawable ∈ worker.drawables := List.mem_of_find?_eq_some found
      have isKey : drawable.key = key := by simpa using List.find?_some found
      simp only
      split
      · have left := (Fewer.removeDrawableDependencies worker drawable).trans
          ((Fewer.decSurfacesDependencies _ drawable).trans (Fewer.redDestroySurface _ drawable.surfaceId))
        have dropped : Balanced (((worker.removeDrawableDependencies drawable).decSurfacesDependencies
            drawable).redDestroySurface drawable.surfaceId) (fun id => (created id).toNat +
              ((worker.drawables.filter (fun other => other.key ≠ drawable.key)).map
                (fun other => other.uses id)).sum) := by
          apply Balanced.dropUses
          apply (counted.removeDrawableDependencies drawable).congr
          intro id
          rw [RedWorker.references, sum_without isThere inv.distinct id, Nat.add_assoc]
        rw [<- isKey, left.drawables]
        exact of_drawables dropped
      · exact counted.setDrawable (fun _ _ => rfl)

theorem currentRemoveDrawable (counted : Counted worker created) (inv : Inv worker) :
    Counted (worker.currentRemoveDrawable key) created := by
  have untied : Counted (worker.setDrawable key (fun drawable => { drawable with inTree := false })) created :=
    counted.setDrawable (fun _ _ => rfl)
  apply untied.releaseDrawable
  apply inv.setDrawable
  exact ⟨fun _ => rfl, fun drawable member _ => inv.alive drawable member, fun _ _ _ depends => depends⟩

theorem setPipes (counted : Counted worker created) (pipes : List (List PipeItem)) :
    Counted { worker with pipes := pipes } created := counted.keep rfl (fun _ => rfl)

theorem releaseItems (counted : Counted worker created) (inv : Inv worker) (items : List PipeItem) :
    Counted (worker.releaseItems items) created := by
  unfold RedWorker.releaseItems
  generalize List.map _ _ = keys
  induction keys generalizing worker with
  | nil => exact counted
  | cons key rest ih => exact ih (counted.releaseDrawable inv) inv.releaseDrawable

theorem removeDrawable (counted : Counted worker created) (inv : Inv worker) :
    Counted (worker.removeDrawable key) created :=
  ((counted.setPipes _).releaseItems (inv.setPipes _) _).currentRemoveDrawable ((inv.setPipes _).releaseItems _)

theorem currentClear (counted : Counted worker created) (inv : Inv worker) (surfaceId : Nat) :
    Counted (worker.currentClear surfaceId) created := by
  unfold RedWorker.currentClear
  generalize List.map _ _ = keys
  induction keys generalizing worker with
  | nil => exact counted
  | cons key rest ih => exact ih (counted.removeDrawable inv) inv.removeDrawable

theorem clearSurfaceDrawables (counted : Counted worker created) (inv : Inv worker) (surfaceId : Nat) :
    Counted ((worker.currentClear surfaceId).clearSurfaceDrawablesFromPipes surfaceId) created :=
  ((counted.currentClear inv surfaceId).setPipes _).releaseItems (inv.currentClear.setPipes _) _

/-- The surfaces of a drawable that is accepted exist. -/
theorem held_of_accepted (counted : Counted worker created) {surfaceId : Nat} {surfacesDest : Fin 3 -> Option Nat}
    (accepted : worker.refused surfaceId surfacesDest = false) :
    0 < (created surfaceId).toNat + worker.references surfaceId ∧
      forall place id, surfacesDest place = some id -> 0 < (created id).toNat + worker.references id := by
  simp only [RedWorker.refused, Bool.or_eq_false_iff] at accepted
  rcases accepted with ⟨⟨⟨target, first⟩, second⟩, third⟩
  refine ⟨?_, ?_⟩
  · rw [counted.canvas, Bool.not_eq_false'] at target
    exact of_decide_eq_true target
  · intro place id isSource
    have present : worker.sourceMissing surfacesDest place = false := by
      match place with
      | 0 => exact first
      | 1 => exact second
      | 2 => exact third
    rw [RedWorker.sourceMissing, isSource] at present
    simp only [counted.canvas, Bool.not_eq_false'] at present
    exact of_decide_eq_true present

theorem addDrawable (counted : Counted worker created)
    (accepted : worker.refused drawable.surfaceId drawable.surfacesDest = false) :
    Counted (worker.addDrawable drawable) created := by
  rcases counted.held_of_accepted accepted with ⟨target, source⟩
  have started : Balanced { worker with drawables := drawable :: worker.drawables, fresh := worker.fresh + 1 }
      (fun id => (created id).toNat + worker.references id) := Balanced.keep counted (fun _ => rfl) (fun _ => rfl)
  apply (started.takeUses target source).congr
  intro id
  show _ = _ + (((worker.addDrawable drawable).drawables).map (fun other => other.uses id)).sum
  rw [(Inv.fewer_addDrawable worker drawable).drawables, List.map_cons, List.sum_cons, RedWorker.references]
  omega

theorem addToSurfaceDependency (counted : Counted worker created) (drawable : Drawable) (place : Fin 3) :
    Counted (worker.addToSurfaceDependency drawable place) created := by
  apply (Balanced.addToSurfaceDependency counted drawable place).congr
  intro id
  congr 1
  unfold RedWorker.addToSurfaceDependency
  split
  · rfl
  · split
    · rfl
    · apply Eq.symm
      apply references_setDrawable
      intro other id
      rfl

/-- A drawable is processed, with its references. -/
theorem processDrawable (counted : Counted worker created) (inv : Inv worker) {surfaceId : Nat}
    {surfacesDest : Fin 3 -> Option Nat} {emptyRegion : Bool}
    (processed : worker.processDrawable surfaceId surfacesDest emptyRegion = some next) : Counted next created := by
  unfold RedWorker.processDrawable at processed
  cases refused : worker.refused surfaceId surfacesDest with
  | true =>
      rw [refused, if_pos rfl] at processed
      cases processed
      exact counted
  | false =>
      rw [refused, if_neg (by decide)] at processed
      let drawable := Drawable.mk worker.fresh surfaceId surfacesDest (fun _ => false) 1 false
      have added : Counted (worker.addDrawable drawable) created := counted.addDrawable refused
      have addedInv : Inv (worker.addDrawable drawable) := inv.addDrawable rfl Nat.one_pos
      simp only at processed
      split at processed
      · cases processed
        exact added.releaseDrawable addedInv
      · rcases Option.map_eq_some_iff.mp processed with ⟨flushed, handled, rfl⟩
        rcases RedWorker.handleDependsOnTargetSurface_eq handled with ⟨rfl, -⟩
        exact (((added.addToSurfaceDependency drawable 0).addToSurfaceDependency drawable 1).addToSurfaceDependency
          drawable 2).keep rfl (fun _ => rfl)

/-- A surface is created with one reference. -/
theorem redCreateSurface (counted : Counted worker created) {id : Nat} (unused : (worker.surfaces id).refs = 0) :
    Counted (worker.redCreateSurface id) (Function.update created id true) := by
  have none := (counted.refs id).symm.trans unused
  refine ⟨fun other => ?_, fun other => ?_⟩
  · by_cases same : other = id
    · subst same
      simp only [RedWorker.redCreateSurface, RedWorker.setSurface, Function.update_self]
      show 1 = 1 + worker.references other
      omega
    · simp only [RedWorker.redCreateSurface, RedWorker.setSurface, Function.update_of_ne same]
      exact counted.refs other
  · by_cases same : other = id
    · subst same
      simp only [RedWorker.redCreateSurface, RedWorker.setSurface, Function.update_self]
      exact (decide_eq_true (Nat.add_pos_left Nat.one_pos _)).symm
    · simp only [RedWorker.redCreateSurface, RedWorker.setSurface, Function.update_of_ne same]
      exact counted.canvas other

theorem redDestroySurface (counted : Counted worker created) {id : Nat} (isCreated : created id = true) :
    Counted (worker.redDestroySurface id) (Function.update created id false) := by
  apply Balanced.redDestroySurface
  apply Balanced.congr counted
  intro other
  show (created other).toNat + worker.references other =
    (Function.update created id false other).toNat + worker.references other + if id = other then 1 else 0
  by_cases same : other = id
  · subst same
    rw [isCreated, Function.update_self, if_pos rfl]
    exact Nat.add_comm 1 _ |>.trans (by rw [Bool.toNat_false, Nat.zero_add])
  · rw [Function.update_of_ne same, if_neg (fun isOther => same isOther.symm)]
    rfl

/-- Every operation keeps the count, if it destroys only what was created. -/
theorem step {tracked after : Tracked} {op : Op} (counted : Counted tracked.worker tracked.created)
    (inv : Inv tracked.worker) (destroys : DestroysCreated tracked op) (stepped : tracked.step op = some after) :
    Counted after.worker after.created := by
  rcases Option.map_eq_some_iff.mp stepped with ⟨next, advanced, rfl⟩
  cases RedWorker.stepped advanced with
  | keptSurface used =>
      simp only [Tracked.nextCreated, if_pos used]
      exact counted
  | created unused =>
      simp only [Tracked.nextCreated, if_neg (not_not.mpr unused)]
      exact counted.redCreateSurface unused
  | noSurface unused =>
      simp only [Tracked.nextCreated, if_pos unused]
      exact counted
  | destroyed used listed =>
      simp only [Tracked.nextCreated, if_neg used]
      exact (counted.clearSurfaceDrawables inv _).redDestroySurface (destroys used)
  | noCanvas absent => exact counted
  | cleared canvas listed => exact counted.clearSurfaceDrawables inv _
  | processed idle done => exact counted.processDrawable inv done
  | inserted processing => exact counted.setDrawable (fun _ _ => rfl)
  | removed found inTree => exact counted.currentRemoveDrawable inv
  | held found => exact counted.setDrawable (fun _ _ => rfl)
  | released found free => exact counted.releaseDrawable inv
  | finished processing =>
      have idle : Counted { tracked.worker with processing := none } tracked.created :=
        counted.keep rfl (fun _ => rfl)
      exact idle.releaseDrawable ⟨inv.distinct, inv.below, inv.alive, inv.entries⟩
  | connected => exact counted.setPipes _
  | added isPipe found => exact (counted.setPipes _).setDrawable (fun _ _ => rfl)
  | sent isPipe waits => exact counted.setPipes _
  | dropped isPipe isItem => exact (counted.setPipes _).releaseDrawable (inv.setPipes _)

theorem init : Counted Tracked.init.worker Tracked.init.created := ⟨fun _ => rfl, fun _ => rfl⟩

theorem canvas_of_uses (counted : Counted worker created) (member : drawable ∈ worker.drawables)
    {id : Nat} (uses : 0 < drawable.uses id) : (worker.surfaces id).canvas = true := by
  have one : drawable.uses id ≤ worker.references id :=
    List.single_le_sum (fun _ _ => Nat.zero_le _) _ (List.mem_map.mpr ⟨drawable, member, rfl⟩)
  rw [counted.canvas]
  apply decide_eq_true
  omega

end Counted

theorem Drawable.uses_target (drawable : Drawable) : 0 < drawable.uses drawable.surfaceId := by
  simp only [Drawable.uses, if_true]
  omega

theorem Drawable.uses_source {place : Fin 3} {id : Nat}
    (isSource : drawable.surfacesDest place = some id) : 0 < drawable.uses id := by
  simp only [Drawable.uses]
  match place with
  | 0 =>
      rw [if_pos isSource]
      omega
  | 1 =>
      rw [if_pos isSource]
      omega
  | 2 =>
      rw [if_pos isSource]
      omega

theorem Counted.referenced {tracked : Tracked} (counted : Counted tracked.worker tracked.created) :
    Referenced tracked where
  refs := counted.refs
  canvas := fun id => by rw [counted.canvas, counted.refs, decide_eq_true_eq]
  target := fun drawable member => counted.canvas_of_uses member drawable.uses_target
  source := fun _ _ _ member isSource => counted.canvas_of_uses member (Drawable.uses_source isSource)

/-- As long as a surface is destroyed only once for each creation, its references are
the creation's and those of the drawables, in every state that is reached. -/
theorem surface_refs_counted (ops : List Op) (tracked : Tracked)
    (destroys : Meets Tracked.step (fun _ tracked op => DestroysCreated tracked op) [] Tracked.init ops)
    (ran : run Tracked.step Tracked.init ops = some tracked) : Referenced tracked := by
  have keep : forall (_ : List Op) (tracked : Tracked) (op : Op) (after : Tracked),
      Inv tracked.worker ∧ Counted tracked.worker tracked.created -> DestroysCreated tracked op ->
        tracked.step op = some after -> Inv after.worker ∧ Counted after.worker after.created := by
    rintro _ tracked op after ⟨inv, counted⟩ destroys stepped
    refine ⟨?_, counted.step inv destroys stepped⟩
    rcases Option.map_eq_some_iff.mp stepped with ⟨next, advanced, rfl⟩
    exact inv.step advanced
  have both := run_invariant_of_meets keep ops [] Tracked.init tracked ⟨Inv.init, Counted.init⟩ destroys ran
  exact both.2.referenced

/-- A drawable of a surface is half sent to one client and in the pipe of another when the surface is destroyed. -/
def queuedRun : List Op :=
  [.connect, .connect, .createSurface 1, .process 1 (fun _ => none) false, .insert 1, .pipeAdd 0 ⟨1, false⟩,
    .pipeAdd 1 ⟨1, false⟩, .finish, .pipeSend 0, .destroySurface 1]

/-- The surface stays until the drawable is sent and released. -/
theorem surface_refs_counted_queued :
    Exists fun tracked => run Tracked.step Tracked.init queuedRun = some tracked ∧ Referenced tracked := by
  have ran : (run Tracked.step Tracked.init queuedRun).isSome = true := by decide
  rcases Option.isSome_iff_exists.mp ran with ⟨tracked, isTracked⟩
  refine ⟨tracked, isTracked, surface_refs_counted queuedRun tracked ?_ isTracked⟩
  have sound : forall (_ : List Op) (tracked : Tracked) (op : Op),
      (match op with
        | .destroySurface id => tracked.created id
        | _ => true) = true -> DestroysCreated tracked op := by
    intro _ tracked op checked
    cases op with
    | destroySurface id => exact fun _ => checked
    | _ => trivial
  exact Meets.of_check sound queuedRun [] Tracked.init (by decide)

/-- The same command again drops the reference of the drawable: the canvas of the
surface is destroyed, and the drawable still refers to it. -/
theorem second_destroy_drops_drawable : Not (forall (ops : List Op) (tracked : Tracked),
    run Tracked.step Tracked.init ops = some tracked -> Referenced tracked) := by
  intro always
  have ran : (run Tracked.step Tracked.init (queuedRun ++ [.destroySurface 1])).isSome = true := by decide
  rcases Option.isSome_iff_exists.mp ran with ⟨tracked, isTracked⟩
  have refs : (run Tracked.step Tracked.init (queuedRun ++ [.destroySurface 1])).map
      (fun tracked => ((tracked.worker.surfaces 1).refs, tracked.worker.references 1)) = some (0, 1) := by decide
  rw [isTracked] at refs
  have counted := (always _ tracked isTracked).refs 1
  have both := Prod.mk.inj (Option.some.inj refs)
  rw [both.1, both.2] at counted
  omega

end Worker
end Spice
