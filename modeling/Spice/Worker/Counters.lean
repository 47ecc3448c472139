import Spice.Lib.Run
import Spice.Worker.CurrentList
import Mathlib.Algebra.BigOperators.Group.Finset.Basic
import Mathlib.Algebra.Order.BigOperators.Group.Finset
import Mathlib.Data.Multiset.Filter
import Mathlib.Data.Multiset.Bind
import Mathlib.Logic.Function.Basic

namespace Spice
namespace Tree

open Lib

/-!
# Counters of the worker

The worker counts the drawables of the trees, those that are not opaque, the shadows
and the containers, and the drawables in use; the rest of the drawables are in a free
list.  A drawable is in use as long as a tree or something else holds it.
-/

def numDrawables : Nat := 1000

/-- `--count`. -/
def countDown (count : Nat) : Nat := if count = 0 then 2 ^ 32 - 1 else count - 1

/-- `RedWorker`, with the trees and lists of the surfaces.  Who else holds a drawable (a pipe
item, a stream, an upgrade) is a list. -/
structure RedWorker where
  nSurfaces : Nat
  current : Nat -> List TreeItem
  currentList : List Drawable
  surfaceLists : Nat -> List Drawable
  refs : Nat -> Nat
  holders : List Nat
  fresh : Nat
  freeDrawables : Nat
  drawableCount : Nat
  currentSize : Nat
  transparentCount : Nat
  shadowsCount : Nat
  containersCount : Nat

namespace RedWorker

variable (worker : RedWorker)

def releaseDrawable (key : Nat) : RedWorker :=
  let refs := countDown (worker.refs key)
  let worker := { worker with refs := Function.update worker.refs key refs }
  if refs = 0 then
    { worker with freeDrawables := worker.freeDrawables + 1, drawableCount := countDown worker.drawableCount }
  else worker

def currentRemoveDrawable (item : DrawItem) : RedWorker :=
  let worker :=
    if item.drawable.effect ≠ .opaqueDraw then { worker with transparentCount := countDown worker.transparentCount }
    else worker
  let worker := if item.shadow.isSome then { worker with shadowsCount := countDown worker.shadowsCount } else worker
  let worker := { worker with
    currentList := worker.currentList.erase item.drawable
    surfaceLists := Function.update worker.surfaceLists item.drawable.surfaceId
      ((worker.surfaceLists item.drawable.surfaceId).erase item.drawable) }
  let worker := worker.releaseDrawable item.drawable.key
  { worker with currentSize := countDown worker.currentSize }

/-- The drawables that `current_remove` has come to. -/
def currentRemoveAll (items : List DrawItem) : RedWorker := items.foldl currentRemoveDrawable worker

def currentRemoveContainers : Nat -> RedWorker -> RedWorker
  | 0, worker => worker
  | count + 1, worker =>
      currentRemoveContainers count { worker with containersCount := countDown worker.containersCount }

def setCurrent (surfaceId : Nat) (ring : List TreeItem) : RedWorker :=
  { worker with current := Function.update worker.current surfaceId ring }

/-- `__current_add_drawable`, without the tree. -/
def currentAddDrawable (drawable : Drawable) : RedWorker :=
  { worker with
    currentList := drawable :: worker.currentList
    surfaceLists := Function.update worker.surfaceLists drawable.surfaceId
      (drawable :: worker.surfaceLists drawable.surfaceId)
    currentSize := worker.currentSize + 1
    refs := Function.update worker.refs drawable.key (worker.refs drawable.key + 1) }

/-- `free_one_drawable`; its assertion is that there is one. -/
def freeOneDrawable : Option RedWorker :=
  match worker.currentList.getLast? with
  | none => none
  | some drawable =>
      let freed := Tree.freeDrawables drawable.key (worker.current drawable.surfaceId)
      some (currentRemoveContainers freed.containers
        ((worker.setCurrent drawable.surfaceId freed.items).currentRemoveAll freed.removed))

/-- The loop of `get_drawable`. -/
def makeRoom : Nat -> RedWorker -> Option RedWorker
  | 0, _ => none
  | rounds + 1, worker =>
      if worker.freeDrawables = 0 then worker.freeOneDrawable.bind (makeRoom rounds) else some worker

def allocDrawable : RedWorker :=
  { worker with
    freeDrawables := worker.freeDrawables - 1
    drawableCount := worker.drawableCount + 1
    refs := Function.update worker.refs worker.fresh 1
    fresh := worker.fresh + 1 }

/-- The lists and counters when a drawable is inserted, with the count of `red_process_drawable`, and
those of `red_current_add_equal`. -/
def endAdd (item : DrawItem) : Ending -> RedWorker
  | .inserted =>
      let worker := if item.shadow.isSome then { worker with shadowsCount := worker.shadowsCount + 1 } else worker
      let worker := worker.currentAddDrawable item.drawable
      if item.drawable.effect ≠ .opaqueDraw then
        { worker with transparentCount := worker.transparentCount + 1 } else worker
  | .replaced other => (worker.currentAddDrawable item.drawable).currentRemoveDrawable other
  | .reverted other => worker.currentRemoveDrawable other
  | _ => worker

/-- What `red_current_add_qxl` does outside of the tree. -/
def currentAdd (item : DrawItem) (added : Added) : RedWorker :=
  let worker := (worker.setCurrent item.drawable.surfaceId added.ring).currentRemoveAll added.walk.removed
  let worker := currentRemoveContainers added.walk.containers worker
  { worker with containersCount := worker.containersCount + added.newContainers }.endAdd item added.ending

/-- Some others take a drawable. -/
def hold (key count : Nat) : RedWorker :=
  { worker with
    refs := Function.update worker.refs key (worker.refs key + count)
    holders := List.replicate count key ++ worker.holders }

/-- `red_process_drawable`; `holds` of the pipes and streams take the drawable. -/
def processDrawable (surfaceId : Nat) (effect : Effect) (bbox : Rect) (type : DrawType) (rgn : Region) (holds : Nat) :
    Option RedWorker :=
  if surfaceId < worker.nSurfaces then
    (makeRoom (worker.currentList.length + 1) worker).bind (fun worker =>
      let drawable : Drawable :=
        { key := worker.fresh, surfaceId := surfaceId, effect := effect, bbox := bbox, type := type }
      let worker := worker.allocDrawable
      if rgn = ∅ then some (worker.releaseDrawable drawable.key)
      else
        (redCurrentAddQxl (worker.current surfaceId) drawable rgn).bind (fun added =>
          if added.walk.asserted then
            some (((worker.currentAdd (newItem drawable rgn) added).hold drawable.key holds).releaseDrawable
              drawable.key)
          else none))
  else some worker

def currentClear (surfaceId : Nat) : RedWorker :=
  let ring := worker.current surfaceId
  currentRemoveContainers (containersAll ring) ((worker.setCurrent surfaceId []).currentRemoveAll (drawsAll ring))

/-- `red_current_flush`, for a number of rounds. -/
def currentFlush (surfaceId : Nat) : Nat -> RedWorker -> Option RedWorker
  | 0, _ => none
  | rounds + 1, worker =>
      if worker.surfaceLists surfaceId = [] then some (worker.currentClear surfaceId)
      else worker.freeOneDrawable.bind (currentFlush surfaceId rounds)

end RedWorker

/-- A drawable is processed, drawables are removed, or something holds or drops a drawable. -/
inductive Op
  | process (surfaceId : Nat) (effect : Effect) (bbox : Rect) (type : DrawType) (rgn : Region) (holds : Nat)
  | freeOne
  | clear (surfaceId : Nat)
  | flush (surfaceId : Nat)
  | hold (key : Nat)
  | drop (key : Nat)

namespace RedWorker

def step (worker : RedWorker) : Op -> Option RedWorker
  | .process surfaceId effect bbox type rgn holds => worker.processDrawable surfaceId effect bbox type rgn holds
  | .freeOne => worker.freeOneDrawable
  | .clear surfaceId => if surfaceId < worker.nSurfaces then some (worker.currentClear surfaceId) else none
  | .flush surfaceId =>
      if surfaceId < worker.nSurfaces then currentFlush surfaceId (worker.currentList.length + 1) worker else none
  | .hold key => if worker.refs key = 0 then none else some (worker.hold key 1)
  | .drop key =>
      if key ∈ worker.holders then
        some ({ worker with holders := worker.holders.erase key }.releaseDrawable key)
      else none

def init (nSurfaces : Nat) : RedWorker where
  nSurfaces := nSurfaces
  current := fun _ => []
  currentList := []
  surfaceLists := fun _ => []
  refs := fun _ => 0
  holders := []
  fresh := 0
  freeDrawables := numDrawables
  drawableCount := 0
  currentSize := 0
  transparentCount := 0
  shadowsCount := 0
  containersCount := 0

end RedWorker

structure Counted (worker : RedWorker) : Prop where
  currentSize : worker.currentSize = worker.currentList.length
  transparentCount : worker.transparentCount =
    (worker.currentList.filter (fun drawable => drawable.effect ≠ .opaqueDraw)).length
  shadowsCount : worker.shadowsCount = Finset.sum (Finset.range worker.nSurfaces) (fun surfaceId =>
    ((drawsAll (worker.current surfaceId)).filter (fun item => item.shadow.isSome)).length)
  containersCount : worker.containersCount =
    Finset.sum (Finset.range worker.nSurfaces) (fun surfaceId => containersAll (worker.current surfaceId))
  drawableCount : worker.drawableCount + worker.freeDrawables = numDrawables

/-- The lists and counters when these are the entries of the trees; `extra` are references that
are not held by a tree or by one of the holders.  `counts` is whether the drawables that are not
opaque were counted. -/
structure Lists (counts : Prop) (worker : RedWorker) (content : Multiset Entry) (extra : Multiset Nat) : Prop where
  currentList : (worker.currentList : Multiset Drawable) = content.map Prod.fst
  surfaceLists : forall surfaceId, (worker.surfaceLists surfaceId : Multiset Drawable) =
    (content.map Prod.fst).filter (fun drawable => drawable.surfaceId = surfaceId)
  known : forall one, one ∈ content -> one.1.surfaceId < worker.nSurfaces
  nodup : (content.map (fun one => one.1.key)).Nodup
  currentSize : worker.currentSize = content.card
  transparentCount : counts -> worker.transparentCount = content.countP (fun one => one.1.effect ≠ .opaqueDraw)
  shadowsCount : worker.shadowsCount = content.countP (fun one => one.2 = true)
  refs : forall key, worker.refs key =
    (content.map (fun one => one.1.key) + (worker.holders : Multiset Nat) + extra).count key
  fresh : forall key, 0 < worker.refs key -> key < worker.fresh
  drawableCount : worker.drawableCount = ((Finset.range worker.fresh).filter (fun key => 0 < worker.refs key)).card
  free : worker.drawableCount + worker.freeDrawables = numDrawables

theorem countDown_succ (count : Nat) : countDown (count + 1) = count := by
  rw [countDown, if_neg (Nat.succ_ne_zero count), Nat.add_sub_cancel]

namespace Lists

variable {counts : Prop} {worker : RedWorker} {content : Multiset Entry} {extra : Multiset Nat} {key : Nat}

theorem used_erase {refs : Nat -> Nat} {fresh : Nat} (below : key < fresh) (held : 0 < refs key) :
    ((Finset.range fresh).filter (fun other => 0 < refs other)).card =
      ((Finset.range fresh).filter (fun other => 0 < Function.update refs key 0 other)).card + 1 := by
  have member : key ∈ (Finset.range fresh).filter (fun other => 0 < refs other) :=
    Finset.mem_filter.mpr ⟨Finset.mem_range.mpr below, held⟩
  have erased : (Finset.range fresh).filter (fun other => 0 < Function.update refs key 0 other) =
      ((Finset.range fresh).filter (fun other => 0 < refs other)).erase key := by
    ext other
    simp only [Finset.mem_filter, Finset.mem_erase]
    by_cases same : other = key
    · subst same
      simp
    · simp [same]
  rw [erased, Finset.card_erase_add_one member]

theorem used_update {refs : Nat -> Nat} {fresh count : Nat} (held : 0 < refs key) (left : 0 < count) :
    ((Finset.range fresh).filter (fun other => 0 < Function.update refs key count other)) =
      ((Finset.range fresh).filter (fun other => 0 < refs other)) := by
  refine Finset.filter_congr (fun other _ => ?_)
  by_cases same : other = key
  · subst same
    simp [held, left]
  · rw [Function.update_of_ne same]

theorem refs_drop (lists : Lists counts worker content ({key} + extra)) :
    worker.refs key = (content.map (fun one => one.1.key) + (worker.holders : Multiset Nat) + extra).count key + 1 := by
  rw [lists.refs key]
  simp only [Multiset.count_add, Multiset.count_singleton_self]
  omega

/-- A reference of a drawable is given back. -/
theorem releaseDrawable (lists : Lists counts worker content ({key} + extra)) :
    Lists counts (worker.releaseDrawable key) content extra := by
  have now := lists.refs_drop
  have below := lists.fresh key (by omega)
  have others : forall other, other ≠ key -> worker.refs other =
      (content.map (fun one => one.1.key) + (worker.holders : Multiset Nat) + extra).count other := by
    intro other different
    rw [lists.refs other]
    simp only [Multiset.count_add, Multiset.count_singleton, if_neg different, Nat.zero_add]
  unfold RedWorker.releaseDrawable
  rw [now, countDown_succ]
  generalize isLeft : (content.map (fun one => one.1.key) + (worker.holders : Multiset Nat) + extra).count key = left
  have refs : forall other, Function.update worker.refs key left other =
      (content.map (fun one => one.1.key) + (worker.holders : Multiset Nat) + extra).count other := by
    intro other
    by_cases same : other = key
    · subst same
      rw [Function.update_self, isLeft]
    · rw [Function.update_of_ne same, others other same]
  have fresh : forall other, 0 < Function.update worker.refs key left other -> other < worker.fresh := by
    intro other held
    by_cases same : other = key
    · exact same ▸ below
    · rw [Function.update_of_ne same] at held
      exact lists.fresh other held
  have used := lists.drawableCount
  have free := lists.free
  simp only
  split
  · next none =>
      subst none
      rw [used_erase below (by omega)] at used
      exact
        { lists with
          refs := refs
          fresh := fresh
          drawableCount := by
            show countDown worker.drawableCount = _
            rw [used, countDown_succ]
          free := by
            show countDown worker.drawableCount + (worker.freeDrawables + 1) = numDrawables
            rw [used, countDown_succ]
            omega }
  · next more =>
      have held : 0 < worker.refs key := by omega
      rw [<- used_update held (Nat.pos_of_ne_zero more)] at used
      exact { lists with refs := refs, fresh := fresh, drawableCount := used, free := free }

/-- Taking a drawable out of the tree releases it. -/
theorem currentRemoveDrawable_eq (worker : RedWorker) (item : DrawItem) :
    worker.currentRemoveDrawable item = RedWorker.releaseDrawable { worker with
      transparentCount :=
        if item.drawable.effect ≠ .opaqueDraw then countDown worker.transparentCount else worker.transparentCount
      shadowsCount := if item.shadow.isSome then countDown worker.shadowsCount else worker.shadowsCount
      currentList := worker.currentList.erase item.drawable
      surfaceLists := Function.update worker.surfaceLists item.drawable.surfaceId
        ((worker.surfaceLists item.drawable.surfaceId).erase item.drawable)
      currentSize := countDown worker.currentSize } item.drawable.key := by
  unfold RedWorker.currentRemoveDrawable RedWorker.releaseDrawable
  simp only
  split
  · split
    · split
      · rfl
      · rfl
    · split
      · rfl
      · rfl
  · split
    · split
      · rfl
      · rfl
    · split
      · rfl
      · rfl

theorem countP_drop {p : Entry -> Prop} [DecidablePred p] (one : Entry) {count : Nat}
    (isCount : count = ({one} + content).countP p) : (if p one then countDown count else count) = content.countP p := by
  rw [Multiset.singleton_add, Multiset.countP_cons] at isCount
  split
  · next counts =>
      rw [if_pos counts] at isCount
      rw [isCount, countDown_succ]
  · next ignored =>
      rw [if_neg ignored] at isCount
      exact isCount

/-- A drawable is taken out of the tree. -/
theorem currentRemoveDrawable {item : DrawItem} (lists : Lists counts worker ({entry item} + content) extra) :
    Lists counts (worker.currentRemoveDrawable item) content extra := by
  rw [currentRemoveDrawable_eq]
  have listed : (({entry item} + content).map Prod.fst : Multiset Drawable) =
      item.drawable ::ₘ content.map Prod.fst := by
    rw [Multiset.singleton_add, Multiset.map_cons]
    rfl
  refine releaseDrawable ⟨?_, ?_, ?_, ?_, ?_, ?_, ?_, ?_, lists.fresh, lists.drawableCount, lists.free⟩
  · show ((worker.currentList.erase item.drawable : List Drawable) : Multiset Drawable) = content.map Prod.fst
    rw [<- Multiset.coe_erase, lists.currentList, listed, Multiset.erase_cons_head]
  · intro surfaceId
    have now := lists.surfaceLists surfaceId
    rw [listed] at now
    show ((Function.update worker.surfaceLists item.drawable.surfaceId _ surfaceId : List Drawable) :
      Multiset Drawable) = _
    by_cases same : surfaceId = item.drawable.surfaceId
    · subst same
      rw [Function.update_self, <- Multiset.coe_erase, now,
        Multiset.filter_cons_of_pos (p := fun drawable : Drawable =>
          drawable.surfaceId = item.drawable.surfaceId) _ rfl,
        Multiset.erase_cons_head]
    · rw [Function.update_of_ne same, now, Multiset.filter_cons_of_neg _ (fun isSame => same isSame.symm)]
  · exact fun one member => lists.known one (Multiset.mem_add.mpr (Or.inr member))
  · exact Multiset.nodup_of_le (Multiset.map_le_map (Multiset.le_add_left _ _)) lists.nodup
  · show countDown worker.currentSize = content.card
    rw [lists.currentSize, Multiset.singleton_add, Multiset.card_cons, countDown_succ]
  · exact fun counted => countP_drop (entry item) (lists.transparentCount counted)
  · exact countP_drop (p := fun one => one.2 = true) (entry item) lists.shadowsCount
  · intro key
    show worker.refs key = _
    rw [lists.refs key, Multiset.singleton_add, Multiset.map_cons]
    simp only [Multiset.count_add, Multiset.count_cons, Multiset.count_singleton]
    have isKey : (entry item).1.key = item.drawable.key := rfl
    rw [isKey]
    omega

theorem currentRemoveAll : forall (items : List DrawItem) {worker : RedWorker},
    Lists counts worker (tally items + content) extra -> Lists counts (worker.currentRemoveAll items) content extra
  | [], worker, lists => by
      rw [tally_nil, zero_add] at lists
      exact lists
  | item :: rest, worker, lists => by
      rw [tally_cons, add_assoc] at lists
      exact currentRemoveAll rest lists.currentRemoveDrawable

/-- A drawable that is in use gets into a tree. -/
theorem enter {item : DrawItem} (lists : Lists counts worker content extra)
    (known : item.drawable.surfaceId < worker.nSurfaces)
    (isNew : item.drawable.key ∉ content.map (fun one => one.1.key)) (held : 0 < worker.refs item.drawable.key) :
    Lists counts { worker.currentAddDrawable item.drawable with
      transparentCount := worker.transparentCount + if item.drawable.effect ≠ .opaqueDraw then 1 else 0
      shadowsCount := worker.shadowsCount + if item.shadow.isSome then 1 else 0 } ({entry item} + content) extra := by
  have listed : (({entry item} + content).map Prod.fst : Multiset Drawable) =
      item.drawable ::ₘ content.map Prod.fst := by
    rw [Multiset.singleton_add, Multiset.map_cons]
    rfl
  refine ⟨?_, ?_, ?_, ?_, ?_, ?_, ?_, ?_, ?_, ?_, lists.free⟩
  · show ((item.drawable :: worker.currentList : List Drawable) : Multiset Drawable) = _
    rw [listed, <- lists.currentList, Multiset.cons_coe]
  · intro surfaceId
    have now := lists.surfaceLists surfaceId
    rw [listed]
    show ((Function.update worker.surfaceLists item.drawable.surfaceId _ surfaceId : List Drawable) :
      Multiset Drawable) = _
    by_cases same : surfaceId = item.drawable.surfaceId
    · subst same
      rw [Function.update_self, <- Multiset.cons_coe, now,
        Multiset.filter_cons_of_pos (p := fun drawable : Drawable =>
          drawable.surfaceId = item.drawable.surfaceId) _ rfl]
    · rw [Function.update_of_ne same, now, Multiset.filter_cons_of_neg _ (fun isSame => same isSame.symm)]
  · intro one member
    rcases Multiset.mem_add.mp member with isNew | isOld
    · rw [Multiset.mem_singleton.mp isNew]
      exact known
    · exact lists.known one isOld
  · rw [Multiset.singleton_add, Multiset.map_cons]
    exact Multiset.nodup_cons.mpr ⟨isNew, lists.nodup⟩
  · show worker.currentSize + 1 = _
    rw [lists.currentSize, Multiset.singleton_add, Multiset.card_cons]
  · intro counted
    show worker.transparentCount + _ = _
    rw [lists.transparentCount counted, Multiset.singleton_add, Multiset.countP_cons]
    rfl
  · show worker.shadowsCount + _ = _
    rw [lists.shadowsCount, Multiset.singleton_add, Multiset.countP_cons]
    rfl
  · intro key
    rw [Multiset.singleton_add, Multiset.map_cons]
    simp only [Multiset.count_add, Multiset.count_cons]
    have now := lists.refs key
    simp only [Multiset.count_add] at now
    have isKey : (entry item).1.key = item.drawable.key := rfl
    rw [isKey]
    show Function.update worker.refs item.drawable.key (worker.refs item.drawable.key + 1) key = _
    by_cases same : key = item.drawable.key
    · subst same
      rw [Function.update_self, if_pos rfl, now]
      show _ = _ + 1 + Multiset.count _ (worker.holders : Multiset Nat) + _
      omega
    · rw [Function.update_of_ne same, if_neg same, now]
      rfl
  · intro key more
    by_cases same : key = item.drawable.key
    · exact lists.fresh key (same ▸ held)
    · rw [show (_ : RedWorker).refs key = worker.refs key from Function.update_of_ne same _ _] at more
      exact lists.fresh key more
  · show worker.drawableCount = ((Finset.range worker.fresh).filter
      (fun key => 0 < Function.update worker.refs _ _ key)).card
    rw [used_update held (Nat.succ_pos _)]
    exact lists.drawableCount

theorem recount {count : Nat} (lists : Lists counts worker content extra)
    (same : counts -> count = worker.transparentCount) :
    Lists counts { worker with transparentCount := count } content extra :=
  { lists with transparentCount := fun counted => (same counted).trans (lists.transparentCount counted) }

theorem fresh_unused (lists : Lists counts worker content extra) : worker.refs worker.fresh = 0 := by
  by_contra held
  exact Nat.lt_irrefl _ (lists.fresh _ (Nat.pos_of_ne_zero held))

theorem fresh_new (lists : Lists counts worker content extra) : worker.fresh ∉ content.map (fun one => one.1.key) := by
  intro member
  have counted := lists.refs worker.fresh
  rw [lists.fresh_unused, Multiset.count_add, Multiset.count_add] at counted
  have one := Multiset.one_le_count_iff_mem.mpr member
  omega

/-- A drawable is taken from the free ones. -/
theorem allocDrawable (lists : Lists counts worker content extra) (room : worker.freeDrawables ≠ 0) :
    Lists counts worker.allocDrawable content ({worker.fresh} + extra) := by
  have unused := lists.fresh_unused
  refine ⟨lists.currentList, lists.surfaceLists, lists.known, lists.nodup, lists.currentSize, lists.transparentCount,
    lists.shadowsCount, ?_, ?_, ?_, ?_⟩
  · intro key
    have now := lists.refs key
    simp only [Multiset.count_add, Multiset.count_singleton] at now ⊢
    show Function.update worker.refs worker.fresh 1 key = _ + Multiset.count key (worker.holders : Multiset Nat) + _
    by_cases same : key = worker.fresh
    · subst same
      rw [Function.update_self, if_pos rfl]
      omega
    · rw [Function.update_of_ne same, if_neg same]
      omega
  · intro key held
    show key < worker.fresh + 1
    by_cases same : key = worker.fresh
    · omega
    · rw [show worker.allocDrawable.refs key = worker.refs key from Function.update_of_ne same _ _] at held
      exact Nat.lt_succ_of_lt (lists.fresh key held)
  · show worker.drawableCount + 1 = ((Finset.range (worker.fresh + 1)).filter
      (fun key => 0 < Function.update worker.refs worker.fresh 1 key)).card
    have same : (Finset.range worker.fresh).filter (fun key => 0 < Function.update worker.refs worker.fresh 1 key) =
        (Finset.range worker.fresh).filter (fun key => 0 < worker.refs key) := by
      refine Finset.filter_congr (fun key below => ?_)
      rw [Function.update_of_ne (Nat.ne_of_lt (Finset.mem_range.mp below))]
    have outside : worker.fresh ∉ (Finset.range worker.fresh).filter (fun key => 0 < worker.refs key) := by
      simp
    rw [Finset.range_add_one, Finset.filter_insert, Function.update_self, if_pos Nat.one_pos, same,
      Finset.card_insert_of_notMem outside, lists.drawableCount]
  · show worker.drawableCount + 1 + (worker.freeDrawables - 1) = numDrawables
    have free := lists.free
    omega

/-- Pipes take references of a drawable. -/
theorem hold (lists : Lists counts worker content extra) (held : 0 < worker.refs key) (count : Nat) :
    Lists counts (worker.hold key count) content extra := by
  refine ⟨lists.currentList, lists.surfaceLists, lists.known, lists.nodup, lists.currentSize, lists.transparentCount,
    lists.shadowsCount, ?_, ?_, ?_, lists.free⟩
  · intro other
    have now := lists.refs other
    show Function.update worker.refs key (worker.refs key + count) other =
      (_ + ((List.replicate count key ++ worker.holders : List Nat) : Multiset Nat) + extra).count other
    rw [<- Multiset.coe_add]
    simp only [Multiset.count_add, Multiset.coe_count, List.count_replicate] at now ⊢
    by_cases same : other = key
    · subst same
      rw [Function.update_self, if_pos (beq_self_eq_true other), now]
      omega
    · rw [Function.update_of_ne same, if_neg (fun isSame => same (eq_of_beq isSame).symm), now]
      omega
  · intro other more
    by_cases same : other = key
    · exact lists.fresh other (same ▸ held)
    · rw [show (worker.hold key count).refs other = worker.refs other from Function.update_of_ne same _ _] at more
      exact lists.fresh other more
  · show worker.drawableCount = ((Finset.range worker.fresh).filter
      (fun other => 0 < Function.update worker.refs _ _ other)).card
    rw [used_update held (by omega)]
    exact lists.drawableCount

end Lists

variable {surfaceId : Nat}

namespace RedWorker

variable (worker : RedWorker)

/-- The entries of all trees. -/
def total : Multiset Entry :=
  Finset.sum (Finset.range worker.nSurfaces) (fun surfaceId => tally (drawsAll (worker.current surfaceId)))

def allContainers : Nat :=
  Finset.sum (Finset.range worker.nSurfaces) (fun surfaceId => containersAll (worker.current surfaceId))

/-- What is not touched when drawables are removed. -/
structure SameTrees (one two : RedWorker) : Prop where
  nSurfaces : one.nSurfaces = two.nSurfaces
  current : one.current = two.current
  containersCount : one.containersCount = two.containersCount

theorem SameTrees.trans {one two three : RedWorker} (first : SameTrees one two) (second : SameTrees two three) :
    SameTrees one three :=
  ⟨first.nSurfaces.trans second.nSurfaces, first.current.trans second.current,
    first.containersCount.trans second.containersCount⟩

theorem releaseDrawable_trees (key : Nat) : SameTrees (worker.releaseDrawable key) worker := by
  unfold releaseDrawable
  simp only
  split
  · exact ⟨rfl, rfl, rfl⟩
  · exact ⟨rfl, rfl, rfl⟩

theorem currentRemoveDrawable_trees (item : DrawItem) : SameTrees (worker.currentRemoveDrawable item) worker := by
  rw [Lists.currentRemoveDrawable_eq]
  exact (releaseDrawable_trees _ _).trans ⟨rfl, rfl, rfl⟩

theorem currentRemoveAll_trees : forall (items : List DrawItem) (worker : RedWorker),
    SameTrees (worker.currentRemoveAll items) worker
  | [], _ => ⟨rfl, rfl, rfl⟩
  | item :: rest, worker =>
      (currentRemoveAll_trees rest (worker.currentRemoveDrawable item)).trans (worker.currentRemoveDrawable_trees item)

theorem currentRemoveContainers_eq : forall (count : Nat) (worker : RedWorker), count ≤ worker.containersCount ->
    currentRemoveContainers count worker = { worker with containersCount := worker.containersCount - count }
  | 0, _, _ => rfl
  | count + 1, worker, enough => by
      have isCount : worker.containersCount = (worker.containersCount - 1) + 1 := by omega
      rw [currentRemoveContainers, isCount, countDown_succ, currentRemoveContainers_eq count _ (by simp only; omega)]
      simp only
      rw [Nat.add_sub_add_right]

theorem currentRemoveContainers_nSurfaces : forall (count : Nat) (worker : RedWorker),
    (currentRemoveContainers count worker).nSurfaces = worker.nSurfaces
  | 0, _ => rfl
  | count + 1, _ => currentRemoveContainers_nSurfaces count _

theorem freeOneDrawable_nSurfaces {worker next : RedWorker} (stepped : worker.freeOneDrawable = some next) :
    next.nSurfaces = worker.nSurfaces := by
  unfold freeOneDrawable at stepped
  split at stepped
  · cases stepped
  · cases stepped
    rw [currentRemoveContainers_nSurfaces]
    exact (currentRemoveAll_trees _ _).nSurfaces

theorem makeRoom_nSurfaces : forall (rounds : Nat) {worker next : RedWorker}, makeRoom rounds worker = some next ->
    next.nSurfaces = worker.nSurfaces
  | 0, _, _, stepped => by cases stepped
  | rounds + 1, worker, next, stepped => by
      rw [makeRoom] at stepped
      split at stepped
      · rcases Option.bind_eq_some_iff.mp stepped with ⟨middle, freed, others⟩
        exact (makeRoom_nSurfaces rounds others).trans (freeOneDrawable_nSurfaces freed)
      · cases stepped
        rfl

variable {worker}

theorem SameTrees.total {other : RedWorker} (same : SameTrees worker other) : worker.total = other.total := by
  rw [RedWorker.total, RedWorker.total, same.nSurfaces, same.current]

theorem SameTrees.allContainers {other : RedWorker} (same : SameTrees worker other) :
    worker.allContainers = other.allContainers := by
  rw [RedWorker.allContainers, RedWorker.allContainers, same.nSurfaces, same.current]

theorem sum_setCurrent {M : Type} [AddCommMonoid M] (measure : List TreeItem -> M)
    (known : surfaceId < worker.nSurfaces) (ring : List TreeItem) :
    Finset.sum (Finset.range worker.nSurfaces)
      (fun other => measure ((worker.setCurrent surfaceId ring).current other)) =
      measure ring + Finset.sum ((Finset.range worker.nSurfaces).erase surfaceId)
        (fun other => measure (worker.current other)) := by
  rw [<- Finset.add_sum_erase _ _ (Finset.mem_range.mpr known)]
  refine congrArg₂ _ ?_ (Finset.sum_congr rfl (fun other member => ?_))
  · simp only [setCurrent, Function.update_self]
  · simp only [setCurrent, Function.update_of_ne (Finset.ne_of_mem_erase member)]

theorem setCurrent_self (surfaceId : Nat) : worker.setCurrent surfaceId (worker.current surfaceId) = worker := by
  rw [setCurrent, Function.update_eq_self]

theorem total_split (known : surfaceId < worker.nSurfaces) :
    Exists fun others : Multiset Entry => worker.total = tally (drawsAll (worker.current surfaceId)) + others ∧
      forall ring, (worker.setCurrent surfaceId ring).total = tally (drawsAll ring) + others := by
  have split := sum_setCurrent (fun ring => tally (drawsAll ring)) known
  refine ⟨_, ?_, split⟩
  have now := split (worker.current surfaceId)
  rw [setCurrent_self] at now
  exact now

theorem allContainers_split (known : surfaceId < worker.nSurfaces) :
    Exists fun others : Nat => worker.allContainers = containersAll (worker.current surfaceId) + others ∧
      forall ring, (worker.setCurrent surfaceId ring).allContainers = containersAll ring + others := by
  have split := sum_setCurrent containersAll known
  refine ⟨_, ?_, split⟩
  have now := split (worker.current surfaceId)
  rw [setCurrent_self] at now
  exact now

end RedWorker

/-- The lists and counters match the trees. -/
structure Kept (counts : Prop) (worker : RedWorker) (extra : Multiset Nat) : Prop where
  lists : Lists counts worker worker.total extra
  containersCount : worker.containersCount = worker.allContainers

namespace Kept

open RedWorker

variable {counts : Prop} {worker : RedWorker} {extra : Multiset Nat}

/-- Drawables that were removed from a tree are released. -/
theorem remove {surfaceId count : Nat} {ring : List TreeItem} {removed : List DrawItem}
    (kept : Kept counts worker extra)
    (known : surfaceId < worker.nSurfaces)
    (account : tally (drawsAll ring) + tally removed = tally (drawsAll (worker.current surfaceId)))
    (places : containersAll ring + count = containersAll (worker.current surfaceId)) :
    Kept counts (currentRemoveContainers count
      ((worker.setCurrent surfaceId ring).currentRemoveAll removed)) extra := by
  rcases total_split known with ⟨others, now, next⟩
  rcases allContainers_split known with ⟨left, nowCount, nextCount⟩
  have trees := currentRemoveAll_trees removed (worker.setCurrent surfaceId ring)
  have counted : ((worker.setCurrent surfaceId ring).currentRemoveAll removed).containersCount = worker.allContainers :=
    trees.containersCount.trans kept.containersCount
  have started : Lists counts (worker.setCurrent surfaceId ring)
      (tally removed + (tally (drawsAll ring) + others)) extra := by
    have isTotal : worker.total = tally removed + (tally (drawsAll ring) + others) := by
      rw [now, <- account]
      abel
    rw [<- isTotal]
    exact { kept.lists with }
  have lists := Lists.currentRemoveAll removed started
  rw [currentRemoveContainers_eq count _ (by rw [counted]; omega)]
  refine ⟨?_, ?_⟩
  · have isTotal := trees.total.trans (next ring)
    show Lists counts _ ((worker.setCurrent surfaceId ring).currentRemoveAll removed).total extra
    rw [isTotal]
    exact { lists with }
  · have isCount := trees.allContainers.trans (nextCount ring)
    show _ - count = ((worker.setCurrent surfaceId ring).currentRemoveAll removed).allContainers
    rw [isCount, counted]
    omega

/-- The oldest drawable is freed. -/
theorem freeOneDrawable {next : RedWorker} (kept : Kept counts worker extra)
    (stepped : worker.freeOneDrawable = some next) :
    Kept counts next extra := by
  unfold RedWorker.freeOneDrawable at stepped
  cases isLast : worker.currentList.getLast? with
  | none =>
      rw [isLast] at stepped
      cases stepped
  | some drawable =>
      rw [isLast] at stepped
      cases stepped
      have listed : drawable ∈ worker.total.map Prod.fst := by
        rw [<- kept.lists.currentList]
        exact List.mem_of_getLast? isLast
      rcases Multiset.mem_map.mp listed with ⟨one, member, rfl⟩
      have freed := freeDrawables_conserves one.1.key (worker.current one.1.surfaceId)
      exact kept.remove (kept.lists.known one member) freed.1 freed.2

theorem makeRoom : forall (rounds : Nat) {worker next : RedWorker}, Kept counts worker extra ->
    RedWorker.makeRoom rounds worker = some next -> Kept counts next extra ∧ next.freeDrawables ≠ 0
  | 0, _, _, _, stepped => by cases stepped
  | rounds + 1, worker, next, kept, stepped => by
      rw [RedWorker.makeRoom] at stepped
      split at stepped
      · rcases Option.bind_eq_some_iff.mp stepped with ⟨middle, freed, others⟩
        exact makeRoom rounds (kept.freeOneDrawable freed) others
      · next room =>
          cases stepped
          exact ⟨kept, room⟩

theorem currentClear (kept : Kept counts worker extra) (known : surfaceId < worker.nSurfaces) :
    Kept counts (worker.currentClear surfaceId) extra :=
  kept.remove known (by simp) (by simp)

theorem currentFlush : forall (rounds : Nat) {worker next : RedWorker}, Kept counts worker extra ->
    surfaceId < worker.nSurfaces -> RedWorker.currentFlush surfaceId rounds worker = some next -> Kept counts next extra
  | 0, _, _, _, _, stepped => by cases stepped
  | rounds + 1, worker, next, kept, known, stepped => by
      rw [RedWorker.currentFlush] at stepped
      split at stepped
      · cases stepped
        exact kept.currentClear known
      · rcases Option.bind_eq_some_iff.mp stepped with ⟨middle, freed, others⟩
        exact currentFlush rounds (kept.freeOneDrawable freed) (freeOneDrawable_nSurfaces freed ▸ known) others

theorem of_trees {middle : RedWorker} (lists : Lists counts worker middle.total extra) (trees : SameTrees worker middle)
    (containersCount : middle.containersCount = middle.allContainers) : Kept counts worker extra where
  lists := trees.total ▸ lists
  containersCount := trees.containersCount.trans (containersCount.trans trees.allContainers.symm)

/-- The lists and counters get what the tree has got. -/
theorem endAdd {item : DrawItem} {ending : Ending} {stays : Multiset Entry}
    (lists : Lists counts worker (tally ending.lost + stays) extra)
    (isTotal : worker.total = stays + tally (ending.gained item))
    (containersCount : worker.containersCount = worker.allContainers)
    (known : item.drawable.surfaceId < worker.nSurfaces) (held : 0 < worker.refs item.drawable.key)
    (isNew : item.drawable.key ∉ (tally ending.lost + stays).map (fun one => one.1.key))
    (replaces : forall other, ending = .replaced other -> item.shadow = none ∧
      (counts -> item.drawable.effect = .opaqueDraw)) :
    Kept counts (worker.endAdd item ending) extra := by
  cases ending with
  | inserted =>
      simp only [Ending.lost, Ending.gained, tally_nil, tally_cons, zero_add, add_zero] at lists isTotal isNew
      have entered := lists.enter known isNew held
      rw [add_comm {entry item}, <- isTotal] at entered
      unfold RedWorker.endAdd
      simp only
      split
      · next hasShadow =>
          rw [if_pos hasShadow] at entered
          split
          · next transparent =>
              rw [if_pos transparent] at entered
              exact of_trees entered ⟨rfl, rfl, rfl⟩ containersCount
          · next isOpaque =>
              rw [if_neg isOpaque] at entered
              exact of_trees entered ⟨rfl, rfl, rfl⟩ containersCount
      · next noShadow =>
          rw [if_neg noShadow] at entered
          split
          · next transparent =>
              rw [if_pos transparent] at entered
              exact of_trees entered ⟨rfl, rfl, rfl⟩ containersCount
          · next isOpaque =>
              rw [if_neg isOpaque] at entered
              exact of_trees entered ⟨rfl, rfl, rfl⟩ containersCount
  | replaced other =>
      simp only [Ending.lost, Ending.gained, tally_nil, tally_cons, add_zero] at lists isTotal isNew
      rcases replaces other rfl with ⟨noShadow, isOpaque⟩
      have entered := lists.enter known isNew held
      rw [noShadow, add_left_comm] at entered
      have uncounted := entered.recount (fun counted => by
        show worker.transparentCount = worker.transparentCount + _
        rw [if_neg (not_not.mpr (isOpaque counted))]
        rfl)
      have left := uncounted.currentRemoveDrawable
      rw [add_comm {entry item}, <- isTotal] at left
      exact of_trees left ((currentRemoveDrawable_trees _ _).trans ⟨rfl, rfl, rfl⟩) containersCount
  | reverted other =>
      simp only [Ending.lost, Ending.gained, tally_nil, tally_cons, add_zero] at lists isTotal
      have left := lists.currentRemoveDrawable
      rw [<- isTotal] at left
      exact of_trees left (currentRemoveDrawable_trees _ _) containersCount
  | repeated other =>
      simp only [Ending.lost, Ending.gained, tally_nil, zero_add, add_zero] at lists isTotal
      rw [<- isTotal] at lists
      exact ⟨lists, containersCount⟩
  | ignored =>
      simp only [Ending.lost, Ending.gained, tally_nil, zero_add, add_zero] at lists isTotal
      rw [<- isTotal] at lists
      exact ⟨lists, containersCount⟩

/-- A drawable is added to a tree; `extra` has the reference of the one who adds it. -/
theorem currentAdd {item : DrawItem} {added : Added} {rgn : Region} {asserted : Bool} (kept : Kept counts worker extra)
    (known : item.drawable.surfaceId < worker.nSurfaces) (isExtra : item.drawable.key ∈ extra)
    (isNew : item.drawable.key ∉ worker.total.map (fun one => one.1.key))
    (adds : Adds item (worker.current item.drawable.surfaceId) (.start rgn asserted) added)
    (replaces : forall other, added.ending = .replaced other ->
      item.shadow = none ∧ (counts -> item.drawable.effect = .opaqueDraw)) :
    Kept counts (worker.currentAdd item added) extra := by
  rcases adds.account with ⟨stays, inRing, left⟩
  have places := adds.places
  have created := adds.created
  simp only [Tree.account, Tree.places, Walk.start, tally_nil, add_zero] at left places
  rcases total_split known with ⟨others, now, next⟩
  rcases allContainers_split known with ⟨apart, nowCount, nextCount⟩
  have trees := currentRemoveAll_trees added.walk.removed (worker.setCurrent item.drawable.surfaceId added.ring)
  have isAll : worker.total = tally added.walk.removed + (tally added.ending.lost + (stays + others)) := by
    rw [now, <- left]
    abel
  have started : Lists counts (worker.setCurrent item.drawable.surfaceId added.ring)
      (tally added.walk.removed + (tally added.ending.lost + (stays + others))) extra := by
    rw [<- isAll]
    exact { kept.lists with }
  have stillNew : item.drawable.key ∉ (tally added.ending.lost + (stays + others)).map (fun one => one.1.key) := by
    intro member
    rw [isAll] at isNew
    exact isNew (Multiset.mem_of_le (Multiset.map_le_map (Multiset.le_add_left _ _)) member)
  have lists := Lists.currentRemoveAll added.walk.removed started
  have counted := trees.containersCount.trans kept.containersCount
  have isTotal := (trees.total.trans (next added.ring)).trans (congrArg (· + others) inRing)
  have isCount := trees.allContainers.trans (nextCount added.ring)
  have isKnown := trees.nSurfaces.symm ▸ known
  unfold RedWorker.currentAdd
  simp only
  rw [currentRemoveContainers_eq _ _ (by rw [counted]; omega)]
  generalize (worker.setCurrent item.drawable.surfaceId added.ring).currentRemoveAll added.walk.removed = middle at *
  have held : 0 < middle.refs item.drawable.key := by
    rw [lists.refs, Multiset.count_add]
    have one := Multiset.one_le_count_iff_mem.mpr isExtra
    omega
  have containersCount : middle.containersCount - added.walk.containers + added.newContainers =
      middle.allContainers := by
    omega
  rw [add_right_comm] at isTotal
  exact endAdd { lists with } isTotal containersCount isKnown held stillNew replaces

end Kept

/-- An equal item of a brush is not replaced: the drawable is no opaque brush, or it comes to no
item with the same region and geometry. -/
def ReplacesNoBrush (worker : RedWorker) : Op -> Prop
  | .process surfaceId effect bbox type rgn _ =>
      effect = .opaqueBrush -> forall room, RedWorker.makeRoom (worker.currentList.length + 1) worker = some room ->
        forall other, firstEqual (newItem ⟨room.fresh, surfaceId, effect, bbox, type⟩ rgn) true
          (room.current surfaceId) ≠
          some (.replaced other)
  | _ => True

namespace Kept

open RedWorker

variable {counts : Prop} {worker next : RedWorker}

/-- A drawable is put into its tree. -/
theorem processDrawable {effect : Effect} {bbox : Rect} {type : DrawType} {rgn : Region} {holds : Nat}
    (kept : Kept counts worker 0) (replaces :
    counts -> ReplacesNoBrush worker (.process surfaceId effect bbox type rgn holds))
    (stepped : worker.processDrawable surfaceId effect bbox type rgn holds = some next) : Kept counts next 0 := by
  unfold RedWorker.processDrawable at stepped
  split at stepped
  · next known =>
      rcases Option.bind_eq_some_iff.mp stepped with ⟨room, isRoom, processed⟩
      rcases kept.makeRoom _ isRoom with ⟨keptRoom, hasRoom⟩
      have knownRoom : surfaceId < room.nSurfaces := makeRoom_nSurfaces _ isRoom ▸ known
      have allocated : Kept counts room.allocDrawable ({room.fresh} + 0) :=
        of_trees (keptRoom.lists.allocDrawable hasRoom) ⟨rfl, rfl, rfl⟩ keptRoom.containersCount
      simp only at processed
      split at processed
      · cases processed
        exact of_trees allocated.lists.releaseDrawable (releaseDrawable_trees _ _) allocated.containersCount
      · rcases Option.bind_eq_some_iff.mp processed with ⟨added, isAdded, ends⟩
        split at ends
        · cases ends
          have equal : forall other, added.ending = .replaced other ->
              (newItem ⟨room.fresh, surfaceId, effect, bbox, type⟩ rgn).shadow = none ∧
                (counts -> effect = .opaqueDraw) := by
            intro other isEnding
            rcases redCurrentAddQxl_replaced isAdded isEnding with ⟨noShadow, isOpaque | ⟨isBrush, isFirst⟩⟩
            · exact ⟨noShadow, fun _ => isOpaque⟩
            · exact ⟨noShadow, fun counted => absurd isFirst (replaces counted isBrush room isRoom other)⟩
          have isNew : (newItem ⟨room.fresh, surfaceId, effect, bbox, type⟩ rgn).drawable.key ∉
              room.allocDrawable.total.map (fun one => one.1.key) := keptRoom.lists.fresh_new
          have addedKept := allocated.currentAdd knownRoom (by simp [newItem]) isNew
              (redCurrentAddQxl_adds isAdded) equal
          have held : 0 < (room.allocDrawable.currentAdd
              (newItem ⟨room.fresh, surfaceId, effect, bbox, type⟩ rgn) added).refs room.fresh := by
            rw [addedKept.lists.refs]
            simp
          have holding := addedKept.lists.hold held holds
          exact of_trees holding.releaseDrawable ((releaseDrawable_trees _ _).trans ⟨rfl, rfl, rfl⟩)
            addedKept.containersCount
        · cases ends
  · cases stepped
    exact kept

/-- Every operation that replaces no brush keeps the counters. -/
theorem step {op : Op} (kept : Kept counts worker 0) (replaces : counts -> ReplacesNoBrush worker op)
    (stepped : worker.step op = some next) : Kept counts next 0 := by
  cases op with
  | process surfaceId effect bbox type rgn holds => exact kept.processDrawable replaces stepped
  | freeOne => exact kept.freeOneDrawable stepped
  | clear surfaceId =>
      simp only [RedWorker.step] at stepped
      split at stepped
      · next known =>
          cases stepped
          exact kept.currentClear known
      · cases stepped
  | flush surfaceId =>
      simp only [RedWorker.step] at stepped
      split at stepped
      · next known => exact kept.currentFlush _ known stepped
      · cases stepped
  | hold key =>
      simp only [RedWorker.step] at stepped
      split at stepped
      · cases stepped
      · next held =>
          cases stepped
          exact of_trees (kept.lists.hold (Nat.pos_of_ne_zero held) 1) ⟨rfl, rfl, rfl⟩ kept.containersCount
  | drop key =>
      simp only [RedWorker.step] at stepped
      split at stepped
      · next member =>
          cases stepped
          have dropped : Lists counts { worker with holders := worker.holders.erase key } worker.total ({key} + 0) := by
            refine { kept.lists with refs := fun other => ?_ }
            have isHolders : (worker.holders : Multiset Nat) = {key} + (worker.holders.erase key : List Nat) := by
              rw [<- Multiset.coe_erase, Multiset.singleton_add, Multiset.cons_erase (Multiset.mem_coe.mpr member)]
            show worker.refs other = _
            rw [kept.lists.refs other, isHolders]
            simp only [Multiset.count_add]
            omega
          exact of_trees dropped.releaseDrawable
            ((releaseDrawable_trees _ _).trans ⟨rfl, rfl, rfl⟩) kept.containersCount
      · cases stepped

theorem init (counts : Prop) (nSurfaces : Nat) : Kept counts (RedWorker.init nSurfaces) 0 := by
  have isTotal : (RedWorker.init nSurfaces).total = 0 := by simp [total, RedWorker.init]
  refine ⟨?_, by simp [allContainers, RedWorker.init]⟩
  rw [isTotal]
  refine ⟨rfl, fun _ => rfl, fun _ member => absurd member (Multiset.notMem_zero _), Multiset.nodup_zero, rfl,
    fun _ => rfl,
    rfl, fun _ => rfl, fun _ held => absurd held (Nat.lt_irrefl 0), rfl, rfl⟩

theorem counted (kept : Kept True worker 0) : Counted worker := by
  have lists := kept.lists
  have size : worker.currentList.length = worker.total.card := by
    rw [<- Multiset.coe_card, lists.currentList, Multiset.card_map]
  refine ⟨lists.currentSize.trans size.symm, ?_, ?_, kept.containersCount, lists.free⟩
  · rw [lists.transparentCount trivial, <- Multiset.coe_card, <- Multiset.filter_coe, lists.currentList,
      Multiset.countP_eq_card_filter,
      Multiset.filter_map, Multiset.card_map]
    rfl
  · rw [lists.shadowsCount, total, <- Multiset.coe_countPAddMonoidHom, map_sum]
    refine Finset.sum_congr rfl (fun surfaceId _ => ?_)
    rw [Multiset.coe_countPAddMonoidHom, tally, Multiset.coe_countP, List.countP_map, List.countP_eq_length_filter]
    simp only [Function.comp_def, entry, Bool.decide_eq_true]

end Kept

namespace RedWorker

theorem currentRemoveContainers_current : forall (count : Nat) (worker : RedWorker),
    (currentRemoveContainers count worker).current = worker.current
  | 0, _ => rfl
  | count + 1, _ => currentRemoveContainers_current count _

/-- The end of an addition does not touch the trees. -/
theorem endAdd_trees (worker : RedWorker) (item : DrawItem) (ending : Ending) :
    SameTrees (worker.endAdd item ending) worker := by
  cases ending with
  | inserted =>
      unfold endAdd
      simp only
      split
      · split
        · exact ⟨rfl, rfl, rfl⟩
        · exact ⟨rfl, rfl, rfl⟩
      · split
        · exact ⟨rfl, rfl, rfl⟩
        · exact ⟨rfl, rfl, rfl⟩
  | replaced other => exact (currentRemoveDrawable_trees _ _).trans ⟨rfl, rfl, rfl⟩
  | reverted other => exact currentRemoveDrawable_trees _ _
  | repeated other => exact ⟨rfl, rfl, rfl⟩
  | ignored => exact ⟨rfl, rfl, rfl⟩

theorem currentAdd_current (worker : RedWorker) (item : DrawItem) (added : Added) :
    (worker.currentAdd item added).current = Function.update worker.current item.drawable.surfaceId added.ring := by
  unfold currentAdd
  simp only
  rw [(endAdd_trees _ _ _).current]
  simp only
  rw [currentRemoveContainers_current, (currentRemoveAll_trees _ _).current]
  rfl

theorem currentAdd_nSurfaces (worker : RedWorker) (item : DrawItem) (added : Added) :
    (worker.currentAdd item added).nSurfaces = worker.nSurfaces := by
  unfold currentAdd
  simp only
  rw [(endAdd_trees _ _ _).nSurfaces]
  simp only
  rw [currentRemoveContainers_nSurfaces, (currentRemoveAll_trees _ _).nSurfaces]
  rfl

end RedWorker

theorem Adds.mem_ring {item : DrawItem} {items : List TreeItem} {rgn : Region} {asserted : Bool} {added : Added}
    {one : Entry}
    (adds : Adds item items (.start rgn asserted) added) (member : one ∈ tally (drawsAll added.ring)) :
    one ∈ tally (drawsAll items) ∨ one = entry item := by
  rcases adds.account with ⟨stays, inRing, before⟩
  rw [inRing] at member
  simp only [Tree.account, Walk.start, tally_nil, add_zero] at before
  rcases Multiset.mem_add.mp member with isOld | isNew
  · left
    rw [<- before]
    exact Multiset.mem_add.mpr (Or.inl (Multiset.mem_add.mpr (Or.inl isOld)))
  · exact Or.inr (Ending.mem_gained isNew)

/-- The lists match the trees, and a drawable is in the tree of its surface. -/
structure Placed (worker : RedWorker) : Prop where
  kept : Kept False worker 0
  placed : forall surfaceId, surfaceId < worker.nSurfaces ->
    forall one, one ∈ tally (drawsAll (worker.current surfaceId)) -> one.1.surfaceId = surfaceId

namespace Placed

open RedWorker

variable {worker next : RedWorker}

theorem of_same (state : Placed worker) (kept : Kept False next 0) (trees : SameTrees next worker) : Placed next := by
  refine ⟨kept, ?_⟩
  rw [trees.nSurfaces, trees.current]
  exact state.placed

theorem replace (surfaceId : Nat) (ring : List TreeItem) (state : Placed worker) (kept : Kept False next 0)
    (nSurfaces : next.nSurfaces = worker.nSurfaces)
    (current : next.current = Function.update worker.current surfaceId ring)
    (placed : forall one, one ∈ tally (drawsAll ring) -> one.1.surfaceId = surfaceId) : Placed next := by
  refine ⟨kept, fun other known => ?_⟩
  rw [current]
  by_cases same : other = surfaceId
  · subst same
    rw [Function.update_self]
    exact placed
  · rw [Function.update_of_ne same]
    exact state.placed other (nSurfaces ▸ known)

theorem freeOneDrawable (state : Placed worker) (stepped : worker.freeOneDrawable = some next) : Placed next := by
  have kept := state.kept.freeOneDrawable stepped
  have nSurfaces := freeOneDrawable_nSurfaces stepped
  unfold RedWorker.freeOneDrawable at stepped
  cases isLast : worker.currentList.getLast? with
  | none =>
      rw [isLast] at stepped
      cases stepped
  | some drawable =>
      rw [isLast] at stepped
      cases stepped
      have listed : drawable ∈ worker.total.map Prod.fst := by
        rw [<- state.kept.lists.currentList]
        exact List.mem_of_getLast? isLast
      rcases Multiset.mem_map.mp listed with ⟨one, member, rfl⟩
      have known := state.kept.lists.known one member
      refine state.replace one.1.surfaceId
        (freeDrawables one.1.key (worker.current one.1.surfaceId)).items kept nSurfaces ?_
        (fun other isOther => state.placed _ known other ?_)
      · rw [currentRemoveContainers_current, (currentRemoveAll_trees _ _).current]
        rfl
      · rw [<- (freeDrawables_conserves one.1.key (worker.current one.1.surfaceId)).1]
        exact Multiset.mem_add.mpr (Or.inl isOther)

theorem makeRoom : forall (rounds : Nat) {worker next : RedWorker}, Placed worker ->
    RedWorker.makeRoom rounds worker = some next -> Placed next
  | 0, _, _, _, stepped => by cases stepped
  | rounds + 1, worker, next, state, stepped => by
      rw [RedWorker.makeRoom] at stepped
      split at stepped
      · rcases Option.bind_eq_some_iff.mp stepped with ⟨middle, freed, others⟩
        exact makeRoom rounds (state.freeOneDrawable freed) others
      · cases stepped
        exact state

theorem currentClear (state : Placed worker) (known : surfaceId < worker.nSurfaces) :
    Placed (worker.currentClear surfaceId) := by
  refine state.replace surfaceId [] (state.kept.currentClear known) ?_ ?_
    (fun one member => absurd member (Multiset.notMem_zero _))
  · rw [RedWorker.currentClear, currentRemoveContainers_nSurfaces, (currentRemoveAll_trees _ _).nSurfaces]
    rfl
  · rw [RedWorker.currentClear, currentRemoveContainers_current, (currentRemoveAll_trees _ _).current]
    rfl

theorem currentFlush : forall (rounds : Nat) {worker next : RedWorker}, Placed worker ->
    surfaceId < worker.nSurfaces -> RedWorker.currentFlush surfaceId rounds worker = some next -> Placed next
  | 0, _, _, _, _, stepped => by cases stepped
  | rounds + 1, worker, next, state, known, stepped => by
      rw [RedWorker.currentFlush] at stepped
      split at stepped
      · cases stepped
        exact state.currentClear known
      · rcases Option.bind_eq_some_iff.mp stepped with ⟨middle, freed, others⟩
        exact currentFlush rounds (state.freeOneDrawable freed) (freeOneDrawable_nSurfaces freed ▸ known) others

theorem processDrawable {effect : Effect} {bbox : Rect} {type : DrawType} {rgn : Region} {holds : Nat}
    (state : Placed worker) (stepped : worker.processDrawable surfaceId effect bbox type rgn holds = some next) :
    Placed next := by
  have kept := state.kept.processDrawable (fun never => False.elim never) stepped
  unfold RedWorker.processDrawable at stepped
  split at stepped
  · next known =>
      rcases Option.bind_eq_some_iff.mp stepped with ⟨room, isRoom, processed⟩
      have roomState := state.makeRoom _ isRoom
      have knownRoom : surfaceId < room.nSurfaces := makeRoom_nSurfaces _ isRoom ▸ known
      simp only at processed
      split at processed
      · cases processed
        exact roomState.of_same kept ((releaseDrawable_trees _ _).trans ⟨rfl, rfl, rfl⟩)
      · rcases Option.bind_eq_some_iff.mp processed with ⟨added, isAdded, ends⟩
        split at ends
        · cases ends
          have adds := redCurrentAddQxl_adds isAdded
          refine roomState.replace surfaceId added.ring kept ?_ ?_ ?_
          · rw [(releaseDrawable_trees _ _).nSurfaces]
            exact currentAdd_nSurfaces _ _ _
          · rw [(releaseDrawable_trees _ _).current]
            exact currentAdd_current _ _ _
          · intro one member
            rcases adds.mem_ring member with isOld | isNew
            · exact roomState.placed surfaceId knownRoom one isOld
            · rw [isNew]
              rfl
        · cases ends
  · cases stepped
    exact state

/-- Every operation keeps the drawables in their places. -/
theorem step {op : Op} (state : Placed worker) (stepped : worker.step op = some next) : Placed next := by
  have kept := state.kept.step (fun never => False.elim never) stepped
  cases op with
  | process surfaceId effect bbox type rgn holds => exact state.processDrawable stepped
  | freeOne => exact state.freeOneDrawable stepped
  | clear surfaceId =>
      simp only [RedWorker.step] at stepped
      split at stepped
      · next known =>
          cases stepped
          exact state.currentClear known
      · cases stepped
  | flush surfaceId =>
      simp only [RedWorker.step] at stepped
      split at stepped
      · next known => exact state.currentFlush _ known stepped
      · cases stepped
  | hold key =>
      simp only [RedWorker.step] at stepped
      split at stepped
      · cases stepped
      · cases stepped
        exact state.of_same kept ⟨rfl, rfl, rfl⟩
  | drop key =>
      simp only [RedWorker.step] at stepped
      split at stepped
      · cases stepped
        exact state.of_same kept ((releaseDrawable_trees _ _).trans ⟨rfl, rfl, rfl⟩)
      · cases stepped

theorem init (nSurfaces : Nat) : Placed (RedWorker.init nSurfaces) :=
  ⟨Kept.init False nSurfaces, fun _ _ _ member => absurd member (Multiset.notMem_zero _)⟩

end Placed

/-- As long as no opaque brush is put in the place of another, the counters match what they count, in
every state that is reached. -/
theorem counters_match (nSurfaces : Nat) (ops : List Op) (worker : RedWorker)
    (replaces : Meets RedWorker.step (fun _ worker op => ReplacesNoBrush worker op) [] (RedWorker.init nSurfaces) ops)
    (ran : run RedWorker.step (RedWorker.init nSurfaces) ops = some worker) : Counted worker := by
  have keep : forall (_ : List Op) (worker : RedWorker) (op : Op) (next : RedWorker),
      Kept True worker 0 -> ReplacesNoBrush worker op -> worker.step op = some next -> Kept True next 0 :=
    fun _ _ _ _ kept replaces stepped => kept.step (fun _ => replaces) stepped
  have kept := run_invariant_of_meets keep ops [] (RedWorker.init nSurfaces) worker
      (Kept.init True nSurfaces) replaces ran
  exact kept.counted

def fillRow (effect : Effect) (left right : Nat) : Op :=
  .process 0 effect ⟨left, 0, right, 1⟩ (.fill (.solid 0))
    ((Finset.range (right - left)).image (fun column : Nat => (((left + column : Nat) : Int), (0 : Int)))) 1

/-- A row is filled, then a part of it with a brush, and the part is read by a `COPY_BITS`. -/
def brushRun : List Op :=
  [fillRow .opaqueDraw 0 4, fillRow .opaqueBrush 1 2,
    .process 0 .opaqueDraw ⟨2, 0, 3, 1⟩ (.copyBits 1 0) {((2 : Int), (0 : Int))} 1, fillRow .revertOnDup 0 1]

theorem counters_match_brushes :
    Exists fun worker => run RedWorker.step (RedWorker.init 1) brushRun = some worker ∧ Counted worker := by
  have ran : (run RedWorker.step (RedWorker.init 1) brushRun).isSome = true := by decide +kernel
  rcases Option.isSome_iff_exists.mp ran with ⟨worker, isWorker⟩
  refine ⟨worker, isWorker, counters_match 1 brushRun worker ?_ isWorker⟩
  have sound : forall (_ : List Op) (worker : RedWorker) (op : Op),
      (match op with
        | .process surfaceId effect bbox type rgn _ =>
            match RedWorker.makeRoom (worker.currentList.length + 1) worker with
            | none => true
            | some room => effect != .opaqueBrush ||
                (firstEqual (newItem ⟨room.fresh, surfaceId, effect, bbox, type⟩ rgn) true
                  (room.current surfaceId)).isNone
        | _ => true) = true -> ReplacesNoBrush worker op := by
    intro _ worker op checked
    cases op with
    | process surfaceId effect bbox type rgn holds =>
        intro isBrush room isRoom other isFirst
        subst isBrush
        simp [isRoom, isFirst] at checked
    | _ => trivial
  exact Meets.of_check sound brushRun [] (RedWorker.init 1) (by decide +kernel)

/-- A brush is put in the place of an equal one, which is counted out; the new one was not
counted. -/
theorem replaced_brush_uncounted : Not (forall (nSurfaces : Nat) (ops : List Op) (worker : RedWorker),
    run RedWorker.step (RedWorker.init nSurfaces) ops = some worker -> Counted worker) := by
  intro always
  have ran : (run RedWorker.step (RedWorker.init 1) [fillRow .opaqueBrush 0 2, fillRow .opaqueBrush 0 2]).map
      (fun worker => (worker.transparentCount,
        (worker.currentList.filter (fun drawable => drawable.effect ≠ .opaqueDraw)).length))
        = some (0, 1) := by decide +kernel
  rcases Option.map_eq_some_iff.mp ran with ⟨worker, isWorker, counts⟩
  have counted := (always 1 _ worker isWorker).transparentCount
  have both := Prod.mk.inj counts
  rw [both.1, both.2] at counted
  cases counted

end Tree
end Spice
