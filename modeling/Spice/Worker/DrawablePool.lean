import Spice.Worker.Counters
import Mathlib.Data.Finset.Dedup

namespace Spice
namespace Tree

open Lib

/-!
# The pool of drawables

A drawable is taken from a pool of fixed size.  When the pool is empty the worker
takes the oldest drawables out of the trees, until one of them is in the pool again.
A drawable that was taken out stays in use while an item in the pipe of a client, or a
message that is being written, refers to it.  A command is processed as long as the
shortest of the pipes is short; the pipes of the other clients may have any length.
-/

def maxPipeSize : Nat := 50

/-- An item in the pipe of a client, with the drawable it refers to. -/
structure PipeItem where
  client : Nat
  drawable : Option Nat
deriving DecidableEq, Repr

/-- The worker, the clients of the display channel and the items of their pipes; `sending` has the items
whose message is being written and that still hold their drawable. -/
structure Display where
  worker : RedWorker
  clients : List Nat
  pipe : List PipeItem
  sending : List PipeItem

namespace Display

variable (display : Display)

/-- `red_channel_min_pipe_size` lets a command in, or there is no client. -/
def admits : Bool :=
  display.clients.isEmpty ||
    display.clients.any (fun client => decide (display.pipe.countP (fun item => item.client == client) ≤ maxPipeSize))

/-- The drawables that the pipes and the messages refer to. -/
def pending : List Nat :=
  display.pipe.filterMap PipeItem.drawable ++ display.sending.filterMap PipeItem.drawable

/-- `put_drawable_pipe_item`, one after the other. -/
def release : List Nat -> RedWorker -> Option RedWorker
  | [], worker => some worker
  | key :: rest, worker => (worker.step (.drop key)).bind (release rest)

/-- A command of `red_process_commands`; `receivers` are the clients that get the drawable. -/
def command (surfaceId : Nat) (effect : Effect) (bbox : Rect) (type : DrawType) (rgn : Region) (receivers : List Nat) :
    Option Display :=
  if display.admits then
    let receivers := display.clients.filter (fun client => decide (client ∈ receivers))
    (display.worker.processDrawable surfaceId effect bbox type rgn receivers.length).map (fun worker =>
      if surfaceId < display.worker.nSurfaces ∧ rgn ≠ ∅ then
        { display with
          worker := worker
          pipe := receivers.map (fun client => { client := client, drawable := some display.worker.fresh }) ++
            display.pipe }
      else { display with worker := worker })
  else none

end Display

/-- A command is processed, drawables are taken out of the trees, an item gets into a pipe or leaves it, a message
is written, or a client joins or leaves. -/
inductive DisplayOp
  | command (surfaceId : Nat) (effect : Effect) (bbox : Rect) (type : DrawType) (rgn : Region) (receivers : List Nat)
  | freeOne
  | clear (surfaceId : Nat)
  | flush (surfaceId : Nat)
  | queue (item : PipeItem)
  | take (item : PipeItem)
  | send (item : PipeItem)
  | sent (item : PipeItem)
  | connect (client : Nat)
  | disconnect (client : Nat)

namespace Display

def step (display : Display) : DisplayOp -> Option Display
  | .command surfaceId effect bbox type rgn receivers => display.command surfaceId effect bbox type rgn receivers
  | .freeOne => display.worker.freeOneDrawable.map (fun worker => { display with worker := worker })
  | .clear surfaceId => (display.worker.step (.clear surfaceId)).map (fun worker => { display with worker := worker })
  | .flush surfaceId => (display.worker.step (.flush surfaceId)).map (fun worker => { display with worker := worker })
  | .queue item =>
      let queued := { display with pipe := item :: display.pipe }
      match item.drawable with
      | none => some queued
      | some key => (display.worker.step (.hold key)).map (fun worker => { queued with worker := worker })
  | .take item =>
      if item ∈ display.pipe then
        (release item.drawable.toList display.worker).map (fun worker =>
          { display with worker := worker, pipe := display.pipe.erase item })
      else none
  | .send item =>
      if item ∈ display.pipe then
        some { display with pipe := display.pipe.erase item, sending := item :: display.sending }
      else none
  | .sent item =>
      if item ∈ display.sending then
        (release item.drawable.toList display.worker).map (fun worker =>
          { display with worker := worker, sending := display.sending.erase item })
      else none
  | .connect client =>
      if client ∈ display.clients then none else some { display with clients := client :: display.clients }
  | .disconnect client =>
      let isOwn := fun item : PipeItem => item.client == client
      (release ((display.sending.filter isOwn ++ display.pipe.filter isOwn).filterMap PipeItem.drawable)
          display.worker).map (fun worker =>
        { display with
          worker := worker
          clients := display.clients.filter (fun other => other ≠ client)
          pipe := display.pipe.filter (fun item => !isOwn item)
          sending := display.sending.filter (fun item => !isOwn item) })

def init (nSurfaces : Nat) : Display where
  worker := RedWorker.init nSurfaces
  clients := []
  pipe := []
  sending := []

end Display

/-- `get_drawable` comes to a drawable: when the pool is empty there is a drawable in the trees, and taking the
oldest ones out of the trees puts one into the pool. -/
def Replenishes (worker : RedWorker) : Prop :=
  (worker.freeDrawables = 0 -> worker.currentList ≠ []) ∧
    Exists fun room => RedWorker.makeRoom (worker.currentList.length + 1) worker = some room ∧ room.freeDrawables ≠ 0

/-! ## The holders of drawables -/

namespace RedWorker

/-- What stays while drawables are taken out of the trees or put into one. -/
structure SameHolders (one two : RedWorker) : Prop where
  holders : one.holders = two.holders
  fresh : one.fresh = two.fresh

theorem SameHolders.trans {one two three : RedWorker} (first : SameHolders one two) (second : SameHolders two three) :
    SameHolders one three :=
  ⟨first.holders.trans second.holders, first.fresh.trans second.fresh⟩

theorem releaseDrawable_holders (worker : RedWorker) (key : Nat) : SameHolders (worker.releaseDrawable key) worker := by
  unfold releaseDrawable
  simp only
  split
  · exact ⟨rfl, rfl⟩
  · exact ⟨rfl, rfl⟩

theorem currentRemoveDrawable_holders (worker : RedWorker) (item : DrawItem) :
    SameHolders (worker.currentRemoveDrawable item) worker := by
  rw [Lists.currentRemoveDrawable_eq]
  exact (releaseDrawable_holders _ _).trans ⟨rfl, rfl⟩

theorem currentRemoveAll_holders : forall (items : List DrawItem) (worker : RedWorker),
    SameHolders (worker.currentRemoveAll items) worker
  | [], _ => ⟨rfl, rfl⟩
  | item :: rest, worker =>
      (currentRemoveAll_holders rest (worker.currentRemoveDrawable item)).trans
        (worker.currentRemoveDrawable_holders item)

theorem currentRemoveContainers_holders : forall (count : Nat) (worker : RedWorker),
    SameHolders (currentRemoveContainers count worker) worker
  | 0, _ => ⟨rfl, rfl⟩
  | count + 1, _ => (currentRemoveContainers_holders count _).trans ⟨rfl, rfl⟩

theorem freeOneDrawable_holders {worker next : RedWorker} (stepped : worker.freeOneDrawable = some next) :
    SameHolders next worker := by
  unfold freeOneDrawable at stepped
  split at stepped
  · cases stepped
  · cases stepped
    exact (currentRemoveContainers_holders _ _).trans ((currentRemoveAll_holders _ _).trans ⟨rfl, rfl⟩)

theorem makeRoom_holders : forall (rounds : Nat) {worker next : RedWorker}, makeRoom rounds worker = some next ->
    SameHolders next worker
  | 0, _, _, stepped => by cases stepped
  | rounds + 1, worker, next, stepped => by
      rw [makeRoom] at stepped
      split at stepped
      · rcases Option.bind_eq_some_iff.mp stepped with ⟨middle, freed, others⟩
        exact (makeRoom_holders rounds others).trans (freeOneDrawable_holders freed)
      · cases stepped
        exact ⟨rfl, rfl⟩

theorem currentClear_holders (worker : RedWorker) (surfaceId : Nat) :
    SameHolders (worker.currentClear surfaceId) worker :=
  (currentRemoveContainers_holders _ _).trans ((currentRemoveAll_holders _ _).trans ⟨rfl, rfl⟩)

theorem currentFlush_holders {surfaceId : Nat} : forall (rounds : Nat) {worker next : RedWorker},
    currentFlush surfaceId rounds worker = some next -> SameHolders next worker
  | 0, _, _, stepped => by cases stepped
  | rounds + 1, worker, next, stepped => by
      rw [currentFlush] at stepped
      split at stepped
      · cases stepped
        exact currentClear_holders worker surfaceId
      · rcases Option.bind_eq_some_iff.mp stepped with ⟨middle, freed, others⟩
        exact (currentFlush_holders rounds others).trans (freeOneDrawable_holders freed)

theorem currentRemoveContainers_total (count : Nat) (worker : RedWorker) :
    (currentRemoveContainers count worker).total = worker.total := by
  rw [total, total, currentRemoveContainers_nSurfaces, currentRemoveContainers_current]

/-- The end of an addition does not touch the holders. -/
theorem endAdd_holders (worker : RedWorker) (item : DrawItem) (ending : Ending) :
    SameHolders (worker.endAdd item ending) worker := by
  cases ending with
  | inserted =>
      unfold endAdd
      simp only
      split
      · split
        · exact ⟨rfl, rfl⟩
        · exact ⟨rfl, rfl⟩
      · split
        · exact ⟨rfl, rfl⟩
        · exact ⟨rfl, rfl⟩
  | replaced other => exact (currentRemoveDrawable_holders _ _).trans ⟨rfl, rfl⟩
  | reverted other => exact currentRemoveDrawable_holders _ _
  | repeated other => exact ⟨rfl, rfl⟩
  | ignored => exact ⟨rfl, rfl⟩

theorem currentAdd_holders (worker : RedWorker) (item : DrawItem) (added : Added) :
    SameHolders (worker.currentAdd item added) worker := by
  have removed : SameHolders (currentRemoveContainers added.walk.containers
      ((worker.setCurrent item.drawable.surfaceId added.ring).currentRemoveAll added.walk.removed)) worker :=
    (currentRemoveContainers_holders _ _).trans ((currentRemoveAll_holders _ _).trans ⟨rfl, rfl⟩)
  exact (endAdd_holders _ _ _).trans ⟨removed.holders, removed.fresh⟩

theorem processDrawable_holders {worker next : RedWorker} {surfaceId : Nat} {effect : Effect} {bbox : Rect}
    {type : DrawType} {rgn : Region} {holds : Nat}
    (stepped : worker.processDrawable surfaceId effect bbox type rgn holds = some next) :
    next.holders = (if surfaceId < worker.nSurfaces ∧ rgn ≠ ∅ then List.replicate holds worker.fresh else []) ++
      worker.holders := by
  unfold processDrawable at stepped
  split at stepped
  · rename_i known
    rcases Option.bind_eq_some_iff.mp stepped with ⟨room, isRoom, processed⟩
    have same := makeRoom_holders _ isRoom
    simp only at processed
    split at processed
    · rename_i isEmpty
      cases processed
      rw [if_neg (fun both => both.2 isEmpty), (releaseDrawable_holders _ _).holders]
      exact same.holders
    · rename_i nonempty
      rcases Option.bind_eq_some_iff.mp processed with ⟨added, isAdded, ends⟩
      split at ends
      · cases ends
        rw [if_pos ⟨known, nonempty⟩, (releaseDrawable_holders _ _).holders, <- same.fresh, <- same.holders]
        exact congrArg (List.replicate holds room.fresh ++ ·) (currentAdd_holders _ _ _).holders
      · cases ends
  · rename_i unknown
    cases stepped
    rw [if_neg (fun both => unknown both.1)]
    rfl

end RedWorker

mutual

theorem freeDrawable_removed {key : Nat} : forall {item : TreeItem} {draw : DrawItem}, draw ∈ draws item ->
    draw.drawable.key = key -> (freeDrawable key item).removed ≠ []
  | .draw item, draw, member, isKey => by
      rw [List.mem_singleton.mp member] at isKey
      rw [freeDrawable, if_pos isKey]
      exact List.cons_ne_nil _ _
  | .container head items, draw, member, isKey => by
      have inner := freeDrawables_removed member isKey
      simp only [freeDrawable]
      split
      · exact inner
      · exact inner

theorem freeDrawables_removed {key : Nat} : forall {items : List TreeItem} {draw : DrawItem}, draw ∈ drawsAll items ->
    draw.drawable.key = key -> (freeDrawables key items).removed ≠ []
  | [], _, member, _ => (by cases member)
  | item :: rest, draw, member, isKey => by
      simp only [freeDrawables]
      intro isNil
      rcases List.append_eq_nil_iff.mp isNil with ⟨first, others⟩
      rcases List.mem_append.mp member with here | there
      · exact freeDrawable_removed here isKey first
      · exact freeDrawables_removed there isKey others

end

namespace Placed

open RedWorker

variable {worker next : RedWorker}

def inUse (worker : RedWorker) : Finset Nat := (Finset.range worker.fresh).filter (fun key => 0 < worker.refs key)

theorem mem_inUse (state : Placed worker) {key : Nat} :
    key ∈ inUse worker <-> key ∈ worker.total.map (fun one => one.1.key) ∨ key ∈ worker.holders := by
  have counted := state.kept.lists.refs key
  rw [add_zero, Multiset.count_add, Multiset.coe_count] at counted
  rw [<- Multiset.one_le_count_iff_mem, <- List.one_le_count_iff, inUse, Finset.mem_filter, Finset.mem_range]
  refine ⟨fun both => ?_, fun some => ?_⟩
  · have held := both.2
    omega
  · have held : 0 < worker.refs key := by omega
    exact ⟨state.kept.lists.fresh key held, held⟩

theorem holders_le (state : Placed worker) : worker.holders.dedup.length + worker.freeDrawables ≤ numDrawables := by
  have inside : worker.holders.toFinset ⊆ inUse worker := fun key member =>
    state.mem_inUse.mpr (Or.inr (List.mem_toFinset.mp member))
  have bound := Finset.card_le_card inside
  have used := state.kept.lists.drawableCount
  have free := state.kept.lists.free
  rw [List.card_toFinset] at bound
  rw [inUse] at bound
  omega

theorem holders_eq (state : Placed worker) (isEmpty : worker.currentList = []) :
    worker.holders.dedup.length + worker.freeDrawables = numDrawables := by
  have nothing : worker.total.map Prod.fst = 0 := by
    rw [<- state.kept.lists.currentList, isEmpty]
    rfl
  have same : worker.holders.toFinset = inUse worker := by
    ext key
    rw [state.mem_inUse, List.mem_toFinset, Multiset.map_eq_zero.mp nothing]
    simp
  have used := state.kept.lists.drawableCount
  have free := state.kept.lists.free
  rw [<- List.card_toFinset, same, inUse]
  omega

/-- Freeing the oldest drawable shortens the list. -/
theorem freeOneDrawable_length (state : Placed worker) (stepped : worker.freeOneDrawable = some next) :
    next.currentList.length < worker.currentList.length := by
  have nextState := state.freeOneDrawable stepped
  have size : forall {one : RedWorker}, Placed one -> one.currentList.length = one.total.card := by
    intro one placed
    rw [<- Multiset.coe_card, placed.kept.lists.currentList, Multiset.card_map]
  rw [size nextState, size state]
  unfold RedWorker.freeOneDrawable at stepped
  cases isLast : worker.currentList.getLast? with
  | none =>
      rw [isLast] at stepped
      cases stepped
  | some drawable =>
      rw [isLast] at stepped
      cases stepped
      have listed : drawable ∈ worker.total.map Prod.fst := by
        rw [<- state.kept.lists.currentList]
        exact List.mem_of_getLast? isLast
      rcases Multiset.mem_map.mp listed with ⟨one, member, rfl⟩
      have known := state.kept.lists.known one member
      rcases Multiset.mem_sum.mp member with ⟨surfaceId, isSurface, inTree⟩
      have isPlace := state.placed surfaceId (Finset.mem_range.mp isSurface) one inTree
      subst isPlace
      rcases List.mem_map.mp (Multiset.mem_coe.mp inTree) with ⟨draw, isDraw, isOne⟩
      have isKey : draw.drawable.key = one.1.key := by
        rw [<- isOne]
        rfl
      have removed := freeDrawables_removed isDraw isKey
      have conserved := (freeDrawables_conserves one.1.key (worker.current one.1.surfaceId)).1
      rcases total_split known with ⟨others, isTotal, next⟩
      rw [currentRemoveContainers_total, (currentRemoveAll_trees _ _).total, next, isTotal, <- conserved]
      simp only [Multiset.card_add]
      have positive : 0 < (tally (freeDrawables one.1.key (worker.current one.1.surfaceId)).removed).card := by
        rw [tally, Multiset.coe_card, List.length_map]
        exact List.length_pos_iff.mpr removed
      omega

/-- With fewer drawables held than there are, room is made. -/
theorem makeRoom_of_lt : forall (rounds : Nat) {worker : RedWorker}, Placed worker ->
    worker.currentList.length < rounds ->
    worker.holders.dedup.length < numDrawables -> Exists fun room => RedWorker.makeRoom rounds worker = some room
  | 0, _, _, within, _ => absurd within (Nat.not_lt_zero _)
  | rounds + 1, worker, state, within, few => by
      rw [RedWorker.makeRoom]
      by_cases isEmpty : worker.freeDrawables = 0
      · rw [if_pos isEmpty]
        cases isLast : worker.freeOneDrawable with
        | none =>
            have noDrawable : worker.currentList = [] := by
              unfold RedWorker.freeOneDrawable at isLast
              split at isLast
              · rename_i isNone
                exact List.getLast?_eq_none_iff.mp isNone
              · cases isLast
            have all := state.holders_eq noDrawable
            omega
        | some next =>
            have shorter := state.freeOneDrawable_length isLast
            refine makeRoom_of_lt rounds (state.freeOneDrawable isLast) (by omega) ?_
            rw [(freeOneDrawable_holders isLast).holders]
            exact few
      · rw [if_neg isEmpty]
        exact ⟨worker, rfl⟩

theorem replenishes_iff (state : Placed worker) :
    Replenishes worker <-> worker.holders.dedup.length < numDrawables := by
  refine ⟨fun replenishes => ?_, fun few => ⟨fun isEmpty noDrawable => ?_, ?_⟩⟩
  · rcases replenishes.2 with ⟨room, isRoom, hasRoom⟩
    have bound := (state.makeRoom _ isRoom).holders_le
    rw [(makeRoom_holders _ isRoom).holders] at bound
    omega
  · have all := state.holders_eq noDrawable
    omega
  · rcases makeRoom_of_lt _ state (Nat.lt_succ_self _) few with ⟨room, isRoom⟩
    exact ⟨room, isRoom, (state.kept.makeRoom _ isRoom).2⟩

end Placed

/-! ## Runs with clients -/

/-- The worker, and its holders are the pipes and messages. -/
structure DisplayKept (display : Display) : Prop where
  placed : Placed display.worker
  holders : display.worker.holders.Perm display.pending

namespace DisplayKept

variable {display next : Display} {worker : RedWorker}

/-- Holders give their drawables back. -/
theorem release : forall (keys : List Nat) {worker after : RedWorker}, Placed worker ->
    Display.release keys worker = some after -> Placed after ∧ worker.holders.Perm (keys ++ after.holders)
  | [], _, _, placed, released => by
      cases released
      exact ⟨placed, List.Perm.refl _⟩
  | key :: rest, worker, after, placed, released => by
      rcases Option.bind_eq_some_iff.mp released with ⟨middle, dropped, others⟩
      rcases release rest (placed.step dropped) others with ⟨afterPlaced, left⟩
      refine ⟨afterPlaced, ?_⟩
      simp only [RedWorker.step] at dropped
      split at dropped
      · rename_i member
        cases dropped
        rw [(RedWorker.releaseDrawable_holders _ _).holders] at left
        exact (List.perm_cons_erase member).trans (left.cons key)
      · cases dropped

theorem leave (kept : DisplayKept display) {keys : List Nat} {pipe sending : List PipeItem} {clients : List Nat}
    (pending : display.pending.Perm (keys ++ (pipe.filterMap PipeItem.drawable ++ sending.filterMap PipeItem.drawable)))
    (released : Display.release keys display.worker = some worker) :
    DisplayKept { worker := worker, clients := clients, pipe := pipe, sending := sending } := by
  rcases release keys kept.placed released with ⟨placed, left⟩
  refine ⟨placed, ?_⟩
  have all := left.symm.trans (kept.holders.trans pending)
  exact (List.perm_append_left_iff keys).mp all

theorem filterMap_item_cons (item : PipeItem) (items : List PipeItem) :
    (item :: items).filterMap PipeItem.drawable = item.drawable.toList ++ items.filterMap PipeItem.drawable := by
  rw [List.filterMap_cons]
  cases item.drawable with
  | none => rfl
  | some key => rfl

theorem perm_erase {items : List PipeItem} {item : PipeItem} (member : item ∈ items) :
    (items.filterMap PipeItem.drawable).Perm
      (item.drawable.toList ++ (items.erase item).filterMap PipeItem.drawable) := by
  rw [<- filterMap_item_cons]
  exact (List.perm_cons_erase member).filterMap PipeItem.drawable

theorem perm_filter (isOwn : PipeItem -> Bool) (items : List PipeItem) :
    (items.filterMap PipeItem.drawable).Perm ((items.filter isOwn).filterMap PipeItem.drawable ++
      (items.filter (fun item => !isOwn item)).filterMap PipeItem.drawable) := by
  rw [<- List.filterMap_append]
  exact ((List.filter_append_perm isOwn items).filterMap PipeItem.drawable).symm

theorem filterMap_queued (key : Nat) : forall clients : List Nat,
    (clients.map (fun client => PipeItem.mk client (some key))).filterMap PipeItem.drawable =
      List.replicate clients.length key
  | [] => rfl
  | _ :: rest => congrArg (key :: ·) (filterMap_queued key rest)

theorem setWorker (kept : DisplayKept display) (placed : Placed worker)
    (same : RedWorker.SameHolders worker display.worker) :
    DisplayKept { display with worker := worker } :=
  ⟨placed, same.holders ▸ kept.holders⟩

/-- A command is processed, and its drawable goes to some pipes. -/
theorem command (kept : DisplayKept display) {surfaceId : Nat} {effect : Effect} {bbox : Rect} {type : DrawType}
    {rgn : Region} {receivers : List Nat}
    (stepped : display.command surfaceId effect bbox type rgn receivers = some next) : DisplayKept next := by
  unfold Display.command at stepped
  split at stepped
  · rcases Option.map_eq_some_iff.mp stepped with ⟨worker, processed, isNext⟩
    have placed := kept.placed.processDrawable processed
    have holders := RedWorker.processDrawable_holders processed
    rw [<- isNext]
    split
    · rename_i drawn
      refine ⟨placed, ?_⟩
      rw [if_pos drawn] at holders
      rw [holders, Display.pending, List.filterMap_append, filterMap_queued, List.append_assoc]
      exact kept.holders.append_left _
    · rename_i undrawn
      rw [if_neg undrawn] at holders
      exact ⟨placed, holders ▸ kept.holders⟩
  · cases stepped

/-- Every operation of the display keeps its drawables. -/
theorem step {op : DisplayOp} (kept : DisplayKept display) (stepped : display.step op = some next) :
    DisplayKept next := by
  cases op with
  | command surfaceId effect bbox type rgn receivers => exact kept.command stepped
  | freeOne =>
      rcases Option.map_eq_some_iff.mp stepped with ⟨worker, freed, rfl⟩
      exact kept.setWorker (kept.placed.freeOneDrawable freed) (RedWorker.freeOneDrawable_holders freed)
  | clear surfaceId =>
      rcases Option.map_eq_some_iff.mp stepped with ⟨worker, cleared, rfl⟩
      refine kept.setWorker (kept.placed.step cleared) ?_
      simp only [RedWorker.step] at cleared
      split at cleared
      · cases cleared
        exact RedWorker.currentClear_holders _ _
      · cases cleared
  | flush surfaceId =>
      rcases Option.map_eq_some_iff.mp stepped with ⟨worker, flushed, rfl⟩
      refine kept.setWorker (kept.placed.step flushed) ?_
      simp only [RedWorker.step] at flushed
      split at flushed
      · exact RedWorker.currentFlush_holders _ flushed
      · cases flushed
  | queue item =>
      simp only [Display.step] at stepped
      split at stepped
      · rename_i noDrawable
        cases stepped
        refine ⟨kept.placed, ?_⟩
        rw [Display.pending, filterMap_item_cons, noDrawable]
        exact kept.holders
      · rename_i key isDrawable
        rcases Option.map_eq_some_iff.mp stepped with ⟨worker, held, rfl⟩
        refine ⟨kept.placed.step held, ?_⟩
        simp only [RedWorker.step] at held
        split at held
        · cases held
        · cases held
          rw [Display.pending, filterMap_item_cons, isDrawable]
          exact kept.holders.cons key
  | take item =>
      simp only [Display.step] at stepped
      split at stepped
      · rename_i member
        rcases Option.map_eq_some_iff.mp stepped with ⟨worker, released, rfl⟩
        refine kept.leave (Multiset.coe_eq_coe.mp ?_) released
        simp only [Display.pending, <- Multiset.coe_add, Multiset.coe_eq_coe.mpr (perm_erase member)]
        abel
      · cases stepped
  | send item =>
      simp only [Display.step] at stepped
      split at stepped
      · rename_i member
        cases stepped
        refine ⟨kept.placed, kept.holders.trans (Multiset.coe_eq_coe.mp ?_)⟩
        simp only [Display.pending, filterMap_item_cons, <- Multiset.coe_add,
          Multiset.coe_eq_coe.mpr (perm_erase member)]
        abel
      · cases stepped
  | sent item =>
      simp only [Display.step] at stepped
      split at stepped
      · rename_i member
        rcases Option.map_eq_some_iff.mp stepped with ⟨worker, released, rfl⟩
        refine kept.leave (Multiset.coe_eq_coe.mp ?_) released
        simp only [Display.pending, <- Multiset.coe_add, Multiset.coe_eq_coe.mpr (perm_erase member)]
        abel
      · cases stepped
  | connect client =>
      simp only [Display.step] at stepped
      split at stepped
      · cases stepped
      · cases stepped
        exact ⟨kept.placed, kept.holders⟩
  | disconnect client =>
      rcases Option.map_eq_some_iff.mp stepped with ⟨worker, released, rfl⟩
      refine kept.leave (Multiset.coe_eq_coe.mp ?_) released
      simp only [Display.pending, List.filterMap_append, <- Multiset.coe_add,
        Multiset.coe_eq_coe.mpr (perm_filter (fun item => item.client == client) display.pipe),
        Multiset.coe_eq_coe.mpr (perm_filter (fun item => item.client == client) display.sending)]
      abel

theorem init (nSurfaces : Nat) : DisplayKept (Display.init nSurfaces) := ⟨Placed.init nSurfaces, List.Perm.refl _⟩

end DisplayKept

/-- In every state that is reached, `get_drawable` comes to a drawable if and only if the pipes and the messages do not
refer to all of the drawables. -/
theorem get_drawable_returns (nSurfaces : Nat) (ops : List DisplayOp) (display : Display)
    (ran : run Display.step (Display.init nSurfaces) ops = some display) :
    Replenishes display.worker <-> display.pending.dedup.length < numDrawables := by
  have keep : forall (_ : List DisplayOp) (display : Display) (op : DisplayOp) (next : Display),
      DisplayKept display -> display.step op = some next -> DisplayKept next :=
    fun _ _ _ _ kept stepped => kept.step stepped
  have kept := run_invariant keep ops [] (Display.init nSurfaces) display (DisplayKept.init nSurfaces) ran
  rw [kept.placed.replenishes_iff, kept.holders.dedup.length_eq]

def pixel : Region := {((0 : Int), (0 : Int))}

/-- A pixel is filled and the first client reads its item; the second client does not, and the guest runs out of
memory, so that the drawable is taken out of the tree. -/
def slowRound (key : Nat) : List DisplayOp :=
  [.command 0 .opaqueDraw ⟨0, 0, 1, 1⟩ (.fill (.solid 0)) pixel [1, 2], .take ⟨1, some key⟩, .freeOne]

/-- A number of rounds, with two clients. -/
def slowRun (rounds : Nat) : List DisplayOp := [.connect 2, .connect 1] ++ (List.range rounds).flatMap slowRound

theorem get_drawable_returns_two :
    Exists fun display => run Display.step (Display.init 1) (slowRun 2) = some display ∧
      Replenishes display.worker := by
  have pending : (run Display.step (Display.init 1) (slowRun 2)).map Display.pending = some [1, 0] := by decide +kernel
  rcases Option.map_eq_some_iff.mp pending with ⟨display, ran, isPending⟩
  refine ⟨display, ran, (get_drawable_returns 1 (slowRun 2) display ran).mpr ?_⟩
  rw [isPending]
  decide

/-- The pipe of the second client has all the drawables that were used. -/
structure SlowPipe (used : Nat) (display : Display) : Prop where
  clients : display.clients = [1, 2]
  nSurfaces : display.worker.nSurfaces = 1
  current : display.worker.current 0 = []
  currentList : display.worker.currentList = []
  fresh : display.worker.fresh = used
  free : display.worker.freeDrawables + used = numDrawables
  pipe : forall item, item ∈ display.pipe -> item.client = 2

namespace SlowPipe

variable {used : Nat} {display : Display}

theorem admits (slow : SlowPipe used display) : display.admits = true := by
  have nothing : display.pipe.countP (fun item => item.client == 1) = 0 :=
    List.countP_eq_zero.mpr (fun item member => by simp [slow.pipe item member])
  rw [Display.admits, slow.clients, List.any_cons, nothing]
  rfl

theorem redCurrentAddQxl_pixel (key : Nat) :
    redCurrentAddQxl [] ⟨key, 0, .opaqueDraw, ⟨0, 0, 1, 1⟩, .fill (.solid 0)⟩ pixel = some
      { ring := [.draw (newItem ⟨key, 0, .opaqueDraw, ⟨0, 0, 1, 1⟩, .fill (.solid 0)⟩ pixel)]
        walk := .start ∅ true, newContainers := 0, ending := .inserted } := rfl

/-- A command more for a client that takes nothing. -/
theorem round (slow : SlowPipe used display) (more : used < numDrawables) :
    Exists fun next => run Display.step display (slowRound used) = some next ∧ SlowPipe (used + 1) next := by
  have admits := slow.admits
  have isPixel : pixel ≠ ∅ := by decide
  rcases display with ⟨worker, clients, pipe, sending⟩
  rcases worker with ⟨nSurfaces, current, currentList, surfaceLists, refs, holders, fresh, freeDrawables, drawableCount,
    currentSize, transparentCount, shadowsCount, containersCount⟩
  rcases slow with ⟨isClients, isSurfaces, isCurrent, isList, isFresh, isFree, isPipe⟩
  dsimp only at isClients isSurfaces isCurrent isList isFresh isFree isPipe
  subst isClients isSurfaces isList isFresh
  obtain ⟨left, rfl⟩ : Exists fun left => freeDrawables = left + 1 := ⟨freeDrawables - 1, by omega⟩
  refine ⟨Display.mk (RedWorker.mk 1 (Function.update current 0 []) [] surfaceLists (Function.update refs fresh 1)
    (fresh :: holders) (fresh + 1) left (drawableCount + 1) currentSize transparentCount shadowsCount containersCount)
    [1, 2] (⟨2, some fresh⟩ :: pipe) sending, ?_, ?_⟩
  · simp [slowRound, run, Display.step, Display.command, admits, RedWorker.processDrawable, RedWorker.makeRoom,
      RedWorker.allocDrawable, isCurrent, isPixel, redCurrentAddQxl_pixel, Walk.start, RedWorker.currentAdd, newItem,
      RedWorker.setCurrent, RedWorker.currentRemoveAll, RedWorker.currentRemoveContainers, RedWorker.endAdd,
      RedWorker.currentAddDrawable, RedWorker.hold, RedWorker.releaseDrawable, countDown, Display.release,
        RedWorker.step,
      RedWorker.freeOneDrawable, Tree.freeDrawables, freeDrawable, RedWorker.currentRemoveDrawable]
  · refine ⟨rfl, rfl, Function.update_self
      (0 : Nat) ([] : List TreeItem) current, rfl, rfl, by dsimp only; omega, fun item member => ?_⟩
    rcases List.mem_cons.mp member with isNew | isOld
    · rw [isNew]
    · exact isPipe item isOld

theorem rounds : forall rounds, rounds ≤ numDrawables -> Exists fun display =>
    run Display.step (Display.init 1) (slowRun rounds) = some display ∧ SlowPipe rounds display
  | 0, _ =>
      ⟨{ Display.init 1 with clients := [1, 2] }, rfl,
        ⟨rfl, rfl, rfl, rfl, rfl, rfl, fun _ member => (by cases member)⟩⟩
  | count + 1, within => by
      rcases rounds count (Nat.le_of_succ_le within) with ⟨display, ran, slow⟩
      rcases slow.round within with ⟨next, ranRound, nextSlow⟩
      refine ⟨next, ?_, nextSlow⟩
      rw [slowRun, List.range_succ, List.flatMap_append, List.flatMap_singleton, <- List.append_assoc, run_append]
      rw [slowRun] at ran
      rw [ran]
      exact ranRound

end SlowPipe

/-- The first client has an empty pipe and the next command is let in, but all drawables are in the pipe of the second
client: the pool and the trees are empty. -/
theorem slow_client_exhausts_pool : Exists fun ops => Exists fun display =>
    run Display.step (Display.init 1) ops = some display ∧ display.admits = true ∧
      Not (Replenishes display.worker) := by
  rcases SlowPipe.rounds numDrawables (Nat.le_refl _) with ⟨display, ran, slow⟩
  refine ⟨slowRun numDrawables, display, ran, slow.admits, fun replenishes => ?_⟩
  have isEmpty : display.worker.freeDrawables = 0 := by
    have free := slow.free
    omega
  exact replenishes.1 isEmpty slow.currentList

end Tree
end Spice
