import Spice.Lib.Run
import Spice.Lib.Int32
import Mathlib.Data.List.Nodup

namespace Spice
namespace Client
namespace SurfaceTable

open Lib

/-!
# The surfaces of a display channel

The client keeps its surfaces in a table by their ids, which frees what is replaced or
removed, and the primary surface in a pointer beside the table.  A new primary of the size
of the old one is not taken: the old one stays as it is.

Every surface that is allocated has a number.  A pointer is the number of a surface, and it
is followed in the table, where the surfaces that live are.
-/

/-- What a message says of a surface. -/
structure Fields where
  surfaceId : Nat
  primary : Bool
  format : Nat
  width : Int
  height : Int
  stride : Int
deriving DecidableEq

structure Surface where
  object : Nat
  fields : Fields
deriving DecidableEq

structure DisplayChannel where
  surfaces : List Surface
  primary : Option Nat
  allocated : Nat
  released : List Nat

def displayChannel : DisplayChannel := ⟨[], none, 0, []⟩

/-- The formats that `spice_surface_format_to_pixman` knows; for others the program ends. -/
def Known (format : Nat) : Prop := format ∈ [1, 8, 16, 80, 32, 96]

instance (format : Nat) : Decidable (Known format) := inferInstanceAs (Decidable (_ ∈ _))

section Channel

variable (room : Fields -> Bool) (channel : DisplayChannel)

namespace DisplayChannel

/-- The surface that a pointer is to; there is none if it was freed. -/
def deref (object : Nat) : Option Surface := channel.surfaces.find? fun surface => surface.object = object

def lookup (surfaceId : Nat) : Option Surface :=
  channel.surfaces.find? fun surface => surface.fields.surfaceId = surfaceId

/-- Keep some surfaces in the table and free the others. -/
def keep (keeps : Surface -> Bool) : DisplayChannel :=
  { channel with
    surfaces := channel.surfaces.filter keeps
    released := (channel.surfaces.filter fun surface => !keeps surface).map Surface.object ++ channel.released }

def remove (surfaceId : Nat) : DisplayChannel := channel.keep fun surface => surface.fields.surfaceId ≠ surfaceId

/-- `g_hash_table_insert`, which frees a surface of the same id. -/
def insert (surface : Surface) : DisplayChannel :=
  let channel := channel.remove surface.fields.surfaceId
  { channel with
    surfaces := surface :: channel.surfaces }

end DisplayChannel

/-- `create_canvas` from the allocation of memory on.  `room` says whether there is memory and an image of it. -/
def insertCanvas (fields : Fields) : Option DisplayChannel :=
  if Known fields.format ∧ room fields = true then
    some { channel.insert ⟨channel.allocated, fields⟩ with
      allocated := channel.allocated + 1
      primary := if fields.primary then some channel.allocated else channel.primary }
  else none

/-- `create_canvas`, with the allocation of the surface by its callers. -/
def createCanvas (fields : Fields) : Option DisplayChannel :=
  match fields.primary, channel.primary with
  | true, some object =>
      match channel.deref object with
      | none => none
      | some old =>
          if old.fields.width = fields.width ∧ old.fields.height = fields.height then
            some { channel with
              allocated := channel.allocated + 1 }
          else insertCanvas room (channel.remove old.fields.surfaceId) fields
  | _, _ => insertCanvas room channel fields

/-- `find_surface`; it fails if the pointer to the primary is followed to nowhere. -/
def findSurface (surfaceId : Nat) : Option (Option Surface) :=
  match channel.primary with
  | none => some (channel.lookup surfaceId)
  | some object =>
      match channel.deref object with
      | none => none
      | some primary => some (if primary.fields.surfaceId = surfaceId then some primary else channel.lookup surfaceId)

def surfaceDestroy (surfaceId : Nat) : Option DisplayChannel :=
  match findSurface channel surfaceId with
  | none => none
  | some none => some channel
  | some (some surface) =>
      some (DisplayChannel.remove (if surface.fields.primary then { channel with
        primary := none } else channel) surface.fields.surfaceId)

/-- `display_handle_reset`, which clears the primary. -/
def reset : Option DisplayChannel :=
  match channel.primary with
  | none => some channel
  | some object => (channel.deref object).map fun _ => channel

end Channel

inductive Op
  | surfaceCreate (surfaceId : Nat) (primary : Bool) (format : Nat) (width height : Nat)
  | surfaceDestroy (surfaceId : Nat)
  | mode (xRes yRes bits : Nat)
  | reset
  | channelReset

def fieldsOf (surfaceId : Nat) (primary : Bool) (format width height : Nat) : Fields :=
  ⟨surfaceId, primary, format, int32 width, int32 height, int32 (width * 4)⟩

/-- What a message creates; the surface of a mode is primary and has the id 0. -/
def Op.creates : Op -> Option Fields
  | .surfaceCreate surfaceId primary format width height => some (fieldsOf surfaceId primary format width height)
  | .mode xRes yRes bits => some (fieldsOf 0 true (if bits = 32 then 32 else 16) xRes yRes)
  | _ => none

def step (room : Fields -> Bool) (channel : DisplayChannel) : Op -> Option DisplayChannel
  | .surfaceCreate surfaceId primary format width height =>
      createCanvas room channel (fieldsOf surfaceId primary format width height)
  | .mode xRes yRes bits => createCanvas room channel (fieldsOf 0 true (if bits = 32 then 32 else 16) xRes yRes)
  | .surfaceDestroy surfaceId => surfaceDestroy channel surfaceId
  | .reset => reset channel
  | .channelReset => some (channel.keep fun surface => surface.fields.primary)

/-! ## What the table should hold -/

/-- The surfaces after a message: a new one replaces one of its id, and a primary the one before; resetting the channel
leaves the primary. -/
def expectedStep (expected : List Fields) (op : Op) : List Fields :=
  match op, op.creates with
  | _, some fields => fields :: expected.filter fun old =>
      old.surfaceId ≠ fields.surfaceId ∧ ¬ (fields.primary ∧ old.primary)
  | .surfaceDestroy surfaceId, none => expected.filter fun old => old.surfaceId ≠ surfaceId
  | .channelReset, none => expected.filter fun old => old.primary
  | _, none => expected

def expected (past : List Op) : List Fields := past.foldl expectedStep []

namespace DisplayChannel

variable (past : List Op) (channel : DisplayChannel)

/-- The table holds what was created last, the primary is in it, and every surface that was allocated is there or was
released once. -/
structure Follows : Prop where
  holds : forall fields, fields ∈ channel.surfaces.map Surface.fields <-> fields ∈ expected past
  primary : forall object, channel.primary = some object -> object ∈ channel.surfaces.map Surface.object
  released : forall object, (channel.surfaces.map Surface.object).count object + channel.released.count object =
    if object < channel.allocated then 1 else 0

structure Inv : Prop where
  follows : channel.Follows past
  ids : (channel.surfaces.map fun surface => surface.fields.surfaceId).Nodup
  isPrimary : forall surface, surface ∈ channel.surfaces ->
    (surface.fields.primary = true <-> channel.primary = some surface.object)

/-- There is memory for a new surface in a known format, a primary finds none of its size, and another one does not
replace the primary. -/
def Kept (room : Fields -> Bool) (op : Op) : Prop :=
  forall fields, op.creates = some fields -> Known fields.format ∧ room fields = true ∧
    forall surface, surface ∈ channel.surfaces -> surface.fields.primary = true ->
      if fields.primary then ¬ (surface.fields.width = fields.width ∧ surface.fields.height = fields.height)
      else surface.fields.surfaceId ≠ fields.surfaceId

end DisplayChannel

/-! ## The table follows the messages -/

variable {fields : Fields}

namespace DisplayChannel

variable {past : List Op} {channel : DisplayChannel}

variable {surface : Surface}

theorem deref_eq_some {object : Nat} (found : channel.deref object = some surface) :
    surface ∈ channel.surfaces ∧ surface.object = object :=
  ⟨List.mem_of_find?_eq_some found, by simpa using List.find?_some found⟩

theorem deref_of_mem {object : Nat} (member : object ∈ channel.surfaces.map Surface.object) :
    Exists fun surface => channel.deref object = some surface := by
  rcases List.mem_map.mp member with ⟨surface, isMember, same⟩
  exact Option.isSome_iff_exists.mp (List.find?_isSome.mpr ⟨surface, isMember, decide_eq_true same⟩)

theorem lookup_eq_some {surfaceId : Nat} (found : channel.lookup surfaceId = some surface) :
    surface ∈ channel.surfaces ∧ surface.fields.surfaceId = surfaceId :=
  ⟨List.mem_of_find?_eq_some found, by simpa using List.find?_some found⟩

/-- What is kept and what is freed are the surfaces there were. -/
theorem count_keep (keeps : Surface -> Bool) (object : Nat) :
    ((channel.keep keeps).surfaces.map Surface.object).count object + (channel.keep keeps).released.count object =
      (channel.surfaces.map Surface.object).count object + channel.released.count object := by
  have same := ((List.filter_append_perm keeps channel.surfaces).map Surface.object).count_eq object
  rw [List.map_append, List.count_append] at same
  unfold keep
  dsimp only
  rw [List.count_append, <- Nat.add_assoc, same]

theorem mem_remove {surfaceId : Nat} :
    surface ∈ (channel.remove surfaceId).surfaces <-> surface ∈ channel.surfaces ∧
      surface.fields.surfaceId ≠ surfaceId := by
  unfold remove keep
  dsimp only
  rw [List.mem_filter, decide_eq_true_iff]

theorem object_lt_of_released (released : forall object, (channel.surfaces.map Surface.object).count object +
    channel.released.count object = if object < channel.allocated then 1 else 0)
    (member : surface ∈ channel.surfaces) : surface.object < channel.allocated := by
  have once := released surface.object
  have positive := List.count_pos_iff.mpr (List.mem_map_of_mem (f := Surface.object) member)
  by_contra large
  rw [if_neg large] at once
  omega

namespace Inv

variable (inv : channel.Inv past)

include inv

theorem object_lt (member : surface ∈ channel.surfaces) : surface.object < channel.allocated :=
  object_lt_of_released inv.follows.released member

theorem same_of_object {surface other : Surface} (member : surface ∈ channel.surfaces)
    (isOther : other ∈ channel.surfaces)
    (same : surface.object = other.object) : surface = other := by
  have nodup : (channel.surfaces.map Surface.object).Nodup := by
    refine List.nodup_iff_count_le_one.mpr fun object => ?_
    have once := inv.follows.released object
    split at once <;> omega
  exact List.inj_on_of_nodup_map nodup member isOther same

theorem same_of_id {surface other : Surface} (member : surface ∈ channel.surfaces) (isOther : other ∈ channel.surfaces)
    (same : surface.fields.surfaceId = other.fields.surfaceId) : surface = other :=
  List.inj_on_of_nodup_map inv.ids member isOther same

theorem same_of_primary {surface other : Surface} (member : surface ∈ channel.surfaces)
    (isOther : other ∈ channel.surfaces)
    (one : surface.fields.primary = true) (two : other.fields.primary = true) : surface = other := by
  have same := ((inv.isPrimary surface member).mp one).symm.trans ((inv.isPrimary other isOther).mp two)
  exact inv.same_of_object member isOther (Option.some.inj same)

theorem deref_primary {object : Nat} (isPrimary : channel.primary = some object) :
    Exists fun surface => channel.deref object = some surface ∧ surface ∈ channel.surfaces ∧
      surface.fields.primary = true := by
  rcases deref_of_mem (inv.follows.primary object isPrimary) with ⟨surface, found⟩
  rcases deref_eq_some found with ⟨member, same⟩
  exact ⟨surface, found, member, (inv.isPrimary surface member).mpr (isPrimary.trans (congrArg some same.symm))⟩

end Inv

/-- A table in which a new surface finds its place: without a primary, if it is one, and without its id at the primary.
-/
structure Open (channel : DisplayChannel) (fields : Fields) : Prop where
  released : forall object, (channel.surfaces.map Surface.object).count object + channel.released.count object =
    if object < channel.allocated then 1 else 0
  ids : (channel.surfaces.map fun surface => surface.fields.surfaceId).Nodup
  isPrimary : fields.primary = true -> forall surface, surface ∈ channel.surfaces -> surface.fields.primary = false
  keeps : fields.primary = false ->
    (forall surface, surface ∈ channel.surfaces ->
      (surface.fields.primary = true <-> channel.primary = some surface.object)) ∧
      forall object, channel.primary = some object -> object < channel.allocated ∧
        Exists fun surface => surface ∈ channel.surfaces ∧ surface.object = object ∧
          surface.fields.surfaceId ≠ fields.surfaceId

theorem ids_keep (ids : (channel.surfaces.map fun surface => surface.fields.surfaceId).Nodup)
    (keeps : Surface -> Bool) :
    ((channel.keep keeps).surfaces.map fun surface => surface.fields.surfaceId).Nodup :=
  ids.sublist (List.filter_sublist.map _)

/-- A new surface is listed. -/
theorem Open.inserted (opened : Open channel fields) {op : Op}
    (holds : forall old, old ∈ expected (past ++ [op]) <-> old = fields ∨
      Exists fun surface => (surface ∈ channel.surfaces ∧ surface.fields.surfaceId ≠ fields.surfaceId) ∧
        surface.fields = old) :
    Inv (past ++ [op]) { channel.insert ⟨channel.allocated, fields⟩ with
      allocated := channel.allocated + 1
      primary := if fields.primary then some channel.allocated else channel.primary } := by
  have mem_surfaces : forall surface, surface ∈ (channel.insert ⟨channel.allocated, fields⟩).surfaces <->
      surface = ⟨channel.allocated, fields⟩ ∨
        (surface ∈ channel.surfaces ∧ surface.fields.surfaceId ≠ fields.surfaceId) := by
    intro surface
    unfold insert
    dsimp only
    rw [List.mem_cons, mem_remove]
  refine ⟨⟨fun old => ?_, ?_, fun object => ?_⟩, ?_, ?_⟩
  · rw [holds, List.mem_map]
    constructor
    · rintro ⟨surface, member, same⟩
      rcases (mem_surfaces surface).mp member with rfl | kept
      · exact .inl same.symm
      · exact .inr ⟨surface, kept, same⟩
    · rintro (rfl | ⟨surface, kept, same⟩)
      · exact ⟨_, (mem_surfaces _).mpr (.inl rfl), rfl⟩
      · exact ⟨surface, (mem_surfaces surface).mpr (.inr kept), same⟩
  · dsimp only
    cases primary : fields.primary with
    | true =>
        intro object isPrimary
        cases isPrimary
        exact List.mem_map.mpr ⟨_, (mem_surfaces _).mpr (.inl rfl), rfl⟩
    | false =>
        intro object isPrimary
        rcases (opened.keeps primary).2 object isPrimary with ⟨_, surface, member, same, other⟩
        exact List.mem_map.mpr ⟨surface, (mem_surfaces surface).mpr (.inr ⟨member, other⟩), same⟩
  · have once := @count_keep channel (fun surface => decide (surface.fields.surfaceId ≠ fields.surfaceId)) object
    rw [opened.released object] at once
    change List.count object (channel.allocated :: (channel.remove fields.surfaceId).surfaces.map Surface.object) +
      (channel.remove fields.surfaceId).released.count object = _
    rw [List.count_cons, Nat.add_right_comm]
    refine (congrArg (· + _) once).trans ?_
    by_cases new : channel.allocated = object
    · subst new
      simp
    · have apart : (channel.allocated == object) = false := beq_eq_false_iff_ne.mpr new
      rw [apart]
      exact if_congr (show object < channel.allocated <-> object < channel.allocated + 1 by omega) rfl rfl
  · change (fields.surfaceId :: (channel.remove fields.surfaceId).surfaces.map fun surface =>
      surface.fields.surfaceId).Nodup
    refine List.nodup_cons.mpr ⟨fun member => ?_, ids_keep opened.ids _⟩
    rcases List.mem_map.mp member with ⟨surface, member, same⟩
    exact (mem_remove.mp member).2 same
  · intro surface member
    dsimp only
    rcases (mem_surfaces surface).mp member with rfl | ⟨member, _⟩
    · cases primary : fields.primary with
      | true => exact iff_of_true rfl rfl
      | false =>
          refine iff_of_false (by decide) fun isPrimary => ?_
          exact absurd ((opened.keeps primary).2 _ isPrimary).1 (Nat.lt_irrefl _)
    · cases primary : fields.primary with
      | true =>
          rw [opened.isPrimary primary surface member]
          refine iff_of_false (by decide) fun same => ?_
          have same : channel.allocated = surface.object := Option.some.inj same
          exact absurd (object_lt_of_released opened.released member) (by omega)
      | false => exact (opened.keeps primary).1 surface member

end DisplayChannel

theorem expected_snoc (past : List Op) (op : Op) : expected (past ++ [op]) = expectedStep (expected past) op := by
  unfold expected
  rw [List.foldl_append]
  rfl

theorem expectedStep_of_creates {old : List Fields} {op : Op} (creates : op.creates = some fields) :
    expectedStep old op = fields :: old.filter fun old => old.surfaceId ≠ fields.surfaceId ∧
      ¬ (fields.primary ∧ old.primary) := by
  cases op with
  | surfaceCreate | mode =>
      cases creates
      rfl
  | surfaceDestroy | reset | channelReset => contradiction

namespace DisplayChannel

variable {past : List Op} {channel : DisplayChannel} {room : Fields -> Bool}

theorem insertCanvas_of (known : Known fields.format) (isRoom : room fields = true) :
    insertCanvas room channel fields = some { channel.insert ⟨channel.allocated, fields⟩ with
      allocated := channel.allocated + 1
      primary := if fields.primary then some channel.allocated else channel.primary } := if_pos ⟨known, isRoom⟩

theorem insertCanvas_eq_some {next : DisplayChannel} (inserted : insertCanvas room channel fields = some next) :
    Known fields.format ∧ room fields = true ∧ { channel.insert ⟨channel.allocated, fields⟩ with
      allocated := channel.allocated + 1
      primary := if fields.primary then some channel.allocated else channel.primary } = next := by
  unfold insertCanvas at inserted
  split at inserted
  next possible => exact ⟨possible.1, possible.2, Option.some.inj inserted⟩
  next => contradiction

/-- A surface that is not primary, or a primary without one before it. -/
theorem Inv.create_plain (inv : channel.Inv past) {op : Op} (creates : op.creates = some fields)
    (kept : channel.Kept room op) (plain : fields.primary = true -> channel.primary = none) :
    Exists fun next => insertCanvas room channel fields = some next ∧ next.Inv (past ++ [op]) := by
  rcases kept fields creates with ⟨known, isRoom, apart⟩
  have noPrimary : fields.primary = true -> forall surface, surface ∈ channel.surfaces ->
      surface.fields.primary = false := by
    intro primary surface member
    by_contra isPrimary
    have same := (inv.isPrimary surface member).mp (eq_true_of_ne_false isPrimary)
    exact absurd ((plain primary).symm.trans same) (Option.some_ne_none _).symm
  refine ⟨_, insertCanvas_of known isRoom,
    Open.inserted ⟨inv.follows.released, inv.ids, noPrimary, fun primary => ⟨inv.isPrimary, ?_⟩⟩ ?_⟩
  · intro object isObject
    rcases inv.deref_primary isObject with ⟨surface, found, member, isPrimary⟩
    have apart := apart surface member isPrimary
    rw [primary, if_neg (by decide)] at apart
    have same := (deref_eq_some found).2
    exact ⟨same ▸ inv.object_lt member, surface, member, same, apart⟩
  · intro old
    rw [expected_snoc, expectedStep_of_creates creates, List.mem_cons, List.mem_filter, <- inv.follows.holds,
      List.mem_map]
    refine or_congr_right ?_
    constructor
    · rintro ⟨⟨surface, member, rfl⟩, filtered⟩
      exact ⟨surface, ⟨member, (of_decide_eq_true filtered).1⟩, rfl⟩
    · rintro ⟨surface, ⟨member, other⟩, rfl⟩
      refine ⟨⟨surface, member, rfl⟩, decide_eq_true ⟨other, fun both => ?_⟩⟩
      exact absurd both.2 (ne_true_of_eq_false (noPrimary both.1 surface member))

/-- A primary in the place of one of another size. -/
theorem Inv.create_replacing (inv : channel.Inv past) {op : Op} (creates : op.creates = some fields)
    (kept : channel.Kept room op) (primary : fields.primary = true) {old : Surface} (isOld : old ∈ channel.surfaces)
    (oldPrimary : old.fields.primary = true) :
    Exists fun next => insertCanvas room (channel.remove old.fields.surfaceId) fields = some next ∧
      next.Inv (past ++ [op]) := by
  rcases kept fields creates with ⟨known, isRoom, _⟩
  have remains : forall surface, surface ∈ (channel.remove old.fields.surfaceId).surfaces <->
      surface ∈ channel.surfaces ∧ surface.fields.primary = false := by
    intro surface
    rw [mem_remove]
    refine and_congr_right fun member => ⟨fun other => ?_, fun notPrimary same => ?_⟩
    · by_contra isPrimary
      exact other (congrArg (fun surface => surface.fields.surfaceId)
        (inv.same_of_primary member isOld (eq_true_of_ne_false isPrimary) oldPrimary))
    · rw [inv.same_of_id member isOld same, oldPrimary] at notPrimary
      contradiction
  refine ⟨_, insertCanvas_of known isRoom, Open.inserted ⟨fun object => ?_, ids_keep inv.ids _, ?_, ?_⟩ ?_⟩
  · exact (count_keep _ object).trans (inv.follows.released object)
  · exact fun _ surface member => ((remains surface).mp member).2
  · exact fun notPrimary => absurd (primary.symm.trans notPrimary) (by decide)
  · intro other
    rw [expected_snoc, expectedStep_of_creates creates, List.mem_cons, List.mem_filter, <- inv.follows.holds,
      List.mem_map]
    refine or_congr_right ?_
    constructor
    · rintro ⟨⟨surface, member, rfl⟩, filtered⟩
      have filtered := of_decide_eq_true filtered
      exact ⟨surface, ⟨(remains surface).mpr
        ⟨member, eq_false_of_ne_true fun isPrimary => filtered.2 ⟨primary, isPrimary⟩⟩, filtered.1⟩, rfl⟩
    · rintro ⟨surface, ⟨member, different⟩, rfl⟩
      rcases (remains surface).mp member with ⟨member, notPrimary⟩
      exact ⟨⟨surface, member, rfl⟩,
        decide_eq_true ⟨different, fun both => absurd both.2 (ne_true_of_eq_false notPrimary)⟩⟩

/-- A surface is created, or nothing is left of the attempt. -/
theorem Inv.createCanvas (inv : channel.Inv past) {op : Op} (creates : op.creates = some fields)
    (kept : channel.Kept room op) :
    Exists fun next => createCanvas room channel fields = some next ∧ next.Inv (past ++ [op]) := by
  unfold SurfaceTable.createCanvas
  cases primary : fields.primary with
  | false => exact inv.create_plain creates kept fun isPrimary => absurd (primary.symm.trans isPrimary) (by decide)
  | true =>
      cases isObject : channel.primary with
      | none => exact inv.create_plain creates kept fun _ => isObject
      | some object =>
          rcases inv.deref_primary isObject with ⟨old, found, isOld, oldPrimary⟩
          have different := (kept fields creates).2.2 old isOld oldPrimary
          rw [primary, if_pos rfl] at different
          dsimp only
          rw [found]
          dsimp only
          rw [if_neg different]
          exact inv.create_replacing creates kept primary isOld oldPrimary

/-- The surface of an id is found in the table. -/
theorem Inv.findSurface (inv : channel.Inv past) (surfaceId : Nat) :
    (findSurface channel surfaceId = some none ∧ forall surface, surface ∈ channel.surfaces ->
      surface.fields.surfaceId ≠ surfaceId) ∨
      Exists fun surface => findSurface channel surfaceId = some (some surface) ∧ surface ∈ channel.surfaces ∧
        surface.fields.surfaceId = surfaceId := by
  have looked : (channel.lookup surfaceId = none ∧ forall surface, surface ∈ channel.surfaces ->
      surface.fields.surfaceId ≠ surfaceId) ∨
      Exists fun surface => channel.lookup surfaceId = some surface ∧ surface ∈ channel.surfaces ∧
        surface.fields.surfaceId = surfaceId := by
    cases found : channel.lookup surfaceId with
    | none => exact .inl ⟨rfl, fun surface member => by simpa using List.find?_eq_none.mp found surface member⟩
    | some surface => exact .inr ⟨surface, rfl, lookup_eq_some found⟩
  unfold SurfaceTable.findSurface
  cases isObject : channel.primary with
  | none => simpa only [Option.some.injEq] using looked
  | some object =>
      rcases inv.deref_primary isObject with ⟨primary, found, member, _⟩
      dsimp only
      rw [found]
      dsimp only
      split
      next same => exact .inr ⟨primary, rfl, member, same⟩
      next => simpa only [Option.some.injEq] using looked

/-- What a message that creates nothing keeps of the table. -/
theorem Inv.kept (inv : channel.Inv past) {op : Op} (keeps : Surface -> Bool) {primary : Option Nat}
    (holds : forall fields, fields ∈ expected (past ++ [op]) <->
      Exists fun surface => (surface ∈ channel.surfaces ∧ keeps surface = true) ∧ surface.fields = fields)
    (same : forall surface, surface ∈ channel.surfaces -> keeps surface = true ->
      (surface.fields.primary = true <-> primary = some surface.object))
    (isPrimary : forall object, primary = some object -> Exists fun surface =>
      surface ∈ channel.surfaces ∧ keeps surface = true ∧ surface.object = object) :
    Inv (past ++ [op]) { channel.keep keeps with primary := primary } := by
  refine ⟨⟨fun fields => ?_, fun object found => ?_, fun object => ?_⟩, ids_keep inv.ids _, fun surface member => ?_⟩
  · rw [holds, List.mem_map]
    exact exists_congr fun surface => and_congr_left' List.mem_filter
  · rcases isPrimary object found with ⟨surface, member, isKept, isObject⟩
    exact List.mem_map.mpr ⟨surface, List.mem_filter.mpr ⟨member, isKept⟩, isObject⟩
  · exact (count_keep keeps object).trans (inv.follows.released object)
  · rcases List.mem_filter.mp member with ⟨member, isKept⟩
    exact same surface member isKept

theorem Inv.expected_filter (inv : channel.Inv past) {op : Op} {keeps : Fields -> Bool}
    (filtered : expectedStep (expected past) op = (expected past).filter keeps) (fields : Fields) :
    fields ∈ expected (past ++ [op]) <->
      Exists fun surface => (surface ∈ channel.surfaces ∧ keeps surface.fields = true) ∧ surface.fields = fields := by
  rw [expected_snoc, filtered, List.mem_filter, <- inv.follows.holds, List.mem_map]
  constructor
  · rintro ⟨⟨surface, member, rfl⟩, isKept⟩
    exact ⟨surface, ⟨member, isKept⟩, rfl⟩
  · rintro ⟨surface, ⟨member, isKept⟩, rfl⟩
    exact ⟨⟨surface, member, rfl⟩, isKept⟩

/-- A surface is destroyed, with what it had. -/
theorem Inv.surfaceDestroy (inv : channel.Inv past) (surfaceId : Nat) :
    Exists fun next => surfaceDestroy channel surfaceId = some next ∧
      next.Inv (past ++ [.surfaceDestroy surfaceId]) := by
  unfold SurfaceTable.surfaceDestroy
  have holds := @Inv.expected_filter past channel inv (.surfaceDestroy surfaceId)
      (fun old => old.surfaceId ≠ surfaceId) rfl
  rcases inv.findSurface surfaceId with ⟨notFound, none_⟩ | ⟨surface, found, member, isId⟩
  · rw [notFound]
    refine ⟨channel, rfl, ⟨?_, inv.follows.primary, inv.follows.released⟩, inv.ids, inv.isPrimary⟩
    intro fields
    rw [holds, List.mem_map]
    exact exists_congr fun surface =>
      and_congr_left' ⟨fun member => ⟨member, decide_eq_true (none_ surface member)⟩, fun both => both.1⟩
  · rw [found]
    subst isId
    dsimp only
    cases primary : surface.fields.primary with
    | true =>
        refine ⟨_, rfl, @Inv.kept past channel inv _ _ none holds (fun other isOther different => ?_)
          fun _ isNone => absurd isNone (Option.some_ne_none _).symm⟩
        refine iff_of_false (fun isPrimary => ?_) (Option.some_ne_none _).symm
        exact of_decide_eq_true different (congrArg (fun surface => surface.fields.surfaceId)
          (inv.same_of_primary isOther member isPrimary primary))
    | false =>
        rw [if_neg Bool.false_ne_true]
        refine ⟨_, rfl, inv.kept _ holds (fun other isOther _ => inv.isPrimary other isOther) fun object isObject => ?_⟩
        rcases inv.deref_primary isObject with ⟨old, isOld, oldMember, oldPrimary⟩
        refine ⟨old, oldMember, decide_eq_true fun same => ?_, (deref_eq_some isOld).2⟩
        rw [inv.same_of_id oldMember member same, primary] at oldPrimary
        contradiction

/-- A message that meets its condition leaves the table as it should be. -/
theorem Inv.step (inv : channel.Inv past) {op : Op} (kept : channel.Kept room op) :
    Exists fun next => step room channel op = some next ∧ next.Inv (past ++ [op]) := by
  cases op with
  | surfaceCreate surfaceId primary format width height => exact inv.createCanvas rfl kept
  | mode xRes yRes bits => exact inv.createCanvas rfl kept
  | surfaceDestroy surfaceId => exact inv.surfaceDestroy surfaceId
  | reset =>
      refine ⟨channel, ?_, ⟨fun fields => ?_, inv.follows.primary, inv.follows.released⟩, inv.ids, inv.isPrimary⟩
      · change SurfaceTable.reset channel = some channel
        unfold SurfaceTable.reset
        cases isObject : channel.primary with
        | none => rfl
        | some object =>
            rcases inv.deref_primary isObject with ⟨primary, found, _⟩
            dsimp only
            rw [found]
            rfl
      · rw [inv.follows.holds, expected_snoc]
        rfl
  | channelReset =>
      refine ⟨_, rfl, inv.kept _ (inv.expected_filter rfl) (fun surface member _ => inv.isPrimary surface member) ?_⟩
      intro object isObject
      rcases inv.deref_primary isObject with ⟨primary, found, member, isPrimary⟩
      exact ⟨primary, member, isPrimary, (deref_eq_some found).2⟩

/-- A create that is followed as it should be has met its condition. -/
theorem Inv.kept_of_follows (inv : channel.Inv past) {op : Op} {next : DisplayChannel}
    (stepped : SurfaceTable.step room channel op = some next) (follows : next.Follows (past ++ [op])) :
    channel.Kept room op := by
  intro fields creates
  have created : SurfaceTable.createCanvas room channel fields = some next := by
    cases op with
    | surfaceCreate | mode =>
        cases creates
        exact stepped
    | surfaceDestroy | reset | channelReset => contradiction
  unfold SurfaceTable.createCanvas at created
  cases primary : fields.primary with
  | false =>
      rw [primary] at created
      rcases insertCanvas_eq_some created with ⟨known, isRoom, rfl⟩
      refine ⟨known, isRoom, fun surface member isPrimary => ?_⟩
      rw [if_neg (by decide)]
      intro replaced
      -- the pointer stays at a surface that is freed
      have live := follows.primary surface.object (by
        dsimp only
        rw [primary, if_neg (by decide)]
        exact (inv.isPrimary surface member).mp isPrimary)
      rcases List.mem_map.mp live with ⟨other, isOther, same⟩
      rcases List.mem_cons.mp isOther with rfl | isOther
      · exact absurd (inv.object_lt member) (by rw [<- same]; exact Nat.lt_irrefl _)
      · rcases mem_remove.mp isOther with ⟨isOther, different⟩
        exact different
          ((congrArg (fun surface => surface.fields.surfaceId) (inv.same_of_object isOther member same)).trans replaced)
  | true =>
      rw [primary] at created
      cases isObject : channel.primary with
      | none =>
          rw [isObject] at created
          rcases insertCanvas_eq_some created with ⟨known, isRoom, _⟩
          refine ⟨known, isRoom, fun surface member isPrimary => ?_⟩
          exact absurd (isObject.symm.trans ((inv.isPrimary surface member).mp isPrimary)) (Option.some_ne_none _).symm
      | some object =>
          rcases inv.deref_primary isObject with ⟨old, found, isOld, oldPrimary⟩
          rw [isObject] at created
          dsimp only at created
          rw [found] at created
          dsimp only at created
          split at created
          next =>
            -- the new surface is neither in the table nor freed
            cases created
            have once := follows.released channel.allocated
            have before := inv.follows.released channel.allocated
            rw [if_neg (Nat.lt_irrefl _)] at before
            rw [if_pos (Nat.lt_succ_self _)] at once
            exact absurd (before.symm.trans once) (by decide)
          next different =>
            rcases insertCanvas_eq_some created with ⟨known, isRoom, _⟩
            refine ⟨known, isRoom, fun surface member isPrimary => ?_⟩
            rw [inv.same_of_primary member isOld isPrimary oldPrimary, if_pos rfl]
            exact different

end DisplayChannel

theorem displayChannel_inv : displayChannel.Inv [] where
  follows := ⟨fun _ => iff_of_false List.not_mem_nil List.not_mem_nil,
    fun _ isNone => absurd isNone (Option.some_ne_none _).symm,
    fun _ => rfl⟩
  ids := List.nodup_nil
  isPrimary := fun _ member => absurd member List.not_mem_nil

/-- The table follows the messages exactly if there is room for what they create, a new primary is not of the size of
the old one, and no other surface takes the id of the primary. -/
theorem surface_table_iff (room : Fields -> Bool) (ops : List Op) :
    AllStates (step room) (fun past channel => channel.Follows past) [] displayChannel ops <->
      Meets (step room) (fun _ channel op => channel.Kept room op) [] displayChannel ops :=
  @allStates_iff_meets _ _ (step room) (fun _ channel op => channel.Kept room op)
    (fun past channel => channel.Inv past) (fun past channel => channel.Follows past) (fun _ _ => True)
    (fun _ _ inv => inv.follows) (fun _ _ _ inv _ kept => inv.step kept)
    (fun _ _ _ _ inv _ stepped follows => inv.kept_of_follows stepped follows) ops [] displayChannel displayChannel_inv
    fun _ _ _ _ => trivial

/-- A primary of 16 bits and one of 32 bits in its size: the table keeps the old one, and the new one is lost. -/
theorem depth_change_not_followed :
    ¬ AllStates (step fun _ => true) (fun past channel => channel.Follows past) [] displayChannel
      [.surfaceCreate 0 true 16 10 10, .surfaceCreate 0 true 32 10 10] := by
  intro follows
  rcases follows _ (List.prefix_refl _) with ⟨final, ran, safe⟩
  cases ran
  exact absurd ((safe.holds (fieldsOf 0 true 32 10 10)).mpr (by decide)) (by decide)

end SurfaceTable
end Client
end Spice
