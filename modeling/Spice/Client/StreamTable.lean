import Mathlib.Logic.Function.Basic
import Mathlib.Tactic.Common
import Spice.Client.StreamSchedule

namespace Spice
namespace Client

open Lib

/-!
# The stream table of a display channel

The handlers of `channel-display.c` for streams and for the surfaces they are shown on.  A
stream keeps the pointer to its surface that was found when it was created.  Surfaces are
numbered as they are allocated, and a number without a surface was freed.

`none` stands for what the code must not do: reading through a pointer that is `NULL` or to
freed memory, reading in front of the table, overflow of `nstreams`, a check that fails.  With
wrapping arithmetic the overflow would be a loop that never ends.
-/

/-- A `display_surface`. -/
structure DisplaySurface where
  surfaceId : UInt32
  primary : Bool
  width : UInt32
  height : UInt32
deriving DecidableEq

/-- A `display_stream` with the pointer to its surface.  Only frames of an MJPEG stream are put
on the surface. -/
structure StreamEntry where
  surface : Option Nat
  mjpeg : Bool
  haveRegion : Bool
  reportIsActive : Bool
  reportId : UInt32
  st : DisplayStream
deriving DecidableEq

/-- The private data of the channel: the hash table of the surfaces, the surfaces that are
allocated, `primary`, and the table of the streams. -/
structure DisplayChannel where
  surfaces : UInt32 -> Option Nat
  surface : Nat -> Option DisplaySurface
  allocated : Nat
  primary : Option Nat
  nstreams : Nat
  streams : Nat -> Option StreamEntry
  session : Session

/-- What can happen to the channel.  `made` says whether `canvas_create_for_data` gives a canvas. -/
inductive ChannelOp
  | streamCreate (id surfaceId : UInt32) (mjpeg haveRegion : Bool)
  | streamData (id time : UInt32)
  | streamClip (id : UInt32) (haveRegion : Bool)
  | streamDestroy (id : UInt32)
  | streamDestroyAll
  | streamActivateReport (streamId uniqueId : UInt32)
  | surfaceCreate (surface : DisplaySurface) (made : Bool)
  | surfaceDestroy (surfaceId : UInt32)
  | expire (stream : Nat) (spent : List Nat)
  | elapse (micros : Nat)
deriving DecidableEq

namespace DisplayChannel

/-- `spice_display_channel_init`, some time after the mm-time of the session was set. -/
def init (mmTime : UInt32) (setAt elapsed : Nat) : DisplayChannel where
  surfaces := fun _ => none
  surface := fun _ => none
  allocated := 0
  primary := none
  nstreams := 0
  streams := fun _ => none
  session := { clock := setAt + elapsed, mmTime := mmTime, mmTimeAtClock := setAt }

/-! ## Surfaces -/

/-- `find_surface`, which reads the primary surface first. -/
def findSurface (c : DisplayChannel) (surfaceId : UInt32) : Option (Option Nat) :=
  match c.primary with
  | none => some (c.surfaces surfaceId)
  | some primary =>
      match c.surface primary with
      | none => none
      | some surface => if surface.surfaceId = surfaceId then some (some primary) else some (c.surfaces surfaceId)

/-- `g_hash_table_remove`, which destroys the surface. -/
def tableRemove (c : DisplayChannel) (surfaceId : UInt32) : DisplayChannel :=
  match c.surfaces surfaceId with
  | none => c
  | some old =>
      { c with
        surfaces := Function.update c.surfaces surfaceId none
        surface := Function.update c.surface old none }

/-- `g_hash_table_insert` of a new surface, which destroys the one it replaces. -/
def tableInsert (c : DisplayChannel) (surface : DisplaySurface) : DisplayChannel :=
  { c.tableRemove surface.surfaceId with
    surfaces := Function.update (c.tableRemove surface.surfaceId).surfaces surface.surfaceId (some c.allocated)
    surface := Function.update (c.tableRemove surface.surfaceId).surface c.allocated (some surface)
    allocated := c.allocated + 1 }

/-- The rest of `create_canvas`, once an old primary surface is removed. -/
def finishCanvas (c : DisplayChannel) (surface : DisplaySurface) (made : Bool) : DisplayChannel :=
  if made then
    if surface.primary then { c.tableInsert surface with primary := some c.allocated } else c.tableInsert surface
  else c

def createCanvas (c : DisplayChannel) (surface : DisplaySurface) (made : Bool) : Option DisplayChannel :=
  if surface.primary then
    match c.primary with
    | none => some (c.finishCanvas surface made)
    | some primary =>
        match c.surface primary with
        | none => none
        | some old =>
            if old.width = surface.width ∧ old.height = surface.height then some c
            else some ((c.tableRemove old.surfaceId).finishCanvas surface made)
  else some (c.finishCanvas surface made)

def handleSurfaceDestroy (c : DisplayChannel) (surfaceId : UInt32) : Option DisplayChannel :=
  match c.findSurface surfaceId with
  | none => none
  | some none => some c
  | some (some found) =>
      match c.surface found with
      | none => none
      | some surface =>
          if surface.primary then some { c.tableRemove surface.surfaceId with primary := none }
          else some (c.tableRemove surface.surfaceId)

/-! ## Streams -/

/-- `while (op->id >= c->nstreams) c->nstreams *= 2`, without overflow of an `int`. -/
def grow (id : Nat) : Nat -> Nat -> Option Nat
  | 0, _ => none
  | fuel + 1, nstreams =>
      if id < nstreams then some nstreams
      else if 2 * nstreams < 2 ^ 31 then grow id fuel (2 * nstreams) else none

/-- The table grows to cover an identifier; new entries are zeroed. -/
def growTable (c : DisplayChannel) (id : Nat) : Option DisplayChannel :=
  if id < c.nstreams then some c
  else
    (grow id 32 (if c.nstreams = 0 then 1 else c.nstreams)).map fun nstreams =>
      { c with
        nstreams := nstreams
        streams := fun index => if index < c.nstreams then c.streams index else none }

def putStream (c : DisplayChannel) (index : Nat) (value : Option StreamEntry) : DisplayChannel :=
  { c with streams := Function.update c.streams index value }

def handleStreamCreate (c : DisplayChannel) (id surfaceId : UInt32) (mjpeg haveRegion : Bool) :
    Option DisplayChannel :=
  (c.growTable id.toNat).bind fun c =>
    -- `g_return_if_fail(c->streams[op->id] == NULL)`
    if (c.streams id.toNat).isSome then some c
    else
      (c.findSurface surfaceId).map fun surface =>
        c.putStream id.toNat
          (some
            { surface := surface
              mjpeg := mjpeg
              haveRegion := haveRegion
              reportIsActive := false
              reportId := 0
              st := .init })

/-- A handler that reads the stream of an identifier after the checks on the table. -/
def withStream (c : DisplayChannel) (id : UInt32) (handle : StreamEntry -> Option DisplayChannel) :
    Option DisplayChannel :=
  if c.nstreams ≤ id.toNat then some c
  else
    match c.streams id.toNat with
    | none => none
    | some entry => handle entry

/-- `display_handle_stream_data`, for `STREAM_DATA` and for `STREAM_DATA_SIZED`. -/
def handleStreamData (c : DisplayChannel) (id time : UInt32) : Option DisplayChannel :=
  c.withStream id fun entry =>
    (entry.st.handleStreamData c.session time).map fun st => c.putStream id.toNat (some { entry with st := st })

def handleStreamClip (c : DisplayChannel) (id : UInt32) (haveRegion : Bool) : Option DisplayChannel :=
  c.withStream id fun entry => some (c.putStream id.toNat (some { entry with haveRegion := haveRegion }))

/-- `destroy_stream`, whose parameter is an `int`. -/
def destroyStream (c : DisplayChannel) (id : Int) : Option DisplayChannel :=
  if c.nstreams = 0 then some c
  else if id < c.nstreams then
    if id < 0 then none else some (c.putStream id.toNat none)
  else some c

def handleStreamDestroy (c : DisplayChannel) (id : UInt32) : Option DisplayChannel :=
  c.destroyStream (int32 id.toNat)

def clearStreams (c : DisplayChannel) : DisplayChannel :=
  { c with nstreams := 0, streams := fun _ => none }

/-- `display_handle_stream_activate_report`, which checks that there is a stream. -/
def handleStreamActivateReport (c : DisplayChannel) (streamId uniqueId : UInt32) : DisplayChannel :=
  if c.nstreams ≤ streamId.toNat then c
  else
    match c.streams streamId.toNat with
    | none => c
    | some entry =>
        c.putStream streamId.toNat (some { entry with reportIsActive := true, reportId := uniqueId })

/-- `display_stream_render` when the timeout of a stream expires.  A frame that was decoded is put
on the canvas of `st->surface`. -/
def handleExpire (c : DisplayChannel) (index : Nat) (spent : List Nat) : Option DisplayChannel :=
  match c.streams index with
  | none => some c
  | some entry =>
      match entry.st.timeout with
      | none => some c
      | some deadline =>
          if c.session.clock < deadline then some c
          else if entry.mjpeg && (entry.surface.bind c.surface).isNone then none
          else
            (entry.st.render c.session spent).map fun result =>
              { c.putStream index (some { entry with st := result.2 }) with session := result.1 }

/-- One operation. -/
def step (c : DisplayChannel) : ChannelOp -> Option DisplayChannel
  | .streamCreate id surfaceId mjpeg haveRegion => c.handleStreamCreate id surfaceId mjpeg haveRegion
  | .streamData id time => c.handleStreamData id time
  | .streamClip id haveRegion => c.handleStreamClip id haveRegion
  | .streamDestroy id => c.handleStreamDestroy id
  | .streamDestroyAll => some c.clearStreams
  | .streamActivateReport streamId uniqueId => some (c.handleStreamActivateReport streamId uniqueId)
  | .surfaceCreate surface made => c.createCanvas surface made
  | .surfaceDestroy surfaceId => c.handleSurfaceDestroy surfaceId
  | .expire index spent => c.handleExpire index spent
  | .elapse micros => some { c with session := c.session.elapse micros }

/-! ## The condition -/

/-- Frames of some stream are put on a surface. -/
def Uses (c : DisplayChannel) (surface : Nat) : Prop :=
  Exists fun index => Exists fun entry =>
    c.streams index = some entry ∧ entry.mjpeg = true ∧ entry.surface = some surface

/-- The primary surface is there and has another size than a new primary surface. -/
def Resizes (c : DisplayChannel) (surface : DisplaySurface) (primary : Nat) : Prop :=
  surface.primary = true ∧ c.primary = some primary ∧
    forall old, c.surface primary = some old -> Not (old.width = surface.width ∧ old.height = surface.height)

/-- A new primary surface is not created: the one that is there has its size. -/
def Reuses (c : DisplayChannel) (surface : DisplaySurface) : Prop :=
  surface.primary = true ∧ Exists fun primary => Exists fun old =>
    c.primary = some primary ∧ c.surface primary = some old ∧
      old.width = surface.width ∧ old.height = surface.height

/-- The message does what a server may do.

The identifier of a new stream is below `2 ^ 30`, or in the table already, and its surface is
there.  Data and clips are for streams that are there, if the table covers them, and a stream
that is destroyed has an identifier below `2 ^ 31`.  A surface on which a stream is shown is not
destroyed, replaced, or resized.  A surface that is not primary does not replace the primary
one, and a primary surface that replaces another one gets its canvas. -/
def Fits (c : DisplayChannel) : ChannelOp -> Prop
  | .streamCreate id surfaceId mjpeg _ =>
      (c.nstreams ≤ id.toNat -> id.toNat < 2 ^ 30) ∧
        (mjpeg = true -> c.streams id.toNat = none ->
          Exists fun surface => c.findSurface surfaceId = some (some surface))
  | .streamData id _ => id.toNat < c.nstreams -> (c.streams id.toNat).isSome = true
  | .streamClip id _ => id.toNat < c.nstreams -> (c.streams id.toNat).isSome = true
  | .streamDestroy id => c.nstreams ≠ 0 -> id.toNat < 2 ^ 31
  | .streamDestroyAll => True
  | .streamActivateReport _ _ => True
  | .surfaceCreate surface made =>
      (made = true -> Not (c.Reuses surface) -> forall old, c.surfaces surface.surfaceId = some old ->
        Not (c.Uses old) ∧ (surface.primary = false -> c.primary ≠ some old)) ∧
      (forall primary, c.Resizes surface primary -> Not (c.Uses primary) ∧ made = true)
  | .surfaceDestroy surfaceId =>
      forall surface, c.findSurface surfaceId = some (some surface) -> Not (c.Uses surface)
  | .expire _ _ => True
  | .elapse _ => True

/-- The table covers the identifier of a stream that was just created. -/
def Covers (past : List ChannelOp) (c : DisplayChannel) : Prop :=
  forall id surfaceId mjpeg haveRegion,
    past.getLast? = some (.streamCreate id surfaceId mjpeg haveRegion) -> id.toNat < c.nstreams

end DisplayChannel

namespace DisplayChannel

/-! ## Surfaces that are there -/

/-- The hash table has surfaces that are allocated, each under its identifier. -/
structure Listed (c : DisplayChannel) : Prop where
  listed : forall surfaceId found, c.surfaces surfaceId = some found ->
    Exists fun surface => c.surface found = some surface ∧ surface.surfaceId = surfaceId
  fresh : forall found surface, c.surface found = some surface -> found < c.allocated

def PrimaryListed (c : DisplayChannel) : Prop :=
  forall primary, c.primary = some primary ->
    Exists fun surface => c.surface primary = some surface ∧ surface.primary = true ∧
      c.surfaces surface.surfaceId = some primary

/-- A surface that is allocated in one state is in the other. -/
def Keeps (c next : DisplayChannel) (found : Nat) : Prop :=
  forall surface, c.surface found = some surface -> next.surface found = some surface

variable {c : DisplayChannel} {surfaceId : UInt32}

theorem tableRemove_none (absent : c.surfaces surfaceId = none) : c.tableRemove surfaceId = c := by
  rw [tableRemove, absent]

theorem tableRemove_some {old : Nat}
    (found : c.surfaces surfaceId = some old) :
    c.tableRemove surfaceId =
      { c with
        surfaces := Function.update c.surfaces surfaceId none
        surface := Function.update c.surface old none } := by
  rw [tableRemove, found]

theorem tableRemove_keeps {found : Nat}
    (other : c.surfaces surfaceId ≠ some found) : c.Keeps (c.tableRemove surfaceId) found := by
  intro surface present
  cases removed : c.surfaces surfaceId with
  | none => rwa [tableRemove_none removed]
  | some old =>
      rw [tableRemove_some removed]
      have differ : found ≠ old := fun same => other (by rw [removed, same])
      exact (Function.update_of_ne differ none c.surface).trans present

theorem surfaces_tableRemove_self (c : DisplayChannel) (surfaceId : UInt32) :
    (c.tableRemove surfaceId).surfaces surfaceId = none := by
  cases removed : c.surfaces surfaceId with
  | none => rw [tableRemove_none removed, removed]
  | some old =>
      rw [tableRemove_some removed]
      exact Function.update_self surfaceId none c.surfaces

theorem surfaces_tableRemove_ne (c : DisplayChannel) {surfaceId other : UInt32} (differ : other ≠ surfaceId) :
    (c.tableRemove surfaceId).surfaces other = c.surfaces other := by
  cases removed : c.surfaces surfaceId with
  | none => rw [tableRemove_none removed]
  | some old =>
      rw [tableRemove_some removed]
      exact Function.update_of_ne differ none c.surfaces

variable {surface : DisplaySurface}

theorem surface_of_tableRemove {found : Nat}
    (present : (c.tableRemove surfaceId).surface found = some surface) : c.surface found = some surface := by
  cases removed : c.surfaces surfaceId with
  | none => rwa [tableRemove_none removed] at present
  | some old =>
      rw [tableRemove_some removed] at present
      by_cases same : found = old
      · subst same
        have gone := (Function.update_self found none c.surface).symm.trans present
        cases gone
      · exact (Function.update_of_ne same none c.surface).symm.trans present

theorem tableRemove_rest (c : DisplayChannel) (surfaceId : UInt32) :
    (c.tableRemove surfaceId).allocated = c.allocated ∧ (c.tableRemove surfaceId).primary = c.primary ∧
      (c.tableRemove surfaceId).nstreams = c.nstreams ∧ (c.tableRemove surfaceId).streams = c.streams ∧
        (c.tableRemove surfaceId).session = c.session := by
  unfold tableRemove
  split
  · exact ⟨rfl, rfl, rfl, rfl, rfl⟩
  · exact ⟨rfl, rfl, rfl, rfl, rfl⟩

theorem Listed.unique (listed : c.Listed) {first second : UInt32} {found : Nat}
    (one : c.surfaces first = some found) (other : c.surfaces second = some found) : first = second := by
  rcases listed.listed first found one with ⟨surface, present, isFirst⟩
  rcases listed.listed second found other with ⟨again, presentAgain, isSecond⟩
  have same : surface = again := Option.some.inj (present.symm.trans presentAgain)
  rw [← isFirst, ← isSecond, same]

theorem Listed.tableRemove (listed : c.Listed) (surfaceId : UInt32) : (c.tableRemove surfaceId).Listed where
  listed := by
    intro other found isListed
    by_cases same : other = surfaceId
    · subst same
      rw [surfaces_tableRemove_self] at isListed
      cases isListed
    · rw [surfaces_tableRemove_ne c same] at isListed
      rcases listed.listed other found isListed with ⟨surface, present, isId⟩
      refine ⟨surface, tableRemove_keeps ?_ surface present, isId⟩
      exact fun removed => same (listed.unique isListed removed)
  fresh := by
    intro found surface present
    rw [(c.tableRemove_rest surfaceId).1]
    exact listed.fresh found surface (surface_of_tableRemove present)

theorem PrimaryListed.tableRemove (primaryListed : c.PrimaryListed)
    (other : forall found, c.surfaces surfaceId = some found -> c.primary ≠ some found) :
    (c.tableRemove surfaceId).PrimaryListed := by
  intro primary isPrimary
  rw [(c.tableRemove_rest surfaceId).2.1] at isPrimary
  rcases primaryListed primary isPrimary with ⟨surface, present, flagged, isListed⟩
  refine ⟨surface, tableRemove_keeps (fun removed => other primary removed isPrimary) surface present, flagged, ?_⟩
  have differ : surface.surfaceId ≠ surfaceId := by
    rintro rfl
    exact other primary isListed isPrimary
  rw [surfaces_tableRemove_ne c differ, isListed]

theorem surface_allocated (listed : c.Listed) : c.surface c.allocated = none := by
  cases present : c.surface c.allocated with
  | none => rfl
  | some surface => exact absurd (listed.fresh _ surface present) (Nat.lt_irrefl _)

theorem tableInsert_keeps (listed : c.Listed) {found : Nat}
    (other : c.surfaces surface.surfaceId ≠ some found) : c.Keeps (c.tableInsert surface) found := by
  intro old present
  have kept := tableRemove_keeps other old present
  have differ : found ≠ c.allocated := by
    rintro rfl
    rw [surface_allocated listed] at present
    cases present
  exact (Function.update_of_ne differ _ _).trans kept

theorem Listed.tableInsert (listed : c.Listed) (surface : DisplaySurface) : (c.tableInsert surface).Listed where
  listed := by
    intro other found isListed
    by_cases same : other = surface.surfaceId
    · subst same
      have isNew := (Function.update_self surface.surfaceId _ _).symm.trans isListed
      cases isNew
      exact ⟨surface, Function.update_self c.allocated _ _, rfl⟩
    · have wasListed := (Function.update_of_ne same _ _).symm.trans isListed
      rw [surfaces_tableRemove_ne c same] at wasListed
      rcases listed.listed other found wasListed with ⟨old, present, isId⟩
      refine ⟨old, tableInsert_keeps listed ?_ old present, isId⟩
      exact fun removed => same (listed.unique wasListed removed)
  fresh := by
    intro found other present
    show found < c.allocated + 1
    by_cases same : found = c.allocated
    · rw [same]
      exact Nat.lt_succ_self _
    · have before := surface_of_tableRemove ((Function.update_of_ne same _ _).symm.trans present)
      exact Nat.lt_succ_of_lt (listed.fresh found other before)

theorem PrimaryListed.tableInsert (listed : c.Listed) (primaryListed : c.PrimaryListed)
    (other : forall found, c.surfaces surface.surfaceId = some found -> c.primary ≠ some found) :
    (c.tableInsert surface).PrimaryListed := by
  intro primary isPrimary
  have wasPrimary : c.primary = some primary := (c.tableRemove_rest surface.surfaceId).2.1.symm.trans isPrimary
  rcases primaryListed primary wasPrimary with ⟨old, present, flagged, isListed⟩
  refine ⟨old, tableInsert_keeps listed (fun removed => other primary removed wasPrimary) old present, flagged, ?_⟩
  have differ : old.surfaceId ≠ surface.surfaceId := by
    intro same
    rw [same] at isListed
    exact other primary isListed wasPrimary
  exact (Function.update_of_ne differ _ _).trans ((surfaces_tableRemove_ne c differ).trans isListed)

/-- A surface is found in the list, or as the primary one. -/
theorem findSurface_spec (listed : c.Listed) (primaryListed : c.PrimaryListed) (surfaceId : UInt32) :
    Exists fun result => c.findSurface surfaceId = some result ∧ forall found, result = some found ->
      Exists fun surface => c.surface found = some surface ∧ surface.surfaceId = surfaceId ∧
        c.surfaces surfaceId = some found := by
  have fromTable : forall found, c.surfaces surfaceId = some found ->
      Exists fun surface => c.surface found = some surface ∧ surface.surfaceId = surfaceId ∧
        c.surfaces surfaceId = some found := by
    intro found isListed
    rcases listed.listed surfaceId found isListed with ⟨surface, present, isId⟩
    exact ⟨surface, present, isId, isListed⟩
  cases isPrimary : c.primary with
  | none => exact ⟨c.surfaces surfaceId, by rw [findSurface, isPrimary], fromTable⟩
  | some primary =>
      rcases primaryListed primary isPrimary with ⟨surface, present, _, isListed⟩
      by_cases same : surface.surfaceId = surfaceId
      · refine ⟨some primary, by simp only [findSurface, isPrimary, present, if_pos same], ?_⟩
        intro found isFound
        cases isFound
        exact ⟨surface, present, same, by rw [← same]; exact isListed⟩
      · exact ⟨c.surfaces surfaceId, by simp only [findSurface, isPrimary, present, if_neg same], fromTable⟩

/-! ## Messages about surfaces -/

/-- What a message about surfaces leaves: the surfaces that are used are still there, and the
streams are the same. -/
structure SurfacesChanged (used : Nat -> Prop) (c next : DisplayChannel) : Prop where
  listed : next.Listed
  primaryListed : next.PrimaryListed
  keeps : forall found, used found -> c.Keeps next found
  nstreams : next.nstreams = c.nstreams
  streams : next.streams = c.streams
  session : next.session = c.session

theorem SurfacesChanged.refl {used : Nat -> Prop} (listed : c.Listed)
    (primaryListed : c.PrimaryListed) : SurfacesChanged used c c :=
  ⟨listed, primaryListed, fun _ _ _ present => present, rfl, rfl, rfl⟩

theorem tableInsert_rest (c : DisplayChannel) (surface : DisplaySurface) :
    (c.tableInsert surface).nstreams = c.nstreams ∧ (c.tableInsert surface).streams = c.streams ∧
      (c.tableInsert surface).session = c.session := (c.tableRemove_rest surface.surfaceId).2.2

/-- A canvas that is made, or not, is put into its surface. -/
theorem finishCanvas_spec {used : Nat -> Prop} {made : Bool}
    (listed : c.Listed) (primaryListed : surface.primary = false ∨ made = false -> c.PrimaryListed)
    (fits : made = true -> forall old, c.surfaces surface.surfaceId = some old ->
      Not (used old) ∧ (surface.primary = false -> c.primary ≠ some old)) :
    SurfacesChanged used c (c.finishCanvas surface made) := by
  cases made with
  | false => exact SurfacesChanged.refl listed (primaryListed (Or.inr rfl))
  | true =>
      have replaced := fits rfl
      have rest := c.tableInsert_rest surface
      have keeps : forall found, used found -> c.Keeps (c.tableInsert surface) found := by
        intro found isUsed
        exact tableInsert_keeps listed (fun removed => (replaced found removed).1 isUsed)
      have inserted := listed.tableInsert surface
      cases isPrimary : surface.primary with
      | false =>
          have same : c.finishCanvas surface true = c.tableInsert surface := by
            rw [finishCanvas, if_pos rfl, isPrimary, if_neg Bool.false_ne_true]
          rw [same]
          have stillListed := PrimaryListed.tableInsert listed (primaryListed (Or.inl isPrimary))
            (fun found removed => (replaced found removed).2 isPrimary)
          exact ⟨inserted, stillListed, keeps, rest.1, rest.2.1, rest.2.2⟩
      | true =>
          have same : c.finishCanvas surface true = { c.tableInsert surface with primary := some c.allocated } := by
            rw [finishCanvas, if_pos rfl, if_pos isPrimary]
          rw [same]
          refine ⟨⟨inserted.listed, inserted.fresh⟩, ?_, keeps, rest.1, rest.2.1, rest.2.2⟩
          intro primary isNew
          cases isNew
          exact ⟨surface, Function.update_self c.allocated _ _, isPrimary, Function.update_self surface.surfaceId _ _⟩

/-- The canvas of a surface that is created. -/
theorem createCanvas_spec {made : Bool} (listed : c.Listed)
    (primaryListed : c.PrimaryListed) (fits : c.Fits (.surfaceCreate surface made)) :
    Exists fun next => c.createCanvas surface made = some next ∧ SurfacesChanged c.Uses c next := by
  have finished : Not (c.Reuses surface) -> SurfacesChanged c.Uses c (c.finishCanvas surface made) := by
    intro notReused
    exact finishCanvas_spec listed (fun _ => primaryListed) (fun isMade old => fits.1 isMade notReused old)
  cases isPrimary : surface.primary with
  | false =>
      have notReused : Not (c.Reuses surface) := by
        rintro ⟨impossible, _⟩
        rw [isPrimary] at impossible
        cases impossible
      exact ⟨_, by rw [createCanvas, isPrimary, if_neg Bool.false_ne_true], finished notReused⟩
  | true =>
      cases before : c.primary with
      | none =>
          have notReused : Not (c.Reuses surface) := by
            rintro ⟨_, primary, old, impossible, _⟩
            rw [before] at impossible
            cases impossible
          exact ⟨_, by rw [createCanvas, if_pos isPrimary, before], finished notReused⟩
      | some primary =>
          rcases primaryListed primary before with ⟨old, present, _, isListed⟩
          by_cases same : old.width = surface.width ∧ old.height = surface.height
          · refine ⟨c, ?_, SurfacesChanged.refl listed primaryListed⟩
            simp only [createCanvas, if_pos isPrimary, before, present, if_pos same]
          · have resizes : c.Resizes surface primary := by
              refine ⟨isPrimary, before, fun other isOther => ?_⟩
              rw [present] at isOther
              cases isOther
              exact same
            have resized := fits.2 primary resizes
            have notReused : Not (c.Reuses surface) := by
              rintro ⟨_, first, other, isFirst, isOther, sizes⟩
              rw [before] at isFirst
              cases isFirst
              rw [present] at isOther
              cases isOther
              exact same sizes
            have rest := c.tableRemove_rest old.surfaceId
            have removedKeeps : forall found, c.Uses found -> c.Keeps (c.tableRemove old.surfaceId) found := by
              intro found isUsed
              apply tableRemove_keeps
              intro removed
              rw [isListed] at removed
              cases removed
              exact resized.1 isUsed
            have changed : SurfacesChanged c.Uses (c.tableRemove old.surfaceId)
                ((c.tableRemove old.surfaceId).finishCanvas surface made) := by
              refine finishCanvas_spec (listed.tableRemove old.surfaceId) ?_ ?_
              · rintro (impossible | impossible)
                · rw [isPrimary] at impossible
                  cases impossible
                · rw [resized.2] at impossible
                  cases impossible
              · intro isMade other isOther
                refine ⟨?_, fun impossible => ?_⟩
                · by_cases sameId : surface.surfaceId = old.surfaceId
                  · rw [sameId, surfaces_tableRemove_self] at isOther
                    cases isOther
                  · rw [surfaces_tableRemove_ne c sameId] at isOther
                    exact (fits.1 isMade notReused other isOther).1
                · rw [isPrimary] at impossible
                  cases impossible
            refine ⟨(c.tableRemove old.surfaceId).finishCanvas surface made, ?_, ?_⟩
            · simp only [createCanvas, if_pos isPrimary, before, present, if_neg same]
            refine ⟨changed.listed, changed.primaryListed, ?_, changed.nstreams.trans rest.2.2.1,
              changed.streams.trans rest.2.2.2.1, changed.session.trans rest.2.2.2.2⟩
            exact fun found isUsed value isThere =>
              changed.keeps found isUsed value (removedKeeps found isUsed value isThere)

/-- A surface that no stream uses is destroyed. -/
theorem handleSurfaceDestroy_spec (listed : c.Listed)
    (primaryListed : c.PrimaryListed) (fits : c.Fits (.surfaceDestroy surfaceId)) :
    Exists fun next => c.handleSurfaceDestroy surfaceId = some next ∧ SurfacesChanged c.Uses c next := by
  rcases findSurface_spec listed primaryListed surfaceId with ⟨result, isResult, inTable⟩
  cases result with
  | none =>
      exact ⟨c, by rw [handleSurfaceDestroy, isResult], SurfacesChanged.refl listed primaryListed⟩
  | some found =>
      rcases inTable found rfl with ⟨surface, present, isId, isListed⟩
      have rest := c.tableRemove_rest surface.surfaceId
      have removed := listed.tableRemove surface.surfaceId
      have keeps : forall other, c.Uses other -> c.Keeps (c.tableRemove surface.surfaceId) other := by
        intro other isUsed
        apply tableRemove_keeps
        intro isOther
        rw [isId, isListed] at isOther
        cases isOther
        exact fits found isResult isUsed
      by_cases isPrimary : surface.primary = true
      · refine ⟨{ c.tableRemove surface.surfaceId with primary := none }, ?_,
          ⟨⟨removed.listed, removed.fresh⟩, ?_, keeps, rest.2.2.1, rest.2.2.2.1, rest.2.2.2.2⟩⟩
        · simp only [handleSurfaceDestroy, isResult, present, if_pos isPrimary]
        · intro primary impossible
          cases impossible
      · refine ⟨c.tableRemove surface.surfaceId, ?_,
          ⟨removed, ?_, keeps, rest.2.2.1, rest.2.2.2.1, rest.2.2.2.2⟩⟩
        · simp only [handleSurfaceDestroy, isResult, present, if_neg isPrimary]
        · apply primaryListed.tableRemove
          intro other isOther isOtherPrimary
          rcases primaryListed other isOtherPrimary with ⟨again, presentAgain, flagged, _⟩
          rw [isId, isListed] at isOther
          cases isOther
          have same : surface = again := Option.some.inj (present.symm.trans presentAgain)
          rw [same] at isPrimary
          exact isPrimary flagged

/-! ## Messages about streams -/

/-- The streams of the table are scheduled, and those whose frames are shown have a surface that
is there. -/
structure StreamsKept (c : DisplayChannel) : Prop where
  inTable : forall index entry, c.streams index = some entry -> index < c.nstreams
  shown : forall index entry, c.streams index = some entry -> entry.mjpeg = true ->
    Exists fun found => Exists fun surface => entry.surface = some found ∧ c.surface found = some surface
  core : forall index entry, c.streams index = some entry -> entry.st.Core entry.st.arrived
  due : forall index entry, c.streams index = some entry -> DisplayStream.Due c.session entry.st
  started : c.session.mmTimeAtClock ≤ c.session.clock

/-- The invariant of the channel. -/
structure Inv (c : DisplayChannel) : Prop where
  listed : c.Listed
  primaryListed : c.PrimaryListed
  kept : c.StreamsKept

/-- An entry of the table is written in its place. -/
theorem Inv.putStream (inv : c.Inv) {index : Nat} {value : Option StreamEntry} (inTable : index < c.nstreams)
    (shown : forall entry, value = some entry -> entry.mjpeg = true ->
      Exists fun found => Exists fun surface => entry.surface = some found ∧ c.surface found = some surface)
    (scheduled : forall entry, value = some entry ->
      entry.st.Core entry.st.arrived ∧ DisplayStream.Due c.session entry.st) : (c.putStream index value).Inv := by
  have either : forall other entry, (c.putStream index value).streams other = some entry ->
      (other = index ∧ value = some entry) ∨ c.streams other = some entry := by
    intro other entry isEntry
    have updated : Function.update c.streams index value other = some entry := isEntry
    by_cases same : other = index
    · subst same
      rw [Function.update_self] at updated
      exact Or.inl ⟨rfl, updated⟩
    · rw [Function.update_of_ne same] at updated
      exact Or.inr updated
  refine ⟨⟨inv.listed.listed, inv.listed.fresh⟩, inv.primaryListed, ⟨?_, ?_, ?_, ?_, inv.kept.started⟩⟩
  · intro other entry isEntry
    rcases either other entry isEntry with ⟨same, _⟩ | before
    · rw [same]
      exact inTable
    · exact inv.kept.inTable other entry before
  · intro other entry isEntry
    rcases either other entry isEntry with ⟨_, isValue⟩ | before
    · exact shown entry isValue
    · exact inv.kept.shown other entry before
  · intro other entry isEntry
    rcases either other entry isEntry with ⟨_, isValue⟩ | before
    · exact (scheduled entry isValue).1
    · exact inv.kept.core other entry before
  · intro other entry isEntry
    rcases either other entry isEntry with ⟨_, isValue⟩ | before
    · exact (scheduled entry isValue).2
    · exact inv.kept.due other entry before

/-- The surfaces that the streams use are kept. -/
theorem Inv.surfacesChanged {c next : DisplayChannel} (inv : c.Inv) (changed : SurfacesChanged c.Uses c next) :
    next.Inv := by
  refine ⟨changed.listed, changed.primaryListed, ⟨?_, ?_, ?_, ?_, ?_⟩⟩
  · rw [changed.streams, changed.nstreams]
    exact inv.kept.inTable
  · intro index entry isEntry mjpeg
    rw [changed.streams] at isEntry
    rcases inv.kept.shown index entry isEntry mjpeg with ⟨found, surface, isFound, present⟩
    exact ⟨found, surface, isFound, changed.keeps found ⟨index, entry, isEntry, mjpeg, isFound⟩ surface present⟩
  · rw [changed.streams]
    exact inv.kept.core
  · rw [changed.streams, changed.session]
    exact inv.kept.due
  · rw [changed.session]
    exact inv.kept.started

/-- Doubling covers the identifier after some rounds. -/
theorem grow_spec {id : Nat} (small : id < 2 ^ 30) : forall (fuel nstreams : Nat), 0 < nstreams ->
    id < 2 ^ fuel * nstreams -> Exists fun covered => grow id (fuel + 1) nstreams = some covered ∧
      id < covered ∧ nstreams ≤ covered ∧ (nstreams < 2 ^ 31 -> covered < 2 ^ 31) := by
  intro fuel
  induction fuel with
  | zero =>
      intro nstreams _ enough
      rw [Nat.pow_zero, Nat.one_mul] at enough
      exact ⟨nstreams, by rw [grow, if_pos enough], enough, Nat.le_refl _, fun bound => bound⟩
  | succ fuel ih =>
      intro nstreams positive enough
      by_cases covers : id < nstreams
      · exact ⟨nstreams, by rw [grow, if_pos covers], covers, Nat.le_refl _, fun bound => bound⟩
      · have fits : 2 * nstreams < 2 ^ 31 := by omega
        have again : id < 2 ^ fuel * (2 * nstreams) := by
          rw [← Nat.mul_assoc, ← Nat.pow_succ]
          exact enough
        rcases ih (2 * nstreams) (by omega) again with ⟨covered, grown, isCovered, larger, bound⟩
        refine ⟨covered, by rw [grow, if_neg covers, if_pos fits, grown], isCovered, by omega, fun _ => bound fits⟩

/-- The table covers an identifier below the bound. -/
theorem Inv.growTable (inv : c.Inv) {id : Nat} (small : c.nstreams ≤ id -> id < 2 ^ 30) :
    Exists fun next => c.growTable id = some next ∧ next.Inv ∧ id < next.nstreams ∧
      next.streams = c.streams ∧ next.surface = c.surface ∧
        forall surfaceId, next.findSurface surfaceId = c.findSurface surfaceId := by
  by_cases covers : id < c.nstreams
  · exact ⟨c, by rw [DisplayChannel.growTable, if_pos covers], inv, covers, rfl, rfl, fun _ => rfl⟩
  · have bound := small (Nat.le_of_not_lt covers)
    let first := if c.nstreams = 0 then 1 else c.nstreams
    have positive : 0 < first := by
      show 0 < if c.nstreams = 0 then 1 else c.nstreams
      split <;> omega
    have larger : c.nstreams ≤ first := by
      show c.nstreams ≤ if c.nstreams = 0 then 1 else c.nstreams
      split <;> omega
    have enough : id < 2 ^ 31 * first := by
      have least : 2 ^ 31 * 1 ≤ 2 ^ 31 * first := Nat.mul_le_mul_left _ positive
      omega
    rcases grow_spec bound 31 first positive enough with ⟨nstreams, grown, isCovered, grows, _⟩
    have same : (fun index => if index < c.nstreams then c.streams index else none) = c.streams := by
      funext index
      by_cases inside : index < c.nstreams
      · exact if_pos inside
      · rw [if_neg inside]
        cases entry : c.streams index with
        | none => rfl
        | some value => exact absurd (inv.kept.inTable index value entry) inside
    refine ⟨{ c with nstreams := nstreams, streams := c.streams }, ?_, ?_, isCovered, rfl, rfl, fun _ => rfl⟩
    · rw [DisplayChannel.growTable, if_neg covers, grown, Option.map_some, same]
    · refine ⟨⟨inv.listed.listed, inv.listed.fresh⟩, inv.primaryListed, ⟨?_, inv.kept.shown, inv.kept.core,
        inv.kept.due, inv.kept.started⟩⟩
      exact fun index entry isEntry =>
        Nat.lt_of_lt_of_le (inv.kept.inTable index entry isEntry) (Nat.le_trans larger grows)

/-- A stream is created in a free place. -/
theorem Inv.handleStreamCreate (inv : c.Inv) {id surfaceId : UInt32} {mjpeg haveRegion : Bool}
    (fits : c.Fits (.streamCreate id surfaceId mjpeg haveRegion)) :
    Exists fun next => c.handleStreamCreate id surfaceId mjpeg haveRegion = some next ∧ next.Inv ∧
      id.toNat < next.nstreams := by
  rcases inv.growTable fits.1 with ⟨grown, isGrown, grownInv, covers, streams, surface, finds⟩
  cases vacant : grown.streams id.toNat with
  | some entry =>
      refine ⟨grown, ?_, grownInv, covers⟩
      rw [DisplayChannel.handleStreamCreate, isGrown, Option.bind_some, vacant]
      rfl
  | none =>
      rcases findSurface_spec grownInv.listed grownInv.primaryListed surfaceId with ⟨result, isResult, inTable⟩
      let entry : StreamEntry :=
        { surface := result
          mjpeg := mjpeg
          haveRegion := haveRegion
          reportIsActive := false
          reportId := 0
          st := .init }
      refine ⟨grown.putStream id.toNat (some entry), ?_, ?_, covers⟩
      · rw [DisplayChannel.handleStreamCreate, isGrown, Option.bind_some, vacant, isResult]
        rfl
      · apply grownInv.putStream covers
        · intro created isCreated isMjpeg
          cases isCreated
          rw [streams] at vacant
          rcases fits.2 isMjpeg vacant with ⟨found, isFound⟩
          rw [← finds, isResult] at isFound
          cases isFound
          rcases inTable found rfl with ⟨value, present, _⟩
          exact ⟨found, value, rfl, present⟩
        · intro created isCreated
          cases isCreated
          exact ⟨DisplayStream.init_core, DisplayStream.init_due grown.session⟩

theorem Inv.withStream (inv : c.Inv) {id : UInt32} {handle : StreamEntry -> Option DisplayChannel}
    (present : id.toNat < c.nstreams -> (c.streams id.toNat).isSome = true)
    (handled : forall entry, c.streams id.toNat = some entry ->
      Exists fun next => handle entry = some next ∧ next.Inv) :
    Exists fun next => c.withStream id handle = some next ∧ next.Inv := by
  by_cases outside : c.nstreams ≤ id.toNat
  · exact ⟨c, by rw [DisplayChannel.withStream, if_pos outside], inv⟩
  · rcases Option.isSome_iff_exists.mp (present (Nat.lt_of_not_le outside)) with ⟨entry, isEntry⟩
    rcases handled entry isEntry with ⟨next, isNext, nextInv⟩
    exact ⟨next, by rw [DisplayChannel.withStream, if_neg outside, isEntry]; exact isNext, nextInv⟩

theorem Inv.handleStreamData (inv : c.Inv) {id time : UInt32} (fits : c.Fits (.streamData id time)) :
    Exists fun next => c.handleStreamData id time = some next ∧ next.Inv := by
  apply inv.withStream fits
  intro entry isEntry
  rcases DisplayStream.handleStreamData_spec inv.kept.started (inv.kept.core _ _ isEntry)
    (inv.kept.due _ _ isEntry) time with ⟨st, isHandled, handled⟩
  refine ⟨c.putStream id.toNat (some { entry with st := st }), by rw [isHandled, Option.map_some], ?_⟩
  apply inv.putStream (inv.kept.inTable _ _ isEntry)
  · intro changed isChanged mjpeg
    cases isChanged
    exact inv.kept.shown id.toNat entry isEntry mjpeg
  · intro changed isChanged
    cases isChanged
    exact ⟨handled.core, handled.due⟩

theorem Inv.putSame (inv : c.Inv) {index : Nat} {entry changed : StreamEntry}
    (isEntry : c.streams index = some entry) (surface : changed.surface = entry.surface)
    (mjpeg : changed.mjpeg = entry.mjpeg) (st : changed.st = entry.st) : (c.putStream index (some changed)).Inv := by
  apply inv.putStream (inv.kept.inTable _ _ isEntry)
  · intro other isOther isMjpeg
    cases isOther
    rw [surface]
    exact inv.kept.shown _ _ isEntry (mjpeg ▸ isMjpeg)
  · intro other isOther
    cases isOther
    rw [st]
    exact ⟨inv.kept.core _ _ isEntry, inv.kept.due _ _ isEntry⟩

theorem Inv.handleStreamClip (inv : c.Inv) {id : UInt32} {haveRegion : Bool}
    (fits : c.Fits (.streamClip id haveRegion)) :
    Exists fun next => c.handleStreamClip id haveRegion = some next ∧ next.Inv := by
  apply inv.withStream fits
  intro entry isEntry
  exact ⟨_, rfl, inv.putSame isEntry rfl rfl rfl⟩

theorem Inv.handleStreamActivateReport (inv : c.Inv) (streamId uniqueId : UInt32) :
    (c.handleStreamActivateReport streamId uniqueId).Inv := by
  unfold DisplayChannel.handleStreamActivateReport
  split
  · exact inv
  · split
    · exact inv
    · next entry isEntry => exact inv.putSame isEntry rfl rfl rfl

/-- A stream is destroyed, with its timeout. -/
theorem Inv.handleStreamDestroy (inv : c.Inv) {id : UInt32} (fits : c.Fits (.streamDestroy id)) :
    Exists fun next => c.handleStreamDestroy id = some next ∧ next.Inv := by
  by_cases empty : c.nstreams = 0
  · exact ⟨c, by rw [DisplayChannel.handleStreamDestroy, destroyStream, if_pos empty], inv⟩
  · have same : int32 id.toNat = id.toNat := int32_of_lt (fits empty)
    have notNegative : Not ((id.toNat : Int) < 0) := Int.not_lt.mpr (Int.natCast_nonneg _)
    by_cases inside : (id.toNat : Int) < c.nstreams
    · refine ⟨c.putStream id.toNat none, ?_, ?_⟩
      · rw [DisplayChannel.handleStreamDestroy, destroyStream, same, if_neg empty, if_pos inside, if_neg notNegative,
          Int.toNat_natCast]
      · apply inv.putStream (Int.ofNat_lt.mp inside)
        · intro entry impossible
          cases impossible
        · intro entry impossible
          cases impossible
    · exact ⟨c, by rw [DisplayChannel.handleStreamDestroy, destroyStream, same, if_neg empty, if_neg inside], inv⟩

theorem Inv.clearStreams (inv : c.Inv) : c.clearStreams.Inv := by
  refine ⟨⟨inv.listed.listed, inv.listed.fresh⟩, inv.primaryListed, ⟨?_, ?_, ?_, ?_, inv.kept.started⟩⟩
  · intro index entry impossible
    cases impossible
  · intro index entry impossible
    cases impossible
  · intro index entry impossible
    cases impossible
  · intro index entry impossible
    cases impossible

theorem Inv.elapse (inv : c.Inv) (micros : Nat) : Inv { c with session := c.session.elapse micros } :=
  ⟨⟨inv.listed.listed, inv.listed.fresh⟩, inv.primaryListed, inv.kept.inTable, inv.kept.shown, inv.kept.core,
    fun index entry isEntry =>
      ⟨(inv.kept.due index entry isEntry).pending, (inv.kept.due index entry isEntry).reaches⟩,
    Nat.le_trans inv.kept.started (Nat.le_add_right _ _)⟩

/-- A timeout expires while its stream is there. -/
theorem Inv.handleExpire (inv : c.Inv) (index : Nat) (spent : List Nat) :
    Exists fun next => c.handleExpire index spent = some next ∧ next.Inv := by
  cases isEntry : c.streams index with
  | none => exact ⟨c, by rw [DisplayChannel.handleExpire, isEntry], inv⟩
  | some entry =>
      cases isSet : entry.st.timeout with
      | none => exact ⟨c, by simp only [DisplayChannel.handleExpire, isEntry, isSet], inv⟩
      | some deadline =>
          by_cases early : c.session.clock < deadline
          · exact ⟨c, by simp only [DisplayChannel.handleExpire, isEntry, isSet, if_pos early], inv⟩
          · have alive : Not ((entry.mjpeg && (entry.surface.bind c.surface).isNone) = true) := by
              rw [Bool.and_eq_true]
              rintro ⟨mjpeg, gone⟩
              rcases inv.kept.shown index entry isEntry mjpeg with ⟨found, surface, isFound, present⟩
              rw [isFound, Option.bind_some, present] at gone
              cases gone
            have core := inv.kept.core index entry isEntry
            have due := inv.kept.due index entry isEntry
            have waits : entry.st.msgq ≠ [] := due.pending.mp (by rw [isSet]; rfl)
            cases queue : entry.st.msgq with
            | nil => exact absurd queue waits
            | cons head rest =>
                rcases DisplayStream.renderLoop_spec (entry.st.msgq.length + 1) spent c.session
                  { entry.st with timeout := none } head rest inv.kept.started
                  (core.withTimeout none entry.st.mmTimeSet) rfl queue (Nat.lt_succ_self _) with
                  ⟨total, next, ran, arrived, nextCore, nextDue, _⟩
                refine ⟨{ c.putStream index (some { entry with st := next }) with session := c.session.elapse total },
                  ?_, ?_⟩
                · simp only [DisplayChannel.handleExpire, isEntry, isSet, if_neg early, if_neg alive,
                    DisplayStream.render, ran, Option.map_some]
                · apply (inv.elapse total).putStream (inv.kept.inTable _ _ isEntry)
                  · intro changed isChanged mjpeg
                    cases isChanged
                    exact inv.kept.shown index entry isEntry mjpeg
                  · intro changed isChanged
                    cases isChanged
                    refine ⟨?_, nextDue⟩
                    show next.Core next.arrived
                    rw [arrived]
                    exact nextCore

theorem init_inv (mmTime : UInt32) (setAt elapsed : Nat) : (init mmTime setAt elapsed).Inv where
  listed := ⟨fun _ _ impossible => (by cases impossible), fun _ _ impossible => (by cases impossible)⟩
  primaryListed := fun _ impossible => (by cases impossible)
  kept :=
    { inTable := fun _ _ impossible => (by cases impossible)
      shown := fun _ _ impossible => (by cases impossible)
      core := fun _ _ impossible => (by cases impossible)
      due := fun _ _ impossible => (by cases impossible)
      started := Nat.le_add_right _ _ }

/-- Every message that fits is handled, and the table stays sound. -/
theorem Inv.step (inv : c.Inv) (op : ChannelOp) (fits : c.Fits op) :
    Exists fun next => c.step op = some next ∧ next.Inv ∧
      forall id surfaceId mjpeg haveRegion, op = .streamCreate id surfaceId mjpeg haveRegion ->
        id.toNat < next.nstreams := by
  cases op with
  | streamCreate id surfaceId mjpeg haveRegion =>
      rcases inv.handleStreamCreate fits with ⟨next, created, nextInv, covers⟩
      refine ⟨next, created, nextInv, ?_⟩
      intro _ _ _ _ same
      cases same
      exact covers
  | streamData id time =>
      rcases inv.handleStreamData fits with ⟨next, handled, nextInv⟩
      exact ⟨next, handled, nextInv, fun _ _ _ _ impossible => by cases impossible⟩
  | streamClip id haveRegion =>
      rcases inv.handleStreamClip fits with ⟨next, handled, nextInv⟩
      exact ⟨next, handled, nextInv, fun _ _ _ _ impossible => by cases impossible⟩
  | streamDestroy id =>
      rcases inv.handleStreamDestroy fits with ⟨next, handled, nextInv⟩
      exact ⟨next, handled, nextInv, fun _ _ _ _ impossible => by cases impossible⟩
  | streamDestroyAll => exact ⟨_, rfl, inv.clearStreams, fun _ _ _ _ impossible => by cases impossible⟩
  | streamActivateReport streamId uniqueId =>
      exact ⟨_, rfl, inv.handleStreamActivateReport streamId uniqueId, fun _ _ _ _ impossible => by cases impossible⟩
  | surfaceCreate surface made =>
      rcases createCanvas_spec inv.listed inv.primaryListed fits with ⟨next, created, changed⟩
      exact ⟨next, created, inv.surfacesChanged changed, fun _ _ _ _ impossible => by cases impossible⟩
  | surfaceDestroy surfaceId =>
      rcases handleSurfaceDestroy_spec inv.listed inv.primaryListed fits with ⟨next, destroyed, changed⟩
      exact ⟨next, destroyed, inv.surfacesChanged changed, fun _ _ _ _ impossible => by cases impossible⟩
  | expire index spent =>
      rcases inv.handleExpire index spent with ⟨next, handled, nextInv⟩
      exact ⟨next, handled, nextInv, fun _ _ _ _ impossible => by cases impossible⟩
  | elapse micros => exact ⟨_, rfl, inv.elapse micros, fun _ _ _ _ impossible => by cases impossible⟩

end DisplayChannel

/-- As long as every message is one a server may send, no handler and no timeout reads an absent
stream or a surface that is not there, and the table covers every stream that was created. -/
theorem streamTable_robust (mmTime : UInt32) (setAt elapsed : Nat) (ops : List ChannelOp)
    (fits : Meets DisplayChannel.step (fun _ c op => c.Fits op) [] (DisplayChannel.init mmTime setAt elapsed) ops) :
    AllStates DisplayChannel.step DisplayChannel.Covers [] (DisplayChannel.init mmTime setAt elapsed) ops := by
  have keeps : forall (past : List ChannelOp) (c : DisplayChannel) (op : ChannelOp),
      c.Inv ∧ DisplayChannel.Covers past c -> c.Fits op ->
        Exists fun next => c.step op = some next ∧ next.Inv ∧ DisplayChannel.Covers (past ++ [op]) next := by
    rintro past c op ⟨inv, _⟩ fits
    rcases inv.step op fits with ⟨next, stepped, nextInv, covers⟩
    refine ⟨next, stepped, nextInv, ?_⟩
    intro id surfaceId mjpeg haveRegion last
    rw [List.getLast?_append, List.getLast?_singleton] at last
    exact covers id surfaceId mjpeg haveRegion (Option.some.inj last)
  refine @allStates_of_meets DisplayChannel ChannelOp DisplayChannel.step (fun _ c op => c.Fits op)
    (fun past c => c.Inv ∧ DisplayChannel.Covers past c) DisplayChannel.Covers (fun _ _ inv => inv.2)
    keeps ops [] (DisplayChannel.init mmTime setAt elapsed) ⟨DisplayChannel.init_inv mmTime setAt elapsed, ?_⟩ fits
  intro id surfaceId mjpeg haveRegion impossible
  cases impossible

/-- A test for messages that create new surfaces and streams, and for data. -/
def fitsCheck (c : DisplayChannel) : ChannelOp -> Bool
  | .streamCreate id surfaceId _ _ => decide (id.toNat < 2 ^ 30) && (c.findSurface surfaceId).join.isSome
  | .streamData id _ => (c.streams id.toNat).isSome
  | .streamDestroy id => decide (id.toNat < 2 ^ 31)
  | .surfaceCreate surface _ => (c.surfaces surface.surfaceId).isNone && c.primary.isNone
  | .expire _ _ => true
  | .elapse _ => true
  | _ => false

theorem fits_of_check (c : DisplayChannel) (op : ChannelOp) (checked : fitsCheck c op = true) : c.Fits op := by
  cases op with
  | streamCreate id surfaceId mjpeg haveRegion =>
      rcases Bool.and_eq_true_iff.mp checked with ⟨small, finds⟩
      refine ⟨fun _ => of_decide_eq_true small, fun _ _ => ?_⟩
      rcases Option.isSome_iff_exists.mp finds with ⟨surface, found⟩
      exact ⟨surface, Option.join_eq_some_iff.mp found⟩
  | streamData id time => exact fun _ => checked
  | streamDestroy id => exact fun _ => of_decide_eq_true checked
  | surfaceCreate surface made =>
      rcases Bool.and_eq_true_iff.mp checked with ⟨absent, noPrimary⟩
      refine ⟨fun _ _ old isOld => ?_, fun primary resizes => ?_⟩
      · rw [isOld] at absent
        cases absent
      · rw [resizes.2.1] at noPrimary
        cases noPrimary
  | expire index spent => trivial
  | elapse micros => trivial
  | streamClip id haveRegion => cases checked
  | streamDestroyAll => trivial
  | streamActivateReport streamId uniqueId => trivial
  | surfaceDestroy surfaceId => cases checked

/-- A primary surface, a stream on it, and a frame that is shown ten milliseconds later. -/
def shownFrame : List ChannelOp :=
  [.surfaceCreate { surfaceId := 0, primary := true, width := 640, height := 480 } true,
    .streamCreate 5 0 true false, .streamData 5 1010, .elapse 10000, .expire 5 [], .streamDestroy 5]

theorem streamTable_robust_shownFrame :
    AllStates DisplayChannel.step DisplayChannel.Covers [] (DisplayChannel.init 1000 0 0) shownFrame :=
  streamTable_robust 1000 0 0 shownFrame
    (Meets.of_check (fun _ c op checked => fits_of_check c op checked) shownFrame []
      (DisplayChannel.init 1000 0 0) (by decide +kernel))

/-- The surface is destroyed while the frame waits. -/
def surfaceGone : List ChannelOp :=
  [.surfaceCreate { surfaceId := 0, primary := true, width := 640, height := 480 } true,
    .streamCreate 5 0 true false, .streamData 5 1010, .surfaceDestroy 0, .elapse 10000, .expire 5 []]

/-- Then the frame is put on a surface that was freed. -/
theorem streamTable_dangles : Not (forall (mmTime : UInt32) (setAt elapsed : Nat) (ops : List ChannelOp),
    AllStates DisplayChannel.step DisplayChannel.Covers [] (DisplayChannel.init mmTime setAt elapsed) ops) := by
  intro all
  rcases all 1000 0 0 surfaceGone surfaceGone (List.prefix_refl _) with ⟨final, ran, _⟩
  have fails : (run DisplayChannel.step (DisplayChannel.init 1000 0 0) surfaceGone).isNone = true := by
    decide +kernel
  rw [ran] at fails
  cases fails

end Client
end Spice
