import Spice.Display.MigrateData
import Mathlib.Data.List.Nodup
import Mathlib.Data.List.Perm.Subperm

namespace Spice
namespace Display

open Lib

/-!
# From the source to the target

The source writes the surfaces in the layout for its own compression, and the target reads
them in the layout for its compression.  Each follows from the clients that have connected
there, and the message does not say which one it is in.
-/

/-- A display channel client on the source that has its pixmap cache and its dictionary, with what its message is made
of. -/
structure MigrationSource where
  messageSerial : UInt64
  isLowBandwidth : UInt8
  pixmapCacheFreezer : UInt8
  pixmapCacheId : UInt8
  pixmapCacheSize : Int64
  pixmapCacheClients : Fin 4 -> UInt64
  glzDictId : UInt8
  glzDictSize : UInt32
  glzDictMaxEncoders : UInt32
  glzDictLastImageId : UInt64
  enableJpeg : Bool
  surfaces : ClientSurfaces
  /-- A dictionary is never made larger. -/
  sizeFits : glzDictSize.toNat ≤ maxWindowSize
  /-- The heads of its encoders were allocated. -/
  encodersFit : 0 < glzDictMaxEncoders.toNat ∧ glzDictMaxEncoders.toNat < 2 ^ 29

namespace MigrationSource

variable (source : MigrationSource)

/-- The surfaces that the client has, in the order of the table. -/
def ids : List Nat := (List.range numSurfaces).filter source.surfaces.created

/-- What is written of a surface, as unsigned words: its id and, with jpeg, the extents of its lossy region. -/
def surfaceWords (id : Nat) : List Nat :=
  id ::
    if source.enableJpeg then
      [(source.surfaces.lossyRegion id).extents.left.toUInt32.toNat,
        (source.surfaces.lossyRegion id).extents.top.toUInt32.toNat,
        (source.surfaces.lossyRegion id).extents.right.toUInt32.toNat,
          (source.surfaces.lossyRegion id).extents.bottom.toUInt32.toNat]
    else []

def words : List Nat := source.ids.flatMap source.surfaceWords

def wordBytes (words : List Nat) : List UInt8 := words.flatMap (toLittleEndian 4)

/-- `display_channel_marshall_migrate_data_surfaces`: the number of surfaces and the surfaces. -/
def marshallMigrateDataSurfaces : List UInt8 := toLittleEndian 4 source.ids.length ++ wordBytes source.words

/-- The fixed part of the message.  Its last field is set to where the surfaces are. -/
def fixedPart : List UInt8 :=
  toLittleEndian 4 displayMagic ++ toLittleEndian 4 displayVersion ++ toLittleEndian 8 source.messageSerial.toNat ++
  toLittleEndian 1 source.isLowBandwidth.toNat ++ toLittleEndian 1 source.pixmapCacheId.toNat ++
  toLittleEndian 8 source.pixmapCacheSize.toUInt64.toNat ++ toLittleEndian 1 source.pixmapCacheFreezer.toNat ++
  toLittleEndian 8 (source.pixmapCacheClients 0).toNat ++ toLittleEndian 8 (source.pixmapCacheClients 1).toNat ++
  toLittleEndian 8 (source.pixmapCacheClients 2).toNat ++ toLittleEndian 8 (source.pixmapCacheClients 3).toNat ++
  toLittleEndian 1 source.glzDictId.toNat ++ toLittleEndian 4 source.glzDictSize.toNat ++
  toLittleEndian 4 source.glzDictMaxEncoders.toNat ++ toLittleEndian 8 source.glzDictLastImageId.toNat ++
  toLittleEndian 4 fixedSize

/-- `display_channel_marshall_migrate_data`.  The surfaces come after everything else. -/
def marshallMigrateData : List UInt8 := source.fixedPart ++ source.marshallMigrateDataSurfaces

end MigrationSource

/-- What is known of a client on the target before its data comes: no surface was sent to it. -/
structure DisplayChannelClient.Waiting (dcc : DisplayChannelClient) : Prop where
  created : forall id, dcc.surfaces.created id = false
  regions : forall id, (dcc.surfaces.lossyRegion id).rects = []
  noDict : dcc.glzDict = none

/-- The target gets exactly the surfaces of the source, and what was lossy there is lossy here. -/
def RoundTrips (source : MigrationSource) (target : DisplayChannelClient) (aborts : Bool) : Prop :=
  Exists fun next => target.handleMigrateData aborts source.marshallMigrateData = .accepted next ∧
    (forall id, id < numSurfaces -> next.surfaces.created id = source.surfaces.created id) ∧
    (forall id, id < numSurfaces -> source.surfaces.created id = true -> forall x y,
      (source.surfaces.lossyRegion id).Contains x y -> (next.surfaces.lossyRegion id).Contains x y)

/-- Nothing is lossy at the client. -/
def MigrationSource.Lossless (source : MigrationSource) : Prop :=
  forall id, id < numSurfaces -> source.surfaces.created id = true ->
    forall x y, ¬ (source.surfaces.lossyRegion id).Contains x y

/-- Whether the target will read the layout with the regions. -/
def MigrationSource.readLossy (source : MigrationSource) (target : DisplayChannelClient) : Bool :=
  target.enableJpeg || (source.isLowBandwidth != 0 && target.jpegState == .auto)

/-- When the layouts fit together.  A layout with regions that is read without them has the right ids only if the first
words are, by chance, the ids of the surfaces. -/
def LayoutsFit (source : MigrationSource) (target : DisplayChannelClient) : Prop :=
  match source.enableJpeg, source.readLossy target with
  | true, true => True
  | false, false => source.Lossless
  | false, true => source.ids = []
  | true, false => source.Lossless ∧ (source.words.take source.ids.length).Perm source.ids

/-! ## Reading what was written -/

/-- The fields of a message that is read. -/
theorem readMigrateData_fields {message : List UInt8} {data : MigrateDataDisplay}
    (isData : readMigrateData message = some data) :
    fieldAt message 0 4 = some data.magic ∧ fieldAt message 4 4 = some data.version ∧
      fieldAt message 16 1 = some data.lowBandwidthSetting ∧ fieldAt message 60 4 = some data.glzDictSize ∧
      fieldAt message 64 4 = some data.glzDictMaxEncoders ∧ fieldAt message 76 4 = some data.surfacesAtClientPtr := by
  unfold readMigrateData at isData
  rcases Option.bind_eq_some_iff.mp isData with ⟨magic, isMagic, isData⟩
  rcases Option.bind_eq_some_iff.mp isData with ⟨version, isVersion, isData⟩
  rcases Option.bind_eq_some_iff.mp isData with ⟨_, _, isData⟩
  rcases Option.bind_eq_some_iff.mp isData with ⟨low, isLow, isData⟩
  rcases Option.bind_eq_some_iff.mp isData with ⟨_, _, isData⟩
  rcases Option.bind_eq_some_iff.mp isData with ⟨_, _, isData⟩
  rcases Option.bind_eq_some_iff.mp isData with ⟨_, _, isData⟩
  rcases Option.bind_eq_some_iff.mp isData with ⟨_, _, isData⟩
  rcases Option.bind_eq_some_iff.mp isData with ⟨_, _, isData⟩
  rcases Option.bind_eq_some_iff.mp isData with ⟨_, _, isData⟩
  rcases Option.bind_eq_some_iff.mp isData with ⟨_, _, isData⟩
  rcases Option.bind_eq_some_iff.mp isData with ⟨_, _, isData⟩
  rcases Option.bind_eq_some_iff.mp isData with ⟨dictSize, isDictSize, isData⟩
  rcases Option.bind_eq_some_iff.mp isData with ⟨maxEncoders, isMaxEncoders, isData⟩
  rcases Option.bind_eq_some_iff.mp isData with ⟨_, _, isData⟩
  rcases Option.bind_eq_some_iff.mp isData with ⟨ptr, isPtr, isData⟩
  cases isData
  exact ⟨isMagic, isVersion, isLow, isDictSize, isMaxEncoders, isPtr⟩

namespace MigrationSource

/-- The fields come back as they were sent. -/
theorem readMigrateData_marshalled (source : MigrationSource) : Exists fun data =>
    readMigrateData source.marshallMigrateData = some data ∧ data.magic = displayMagic ∧ data.version = displayVersion ∧
      data.lowBandwidthSetting = source.isLowBandwidth.toNat ∧ data.glzDictSize = source.glzDictSize.toNat ∧
      data.glzDictMaxEncoders = source.glzDictMaxEncoders.toNat ∧ data.surfacesAtClientPtr = fixedSize := by
  have magic : fieldAt source.marshallMigrateData 0 4 = some displayMagic := by
    unfold marshallMigrateData fixedPart
    simp only [List.append_assoc]
    exact fieldAt_head (by decide)
  have version : fieldAt source.marshallMigrateData 4 4 = some displayVersion := by
    unfold marshallMigrateData fixedPart
    simp (disch := decide) only [List.append_assoc, fieldAt_skip_field, Nat.reduceSub]
    exact fieldAt_head (by decide)
  have low : fieldAt source.marshallMigrateData 16 1 = some source.isLowBandwidth.toNat := by
    unfold marshallMigrateData fixedPart
    simp (disch := decide) only [List.append_assoc, fieldAt_skip_field, Nat.reduceSub]
    exact fieldAt_head source.isLowBandwidth.toNat_lt
  have dictSize : fieldAt source.marshallMigrateData 60 4 = some source.glzDictSize.toNat := by
    unfold marshallMigrateData fixedPart
    simp (disch := decide) only [List.append_assoc, fieldAt_skip_field, Nat.reduceSub]
    exact fieldAt_head source.glzDictSize.toNat_lt
  have maxEncoders : fieldAt source.marshallMigrateData 64 4 = some source.glzDictMaxEncoders.toNat := by
    unfold marshallMigrateData fixedPart
    simp (disch := decide) only [List.append_assoc, fieldAt_skip_field, Nat.reduceSub]
    exact fieldAt_head source.glzDictMaxEncoders.toNat_lt
  have ptr : fieldAt source.marshallMigrateData 76 4 = some fixedSize := by
    unfold marshallMigrateData fixedPart
    simp (disch := decide) only [List.append_assoc, fieldAt_skip_field, Nat.reduceSub]
    exact fieldAt_head (by decide)
  have long : fixedSize ≤ source.marshallMigrateData.length := (fieldAt_eq_some ptr).1
  rcases readMigrateData_of_length long with ⟨data, isData⟩
  refine ⟨data, isData, ?_⟩
  rcases readMigrateData_fields isData with ⟨isMagic, isVersion, isLow, isDictSize, isMaxEncoders, isPtr⟩
  rw [magic] at isMagic
  rw [version] at isVersion
  rw [low] at isLow
  rw [dictSize] at isDictSize
  rw [maxEncoders] at isMaxEncoders
  rw [ptr] at isPtr
  exact ⟨(Option.some.inj isMagic).symm, (Option.some.inj isVersion).symm, (Option.some.inj isLow).symm,
    (Option.some.inj isDictSize).symm, (Option.some.inj isMaxEncoders).symm, (Option.some.inj isPtr).symm⟩

@[simp] theorem length_fixedPart (source : MigrationSource) : source.fixedPart.length = fixedSize := by
  simp [fixedPart, fixedSize]

end MigrationSource

/-- The ids come back from the words of the entries. -/
theorem entryIds_words (before : List UInt8) (words : List Nat) (fit : forall word, word ∈ words -> word < 2 ^ 32)
    (count : Nat)
    (enough : count ≤ words.length) :
    entryIds (before ++ MigrationSource.wordBytes words) 4 count before.length = some (words.take count) := by
  induction count generalizing before words with
  | zero => rfl
  | succ count ih =>
      cases words with
      | nil => cases enough
      | cons word rest =>
          have isWord : fieldAt (before ++ MigrationSource.wordBytes (word :: rest)) before.length 4 = some word := by
            rw [fieldAt_skip (Nat.le_refl _), Nat.sub_self]
            exact fieldAt_head (fit word List.mem_cons_self)
          have isRest := ih (before ++ toLittleEndian 4 word) rest
              (fun other member => fit other (List.mem_cons_of_mem _ member))
            (Nat.le_of_succ_le_succ enough)
          rw [List.append_assoc, List.length_append, length_toLittleEndian] at isRest
          exact (entryIds_succ _ _ _ _ _).mpr ⟨word, rest.take count, rfl, (fieldAt_eq_some isWord).1, isWord, isRest⟩

theorem entryIds_inside {message : List UInt8} {width count entry : Nat} {ids : List Nat}
    (read : entryIds message width count entry = some ids) (some_ids : 0 < count) :
    entry + count * width ≤ message.length := by
  induction count generalizing entry ids with
  | zero => cases some_ids
  | succ count ih =>
      rcases (entryIds_succ _ _ _ _ _).mp read with ⟨id, rest, _, inside, _, isRest⟩
      rcases Nat.eq_zero_or_pos count with none | more
      · rw [none]
        omega
      · have later := ih isRest more
        rw [Nat.succ_mul]
        omega

/-- Entries without a region leave the regions empty. -/
theorem restoreSurfacesLossless_regions {message : List UInt8} {count entry : Nat} {surfaces next : ClientSurfaces}
    (accepted : restoreSurfacesLossless message count entry surfaces = .accepted next) :
    next.lossyRegion = surfaces.lossyRegion := by
  unfold restoreSurfacesLossless at accepted
  induction count generalizing entry surfaces with
  | zero =>
      cases accepted
      rfl
  | succ count ih =>
      unfold restoreSurfaces at accepted
      split at accepted
      · cases accepted
      · split at accepted
        · cases accepted
        · cases accepted
        · rename_i marked isRestored
          rw [ih accepted]
          unfold restoreSurface at isRestored
          split at isRestored
          · split at isRestored
            · cases isRestored
            · cases isRestored
              rfl
          · cases isRestored

theorem int32At_toLittleEndian {before after : List UInt8} {offset : Nat} {value : Int32}
    (place : before.length = offset) :
    int32At (before ++ (toLittleEndian 4 value.toUInt32.toNat ++ after)) offset = some value := by
  unfold int32At
  rw [fieldAt_skip (Nat.le_of_eq place), place, Nat.sub_self, fieldAt_head value.toUInt32.toNat_lt, Option.map_some,
    UInt32.ofNat_toNat, Int32.toInt32_toUInt32]

theorem wordBytes_append (first second : List Nat) :
    MigrationSource.wordBytes (first ++ second) = MigrationSource.wordBytes first ++ MigrationSource.wordBytes second :=
  List.flatMap_append

/-- A coordinate comes back from its word. -/
theorem int32At_wordBytes (before after : List UInt8) {words : List Nat} (index : Nat) {value : Int32}
    (isWord : words[index]? = some value.toUInt32.toNat) :
    int32At (before ++ (MigrationSource.wordBytes words ++ after)) (before.length + 4 * index) = some value := by
  induction words generalizing before index with
  | nil => cases isWord
  | cons word rest ih =>
      have head : MigrationSource.wordBytes (word :: rest) = toLittleEndian 4 word ++ MigrationSource.wordBytes rest :=
        rfl
      rw [head, List.append_assoc]
      cases index with
      | zero =>
          cases isWord
          exact int32At_toLittleEndian rfl
      | succ index =>
          have later := ih (before ++ toLittleEndian 4 word) index isWord
          rw [List.append_assoc, List.length_append, length_toLittleEndian] at later
          rw [<- later]
          congr 1
          omega

variable {source : MigrationSource}

theorem readRect_surfaceWords (jpeg : source.enableJpeg = true) (before after : List UInt8) (id : Nat) :
    readRect (before ++ (MigrationSource.wordBytes (source.surfaceWords id) ++ after)) (before.length + 4) =
      some (source.surfaces.lossyRegion id).extents := by
  generalize isRect : (source.surfaces.lossyRegion id).extents = rect
  have words : source.surfaceWords id =
      [id, rect.left.toUInt32.toNat, rect.top.toUInt32.toNat, rect.right.toUInt32.toNat,
      rect.bottom.toUInt32.toNat] := by
    unfold MigrationSource.surfaceWords
    rw [if_pos jpeg, isRect]
  rw [words]
  unfold readRect
  rw [int32At_wordBytes before after 1 rfl, int32At_wordBytes before after 2 rfl,
    int32At_wordBytes before after 3 rfl, int32At_wordBytes before after 4 rfl]
  rfl

theorem length_surfaceWords (jpeg : source.enableJpeg = true) (id : Nat) :
    (MigrationSource.wordBytes (source.surfaceWords id)).length = 20 := by
  unfold MigrationSource.wordBytes MigrationSource.surfaceWords
  rw [if_pos jpeg]
  simp

/-- Surfaces that were written with their regions are restored with them. -/
theorem restoreSurfacesLossy_written (jpeg : source.enableJpeg = true) (before : List UInt8)
    (ids : List Nat) (surfaces : ClientSurfaces) (fresh : Fresh surfaces.created ids) : Exists fun next =>
      restoreSurfacesLossy (before ++ MigrationSource.wordBytes (ids.flatMap source.surfaceWords)) ids.length
        before.length surfaces =
        .accepted next ∧ next.created = mark surfaces.created ids ∧
      (forall id, id ∈ ids -> next.lossyRegion id =
        QRegion.regionInit.regionAdd (source.surfaces.lossyRegion id).extents) ∧
      (forall id, ¬ id ∈ ids -> next.lossyRegion id = surfaces.lossyRegion id) := by
  induction ids generalizing before surfaces with
  | nil =>
      refine ⟨surfaces, rfl, ?_, fun _ member => absurd member List.not_mem_nil, fun _ _ => rfl⟩
      funext id
      simp [mark]
  | cons id rest ih =>
      rcases (fresh_cons _ _ _).mp fresh with ⟨inTable, isFresh, restFresh⟩
      have absent : ¬ id ∈ rest := (List.nodup_cons.mp fresh.1).1
      rw [List.flatMap_cons, wordBytes_append, List.length_cons]
      generalize isAfter : MigrationSource.wordBytes (rest.flatMap source.surfaceWords) = after
      have isId : fieldAt (before ++ (MigrationSource.wordBytes (source.surfaceWords id) ++ after)) before.length 4 =
          some id := by
        rw [fieldAt_skip (Nat.le_refl _), Nat.sub_self]
        exact fieldAt_head (Nat.lt_trans inTable (by decide))
      have isRect := readRect_surfaceWords jpeg before after id
      -- the rest of the loop starts after the bytes of this surface
      rcases ih (before ++ MigrationSource.wordBytes (source.surfaceWords id))
        { created := Function.update surfaces.created id true
          lossyRegion := Function.update surfaces.lossyRegion id
            (QRegion.regionInit.regionAdd (source.surfaces.lossyRegion id).extents) } restFresh with
        ⟨next, accepted, isCreated, written, untouched⟩
      rw [isAfter, List.append_assoc, List.length_append, length_surfaceWords jpeg] at accepted
      refine ⟨next, ?_, isCreated.trans (mark_cons _ _ _), fun other member => ?_, fun other member => ?_⟩
      · unfold restoreSurfacesLossy restoreSurfaces
        rw [isId]
        dsimp only
        rw [restoreSurface_of_fresh inTable isFresh]
        dsimp only [restoreLossyRegion]
        rw [isRect]
        exact accepted
      · rcases List.mem_cons.mp member with same | later
        · rw [same, untouched id absent]
          exact Function.update_self _ _ _
        · exact written other later
      · have different : other ≠ id := fun same => member (same ▸ List.mem_cons_self)
        rw [untouched other (fun later => member (List.mem_cons_of_mem _ later))]
        exact Function.update_of_ne different _ _

theorem regionAdd_extents_contains {region : QRegion} {x y : Int} (contains : region.Contains x y) :
    (QRegion.regionInit.regionAdd region.extents).Contains x y := by
  rcases contains with ⟨rect, member, inRect⟩
  have inExtents := inRect.mono (region.bounded rect member)
  have wide : region.extents.left < region.extents.right ∧ region.extents.top < region.extents.bottom := by
    unfold SpiceRect.Contains at inExtents
    rw [Int32.lt_iff_toInt_lt, Int32.lt_iff_toInt_lt]
    omega
  unfold QRegion.regionAdd
  rw [if_pos wide]
  exact ⟨region.extents, List.mem_cons_self, inExtents⟩

/-! ## The surfaces of the source -/

namespace MigrationSource

variable (source : MigrationSource)

theorem mem_ids (id : Nat) : id ∈ source.ids <-> id < numSurfaces ∧ source.surfaces.created id = true := by
  unfold ids
  rw [List.mem_filter, List.mem_range]

theorem nodup_ids : source.ids.Nodup := List.nodup_range.filter _

theorem fresh_ids {created : Nat -> Bool} (none : forall id, created id = false) : Fresh created source.ids :=
  ⟨source.nodup_ids, fun id member => ⟨((source.mem_ids id).mp member).1, none id⟩⟩

theorem length_ids : source.ids.length ≤ numSurfaces := by
  have bound := List.length_filter_le source.surfaces.created (List.range numSurfaces)
  rw [List.length_range] at bound
  exact bound

theorem ids_length_le_words : source.ids.length ≤ source.words.length := by
  unfold words
  rw [List.length_flatMap]
  generalize source.ids = ids
  induction ids with
  | nil => exact Nat.le_refl 0
  | cons id rest ih =>
      rw [List.map_cons, List.sum_cons, List.length_cons]
      have one : 1 ≤ (source.surfaceWords id).length := Nat.succ_pos _
      omega

/-- Every word has 32 bits. -/
theorem words_fit (word : Nat) (member : word ∈ source.words) : word < 2 ^ 32 := by
  rcases List.mem_flatMap.mp member with ⟨id, isId, isWord⟩
  have inTable := ((source.mem_ids id).mp isId).1
  unfold surfaceWords at isWord
  rcases List.mem_cons.mp isWord with same | extents
  · rw [same]
    exact Nat.lt_trans inTable (by decide)
  · split at extents
    · simp only [List.mem_cons, List.not_mem_nil, or_false] at extents
      rcases extents with same | same | same | same
      · rw [same]; exact UInt32.toNat_lt _
      · rw [same]; exact UInt32.toNat_lt _
      · rw [same]; exact UInt32.toNat_lt _
      · rw [same]; exact UInt32.toNat_lt _
    · cases extents

theorem words_of_lossless (lossless : source.enableJpeg = false) : source.words = source.ids := by
  have single : source.surfaceWords = fun id => [id] := by
    funext id
    unfold surfaceWords
    rw [if_neg (by rw [lossless]; decide)]
  unfold words
  rw [single]
  exact List.flatMap_singleton' source.ids

end MigrationSource

/-! ## The round trip -/

/-- What the target makes of the surfaces in the message. -/
def restoredSurfaces (source : MigrationSource) (target : DisplayChannelClient) : Handled ClientSurfaces :=
  if source.readLossy target then restoreSurfacesLossy source.marshallMigrateData source.ids.length
    (fixedSize + 4) target.surfaces
  else restoreSurfacesLossless source.marshallMigrateData source.ids.length (fixedSize + 4) target.surfaces

/-- The surfaces of the source, and regions that cover the ones there. -/
def Restored (source : MigrationSource) (after : ClientSurfaces) : Prop :=
  (forall id, id < numSurfaces -> after.created id = source.surfaces.created id) ∧
    (forall id, id < numSurfaces -> source.surfaces.created id = true -> forall x y,
      (source.surfaces.lossyRegion id).Contains x y -> (after.lossyRegion id).Contains x y)

theorem fieldAt_numSurfaces (source : MigrationSource) :
    fieldAt source.marshallMigrateData fixedSize 4 = some source.ids.length := by
  have fits : source.ids.length < 256 ^ 4 := Nat.lt_of_le_of_lt source.length_ids (by decide)
  unfold MigrationSource.marshallMigrateData
  rw [fieldAt_skip (Nat.le_of_eq source.length_fixedPart), source.length_fixedPart, Nat.sub_self]
  exact fieldAt_head fits

variable {target : DisplayChannelClient}

/-- What is left to show are the surfaces. -/
theorem roundTrips_iff (source : MigrationSource) (waiting : target.Waiting) (aborts : Bool) :
    RoundTrips source target aborts <->
      Exists fun after => restoredSurfaces source target = .accepted after ∧ Restored source after := by
  rcases source.readMigrateData_marshalled with ⟨data, isData, isMagic, isVersion, isLow, isSize, isMaxEncoders, isPtr⟩
  have long : ¬ source.marshallMigrateData.length < fixedSize := by
    unfold MigrationSource.marshallMigrateData
    rw [List.length_append, source.length_fixedPart]
    omega
  have can : target.CanRestore aborts data :=
    ⟨.inl waiting.noDict, .inr ⟨isSize ▸ source.sizeFits, isMaxEncoders ▸ source.encodersFit⟩⟩
  have fixedPart := target.restores_fixedPart aborts data
  have reads : target.readsLossy data = source.readLossy target := by
    have sameLow : (source.isLowBandwidth.toNat != 0) = (source.isLowBandwidth != 0) := by
      rw [Bool.eq_iff_iff, bne_iff_ne, bne_iff_ne, ne_eq, ne_eq, <- UInt8.toNat_inj]
      rfl
    unfold DisplayChannelClient.readsLossy MigrationSource.readLossy
    rw [isLow, sameLow]
  unfold RoundTrips Restored DisplayChannelClient.handleMigrateData
  rw [if_neg long, isData]
  dsimp only
  rw [if_neg (not_not.mpr isMagic), if_neg (by rw [isVersion]; decide)]
  generalize target.restoreFixedPart aborts data = result at fixedPart
  cases fixedPart with
  | stops _ never => exact absurd can never
  | overruns _ never => exact absurd can never
  | restored middle _ _ sameSurfaces sameJpeg =>
  have surfaces : middle.restoreClientSurfaces source.marshallMigrateData data.surfacesAtClientPtr =
      restoredSurfaces source target := by
    unfold DisplayChannelClient.restoreClientSurfaces restoredSurfaces
    rw [isPtr, fieldAt_numSurfaces, sameSurfaces, sameJpeg, reads]
  dsimp only [Handled.andThen]
  rw [surfaces]
  constructor
  · rintro ⟨next, accepted, created, regions⟩
    split at accepted
    · rename_i after isAfter
      cases accepted
      exact ⟨after, isAfter, created, regions⟩
    · cases accepted
    · cases accepted
    · cases accepted
  · rintro ⟨after, isAfter, created, regions⟩
    rw [isAfter]
    exact ⟨_, rfl, created, regions⟩

theorem marshalled_eq (source : MigrationSource) : source.marshallMigrateData =
      (source.fixedPart ++ toLittleEndian 4 source.ids.length) ++ MigrationSource.wordBytes source.words := by
  unfold MigrationSource.marshallMigrateData MigrationSource.marshallMigrateDataSurfaces
  rw [List.append_assoc]

theorem length_beforeWords (source : MigrationSource) :
    (source.fixedPart ++ toLittleEndian 4 source.ids.length).length = fixedSize + 4 := by
  rw [List.length_append, source.length_fixedPart, length_toLittleEndian]

theorem mark_ids (source : MigrationSource) {created : Nat -> Bool} (none : forall id, created id = false) {id : Nat}
    (inTable : id < numSurfaces) : mark created source.ids id = source.surfaces.created id := by
  unfold mark
  rw [none id, Bool.false_or, Bool.eq_iff_iff, decide_eq_true_eq, source.mem_ids id]
  exact ⟨fun both => both.2, fun isCreated => ⟨inTable, isCreated⟩⟩

theorem restored_lossy_lossy (waiting : target.Waiting) (jpeg : source.enableJpeg = true) : Exists fun after =>
      restoreSurfacesLossy source.marshallMigrateData source.ids.length (fixedSize + 4) target.surfaces =
        .accepted after ∧
        Restored source after := by
  rw [marshalled_eq, <- length_beforeWords source]
  rcases restoreSurfacesLossy_written jpeg
    (source.fixedPart ++ toLittleEndian 4 source.ids.length) source.ids target.surfaces
    (source.fresh_ids waiting.created) with ⟨after, accepted, isCreated, written, _⟩
  refine ⟨after, accepted, fun id inTable => ?_, fun id inTable isCreated x y contains => ?_⟩
  · rw [isCreated]
    exact mark_ids source waiting.created inTable
  · rw [written id ((source.mem_ids id).mpr ⟨inTable, isCreated⟩)]
    exact regionAdd_extents_contains contains

/-- The target reads regions that were not sent. -/
theorem restored_lossless_lossy (waiting : target.Waiting) (noJpeg : source.enableJpeg = false) : (Exists fun after =>
      restoreSurfacesLossy source.marshallMigrateData source.ids.length (fixedSize + 4) target.surfaces =
        .accepted after ∧
        Restored source after) <-> source.ids = [] := by
  constructor
  · rintro ⟨after, accepted, _⟩
    rcases (restoreSurfaces_accepted_iff (lossy_layout _) _ _ _ _).mp ⟨after, accepted, rfl⟩ with ⟨ids, read, _, _⟩
    rcases List.eq_nil_or_concat source.ids with empty | ⟨front, last, isIds⟩
    · exact empty
    · -- the entries that are read are five times as long as the ones that were written
      have positive : 0 < source.ids.length := by
        rw [isIds]
        simp
      have inside := entryIds_inside read positive
      have bytes : (MigrationSource.wordBytes source.words).length = source.ids.length * 4 := by
        unfold MigrationSource.wordBytes
        rw [source.words_of_lossless noJpeg]
        simp
      rw [marshalled_eq, List.length_append, length_beforeWords, bytes] at inside
      omega
  · intro empty
    refine ⟨target.surfaces, ?_, fun id inTable => ?_, fun id inTable isCreated => ?_⟩
    · rw [empty]
      rfl
    · rw [<- mark_ids source waiting.created inTable, empty]
      simp [mark]
    · have member := (source.mem_ids id).mpr ⟨inTable, isCreated⟩
      rw [empty] at member
      cases member

/-- The target reads what was sent. -/
theorem restored_lossless (waiting : target.Waiting) : (Exists fun after =>
      restoreSurfacesLossless source.marshallMigrateData source.ids.length (fixedSize + 4) target.surfaces =
        .accepted after ∧
        Restored source after) <-> source.Lossless ∧ (source.words.take source.ids.length).Perm source.ids := by
  have read : entryIds source.marshallMigrateData 4 source.ids.length (fixedSize + 4) =
      some (source.words.take source.ids.length) := by
    rw [marshalled_eq, <- length_beforeWords source]
    exact entryIds_words _ _ source.words_fit _ source.ids_length_le_words
  have accepts := restoreSurfaces_accepted_iff (lossless_layout source.marshallMigrateData) source.ids.length
      (fixedSize + 4)
    target.surfaces
  constructor
  · rintro ⟨after, accepted, created, regions⟩
    have sameRegions := restoreSurfacesLossless_regions accepted
    rcases (accepts after.created).mp ⟨after, accepted, rfl⟩ with ⟨ids, isRead, fresh, isMarked⟩
    rw [read] at isRead
    rw [<- Option.some.inj isRead] at fresh isMarked
    refine ⟨fun id inTable isCreated x y contains => ?_, ?_⟩
    · rcases regions id inTable isCreated x y contains with ⟨rect, member, _⟩
      rw [sameRegions, waiting.regions id] at member
      cases member
    · refine (List.perm_ext_iff_of_nodup fresh.1 source.nodup_ids).mpr (fun id => ?_)
      constructor
      · intro member
        have inTable := (fresh.2 id member).1
        refine (source.mem_ids id).mpr ⟨inTable, ?_⟩
        rw [<- created id inTable, <- isMarked, mark, decide_eq_true member, Bool.or_true]
      · intro member
        rcases (source.mem_ids id).mp member with ⟨inTable, isCreated⟩
        rw [<- created id inTable, <- isMarked, mark, waiting.created id, Bool.false_or, decide_eq_true_eq] at isCreated
        exact isCreated
  · rintro ⟨lossless, same⟩
    have fresh : Fresh target.surfaces.created (source.words.take source.ids.length) :=
      ⟨same.nodup_iff.mpr source.nodup_ids, fun id member =>
        (source.fresh_ids waiting.created).2 id (same.mem_iff.mp member)⟩
    rcases (accepts _).mpr ⟨_, read, fresh, rfl⟩ with ⟨after, accepted, isMarked⟩
    refine ⟨after, accepted, fun id inTable => ?_, fun id inTable isCreated x y contains => ?_⟩
    · have sameMember : (id ∈ source.words.take source.ids.length) = (id ∈ source.ids) := propext same.mem_iff
      have written := mark_ids source waiting.created inTable
      unfold mark at written isMarked
      rw [isMarked]
      simp only [sameMember]
      exact written
    · exact absurd contains (lossless id inTable isCreated x y)

/-- Exactly when a migration keeps the surfaces of the client and what is lossy of them. -/
theorem display_migration_round_trips (source : MigrationSource) {target : DisplayChannelClient}
    (waiting : target.Waiting)
    (aborts : Bool) : RoundTrips source target aborts <-> LayoutsFit source target := by
  rw [roundTrips_iff source waiting aborts]
  unfold restoredSurfaces LayoutsFit
  cases reads : source.readLossy target with
  | true =>
      rw [if_pos rfl]
      cases jpeg : source.enableJpeg with
      | true => exact ⟨fun _ => trivial, fun _ => restored_lossy_lossy waiting jpeg⟩
      | false => exact restored_lossless_lossy waiting jpeg
  | false =>
      rw [if_neg (by decide)]
      cases jpeg : source.enableJpeg with
      | true => exact restored_lossless waiting
      | false =>
          refine (restored_lossless waiting).trans ⟨fun both => both.1, fun lossless => ⟨lossless, ?_⟩⟩
          rw [source.words_of_lossless jpeg, List.take_length]

/-- A source with a client of low bandwidth that has the primary surface, of which a part is lossy. -/
def primarySource (enableJpeg : Bool) : MigrationSource where
  messageSerial := 7
  isLowBandwidth := 1
  pixmapCacheFreezer := 0
  pixmapCacheId := 0
  pixmapCacheSize := 1024
  pixmapCacheClients := fun _ => 0
  glzDictId := 0
  glzDictSize := 4096
  glzDictMaxEncoders := 4
  glzDictLastImageId := 3
  enableJpeg := enableJpeg
  surfaces := { created := fun id => id == 0, lossyRegion := fun _ => QRegion.regionInit.regionAdd ⟨8, 8, 72, 56⟩ }
  sizeFits := by decide
  encodersFit := by decide

theorem waiting_waitingClient (jpegState : WanCompression) (enableJpeg : Bool) :
    (DisplayChannelClient.waitingClient jpegState enableJpeg).Waiting where
  created := fun _ => rfl
  regions := fun _ => rfl
  noDict := rfl

/-- The lossy part is lossy on the target, too. -/
theorem display_migration_round_trips_lossy : (DisplayChannelClient.waitingClient .auto false).Waiting ∧
    ((primarySource true).surfaces.lossyRegion 0).Contains 8 8 ∧
      RoundTrips (primarySource true) (DisplayChannelClient.waitingClient .auto false) false := by
  refine ⟨waiting_waitingClient .auto false,
    ⟨⟨8, 8, 72, 56⟩, List.mem_cons_self, by unfold SpiceRect.Contains; decide⟩, ?_⟩
  exact (display_migration_round_trips (primarySource true) (waiting_waitingClient .auto false) false).mpr trivial

/-- Another client of high bandwidth has turned jpeg off on the source; the target turns it on for the migrated client.
-/
theorem display_migration_misread :
    (DisplayChannelClient.waitingClient .auto false).Waiting ∧ (primarySource false).surfaces.created 0 = true ∧
      ¬ RoundTrips (primarySource false) (DisplayChannelClient.waitingClient .auto false) false := by
  have waiting := waiting_waitingClient .auto false
  refine ⟨waiting, rfl, fun roundTrips => ?_⟩
  have restored := (roundTrips_iff (primarySource false) waiting false).mp roundTrips
  unfold restoredSurfaces at restored
  rw [if_pos (show (primarySource false).readLossy (DisplayChannelClient.waitingClient .auto false) =
    true from rfl)] at restored
  have empty := (restored_lossless_lossy waiting rfl).mp restored
  have primary : 0 ∈ (primarySource false).ids := ((primarySource false).mem_ids 0).mpr ⟨by decide, rfl⟩
  rw [empty] at primary
  cases primary

end Display
end Spice
