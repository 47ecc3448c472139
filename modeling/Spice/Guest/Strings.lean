import Mathlib.Data.List.Basic
import Spice.Guest.DataChunks
import Spice.Guest.Path

namespace Spice
namespace Guest

/-!
# Glyph strings

`red_get_string` of `red_parse_qxl.c`, after the chunks of a string were gathered.  A string
in one chunk stays in the memory of the guest, which may change after each read.  A string
in several chunks is copied first.  The glyphs are counted in a first pass, memory is
allocated for them, and they are copied in a second pass.

Offsets are from the start of the data and from the start of the allocated memory, as for
paths.
-/

/-- `sizeof(QXLRasterGlyph)` and `sizeof(SpiceRasterGlyph)`, which is where the bitmap starts. -/
def rasterGlyphSize : Nat := 20

/-- `sizeof(SpiceString)`, which is where the pointers to the glyphs start. -/
def spiceStringSize : Nat := 8

def GuestBytes : Type := Nat -> UInt8

namespace GuestBytes

variable (bytes : GuestBytes)

/-- A 16-bit field. -/
def uint16 (offset : Nat) : Nat := (bytes offset).toNat + 256 * (bytes (offset + 1)).toNat

/-- A 32-bit field. -/
def uint32 (offset : Nat) : Nat := bytes.uint16 offset + 65536 * bytes.uint16 (offset + 2)

/-- `start->width`. -/
def width (start : Nat) : Nat := bytes.uint16 (start + 16)

/-- `start->height`. -/
def height (start : Nat) : Nat := bytes.uint16 (start + 18)

/-- `glyph_size`.  The product of two 16-bit fields is below `2 ^ 32`. -/
def glyphSize (bpp start : Nat) : Nat := bytes.height start * ((bytes.width start * bpp + 7) / 8)

/-- Where the glyph after one starts. -/
def after (bpp start : Nat) : Nat := start + rasterGlyphSize + bytes.glyphSize bpp start

/-- What a glyph takes of the allocated memory. -/
def stride (bpp start : Nat) : Nat := spiceAlign (rasterGlyphSize + bytes.glyphSize bpp start) 4

end GuestBytes

/-- A `SpiceRasterGlyph`, and where it is in the allocated memory. -/
structure SpiceRasterGlyph where
  place : Nat
  renderPos : Nat × Nat
  glyphOrigin : Nat × Nat
  width : Nat
  height : Nat
  data : List UInt8
deriving DecidableEq

/-- A `SpiceString`. -/
structure SpiceString where
  length : UInt16
  flags : UInt16
  glyphs : List SpiceRasterGlyph
deriving DecidableEq

/-- How `red_get_string` ends. -/
inductive StringResult
  | null
  | aborted
  | string (red : SpiceString)
deriving DecidableEq

/-- A run of `red_get_string`: its end, the accesses, and the size that was allocated. -/
structure StringRun where
  result : StringResult
  trace : List PathAccess
  redSize : Nat
deriving DecidableEq

/-- The fields of the `QXLString`, which are read once each. -/
structure QxlString where
  dataSize : UInt32
  length : UInt16
  flags : UInt16

/-- The bits of a pixel. -/
def QxlString.bpp (qxl : QxlString) : Nat :=
  if qxl.flags &&& 1 ≠ 0 then 1 else if qxl.flags &&& 2 ≠ 0 then 4 else if qxl.flags &&& 4 ≠ 0 then 8 else 0

/-- What the first pass finds. -/
structure GlyphCount where
  asserted : Bool
  glyphs : Nat
  redSize : Nat
  trace : List PathAccess

/-- The loop of the first pass. -/
def countGlyphs (bytes : GuestBytes) (bpp size : Nat) : Nat -> Nat -> GlyphCount -> GlyphCount
  | 0, _, counted => counted
  | fuel + 1, start, counted =>
      if start < size then
        if start + rasterGlyphSize ≤ size then
          let trace := counted.trace ++ [.read (start + 18) 2, .read (start + 16) 2]
          if bytes.glyphSize bpp start ≤ size - (start + rasterGlyphSize) then
            countGlyphs bytes bpp size fuel (bytes.after bpp start)
              { counted with
                glyphs := counted.glyphs + 1
                redSize := counted.redSize + (pointerSize + bytes.stride bpp start)
                trace := trace }
          else { counted with asserted := false, trace := trace }
        else { counted with asserted := false }
      else counted

def GuestBytes.glyph (bytes : GuestBytes) (bpp start place : Nat) : SpiceRasterGlyph where
  place := place
  renderPos := (bytes.uint32 start, bytes.uint32 (start + 4))
  glyphOrigin := (bytes.uint32 (start + 8), bytes.uint32 (start + 12))
  width := bytes.width start
  height := bytes.height start
  data := (List.range (bytes.glyphSize bpp start)).map fun index => bytes (start + rasterGlyphSize + index)

def headerAccesses (start glyph : Nat) : List PathAccess :=
  [.read (start + 16) 2, .write (glyph + 16) 2, .read (start + 18) 2, .write (glyph + 18) 2] ++
    (List.range 4).flatMap fun field => [.read (start + 4 * field) 4, .write (glyph + 4 * field) 4]

/-- The loop of the second pass; `left` glyphs are still to be copied. -/
def copyGlyphs (bytes : GuestBytes) (bpp size : Nat) (qxl : QxlString) (redSize : Nat) :
    Nat -> Nat -> Nat -> List SpiceRasterGlyph -> List PathAccess -> StringRun
  | 0, _, _, glyphs, trace =>
      { result := .string { length := qxl.length, flags := qxl.flags, glyphs := glyphs }
        trace := trace
        redSize := redSize }
  | left + 1, start, glyph, glyphs, trace =>
      if start + rasterGlyphSize ≤ size then
        let pointer := PathAccess.write (spiceStringSize + (qxl.length.toNat - (left + 1)) * pointerSize) pointerSize
        let trace := trace ++ pointer :: headerAccesses start glyph
        if bytes.glyphSize bpp start ≤ size - (start + rasterGlyphSize) then
          copyGlyphs bytes bpp size qxl redSize left (bytes.after bpp start) (glyph + bytes.stride bpp start)
            (glyphs ++ [bytes.glyph bpp start glyph])
            (trace ++ [.read (start + rasterGlyphSize) (bytes.glyphSize bpp start),
              .write (glyph + rasterGlyphSize) (bytes.glyphSize bpp start)])
        else { result := .aborted, trace := trace, redSize := redSize }
      else { result := .aborted, trace := trace, redSize := redSize }

/-- The two passes over data of a size, as it is in the first and in the second. -/
def parseString (qxl : QxlString) (size : Nat) (first second : GuestBytes) : StringRun :=
  if size = qxl.dataSize.toNat ∧ qxl.bpp ≠ 0 then
    let counted := countGlyphs first qxl.bpp size size 0
      { asserted := true, glyphs := 0, redSize := spiceStringSize, trace := [] }
    if counted.asserted ∧ counted.glyphs = qxl.length.toNat then
      copyGlyphs second qxl.bpp size qxl counted.redSize qxl.length.toNat 0
        (spiceStringSize + qxl.length.toNat * pointerSize) [] (counted.trace ++ [.write 0 2, .write 2 2])
    else { result := .aborted, trace := counted.trace, redSize := 0 }
  else { result := .aborted, trace := [], redSize := 0 }

/-- The data of a string in the first and in the second pass.  The memory of the guest is
read when the chunks are copied, in the first pass and in the second pass. -/
def stringData (gathered : Gathered) (memory : Fin 3 -> UInt64 -> UInt8) : Option (GuestBytes × GuestBytes) :=
  match redLinearizeChunk (memory 0) gathered.head gathered.next gathered.size with
  | none => none
  | some (bytes, true) => some (fun offset => bytes.getD offset 0, fun offset => bytes.getD offset 0)
  | some (_, false) =>
      let data := gathered.head.data.getD 0
      some (fun offset => memory 1 (data + UInt64.ofNat offset), fun offset => memory 2 (data + UInt64.ofNat offset))

/-- `red_get_string` on the chunks of a string. -/
def redGetString (qxl : QxlString) (gathered : Gathered) (memory : Fin 3 -> UInt64 -> UInt8) : StringRun :=
  if gathered.size = 0 then { result := .null, trace := [], redSize := 0 }
  else
    match stringData gathered memory with
    | none => { result := .aborted, trace := [], redSize := 0 }
    | some (first, second) => parseString qxl gathered.size first second

/-! ## What is contained -/

/-- So many glyphs were found in data of a size: where the next one starts, and what they
take of the allocated memory. -/
inductive GlyphWalk (bytes : GuestBytes) (bpp size : Nat) : Nat -> Nat -> Nat -> Prop
  | zero : GlyphWalk bytes bpp size 0 0 0
  | succ {count start used : Nat} (walk : GlyphWalk bytes bpp size count start used)
      (room : start + rasterGlyphSize ≤ size) (fits : bytes.after bpp start ≤ size) :
      GlyphWalk bytes bpp size (count + 1) (bytes.after bpp start) (used + bytes.stride bpp start)

/-- Where the glyphs are in the memory that is allocated for some. -/
def glyphsPlace (count : Nat) : Nat := spiceStringSize + count * pointerSize

/-- A glyph of the string is that of the data at its position. -/
def GlyphCopied (bytes : GuestBytes) (bpp size length index : Nat) (glyph : SpiceRasterGlyph) : Prop :=
  Exists fun start => Exists fun used => GlyphWalk bytes bpp size index start used ∧ bytes.after bpp start ≤ size ∧
    glyph = bytes.glyph bpp start (glyphsPlace length + used)

/-- The accesses are inside, and a string that is returned has the glyphs of the data, none
of which overlaps the next. -/
structure StringContained (size : Nat) (qxl : QxlString) (second : GuestBytes) (run : StringRun) : Prop where
  accesses : forall access, access ∈ run.trace -> access.Inside size run.redSize
  glyphs : forall red, run.result = .string red -> red.length = qxl.length ∧ red.flags = qxl.flags ∧
    red.glyphs.length = qxl.length.toNat ∧
    (forall index glyph, red.glyphs[index]? = some glyph ->
      GlyphCopied second qxl.bpp size qxl.length.toNat index glyph ∧
        glyph.place + rasterGlyphSize + glyph.data.length ≤ run.redSize) ∧
    forall index glyph next, red.glyphs[index]? = some glyph -> red.glyphs[index + 1]? = some next ->
      glyph.place + rasterGlyphSize + glyph.data.length ≤ next.place

/-- Every glyph that the assertions of the second pass let through fits what was allocated
for the glyphs of the first pass. -/
def StringFits (qxl : QxlString) (size : Nat) (first second : GuestBytes) : Prop :=
  size = qxl.dataSize.toNat -> qxl.bpp ≠ 0 -> forall total, GlyphWalk first qxl.bpp size qxl.length.toNat size total ->
    forall count start used, GlyphWalk second qxl.bpp size count start used -> count < qxl.length.toNat ->
      start + rasterGlyphSize ≤ size ->
        used + rasterGlyphSize ≤ total ∧
          (second.after qxl.bpp start ≤ size -> used + rasterGlyphSize + second.glyphSize qxl.bpp start ≤ total)

section Walks

variable {bytes : GuestBytes} {bpp size : Nat}

theorem GuestBytes.le_after (start : Nat) : start + rasterGlyphSize ≤ bytes.after bpp start := Nat.le_add_right _ _

theorem GuestBytes.le_stride (start : Nat) : rasterGlyphSize + bytes.glyphSize bpp start ≤ bytes.stride bpp start := by
  unfold GuestBytes.stride spiceAlign
  omega

theorem GlyphWalk.unique {count start used : Nat} (walk : GlyphWalk bytes bpp size count start used)
    {other otherUsed : Nat}
    (same : GlyphWalk bytes bpp size count other otherUsed) : start = other ∧ used = otherUsed := by
  induction walk generalizing other otherUsed with
  | zero =>
      cases same
      exact ⟨rfl, rfl⟩
  | succ _ _ _ ih =>
      cases same with
      | succ walk =>
          obtain ⟨rfl, rfl⟩ := ih walk
          exact ⟨rfl, rfl⟩

theorem GlyphWalk.earlier {count start used : Nat} (walk : GlyphWalk bytes bpp size count start used) {less : Nat}
    (isLess : less < count) : Exists fun before => Exists fun taken => GlyphWalk bytes bpp size less before taken ∧
      before + rasterGlyphSize ≤ size ∧ bytes.after bpp before ≤ size ∧ taken + bytes.stride bpp before ≤ used := by
  induction walk with
  | zero => exact absurd isLess (Nat.not_lt_zero _)
  | @succ count start used walk room fits ih =>
      rcases Nat.lt_or_ge less count with earlier | notEarlier
      · obtain ⟨before, taken, there, hasRoom, hasFits, below⟩ := ih earlier
        exact ⟨before, taken, there, hasRoom, hasFits, Nat.le_trans below (Nat.le_add_right _ _)⟩
      · obtain rfl : less = count := by omega
        exact ⟨start, used, walk, room, fits, Nat.le_refl _⟩

/-- The glyphs end in one place only. -/
theorem GlyphWalk.no_other_end {count start used : Nat} (walk : GlyphWalk bytes bpp size count start used)
    (more : start < size) (stuck : Not (start + rasterGlyphSize ≤ size ∧ bytes.after bpp start ≤ size))
    (num total : Nat) :
    Not (GlyphWalk bytes bpp size num size total) := by
  intro ended
  unfold rasterGlyphSize at stuck
  rcases Nat.lt_trichotomy num count with less | same | further
  · obtain ⟨before, taken, there, room, _⟩ := walk.earlier less
    obtain ⟨rfl, _⟩ := ended.unique there
    unfold rasterGlyphSize at room
    omega
  · subst same
    obtain ⟨rfl, _⟩ := ended.unique walk
    omega
  · obtain ⟨before, taken, there, room, fits, _⟩ := ended.earlier further
    obtain ⟨rfl, _⟩ := walk.unique there
    exact stuck ⟨room, fits⟩

theorem GlyphWalk.end_unique {num other total otherTotal : Nat} (walk : GlyphWalk bytes bpp size num size total)
    (same : GlyphWalk bytes bpp size other size otherTotal) : num = other := by
  have notLess : forall {few many total otherTotal : Nat}, GlyphWalk bytes bpp size few size total ->
      GlyphWalk bytes bpp size many size otherTotal -> Not (few < many) := by
    intro few many total otherTotal short long less
    obtain ⟨before, taken, there, room, _⟩ := long.earlier less
    obtain ⟨rfl, _⟩ := short.unique there
    unfold rasterGlyphSize at room
    omega
  have notBefore := notLess walk same
  have notBehind := notLess same walk
  omega

/-! ## The first pass -/

/-- What the loop of the first pass has found. -/
structure Counting (bytes : GuestBytes) (bpp size start : Nat) (counted : GlyphCount) (used : Nat) : Prop where
  asserted : counted.asserted = true
  walk : GlyphWalk bytes bpp size counted.glyphs start used
  redSize : counted.redSize = glyphsPlace counted.glyphs + used
  reads : forall access, access ∈ counted.trace -> Exists fun offset => access = .read offset 2 ∧ offset + 2 ≤ size

/-- What the first pass ends with. -/
structure CountedGlyphs (bytes : GuestBytes) (bpp size : Nat) (counted : GlyphCount) : Prop where
  reads : forall access, access ∈ counted.trace -> Exists fun offset => access = .read offset 2 ∧ offset + 2 ≤ size
  done : counted.asserted = true -> Exists fun used => GlyphWalk bytes bpp size counted.glyphs size used ∧
    counted.redSize = glyphsPlace counted.glyphs + used
  failed : counted.asserted = false -> forall num total, Not (GlyphWalk bytes bpp size num size total)

/-- What the first pass counts. -/
theorem Counting.countGlyphs_spec {fuel start used : Nat} {counted : GlyphCount}
    (counting : Counting bytes bpp size start counted used) (inside : start ≤ size) (enough : size ≤ start + fuel) :
    CountedGlyphs bytes bpp size (countGlyphs bytes bpp size fuel start counted) := by
  induction fuel generalizing start counted used with
  | zero =>
      obtain rfl : start = size := by omega
      exact ⟨counting.reads, fun _ => ⟨used, counting.walk, counting.redSize⟩, fun failed => by
        rw [countGlyphs, counting.asserted] at failed
        cases failed⟩
  | succ fuel ih =>
      unfold countGlyphs
      by_cases more : start < size
      · rw [if_pos more]
        by_cases room : start + rasterGlyphSize ≤ size
        · rw [if_pos room]
          have reads : forall access, access ∈ counted.trace ++ [.read (start + 18) 2, .read (start + 16) 2] ->
              Exists fun offset => access = .read offset 2 ∧ offset + 2 ≤ size := by
            intro access member
            unfold rasterGlyphSize at room
            rcases List.mem_append.mp member with isOld | isNew
            · exact counting.reads access isOld
            · simp only [List.mem_cons, List.not_mem_nil, or_false] at isNew
              rcases isNew with rfl | rfl
              · exact ⟨start + 18, rfl, by omega⟩
              · exact ⟨start + 16, rfl, by omega⟩
          by_cases fits : bytes.glyphSize bpp start ≤ size - (start + rasterGlyphSize)
          · dsimp only
            rw [if_pos fits]
            have within : bytes.after bpp start ≤ size := by
              unfold GuestBytes.after
              omega
            have further := @GuestBytes.le_after bytes bpp start
            refine ih ⟨counting.asserted, .succ counting.walk room within, ?_, reads⟩ within ?_
            · dsimp only
              rw [counting.redSize, glyphsPlace, glyphsPlace, Nat.add_mul, Nat.one_mul]
              omega
            · unfold rasterGlyphSize at further
              omega
          · dsimp only
            rw [if_neg fits]
            refine ⟨reads, nofun, fun _ => counting.walk.no_other_end more fun both => fits ?_⟩
            have within := both.2
            unfold GuestBytes.after at within
            omega
        · rw [if_neg room]
          exact ⟨counting.reads, nofun, fun _ => counting.walk.no_other_end more fun both => room both.1⟩
      · rw [if_neg more]
        obtain rfl : start = size := by omega
        exact ⟨counting.reads, fun _ => ⟨used, counting.walk, counting.redSize⟩, fun failed => by
          rw [counting.asserted] at failed
          cases failed⟩

/-! ## The second pass -/

theorem headerAccesses_inside {start glyph redSize : Nat} (inData : start + rasterGlyphSize ≤ size)
    (inMemory : glyph + rasterGlyphSize ≤ redSize) :
    forall access, access ∈ headerAccesses start glyph -> access.Inside size redSize := by
  intro access member
  unfold rasterGlyphSize at inData inMemory
  rcases List.mem_append.mp member with isSize | isPoint
  · simp only [List.mem_cons, List.not_mem_nil, or_false] at isSize
    rcases isSize with rfl | rfl | rfl | rfl <;> unfold PathAccess.Inside <;> omega
  · obtain ⟨field, isField, isAccess⟩ := List.mem_flatMap.mp isPoint
    have few := List.mem_range.mp isField
    simp only [List.mem_cons, List.not_mem_nil, or_false] at isAccess
    rcases isAccess with rfl | rfl <;> unfold PathAccess.Inside <;> omega

variable {qxl : QxlString} {total : Nat}

/-- What the loop of the second pass has done. -/
structure CopyingGlyphs (bytes : GuestBytes) (bpp size length total count start used : Nat)
    (glyphs : List SpiceRasterGlyph)
    (trace : List PathAccess) : Prop where
  walk : GlyphWalk bytes bpp size count start used
  found : glyphs.length = count
  accesses : forall access, access ∈ trace -> access.Inside size (glyphsPlace length + total)
  copied : forall index glyph, glyphs[index]? = some glyph -> GlyphCopied bytes bpp size length index glyph ∧
    glyph.place + rasterGlyphSize + glyph.data.length ≤ glyphsPlace length + total

theorem GlyphCopied.apart {length index : Nat} {glyph next : SpiceRasterGlyph}
    (copied : GlyphCopied bytes bpp size length index glyph)
    (copiedNext : GlyphCopied bytes bpp size length (index + 1) next) :
    glyph.place + rasterGlyphSize + glyph.data.length ≤ next.place := by
  obtain ⟨start, used, walk, _, rfl⟩ := copied
  obtain ⟨startNext, usedNext, walkNext, _, rfl⟩ := copiedNext
  obtain ⟨before, taken, there, _, _, below⟩ := walkNext.earlier (Nat.lt_succ_self index)
  obtain ⟨rfl, rfl⟩ := walk.unique there
  have stride := @GuestBytes.le_stride bytes bpp start
  have data : (bytes.glyph bpp start (glyphsPlace length + used)).data.length = bytes.glyphSize bpp start := by
    unfold GuestBytes.glyph
    rw [List.length_map, List.length_range]
  rw [data]
  show glyphsPlace length + used + rasterGlyphSize + bytes.glyphSize bpp start ≤ glyphsPlace length + usedNext
  omega

variable {glyphs : List SpiceRasterGlyph}

/-- The second pass stays in the memory if the offsets fit. -/
theorem CopyingGlyphs.contained
    (fits : forall count start used, GlyphWalk bytes qxl.bpp size count start used -> count < qxl.length.toNat ->
      start + rasterGlyphSize ≤ size -> used + rasterGlyphSize ≤ total ∧
        (bytes.after qxl.bpp start ≤ size -> used + rasterGlyphSize + bytes.glyphSize qxl.bpp start ≤ total))
    {left count start used : Nat} {trace : List PathAccess}
    (copying : CopyingGlyphs bytes qxl.bpp size qxl.length.toNat total count start used glyphs trace)
    (budget : left + count = qxl.length.toNat) :
    StringContained size qxl bytes (copyGlyphs bytes qxl.bpp size qxl (glyphsPlace qxl.length.toNat + total) left start
      (glyphsPlace qxl.length.toNat + used) glyphs trace) := by
  induction left generalizing count start used glyphs trace with
  | zero =>
      refine ⟨copying.accesses, fun red isString => ?_⟩
      cases isString
      refine ⟨rfl, rfl, ?_, copying.copied, fun index glyph next isGlyph isNext => ?_⟩
      · show glyphs.length = _
        rw [copying.found]
        omega
      · exact (copying.copied index glyph isGlyph).1.apart (copying.copied (index + 1) next isNext).1
  | succ left ih =>
      unfold copyGlyphs
      by_cases room : start + rasterGlyphSize ≤ size
      · rw [if_pos room]
        obtain ⟨header, whole⟩ := fits count start used copying.walk (by omega) room
        have opened : forall access, access ∈ trace ++
            PathAccess.write (spiceStringSize + (qxl.length.toNat - (left + 1)) * pointerSize) pointerSize ::
              headerAccesses start (glyphsPlace qxl.length.toNat + used) ->
            access.Inside size (glyphsPlace qxl.length.toNat + total) := by
          intro access member
          rcases List.mem_append.mp member with isOld | isNew
          · exact copying.accesses access isOld
          · rcases List.mem_cons.mp isNew with rfl | isHeader
            · unfold PathAccess.Inside glyphsPlace spiceStringSize pointerSize
              omega
            · exact headerAccesses_inside room (by omega) access isHeader
        by_cases fitsData : bytes.glyphSize qxl.bpp start ≤ size - (start + rasterGlyphSize)
        · dsimp only
          rw [if_pos fitsData]
          have within : bytes.after qxl.bpp start ≤ size := by
            unfold GuestBytes.after
            omega
          have memory := whole within
          have length : (bytes.glyph qxl.bpp start (glyphsPlace qxl.length.toNat + used)).data.length =
              bytes.glyphSize qxl.bpp start := by
            unfold GuestBytes.glyph
            rw [List.length_map, List.length_range]
          rw [Nat.add_assoc (glyphsPlace qxl.length.toNat)]
          refine ih ⟨.succ copying.walk room within, ?_, fun access member => ?_,
            fun index glyph isGlyph => ?_⟩ (by omega)
          · rw [List.length_append, copying.found, List.length_singleton]
          · rcases List.mem_append.mp member with isOld | isNew
            · exact opened access isOld
            · simp only [List.mem_cons, List.not_mem_nil, or_false] at isNew
              rcases isNew with rfl | rfl
              · unfold PathAccess.Inside
                omega
              · unfold PathAccess.Inside
                omega
          · rcases Nat.lt_or_ge index glyphs.length with isOld | isNew
            · rw [List.getElem?_append_left isOld] at isGlyph
              exact copying.copied index glyph isGlyph
            · rw [List.getElem?_append_right isNew] at isGlyph
              rw [List.getElem?_singleton] at isGlyph
              split at isGlyph
              case isTrue isLast =>
                cases isGlyph
                have found := copying.found
                obtain rfl : index = count := by omega
                refine ⟨⟨start, used, copying.walk, within, rfl⟩, ?_⟩
                rw [length]
                show glyphsPlace qxl.length.toNat + used + rasterGlyphSize + bytes.glyphSize qxl.bpp start ≤ _
                omega
              case isFalse => cases isGlyph
        · dsimp only
          rw [if_neg fitsData]
          exact ⟨opened, nofun⟩
      · rw [if_neg room]
        exact ⟨copying.accesses, nofun⟩

theorem copyGlyphs_trace {redSize left start glyph : Nat} {trace : List PathAccess}
    {access : PathAccess} (member : access ∈ trace) :
    access ∈ (copyGlyphs bytes bpp size qxl redSize left start glyph glyphs trace).trace := by
  induction left generalizing start glyph glyphs trace with
  | zero => exact member
  | succ left ih =>
      unfold copyGlyphs
      dsimp only
      split
      · split
        · exact ih (List.mem_append_left _ (List.mem_append_left _ member))
        · exact List.mem_append_left _ member
      · exact member

theorem copyGlyphs_redSize {redSize left start glyph : Nat} {trace : List PathAccess} :
    (copyGlyphs bytes bpp size qxl redSize left start glyph glyphs trace).redSize = redSize := by
  induction left generalizing start glyph glyphs trace with
  | zero => rfl
  | succ left ih =>
      unfold copyGlyphs
      split
      · dsimp only
        split
        · exact ih
        · rfl
      · rfl

/-- If the accesses of the second pass are inside, every glyph from there on fits. -/
theorem fits_of_glyphs_inside {left count start used : Nat} {trace : List PathAccess}
    (walk : GlyphWalk bytes qxl.bpp size count start used) (budget : left + count = qxl.length.toNat)
    (inside : forall access, access ∈
      (copyGlyphs bytes qxl.bpp size qxl (glyphsPlace qxl.length.toNat + total) left start
        (glyphsPlace qxl.length.toNat + used) glyphs trace).trace ->
      access.Inside size (glyphsPlace qxl.length.toNat + total))
    {later place taken : Nat} (notBefore : count ≤ later) (reached : GlyphWalk bytes qxl.bpp size later place taken)
    (more : later < qxl.length.toNat) (room : place + rasterGlyphSize ≤ size) :
    taken + rasterGlyphSize ≤ total ∧
      (bytes.after qxl.bpp place ≤ size -> taken + rasterGlyphSize + bytes.glyphSize qxl.bpp place ≤ total) := by
  induction left generalizing count start used glyphs trace with
  | zero => omega
  | succ left ih =>
      unfold copyGlyphs at inside
      rcases Nat.lt_or_ge count later with before | here
      · -- the glyph here is before the one that is asked for
        obtain ⟨other, otherTaken, there, hasRoom, hasFits, _⟩ := reached.earlier before
        obtain ⟨rfl, rfl⟩ := walk.unique there
        have fitsData : bytes.glyphSize qxl.bpp start ≤ size - (start + rasterGlyphSize) := by
          unfold GuestBytes.after at hasFits
          omega
        dsimp only at inside
        rw [if_pos hasRoom, if_pos fitsData, Nat.add_assoc (glyphsPlace qxl.length.toNat)] at inside
        exact ih (.succ walk hasRoom hasFits) (by omega) inside before
      · obtain rfl : count = later := by omega
        obtain ⟨rfl, rfl⟩ := walk.unique reached
        dsimp only at inside
        rw [if_pos room] at inside
        have last : PathAccess.write (glyphsPlace qxl.length.toNat + used + 18) 2 ∈
            headerAccesses start (glyphsPlace qxl.length.toNat + used) :=
          List.mem_append_left _ (List.mem_cons_of_mem _
            (List.mem_cons_of_mem _ (List.mem_cons_of_mem _ List.mem_cons_self)))
        refine ⟨?_, fun within => ?_⟩
        · have opened := List.mem_append_right trace (List.mem_cons_of_mem
            (PathAccess.write (spiceStringSize + (qxl.length.toNat - (left + 1)) * pointerSize) pointerSize) last)
          have write : (PathAccess.write (glyphsPlace qxl.length.toNat + used + 18) 2).Inside size
              (glyphsPlace qxl.length.toNat + total) := by
            refine inside _ ?_
            split
            · exact copyGlyphs_trace (List.mem_append_left _ opened)
            · exact opened
          unfold PathAccess.Inside at write
          unfold rasterGlyphSize
          omega
        · have fitsData : bytes.glyphSize qxl.bpp start ≤ size - (start + rasterGlyphSize) := by
            unfold GuestBytes.after at within
            omega
          rw [if_pos fitsData] at inside
          have write :=
            inside (.write (glyphsPlace qxl.length.toNat + used + rasterGlyphSize) (bytes.glyphSize qxl.bpp start))
            (copyGlyphs_trace (List.mem_append_right _ (List.mem_cons_of_mem _ List.mem_cons_self)))
          unfold PathAccess.Inside at write
          omega

end Walks

/-! ## Strings -/

/-- Parsing is contained exactly if every glyph that the assertions let through fits. -/
theorem parseString_contained (qxl : QxlString) (size : Nat) (first second : GuestBytes) :
    StringContained size qxl second (parseString qxl size first second) <-> StringFits qxl size first second := by
  unfold parseString
  by_cases accepted : size = qxl.dataSize.toNat ∧ qxl.bpp ≠ 0
  · rw [if_pos accepted]
    have counted := (show Counting first qxl.bpp size 0
      { asserted := true, glyphs := 0, redSize := spiceStringSize, trace := [] } 0 from
      ⟨rfl, .zero, by simp only [glyphsPlace, Nat.zero_mul, Nat.add_zero], nofun⟩).countGlyphs_spec (Nat.zero_le size)
        (Nat.le_of_eq (Nat.zero_add _).symm)
    generalize countGlyphs first qxl.bpp size size 0
      { asserted := true, glyphs := 0, redSize := spiceStringSize, trace := [] } = found at counted
    by_cases passed : found.asserted ∧ found.glyphs = qxl.length.toNat
    · dsimp only
      rw [if_pos passed]
      obtain ⟨total, walk, redSize⟩ := counted.done passed.1
      rw [passed.2] at walk redSize
      rw [redSize]
      have start : CopyingGlyphs second qxl.bpp size qxl.length.toNat total 0 0 0 []
          (found.trace ++ [.write 0 2, .write 2 2]) := by
        refine ⟨.zero, rfl, fun access member => ?_, nofun⟩
        rcases List.mem_append.mp member with isRead | isWrite
        · obtain ⟨offset, rfl, inside⟩ := counted.reads access isRead
          exact inside
        · simp only [List.mem_cons, List.not_mem_nil, or_false] at isWrite
          rcases isWrite with rfl | rfl
          · unfold PathAccess.Inside glyphsPlace spiceStringSize
            omega
          · unfold PathAccess.Inside glyphsPlace spiceStringSize
            omega
      constructor
      · intro contained _ _ other otherWalk count place used reached more room
        obtain ⟨_, rfl⟩ := walk.unique otherWalk
        have inside := contained.accesses
        rw [copyGlyphs_redSize] at inside
        exact fits_of_glyphs_inside .zero (Nat.add_zero _) inside (Nat.zero_le _) reached more room
      · intro fits
        exact start.contained (fits accepted.1 accepted.2 total walk) (Nat.add_zero _)
    · dsimp only
      rw [if_neg passed]
      constructor
      · intro _ _ _ total walk
        cases asserted : found.asserted with
        | false => exact absurd walk (counted.failed asserted _ _)
        | true =>
            obtain ⟨used, own, _⟩ := counted.done asserted
            exact absurd ⟨asserted, own.end_unique walk⟩ passed
      · intro _
        refine ⟨fun access member => ?_, nofun⟩
        obtain ⟨offset, rfl, inside⟩ := counted.reads access member
        exact inside
  · rw [if_neg accepted]
    exact ⟨fun _ isSize isBpp => absurd ⟨isSize, isBpp⟩ accepted, fun _ => ⟨nofun, nofun⟩⟩

/-- Parsing a string is contained, in one chunk or in several. -/
def GatheredStringContained (qxl : QxlString) (gathered : Gathered) (memory : Fin 3 -> UInt64 -> UInt8) : Prop :=
  match stringData gathered memory with
  | none => (redGetString qxl gathered memory).trace = []
  | some (_, second) => StringContained gathered.size qxl second (redGetString qxl gathered memory)

/-- A string that has data fits as the guest shows it, or as it was copied. -/
def GatheredStringFits (qxl : QxlString) (gathered : Gathered) (memory : Fin 3 -> UInt64 -> UInt8) : Prop :=
  forall first second, gathered.size ≠ 0 -> stringData gathered memory = some (first, second) ->
    StringFits qxl gathered.size first second

theorem StringFits.unchanged (qxl : QxlString) (size : Nat) (bytes : GuestBytes) : StringFits qxl size bytes bytes := by
  intro _ _ total whole count start used walk more room
  obtain ⟨before, taken, there, _, _, below⟩ := whole.earlier more
  obtain ⟨rfl, rfl⟩ := walk.unique there
  have stride := @GuestBytes.le_stride bytes qxl.bpp start
  exact ⟨by omega, fun _ => by omega⟩

theorem GatheredStringFits.copied (qxl : QxlString) {gathered : Gathered} (memory : Fin 3 -> UInt64 -> UInt8)
    (several : gathered.next ≠ []) : GatheredStringFits qxl gathered memory := by
  intro first second _ isData
  unfold stringData redLinearizeChunk at isData
  rw [if_neg several] at isData
  cases copied : copyChunks (memory 0) (gathered.head :: gathered.next) gathered.size with
  | none =>
      rw [copied] at isData
      cases isData
  | some bytes =>
      rw [copied] at isData
      cases isData
      exact StringFits.unchanged _ _ _

/-- Parsing a string is contained exactly if every glyph that the assertions of the second
pass let through fits what was allocated. -/
theorem string_contained (qxl : QxlString) (gathered : Gathered) (memory : Fin 3 -> UInt64 -> UInt8) :
    GatheredStringContained qxl gathered memory <-> GatheredStringFits qxl gathered memory := by
  unfold GatheredStringContained GatheredStringFits redGetString
  by_cases empty : gathered.size = 0
  · rw [if_pos empty]
    refine ⟨fun _ _ _ notEmpty => absurd empty notEmpty, fun _ => ?_⟩
    split
    · rfl
    · exact ⟨nofun, nofun⟩
  · rw [if_neg empty]
    cases isData : stringData gathered memory with
    | none => exact ⟨nofun, fun _ => rfl⟩
    | some data =>
        obtain ⟨first, second⟩ := data
        dsimp only
        rw [parseString_contained]
        constructor
        · intro fits otherFirst otherSecond _ same
          cases same
          exact fits
        · intro fits
          exact fits first second empty rfl

def evenGlyphs : GuestBytes := fun offset =>
  if offset = 16 ∨ offset = 40 then 4 else if offset = 18 ∨ offset = 42 then 1 else 0

/-- The guest makes them glyphs of one and of seven bytes after the first pass. -/
def oddGlyphs : GuestBytes := fun offset => if offset = 16 ∨ offset = 18 ∨ offset = 39 then 1
    else if offset = 37 then 7 else 0

def oneChunkString : Gathered where
  failed := false
  size := 48
  head := ⟨48, some 0x7f0000000024, 1⟩
  next := []
  links := 0

/-- What the guest shows in the chunk. -/
def changingGlyphs (time : Fin 3) (address : UInt64) : UInt8 :=
  (if time = 2 then oddGlyphs else evenGlyphs) (address - 0x7f0000000024).toNat

/-- The strides are rounded up, and the second pass does not compare them with what was
allocated: the last bitmap is written behind the end of the memory. -/
theorem string_escapes : ¬ GatheredStringContained ⟨48, 2, 4⟩ oneChunkString changingGlyphs := by
  intro contained
  have writes : PathAccess.write 68 7 ∈ (redGetString ⟨48, 2, 4⟩ oneChunkString changingGlyphs).trace :=
    by decide +kernel
  have redSize : (redGetString ⟨48, 2, 4⟩ oneChunkString changingGlyphs).redSize = 72 := by decide +kernel
  have isData : (stringData oneChunkString changingGlyphs).isSome = true := by decide +kernel
  unfold GatheredStringContained at contained
  split at contained
  case h_1 none =>
    rw [none] at isData
    cases isData
  case h_2 =>
    have inside := contained.accesses _ writes
    rw [redSize] at inside
    unfold PathAccess.Inside at inside
    omega

end Guest
end Spice
