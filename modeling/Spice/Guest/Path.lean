import Spice.Lib.Numbers
import Mathlib.Data.List.Basic

namespace Spice
namespace Guest

/-!
# Paths

`red_get_path` of `red_parse_qxl.c`, after the chunks of a path were made one block.  The
segments are counted first, and memory is allocated for a header, a pointer for each
segment and the segments.  Then they are copied.  When the block is memory of the guest, it
may change after each read; an offset is read once in each of the two passes, so each pass
has a memory of its own.

Offsets are from the start of the data and from the start of the allocated memory.
-/

/-- `sizeof(QXLPathSeg)` and `sizeof(SpicePathSeg)`, which is where the points start. -/
def pathSegSize : Nat := 8

/-- `sizeof(QXLPointFix)` and `sizeof(SpicePointFix)`. -/
def pointFixSize : Nat := 8

/-- `sizeof(SpicePath)`, which is where the pointers to the segments start. -/
def spicePathSize : Nat := 8

/-- `sizeof(SpicePathSeg *)`. -/
def pointerSize : Nat := 8

/-- `SPICE_ALIGN`, for a power of two. -/
def spiceAlign (value size : Nat) : Nat := (value + (size - 1)) / size * size

/-- An access of the data, or of the allocated memory. -/
inductive PathAccess
  | read (offset width : Nat)
  | write (offset width : Nat)
deriving DecidableEq, Repr

/-- The 32-bit words of the data, by their offset. -/
def Words : Type := Nat -> UInt32

/-- `start->count`. -/
def Words.count (words : Words) (start : Nat) : Nat := (words (start + 4)).toNat

/-- Where the segment after one starts. -/
def Words.after (words : Words) (start : Nat) : Nat := start + pathSegSize + words.count start * pointFixSize

/-- What the first pass finds. -/
structure Counted where
  nSegments : Nat
  memSize : Nat
  trace : List PathAccess
deriving DecidableEq, Repr

/-- The loop of the first pass. -/
def countSegments (words : Words) (size : Nat) : Nat -> Nat -> Counted -> Counted
  | 0, _, counted => counted
  | fuel + 1, start, counted =>
      if start + pathSegSize < size then
        countSegments words size fuel (words.after start)
          { nSegments := counted.nSegments + 1
            memSize := counted.memSize + (pointerSize + spiceAlign (pathSegSize + words.count start * pointFixSize) 4)
            trace := counted.trace ++ [.read (start + 4) 4] }
      else counted

/-- The first pass. -/
def countPath (words : Words) (size : Nat) : Counted :=
  countSegments words size size 0 { nSegments := 0, memSize := spicePathSize, trace := [] }

/-- A `SpicePathSeg`, and where it was read. -/
structure SpicePathSeg where
  start : Nat
  flags : UInt32
  count : Nat
  points : List (UInt32 × UInt32)
deriving DecidableEq

def pointAccesses (start seg count : Nat) : List PathAccess :=
  (List.range count).flatMap (fun i =>
    [.read (start + pathSegSize + i * pointFixSize) 4, .write (seg + pathSegSize + i * pointFixSize) 4,
      .read (start + pathSegSize + i * pointFixSize + 4) 4, .write (seg + pathSegSize + i * pointFixSize + 4) 4])

def Words.segment (words : Words) (start : Nat) : SpicePathSeg where
  start := start
  flags := words start
  count := words.count start
  points := (List.range (words.count start)).map (fun i =>
    (words (start + pathSegSize + i * pointFixSize), words (start + pathSegSize + i * pointFixSize + 4)))

/-- What the second pass gives: the segments unless an assertion fails, and the accesses. -/
structure Copied where
  segments : Option (List SpicePathSeg)
  trace : List PathAccess
deriving DecidableEq

def sizeAsserts (memSize memSize2 count : Nat) : Bool :=
  decide (memSize2 < memSize2 + pathSegSize ∧ count < (2 ^ 32 - 1) / pointFixSize ∧
    memSize2 + pathSegSize < memSize2 + pathSegSize + count * pointFixSize ∧
    memSize2 + pathSegSize + count * pointFixSize ≤ memSize)

/-- The loop of the second pass, with the assertion after it; `left` segments are still to be found. -/
def copySegments (words : Words) (size numSegments memSize : Nat) : Nat -> Nat -> Nat -> Nat -> Copied -> Copied
  | 0, _, _, _, copied => copied
  | left + 1, start, seg, memSize2, copied =>
      if start + pathSegSize < size then
        let opened := copied.trace ++
          [.write (spicePathSize + (numSegments - (left + 1)) * pointerSize) pointerSize, .read (start + 4) 4]
        if sizeAsserts memSize memSize2 (words.count start) then
          copySegments words size numSegments memSize left (words.after start)
            (seg + pathSegSize + words.count start * pointFixSize)
            (memSize2 + pathSegSize + words.count start * pointFixSize)
            { segments := copied.segments.map (fun segments => segments ++ [words.segment start])
              trace := opened ++ ([.read start 4, .write seg 4, .write (seg + 4) 4] ++
                pointAccesses start seg (words.count start)) }
        else { segments := none, trace := opened }
      else { copied with segments := none }

/-- `red_get_path` for data of a size, as it is in the first and in the second pass. -/
def redGetPath (size : Nat) (first second : Words) : Copied :=
  let counted := countPath first size
  copySegments second size counted.nSegments counted.memSize counted.nSegments 0
    (spicePathSize + counted.nSegments * pointerSize) spicePathSize
    { segments := some [], trace := counted.trace ++ [.write 0 4] }

/-! ## What is contained -/

/-- An access is inside of the data, or of the allocated memory. -/
def PathAccess.Inside (size memSize : Nat) : PathAccess -> Prop
  | .read offset width => offset + width ≤ size
  | .write offset width => offset + width ≤ memSize

/-- All accesses are inside, and the segments that are returned are those of the data, and complete in it. -/
structure PathContained (size : Nat) (first second : Words) : Prop where
  accesses : forall access, access ∈ (redGetPath size first second).trace ->
    access.Inside size (countPath first size).memSize
  segments : forall segments, (redGetPath size first second).segments = some segments ->
    forall segment, segment ∈ segments -> segment = second.segment segment.start ∧
      segment.start + pathSegSize + segment.count * pointFixSize ≤ size

/-- The first pass comes to an offset after so many segments. -/
inductive Walk (words : Words) (size : Nat) : Nat -> Nat -> Prop
  | zero : Walk words size 0 0
  | succ {count start : Nat} (walk : Walk words size count start) (room : start + pathSegSize < size) :
      Walk words size (count + 1) (words.after start)

/-- The assertions let a segment pass, if the first pass found `num` segments and came to `stop`. -/
def Passes (words : Words) (num stop start : Nat) : Prop :=
  0 < words.count start ∧ words.count start < (2 ^ 32 - 1) / pointFixSize ∧
    words.after start ≤ num * pointerSize + stop

/-- The second pass comes to an offset after so many segments. -/
inductive Copies (words : Words) (size num stop : Nat) : Nat -> Nat -> Prop
  | zero : Copies words size num stop 0 0
  | succ {count start : Nat} (copies : Copies words size num stop count start) (more : count < num)
      (room : start + pathSegSize < size) (passes : Passes words num stop start) :
      Copies words size num stop (count + 1) (words.after start)

/-- Every segment that the assertions let pass ends inside of the data, and not after the end of the first pass. -/
def PathFits (size : Nat) (first second : Words) : Prop :=
  forall num stop, Walk first size num stop -> size ≤ stop + pathSegSize ->
    forall count start, Copies second size num stop count start -> count < num -> start + pathSegSize < size ->
      Passes second num stop start -> second.after start ≤ size ∧ second.after start ≤ stop


/-! ## The first pass -/

section Count

variable {words : Words} {size : Nat}

theorem Words.le_after (words : Words) (start : Nat) : start + pathSegSize ≤ words.after start := Nat.le_add_right _ _

theorem spiceAlign_segment (count : Nat) :
    spiceAlign (pathSegSize + count * pointFixSize) 4 = pathSegSize + count * pointFixSize := by
  unfold spiceAlign pathSegSize pointFixSize
  omega

theorem Walk.unique {count start other : Nat} (walk : Walk words size count start)
    (same : Walk words size count other) :
    start = other := by
  induction walk generalizing other with
  | zero =>
      cases same
      rfl
  | succ _ _ ih =>
      cases same with
      | succ walk => rw [ih walk]

theorem Walk.earlier {count start : Nat} (walk : Walk words size count start) {less : Nat} (isLess : less < count) :
    Exists fun before => Walk words size less before ∧ before + pathSegSize < size := by
  induction walk with
  | zero => exact absurd isLess (Nat.not_lt_zero _)
  | @succ count start walk room ih =>
      rcases Nat.lt_or_ge less count with before | notBefore
      · exact ih before
      · have same : less = count := by omega
        exact ⟨start, same ▸ walk, room⟩

/-- The segments end in one place only. -/
theorem Walk.end_unique {num other stop stopOther : Nat} (walk : Walk words size num stop)
    (ended : size ≤ stop + pathSegSize)
    (second : Walk words size other stopOther) (endedOther : size ≤ stopOther + pathSegSize) :
    num = other ∧ stop = stopOther := by
  have same : num = other := by
    rcases Nat.lt_trichotomy num other with less | same | more
    · rcases second.earlier less with ⟨before, there, room⟩
      rw [there.unique walk] at room
      omega
    · exact same
    · rcases walk.earlier more with ⟨before, there, room⟩
      rw [there.unique second] at room
      omega
  cases same
  exact ⟨rfl, walk.unique second⟩

/-- The memory that is allocated when the first pass came to an offset. -/
def pathMemSize (num stop : Nat) : Nat := spicePathSize + num * pointerSize + stop

/-- What the first pass counts. -/
theorem countSegments_spec {fuel start : Nat} {counted : Counted} (walk : Walk words size counted.nSegments start)
    (memSize : counted.memSize = pathMemSize counted.nSegments start)
    (reads : forall access, access ∈ counted.trace -> Exists fun offset => access = .read offset 4 ∧ offset + 4 ≤ size)
    (enough : size ≤ start + fuel) : Exists fun stop =>
      Walk words size (countSegments words size fuel start counted).nSegments stop ∧ size ≤ stop + pathSegSize ∧
      (countSegments words size fuel start counted).memSize =
        pathMemSize (countSegments words size fuel start counted).nSegments stop ∧
      forall access, access ∈ (countSegments words size fuel start counted).trace ->
        Exists fun offset => access = .read offset 4 ∧ offset + 4 ≤ size := by
  induction fuel generalizing start counted with
  | zero => exact ⟨start, walk, by unfold pathSegSize; omega, memSize, reads⟩
  | succ fuel ih =>
      unfold countSegments
      by_cases room : start + pathSegSize < size
      · rw [if_pos room]
        have further := words.le_after start
        refine ih (Walk.succ walk room) ?_ (fun access member => ?_) (by unfold pathSegSize at further; omega)
        · dsimp only
          rw [memSize, spiceAlign_segment]
          unfold pathMemSize Words.after spicePathSize pointerSize
          omega
        · rcases List.mem_append.mp member with isOld | isNew
          · exact reads access isOld
          · refine ⟨start + 4, List.mem_singleton.mp isNew, ?_⟩
            unfold pathSegSize at room
            omega
      · rw [if_neg room]
        exact ⟨start, walk, Nat.not_lt.mp room, memSize, reads⟩

theorem countPath_spec (words : Words) (size : Nat) : Exists fun stop =>
    Walk words size (countPath words size).nSegments stop ∧ size ≤ stop + pathSegSize ∧
      (countPath words size).memSize = pathMemSize (countPath words size).nSegments stop ∧
      forall access, access ∈ (countPath words size).trace -> Exists fun offset => access = .read offset 4 ∧
        offset + 4 ≤ size :=
  countSegments_spec Walk.zero rfl (fun access impossible => by cases impossible) (Nat.le_of_eq (Nat.zero_add _).symm)

end Count


/-! ## The second pass -/

section Copy

variable {words : Words} {size num stop : Nat}

theorem Copies.unique {count start other : Nat} (copies : Copies words size num stop count start)
    (same : Copies words size num stop count other) : start = other := by
  induction copies generalizing other with
  | zero =>
      cases same
      rfl
  | succ _ _ _ _ ih =>
      cases same with
      | succ copies => rw [ih copies]

theorem Copies.earlier {count start : Nat} (copies : Copies words size num stop count start) {less : Nat}
    (isLess : less < count) :
    Exists fun before => Copies words size num stop less before ∧ before + pathSegSize < size ∧
      Passes words num stop before := by
  induction copies with
  | zero => exact absurd isLess (Nat.not_lt_zero _)
  | @succ count start copies more room passes ih =>
      rcases Nat.lt_or_ge less count with before | notBefore
      · exact ih before
      · have same : less = count := by omega
        exact ⟨start, same ▸ copies, room, passes⟩

theorem sizeAsserts_iff (start : Nat) :
    sizeAsserts (pathMemSize num stop) (spicePathSize + start) (words.count start) = true <->
      Passes words num stop start := by
  unfold sizeAsserts Passes Words.after pathMemSize spicePathSize pathSegSize pointFixSize pointerSize
  rw [decide_eq_true_eq]
  omega

/-- The accesses for a segment with points are inside exactly if the segment ends inside of both. -/
theorem segment_inside_iff {start seg count memSize : Nat} (positive : 0 < count) :
    (forall access, access ∈ [.read start 4, .write seg 4, .write (seg + 4) 4] ++ pointAccesses start seg count ->
      PathAccess.Inside size memSize access) <->
      start + pathSegSize + count * pointFixSize ≤ size ∧ seg + pathSegSize + count * pointFixSize ≤ memSize := by
  unfold pathSegSize pointFixSize
  constructor
  · intro inside
    have last : count - 1 ∈ List.range count := List.mem_range.mpr (by omega)
    have lastRead := inside (.read (start + 8 + (count - 1) * 8 + 4) 4)
      (List.mem_append_right _ (List.mem_flatMap.mpr
        ⟨_, last, List.mem_cons_of_mem _ (List.mem_cons_of_mem _ List.mem_cons_self)⟩))
    have lastWrite := inside (.write (seg + 8 + (count - 1) * 8 + 4) 4)
      (List.mem_append_right _ (List.mem_flatMap.mpr ⟨_, last, List.mem_cons_of_mem _ (List.mem_cons_of_mem _
        (List.mem_cons_of_mem _ List.mem_cons_self))⟩))
    unfold PathAccess.Inside at lastRead lastWrite
    omega
  · rintro ⟨inData, inMemory⟩ access member
    rcases List.mem_append.mp member with isHeader | isPoint
    · simp only [List.mem_cons, List.not_mem_nil, or_false] at isHeader
      rcases isHeader with isAccess | isAccess | isAccess
      · rw [isAccess]
        unfold PathAccess.Inside
        omega
      · rw [isAccess]
        unfold PathAccess.Inside
        omega
      · rw [isAccess]
        unfold PathAccess.Inside
        omega
    · rcases List.mem_flatMap.mp isPoint with ⟨index, isIndex, isAccess⟩
      have before := List.mem_range.mp isIndex
      unfold pathSegSize pointFixSize at isAccess
      simp only [List.mem_cons, List.not_mem_nil, or_false] at isAccess
      rcases isAccess with isAccess | isAccess | isAccess | isAccess
      · rw [isAccess]
        unfold PathAccess.Inside
        omega
      · rw [isAccess]
        unfold PathAccess.Inside
        omega
      · rw [isAccess]
        unfold PathAccess.Inside
        omega
      · rw [isAccess]
        unfold PathAccess.Inside
        omega

theorem copySegments_trace {memSize left start seg memSize2 : Nat} {copied : Copied} {access : PathAccess}
    (member : access ∈ copied.trace) :
    access ∈ (copySegments words size num memSize left start seg memSize2 copied).trace := by
  induction left generalizing start seg memSize2 copied with
  | zero => exact member
  | succ left ih =>
      unfold copySegments
      dsimp only
      split
      · split
        · exact ih (List.mem_append_left _ (List.mem_append_left _ member))
        · exact List.mem_append_left _ member
      · exact member

/-- What holds on the way of the second pass. -/
structure Copying (words : Words) (size num stop count start : Nat) (copied : Copied) : Prop where
  copies : Copies words size num stop count start
  accesses : forall access, access ∈ copied.trace -> access.Inside size (pathMemSize num stop)
  segments : forall segments, copied.segments = some segments -> forall segment, segment ∈ segments ->
    segment = words.segment segment.start ∧ segment.start + pathSegSize + segment.count * pointFixSize ≤ size

/-- A segment that is opened is inside of the memory. -/
theorem opened_inside {left count start : Nat} {trace : List PathAccess} (budget : left + 1 + count = num)
    (room : start + pathSegSize < size)
    (before : forall access, access ∈ trace -> access.Inside size (pathMemSize num stop)) :
    forall access, access ∈ trace ++
      [.write (spicePathSize + (num - (left + 1)) * pointerSize) pointerSize, .read (start + 4) 4] ->
      access.Inside size (pathMemSize num stop) := by
  intro access member
  rcases List.mem_append.mp member with isOld | isNew
  · exact before access isOld
  · simp only [List.mem_cons, List.not_mem_nil, or_false] at isNew
    rcases isNew with isAccess | isAccess
    · rw [isAccess]
      unfold PathAccess.Inside pathMemSize spicePathSize pointerSize
      omega
    · rw [isAccess]
      unfold PathAccess.Inside
      unfold pathSegSize at room
      omega

/-- If everything fits, the second pass is contained. -/
theorem Copying.contained (fits : forall count start, Copies words size num stop count start -> count < num ->
      start + pathSegSize < size -> Passes words num stop start -> words.after start ≤ size ∧ words.after start ≤ stop)
    {left count start : Nat} {copied : Copied} (copying : Copying words size num stop count start copied)
    (budget : left + count = num) :
    let result := copySegments words size num (pathMemSize num stop) left start
      (spicePathSize + num * pointerSize + start)
      (spicePathSize + start) copied
    (forall access, access ∈ result.trace -> access.Inside size (pathMemSize num stop)) ∧
      forall segments, result.segments = some segments -> forall segment, segment ∈ segments ->
        segment = words.segment segment.start ∧ segment.start + pathSegSize + segment.count * pointFixSize ≤ size := by
  induction left generalizing count start copied with
  | zero => exact ⟨copying.accesses, copying.segments⟩
  | succ left ih =>
      unfold copySegments
      dsimp only
      by_cases room : start + pathSegSize < size
      · have opened := opened_inside budget room copying.accesses
        rw [if_pos room]
        by_cases passes : Passes words num stop start
        · rw [if_pos ((sizeAsserts_iff start).mpr passes)]
          rcases fits count start copying.copies (by omega) room passes with ⟨inData, notAfter⟩
          have places : spicePathSize + num * pointerSize + start + pathSegSize + words.count start * pointFixSize =
              spicePathSize + num * pointerSize + words.after start := by
            unfold Words.after
            omega
          have sizes : spicePathSize + start + pathSegSize + words.count start * pointFixSize =
              spicePathSize + words.after start := by
            unfold Words.after
            omega
          have next : Copying words size num stop (count + 1) (words.after start)
              { segments := copied.segments.map (fun segments => segments ++ [words.segment start])
                trace := copied.trace ++
                  [.write (spicePathSize + (num - (left + 1)) * pointerSize) pointerSize, .read (start + 4) 4] ++
                  ([.read start 4, .write (spicePathSize + num * pointerSize + start) 4,
                    .write (spicePathSize + num * pointerSize + start + 4) 4] ++
                    pointAccesses start (spicePathSize + num * pointerSize + start) (words.count start)) } := by
            refine ⟨Copies.succ copying.copies (by omega) room passes, fun access member => ?_, ?_⟩
            · rcases List.mem_append.mp member with isOld | isNew
              · exact opened access isOld
              · refine (segment_inside_iff passes.1).mpr ⟨inData, ?_⟩ access isNew
                rw [places]
                exact Nat.add_le_add_left notAfter _
            · intro segments isSegments segment member
              rcases Option.map_eq_some_iff.mp isSegments with ⟨before, isBefore, same⟩
              rw [<- same] at member
              rcases List.mem_append.mp member with isOld | isNew
              · exact copying.segments before isBefore segment isOld
              · rw [List.mem_singleton.mp isNew]
                exact ⟨rfl, inData⟩
          rw [places, sizes]
          exact ih next (by omega)
        · rw [if_neg (fun asserted => passes ((sizeAsserts_iff start).mp asserted))]
          exact ⟨opened, fun _ impossible => by cases impossible⟩
      · rw [if_neg room]
        exact ⟨copying.accesses, fun _ impossible => by cases impossible⟩

/-- If the accesses of the second pass are inside, everything fits from there on. -/
theorem fits_of_inside {left count start : Nat} {copied : Copied} (copies : Copies words size num stop count start)
    (budget : left + count = num) (inside :
    forall access, access ∈ (copySegments words size num (pathMemSize num stop) left start
      (spicePathSize + num * pointerSize + start) (spicePathSize + start) copied).trace ->
        access.Inside size (pathMemSize num stop))
    {later place : Nat} (notBefore : count ≤ later) (reached : Copies words size num stop later place)
    (more : later < num)
    (room : place + pathSegSize < size) (passes : Passes words num stop place) :
    words.after place ≤ size ∧ words.after place ≤ stop := by
  induction left generalizing count start copied with
  | zero => omega
  | succ left ih =>
      -- the segment here was let through: it is the one that is asked for, or one before it
      have here : start + pathSegSize < size ∧ Passes words num stop start := by
        rcases Nat.lt_or_ge count later with before | notBefore
        · rcases reached.earlier before with ⟨other, there, hasRoom, hasPassed⟩
          rw [there.unique copies] at hasRoom hasPassed
          exact ⟨hasRoom, hasPassed⟩
        · have same : count = later := by omega
          subst same
          rw [copies.unique reached]
          exact ⟨room, passes⟩
      have places : spicePathSize + num * pointerSize + start + pathSegSize + words.count start * pointFixSize =
          spicePathSize + num * pointerSize + words.after start := by
        unfold Words.after
        omega
      have sizes : spicePathSize + start + pathSegSize + words.count start * pointFixSize =
          spicePathSize + words.after start := by
        unfold Words.after
        omega
      unfold copySegments at inside
      dsimp only at inside
      rw [if_pos here.1, if_pos ((sizeAsserts_iff start).mpr here.2), places, sizes] at inside
      rcases Nat.lt_or_ge count later with before | notBefore
      · exact ih (Copies.succ copies (by omega) here.1 here.2) (by omega) inside before
      · have same : count = later := by omega
        subst same
        rw [<- copies.unique reached]
        have segment := (@segment_inside_iff size start (spicePathSize + num * pointerSize + start) (words.count start)
          (pathMemSize num stop) here.2.1).mp
          (fun access member => inside access (copySegments_trace (List.mem_append_right _ member)))
        refine ⟨segment.1, ?_⟩
        rw [places] at segment
        exact Nat.le_of_add_le_add_left segment.2

end Copy

/-- Parsing a path is contained exactly if every segment that the assertions let pass fits. -/
theorem path_contained (size : Nat) (first second : Words) :
    PathContained size first second <-> PathFits size first second := by
  rcases countPath_spec first size with ⟨stop, walk, ended, memSize, reads⟩
  have start : Copying second size (countPath first size).nSegments stop 0 0
      { segments := some [], trace := (countPath first size).trace ++ [.write 0 4] } := by
    refine ⟨Copies.zero, fun access member => ?_, fun segments isNil segment impossible => ?_⟩
    · rcases List.mem_append.mp member with isRead | isWrite
      · rcases reads access isRead with ⟨offset, isAccess, inside⟩
        rw [isAccess]
        exact inside
      · rw [List.mem_singleton.mp isWrite]
        unfold PathAccess.Inside pathMemSize spicePathSize
        omega
    · cases isNil
      cases impossible
  have isPath : redGetPath size first second = copySegments second size (countPath first size).nSegments
      (pathMemSize (countPath first size).nSegments stop) (countPath first size).nSegments 0
      (spicePathSize + (countPath first size).nSegments * pointerSize + 0) (spicePathSize + 0)
      { segments := some [], trace := (countPath first size).trace ++ [.write 0 4] } := by
    unfold redGetPath
    dsimp only
    rw [memSize]
    rfl
  constructor
  · intro contained num other otherWalk otherEnded count place copies more room passes
    rcases walk.end_unique ended otherWalk otherEnded with ⟨isNum, isStop⟩
    subst isNum isStop
    have inside := contained.accesses
    rw [memSize, isPath] at inside
    exact fits_of_inside start.copies (Nat.add_zero _) inside (Nat.zero_le _) copies more room passes
  · intro fits
    have all := start.contained (fits _ stop walk ended) (Nat.add_zero _)
    dsimp only at all
    rw [<- isPath] at all
    refine ⟨?_, all.2⟩
    rw [memSize]
    exact all.1

/-- One segment that says it has four points, in data for one. -/
def longSegment : Words := fun offset => if offset = 4 then 4 else 0

def shortSegments : Words := fun offset => if offset % 16 = 4 then 1 else 0

/-- The guest makes the third segment longer after the first pass. -/
def grownSegment : Words := fun offset => if offset = 36 then 4 else shortSegments offset

/-- The points of a last segment are read after the end of the data; and a segment that grew is written after the end of
the memory, since the pointers are not counted in the second pass. -/
theorem path_escapes : ¬ PathContained 17 longSegment longSegment ∧ ¬ PathContained 72 shortSegments grownSegment := by
  constructor
  · intro contained
    have reads : PathAccess.read 20 4 ∈ (redGetPath 17 longSegment longSegment).trace := by decide +kernel
    exact absurd (contained.accesses _ reads) (by unfold PathAccess.Inside; omega)
  · intro contained
    have writes : PathAccess.write 108 4 ∈ (redGetPath 72 shortSegments grownSegment).trace := by decide +kernel
    have memSize : (countPath shortSegments 72).memSize = 104 := by decide +kernel
    have inside := contained.accesses _ writes
    rw [memSize] at inside
    unfold PathAccess.Inside at inside
    omega

end Guest
end Spice
