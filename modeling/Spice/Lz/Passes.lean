import Spice.Lz.Tokens

namespace Spice
namespace Lz

open Lib

/-!
# A pass over the image

The compressor keeps an invariant over all its loops: what it has written
decodes to the pixels up to its position, except for the literal run it is in,
and its hash table points to earlier pixels.  So the decompressor reads back
what one pass writes.
-/

section Passes

variable {Pixel : Type} {template : Template} {ops : PixelOps Pixel} {out : OutOps Pixel}
  {keeps : Pixel -> Pixel -> Prop} (agree : Agree ops out keeps) (image buf : List Pixel) (before : List UInt8)

variable (template) in
/-- The invariant of `compress_seg`. -/
structure Progress (seg : LzImageSegment Pixel) (state : SegState Pixel) : Prop where
  pending : Pending agree.medium ops.encodePixel (decompressRound template out) image buf before
    state.out state.copy (seg.pixelId state.ip)
  points : forall slot, (state.htab slot).Points image (seg.pixelId state.ip)
  inside : state.ip ≤ seg.lines.length

variable (template) in
structure Between (encoder : Encoder Pixel) (position : Nat) : Prop where
  flushed : Flushed agree.medium (decompressRound template out) image buf before encoder.out position
  points : forall slot, (encoder.htab slot).Points image position

variable {agree image buf before} {seg : LzImageSegment Pixel} {state : SegState Pixel}

theorem HashEntry.Points.later {entry : HashEntry Pixel} {position next : Nat} (points : entry.Points image position)
    (further : position ≤ next) : entry.Points image next :=
  ⟨points.part, points.inside, Nat.lt_of_lt_of_le points.earlier further⟩

theorem setHash_points {htab : Nat -> HashEntry Pixel} {position : Nat}
    (points : forall slot, (htab slot).Points image position) {hval offset : Nat} (part : seg.IsPart image)
    (inside : offset + 4 ≤ seg.lines.length) (earlier : seg.pixelId offset < position) (slot : Nat) :
    (setHash htab hval ⟨seg, offset⟩ slot).Points image position := by
  unfold setHash
  split
  · exact ⟨part, inside, earlier⟩
  · exact points slot

variable (template agree image buf before seg state) in
/-- The invariant inside a round, where the current pixel may already be in the
hash table. -/
structure InRound : Prop where
  pending : Pending agree.medium ops.encodePixel (decompressRound template out) image buf before
    state.out state.copy (seg.pixelId state.ip)
  points : forall slot, (state.htab slot).Points image (seg.pixelId (state.ip + 1))

theorem Progress.inRound (progress : Progress template agree image buf before seg state) :
    InRound template agree image buf before seg state :=
  ⟨progress.pending, fun slot => (progress.points slot).later (by simp only [LzImageSegment.pixelId]; omega)⟩

variable [Inhabited Pixel]

/-- The entries at a boundary point into the image. -/
theorem hashBoundary_points {anchor ip : Nat} {htab : Nat -> HashEntry Pixel}
    (points : forall slot, (htab slot).Points image (seg.pixelId (ip - 1))) (part : seg.IsPart image)
    (long : anchor + 4 ≤ ip + template.lenBias) (bound : ip + boundOffset ≤ seg.lines.length) (slot : Nat) :
    (hashBoundary template ops seg anchor ip htab slot).Points image (seg.pixelId (ip - 1)) := by
  unfold boundOffset at bound
  have bias : template.lenBias ≤ 2 := by cases template <;> decide
  have firstPlace : ip - 3 + 4 ≤ seg.lines.length ∧ seg.pixelId (ip - 3) < seg.pixelId (ip - 1) := by
    simp only [LzImageSegment.pixelId]
    omega
  have secondPlace : ip - 2 + 4 ≤ seg.lines.length ∧ seg.pixelId (ip - 2) < seg.pixelId (ip - 1) := by
    simp only [LzImageSegment.pixelId]
    omega
  unfold hashBoundary
  have first : forall slot, ((if (template.guards.1 && !decide (anchor + 3 < ip)) = true then htab
      else setHash htab (seg.hash ops (ip - 3)) ⟨seg, ip - 3⟩) slot).Points image (seg.pixelId (ip - 1)) := by
    intro slot
    split
    · exact points slot
    · exact setHash_points points part firstPlace.1 firstPlace.2 slot
  split
  · exact first slot
  · exact setHash_points first part secondPlace.1 secondPlace.2 slot

theorem compressLiteral_progress (progress : InRound template agree image buf before seg state)
    (part : seg.IsPart image) (inside : state.ip < seg.lines.length) :
    Exists fun next => compressLiteral ops seg state = some next ∧
      Progress template agree image buf before seg next ∧ next.ip = state.ip + 1 := by
  have next : seg.pixelId (state.ip + 1) = seg.pixelId state.ip + 1 := by
    simp only [LzImageSegment.pixelId]
    omega
  rcases progress.pending.literal (readsRuns agree) (part.pixel inside) with ⟨out, copied, written, pending⟩
  refine ⟨{ state with out := out, ip := state.ip + 1, copy := copied }, ?_, ⟨?_, progress.points, inside⟩, rfl⟩
  · unfold compressLiteral
    rw [written]
    rfl
  · rw [← next] at pending
    exact pending

/-- A match is written. -/
theorem compressMatch_progress (progress : InRound template agree image buf before seg state)
    (part : seg.IsPart image) (small : image.length < 2 ^ 32) {m : Match Pixel}
    (found : Found template ops image seg state.ip m) :
    Exists fun next => compressMatch template ops seg m state = some next ∧
      Progress template agree image buf before seg next ∧ state.ip < next.ip := by
  have long := found.long
  have bound := found.bound
  have positive := found.positive
  have inRange := found.inRange
  have earlier := found.earlier
  have bias : template.lenBias ≤ 2 := by cases template <;> decide
  have fix : template.lenFix + template.lenBias = 3 := by cases template <;> decide
  unfold boundOffset at bound
  have size := part.size (fun empty => by rw [empty] at bound; simp at bound)
  generalize last : matchEnd ops seg m = ip at long bound
  have repeats := found.repeats
  rw [last] at repeats
  -- what is decoded is what was compared
  have count : ip + template.lenBias - (state.ip + 3) - 1 + template.lenFix = ip - 1 - state.ip := by omega
  have place : seg.pixelId state.ip + (ip - 1 - state.ip) = seg.pixelId (ip - 1) := by
    simp only [LzImageSegment.pixelId]
    omega
  rcases progress.pending.close (readsRuns agree) with ⟨closed, close, flushed⟩
  have decodes : forall fill, agree.medium.Filled image buf fill -> fill.done.length = seg.pixelId state.ip ->
      Exists fun next => Reads (decompressRound template out fill)
        (matchBytes (m.distance - 1) (ip + template.lenBias - (state.ip + 3))) next ∧
        agree.medium.Filled image buf next ∧ next.done.length = seg.pixelId (ip - 1) := by
    intro fill filled length
    have same : forall step one two, step < ip + template.lenBias - (state.ip + 3) - 1 + template.lenFix ->
        image[fill.done.length - (m.distance - 1 + 1) + step]? = some one ->
        image[fill.done.length + step]? = some two -> ops.samePixel one two = true := by
      intro step one two below first second
      rw [count] at below
      rw [length, Nat.sub_add_cancel positive] at first
      rw [length] at second
      exact repeats step below one two first second
    rcases reads_match agree filled (by omega) (by omega) (by unfold maxFarDistance at inRange; omega) (by omega)
      (by rw [count, length, place]; simp only [LzImageSegment.pixelId]; omega) same with
      ⟨next, reads, filledNext, lengthNext⟩
    exact ⟨next, reads, filledNext, by rw [lengthNext, count, length, place]⟩
  have further : seg.pixelId state.ip < seg.pixelId (ip - 1) := by
    simp only [LzImageSegment.pixelId]
    omega
  rcases flushed.token decodes further with ⟨written, emitted, flushedNext⟩
  rcases flushedNext.begin ops.encodePixel with ⟨began, begins, pending⟩
  refine ⟨{ out := began, htab := hashBoundary template ops seg state.ip ip state.htab, ip := ip - 1, copy := 0 }, ?_,
    ⟨pending, ?_, ?_⟩, ?_⟩
  · unfold compressMatch
    simp only [last, close, Option.bind_eq_bind, Option.bind_some, emitted, begins]
    rfl
  · exact hashBoundary_points (fun slot => (progress.points slot).later (by
      simp only [LzImageSegment.pixelId]
      omega)) part long bound
  · show ip - 1 ≤ seg.lines.length
    omega
  · show state.ip < ip - 1
    omega

/-- A round writes a match or a literal. -/
theorem compressRound_progress (progress : Progress template agree image buf before seg state)
    (part : seg.IsPart image) (small : image.length < 2 ^ 32) (inside : state.ip + limitOffset < seg.lines.length) :
    Exists fun next => compressRound template ops seg state = some next ∧
      Progress template agree image buf before seg next ∧ state.ip < next.ip := by
  unfold compressRound
  simp only
  split
  · next run =>
      exact compressMatch_progress progress.inRound part small (found_run agree.toLawful part inside run)
  · have hashed : InRound template agree image buf before seg
        { state with htab := setHash state.htab (seg.hash ops state.ip) ⟨seg, state.ip⟩ } := by
      refine ⟨progress.pending, setHash_points progress.inRound.points part ?_ ?_⟩
      · unfold limitOffset at inside
        omega
      · simp only [LzImageSegment.pixelId]
        omega
    split
    · next m found =>
        exact compressMatch_progress hashed part small
          (found_entry agree.toLawful part inside (progress.points _) found)
    · rcases compressLiteral_progress hashed part (by simp only; omega) with ⟨next, written, kept, moved⟩
      exact ⟨next, written, kept, by simp only at moved; omega⟩

/-- The rounds of a segment. -/
theorem compressLoop_progress (fuel : Nat) (progress : Progress template agree image buf before seg state)
    (part : seg.IsPart image) (small : image.length < 2 ^ 32) (enough : seg.lines.length ≤ state.ip + fuel) :
    Exists fun next => compressLoop template ops seg fuel state = some next ∧
      Progress template agree image buf before seg next := by
  induction fuel generalizing state with
  | zero => exact ⟨state, rfl, progress⟩
  | succ fuel ih =>
      unfold compressLoop
      split
      · next inside =>
          rcases compressRound_progress progress part small inside with ⟨middle, round, kept, moved⟩
          rcases ih kept (by omega) with ⟨next, rest, final⟩
          refine ⟨next, ?_, final⟩
          rw [round]
          exact rest
      · exact ⟨state, rfl, progress⟩

/-- The literals at the end of a segment. -/
theorem compressRest_progress (fuel : Nat) (progress : Progress template agree image buf before seg state)
    (part : seg.IsPart image) (enough : seg.lines.length ≤ state.ip + fuel) :
    Exists fun next => compressRest ops seg fuel state = some next ∧
      Progress template agree image buf before seg next ∧ next.ip = seg.lines.length := by
  have within := progress.inside
  induction fuel generalizing state with
  | zero => exact ⟨state, rfl, progress, by omega⟩
  | succ fuel ih =>
      unfold compressRest
      split
      · next inside =>
          rcases compressLiteral_progress progress.inRound part inside with ⟨middle, literal, kept, moved⟩
          rcases ih kept (by omega) kept.inside with ⟨next, rest, final, last⟩
          refine ⟨next, ?_, final, last⟩
          rw [literal]
          exact rest
      · exact ⟨state, rfl, progress, by omega⟩

/-- A whole segment. -/
theorem compressSeg_from (progress : Progress template agree image buf before seg state) (part : seg.IsPart image)
    (small : image.length < 2 ^ 32) :
    Exists fun encoder => (do
        let state <- compressLoop template ops seg seg.lines.length state
        let state <- compressRest ops seg seg.lines.length state
        let out <- closeRun state.out state.copy
        pure { out := out, htab := state.htab : Encoder Pixel }) = some encoder ∧
      Between template agree image buf before encoder (seg.sizeDelta + seg.lines.length) := by
  rcases compressLoop_progress seg.lines.length progress part small (Nat.le_add_left _ _) with ⟨middle, loop, kept⟩
  rcases compressRest_progress seg.lines.length kept part (Nat.le_add_left _ _) with ⟨last, rest, final, whole⟩
  have position : seg.pixelId last.ip = seg.sizeDelta + seg.lines.length := by
    rw [whole, LzImageSegment.pixelId, Nat.add_comm]
  rcases final.pending.close (readsRuns agree) with ⟨closed, close, flushed⟩
  refine ⟨{ out := closed, htab := last.htab }, ?_, ⟨?_, ?_⟩⟩
  · simp only [loop, rest, close, Option.bind_eq_bind, Option.bind_some]
    rfl
  · rw [← position]
    exact flushed
  · rw [← position]
    exact final.points

/-- The segments cover the image from a position on. -/
def Chain (image : List Pixel) : Nat -> List (LzImageSegment Pixel) -> Prop
  | position, [] => position = image.length
  | position, seg :: segs =>
      seg.sizeDelta = position ∧ seg.IsPart image ∧ Chain image (position + seg.lines.length) segs

variable {segs : List (LzImageSegment Pixel)}

/-- The induction over the segments. -/
theorem compressSegs_between {encoder : Encoder Pixel} {position : Nat}
    (between : Between template agree image buf before encoder position) (chain : Chain image position segs)
    (small : image.length < 2 ^ 32) : Exists fun last => compressSegs template ops segs encoder = some last ∧
      Between template agree image buf before last image.length := by
  induction segs generalizing encoder position with
  | nil =>
      have whole : position = image.length := chain
      exact ⟨encoder, rfl, whole ▸ between⟩
  | cons seg segs ih =>
      rcases chain with ⟨delta, part, rest⟩
      have start : seg.pixelId 0 = position := by
        rw [LzImageSegment.pixelId, Nat.zero_add, delta]
      rcases between.flushed.begin ops.encodePixel with ⟨began, begins, pending⟩
      have progress : Progress template agree image buf before seg
          { out := began, htab := encoder.htab, ip := 0, copy := 0 } := by
        refine ⟨?_, ?_, Nat.zero_le _⟩
        · rw [start]
          exact pending
        · rw [start]
          exact between.points
      rcases compressSeg_from progress part small with ⟨middle, compressed, betweenMiddle⟩
      rw [delta] at betweenMiddle
      rcases ih betweenMiddle rest with ⟨last, others, final⟩
      refine ⟨last, ?_, final⟩
      unfold compressSegs compressSeg
      simp only [if_true, begins, Option.bind_eq_bind, Option.bind_some] at compressed ⊢
      rw [compressed]
      exact others

omit [Inhabited Pixel] in
/-- An image that is too small for matches. -/
theorem copySmall_flushed {output : Output UInt8} {position : Nat}
    (flushed : Flushed agree.medium (decompressRound template out) image buf before output position)
    (chain : Chain image position segs) :
    Exists fun next => Exists fun left => Exists fun further => copySmall ops segs output = some (next, left) ∧
      Flushed agree.medium (decompressRound template out) image buf before next further ∧
      Chain image further left ∧ (forall seg segs, left = seg :: segs -> 4 ≤ seg.lines.length) := by
  induction segs generalizing output position with
  | nil => exact ⟨output, [], position, rfl, flushed, chain, by intro seg segs same; cases same⟩
  | cons seg segs ih =>
      unfold copySmall
      by_cases few : seg.lines.length < 4
      · rw [if_pos few]
        rcases chain with ⟨delta, part, rest⟩
        by_cases none : seg.lines = []
        · rw [none, List.length_nil, Nat.add_zero] at rest
          rcases ih flushed rest with ⟨next, left, further, copied, final⟩
          refine ⟨next, left, further, ?_, final⟩
          simp only [if_pos none, Option.bind_eq_bind, Option.bind_some]
          exact copied
        · rcases part with ⟨after, here⟩
          rw [delta] at here
          rcases flushed.run (readsRuns agree) here none (by unfold maxCopy; omega) with
            ⟨middle, written, count, emitted, flushedNext⟩
          rcases ih flushedNext rest with ⟨next, left, further, copied, final⟩
          refine ⟨next, left, further, ?_, final⟩
          simp only [if_neg none, Option.bind_eq_bind, Option.bind_some, count, emitted]
          exact copied
      · rw [if_neg few]
        refine ⟨output, seg :: segs, position, rfl, flushed, chain, ?_⟩
        intro other others same
        cases same
        omega

/-- What is written of any image. -/
theorem compress_flushed {output : Output UInt8} (chain : Chain image 0 segs)
    (small : image.length < 2 ^ 32) (size : buf.length = image.length) (ample : output.Ample) :
    Exists fun next => compress template ops segs output = some next ∧
      Flushed agree.medium (decompressRound template out) image buf output.written next image.length := by
  have start : Flushed agree.medium (decompressRound template out) image buf output.written output 0 :=
    Flushed.start size ample
  rcases copySmall_flushed start chain with ⟨next, left, further, copied, flushed, rest, big⟩
  unfold compress
  rw [copied]
  cases left with
  | nil =>
      have whole : further = image.length := rest
      exact ⟨next, rfl, whole ▸ flushed⟩
  | cons seg segs =>
      have four := big seg segs rfl
      rcases rest with ⟨delta, part, rest⟩
      have place : forall offset, seg.pixelId offset = further + offset := by
        intro offset
        rw [LzImageSegment.pixelId, delta, Nat.add_comm]
      have pixel : forall offset, offset < 4 -> image[further + offset]? = some (seg.pixel offset) := by
        intro offset below
        rw [← place]
        exact part.pixel (by omega)
      rcases flushed.begin ops.encodePixel with ⟨began, begins, pending⟩
      rcases pending.literal (readsRuns agree) (pixel 0 (by decide)) with ⟨first, one, copiedFirst, pendingFirst⟩
      rcases copyPixel_eq_some (by decide) copiedFirst with ⟨emittedFirst, rfl⟩
      rcases pendingFirst.literal (readsRuns agree) (pixel 1 (by decide)) with ⟨second, two, copiedSecond, pendingTwo⟩
      rcases copyPixel_eq_some (by decide) copiedSecond with ⟨emittedSecond, rfl⟩
      have points : forall slot : Nat, (⟨seg, 0⟩ : HashEntry Pixel).Points image (seg.pixelId 2) :=
        fun _ => ⟨part, four, by simp only [LzImageSegment.pixelId]; omega⟩
      have progress : Progress template agree image buf output.written seg
          { out := second, htab := fun _ => ⟨seg, 0⟩, ip := 2, copy := 2 } := by
        refine ⟨?_, points, by simp only; omega⟩
        rw [place]
        exact pendingTwo
      rcases compressSeg_from progress part small with ⟨middle, compressed, between⟩
      rw [delta] at between
      rcases compressSegs_between between rest small with ⟨last, others, final⟩
      refine ⟨last.out, ?_, final.flushed⟩
      have first : compressSeg template ops seg 2 2 ⟨second, fun _ => ⟨seg, 0⟩⟩ = some middle := compressed
      simp only [Option.bind_eq_bind, Option.bind_some, begins, emittedFirst, emittedSecond, first, others]

/-- The pixels show the image and keep what they must of the buffer. -/
structure Painted (ops : PixelOps Pixel) (keeps : Pixel -> Pixel -> Prop) (image buf pixels : List Pixel) : Prop where
  size : pixels.length = image.length
  same : forall (place : Nat) value original, pixels[place]? = some value -> image[place]? = some original ->
    ops.samePixel value original = true
  kept : forall (place : Nat) value old, pixels[place]? = some value -> buf[place]? = some old -> keeps old value

/-- What was written is read back. -/
theorem compress_decompress (agree : Agree ops out keeps)
    {output : Output UInt8} (chain : Chain image 0 segs) (some : image ≠ []) (small : image.length < 2 ^ 32)
    (size : buf.length = image.length) (ample : output.Ample) :
    Exists fun next => Exists fun bytes => Exists fun pixels =>
      compress template ops segs output = Option.some next ∧ next.Ample ∧
      next.written = output.written ++ bytes ∧ Reads (decompress template out buf) bytes pixels ∧
      Painted ops keeps image buf pixels := by
  have written : Exists fun next => compress template ops segs output = Option.some next ∧
      Flushed agree.medium (decompressRound template out) image buf output.written next image.length :=
    compress_flushed chain small size ample
  rcases written with ⟨next, compressed, flushed⟩
  rcases flushed.decodes some size with ⟨bytes, fill, written, ampleNext, reads, filled, whole⟩
  refine ⟨next, bytes, fill.done, compressed, ampleNext, written, ?_, ⟨whole, filled.shown, filled.kept⟩⟩
  rw [← List.append_nil bytes]
  exact reads.bind (Reads.pure fill.done)

end Passes

end Lz
end Spice
